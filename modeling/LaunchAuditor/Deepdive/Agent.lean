import LaunchAuditor.Deepdive.Cost

/-! `apps/worker/src/deepdive/agent.ts`: the model loop. What the model client answers is
an `AgentRun`; `parse` stands for `JSON.parse` and the zod schema. -/

namespace LaunchAuditor.Deepdive

structure OutputEvidence where
  claim : String
  txOrUrl : Option String
  deriving DecidableEq

structure DeepDiveOutput where
  pInsiderExit24h : ℚ
  pDrawdown807d : ℚ
  pSellImpaired24h : ℚ
  evidence : List OutputEvidence
  confidence : ℚ
  deriving DecidableEq

def CLAIM_MAX : Nat := 600
def REF_MAX : Nat := 400
def EVIDENCE_MAX : Nat := 40

def clamp01 (n : ℚ) : ℚ := min 1 (max 0 n)

/-- The note `fix` leaves about a number it moved. -/
def clampWarning (label : String) (n : ℚ) : List String :=
  if clamp01 n ≠ n then [s!"{label} {Js.numberText n} clamped to {Js.numberText (clamp01 n)}"] else []

def clampEvidence (e : OutputEvidence) : OutputEvidence :=
  ⟨String.ofList (e.claim.toList.take CLAIM_MAX), e.txOrUrl.map fun t => String.ofList (t.toList.take REF_MAX)⟩

def clampDeepDiveOutput (raw : DeepDiveOutput) : DeepDiveOutput × List String :=
  let truncated := if raw.evidence.length > EVIDENCE_MAX then
    [s!"evidence truncated {raw.evidence.length} → {EVIDENCE_MAX}"] else []
  ({ pInsiderExit24h := clamp01 raw.pInsiderExit24h, pDrawdown807d := clamp01 raw.pDrawdown807d
     pSellImpaired24h := clamp01 raw.pSellImpaired24h
     evidence := (raw.evidence.map clampEvidence).take EVIDENCE_MAX, confidence := clamp01 raw.confidence },
    truncated ++ clampWarning "p_insider_exit_24h" raw.pInsiderExit24h ++
      clampWarning "p_drawdown_80_7d" raw.pDrawdown807d ++
      clampWarning "p_sell_impaired_24h" raw.pSellImpaired24h ++ clampWarning "confidence" raw.confidence)

def EMPTY_OUTPUT : DeepDiveOutput := ⟨0, 0, 0, [⟨"model run did not complete", none⟩], 0⟩

def COST_KEYS : List String := ["costUsd", "totalCost", "total_cost", "cost"]
def PROMPT_KEYS : List String := ["promptTokens", "prompt_tokens", "inputTokens", "input_tokens"]
def COMPLETION_KEYS : List String := ["completionTokens", "completion_tokens", "outputTokens", "output_tokens"]

/-- A usage object: its finite numbers, by key. -/
abbrev UsageObject := String → Option ℚ

def pickNum (usage : UsageObject) (keys : List String) : Option ℚ := keys.findSome? usage

inductive StoppedBy
  | complete
  | maxSteps
  | maxCost
  | error
  deriving DecidableEq, Repr

/-- What `callModel` and its result answer. `turns` are the answered turns, each
with its generation id if it has one. -/
structure AgentRun where
  turns : List (Option String)
  invoked : Except String Unit
  text : Except String String
  usage : Except String UsageObject

/-- `run.getUsage().catch(() => ({}))` -/
def AgentRun.usageObject (run : AgentRun) : UsageObject :=
  match run.usage with
  | .ok usage => usage
  | .error _ => fun _ => none

structure DeepDiveResult extends Usage where
  output : DeepDiveOutput
  warnings : List String
  steps : Nat
  stoppedBy : StoppedBy

/-- `onTurnEnd` keeps the ids that are not empty. -/
def turnIds (turns : List (Option String)) : List String := (turns.filterMap id).filter (· ≠ "")

def runDeepdiveAgent (parse : String → Except String DeepDiveOutput) (model : String) (maxSteps : Nat)
    (maxCostUsd : ℚ) (run : AgentRun) : Except String DeepDiveResult :=
  match run.invoked with
  | .error msg => .error msg
  | .ok () =>
    let generationIds := turnIds run.turns
    let steps := run.turns.length
    match run.text with
    | .error msg =>
      .ok { generationIds, modelSlug := model, usageCostUsd := none, promptTokens := none, completionTokens := none
            output := EMPTY_OUTPUT, warnings := ["model run failed: " ++ msg], steps, stoppedBy := .error }
    | .ok text =>
      let usage := run.usageObject
      let usageCostUsd := pickNum usage COST_KEYS
      match parse text with
      | .error msg =>
        .error s!"deep-dive output failed validation ({msg}); raw: {String.ofList (text.toList.take 400)}"
      | .ok parsed =>
        let (output, warnings) := clampDeepDiveOutput parsed
        .ok { generationIds, modelSlug := model, usageCostUsd, promptTokens := pickNum usage PROMPT_KEYS
              completionTokens := pickNum usage COMPLETION_KEYS, output, warnings, steps
              stoppedBy :=
                if usageCostUsd.any (fun c => c ≥ maxCostUsd) then .maxCost
                else if steps ≥ maxSteps then .maxSteps
                else .complete }

end LaunchAuditor.Deepdive
