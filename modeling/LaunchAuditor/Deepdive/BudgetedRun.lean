import LaunchAuditor.Db.Budget
import LaunchAuditor.Metabolism.LogWriter
import LaunchAuditor.Metabolism.SpendLedger
import LaunchAuditor.Deepdive.Agent

/-! `defaultLoadBudget` and `runDeepdive` of `apps/worker/src/deepdive/run.ts`. Every call outside the
modelled code answers through `RunIo`; the ledger is the one table that is written. -/

namespace LaunchAuditor.Deepdive
open Db Metabolism

/-- `WorkerEnv`, the part the budget reads. -/
structure WorkerEnv where
  deepdiveCapPerRunUsd : ℚ
  deepdiveDailyCapUsd : ℚ
  metabolismReserveUsd : ℚ
  metabolismStatusPollSec : Nat
  /-- `ORBIO_CREDIT_ADDRESS` and a wallet key are both set -/
  creditConfigured : Bool

structure Tables where
  metabolismSpend : SpendTable
  metabolismEpoch : List MetabolismEpoch
  lifecycleLog : List LifecyclePersistRecord

def startOfUtcDay (now : Int) : Int := now - now % 86400000

structure DailyCap where
  dailyCapUsd : ℚ
  trailingCreditsUsd : Option ℚ
  bindingConstraint : BindingConstraint

/-- `trailing` is what the chain scan answers; any failure falls back to the flat cap. -/
def dynamicDailyCapUsd (env : WorkerEnv) (spendableUsd : ℚ) (trailing : Except String ℚ) : DailyCap :=
  if !env.creditConfigured then ⟨env.deepdiveDailyCapUsd, none, .dailyCap⟩
  else
    match trailing with
    | .ok trailing =>
      let b := dailyDeepdiveBudget
        { dailyCapUsd := env.deepdiveDailyCapUsd, trailingCreditsUsd := trailing
          keyRemainingUsd := spendableUsd + env.metabolismReserveUsd, reserveUsd := env.metabolismReserveUsd }
      ⟨b.budgetUsd, some trailing, b.bindingConstraint⟩
    | .error _ => ⟨env.deepdiveDailyCapUsd, none, .dailyCap⟩

/-- `findFirst({ where: { balanceUsd: { not: null } }, orderBy: { createdAt: 'desc' } })` -/
def snapshot (tie : Nat) (log : List LifecyclePersistRecord) : Option LifecyclePersistRecord :=
  Newest.newest LifecyclePersistRecord.createdAt tie (log.filter fun r => r.balanceUsd.isSome)

structure LoadedBudget where
  todaySpendUsd : ℚ
  providerSpendTodayUsd : ℚ
  spendableUsd : ℚ
  billingStatus : Option GateStatus
  dailyCapUsd : ℚ
  trailingCreditsUsd : Option ℚ
  bindingConstraint : BindingConstraint

/-- Three missed polls is the threshold. -/
def staleAfterMs (env : WorkerEnv) : Int := env.metabolismStatusPollSec * 1000 * 3

def isStale (env : WorkerEnv) (snap : Option LifecyclePersistRecord) (now : Int) : Bool :=
  now - (snap.map LifecyclePersistRecord.createdAt).getD 0 > staleAfterMs env

def defaultLoadBudget (env : WorkerEnv) (tables : Tables) (tie : Nat) (trailing : Except String ℚ)
    (now : Int) : LoadedBudget :=
  let dayStart := startOfUtcDay now
  let snap := snapshot tie tables.lifecycleLog
  let spendableUsd := match snap.bind fun r => r.balanceUsd with
    | some balanceUsd => balanceUsd - env.metabolismReserveUsd
    | none => env.deepdiveDailyCapUsd
  let dyn := dynamicDailyCapUsd env spendableUsd trailing
  { todaySpendUsd := totalSpendUsd (some dayStart) none tables.metabolismSpend
    providerSpendTodayUsd :=
      ((tables.metabolismEpoch.filter fun e => dayStart ≤ e.atMs).map MetabolismEpoch.providerDeltaUsd).sum
    spendableUsd
    billingStatus := if isStale env snap now then some .stale else (snap.bind fun r => r.billingStatus).map .billing
    dailyCapUsd := dyn.dailyCapUsd, trailingCreditsUsd := dyn.trailingCreditsUsd
    bindingConstraint := dyn.bindingConstraint }

/-- The inputs `runDeepdive` hands to its gate. -/
def gateInputs (env : WorkerEnv) (budget : LoadedBudget) : DeepdiveRunGateInputs :=
  { capPerRunUsd := env.deepdiveCapPerRunUsd, dailyCapUsd := budget.dailyCapUsd
    todaySpendUsd := budget.todaySpendUsd, providerSpendTodayUsd := some budget.providerSpendTodayUsd
    spendableUsd := budget.spendableUsd, billingStatus := budget.billingStatus }

def runGate (env : WorkerEnv) (tables : Tables) (tie : Nat) (trailing : Except String ℚ) (now : Int) :
    DeepdiveRunGate :=
  deepdiveRunGate (gateInputs env (defaultLoadBudget env tables tie trailing now))

end LaunchAuditor.Deepdive

namespace LaunchAuditor.Deepdive
open Db Metabolism

/-- `assertScoredModelSlug` in openrouter.ts. -/
def assertScoredModelSlug (slug : String) : Except String Unit :=
  if slug = "" then .error "OPENROUTER_MODEL_DEEPDIVE is not set — a scored run needs a pinned exact slug"
  else if ["~latest", ":latest", "openrouter/auto"].any (Js.containsText slug) ||
      Js.containsWord "auto".toList none slug.toLower.toList then
    .error (s!"OPENROUTER_MODEL_DEEPDIVE=\"{slug}\" — a scored forecaster may not use ~latest / openrouter/auto " ++
      "(the model must be identifiable per report)")
  else .ok ()

/-- The signed draft, as far as `runDeepdive` reads it. -/
structure Draft where
  reportHash : Hex
  validatorPassed : Bool
  validatorFailures : List String

/-- What the calls of one run answer, in their order. -/
structure RunIo where
  launch : Except String (Option String)
  existing : Except String Bool
  budget : Except String LoadedBudget
  /-- `buildTargetPacket` -/
  packet : Except String Unit
  /-- `buildContext` and `createDeepdiveClient` -/
  client : Except String Unit
  run : AgentRun
  /-- `assembleDeepdiveReportSigned` -/
  assemble : Except String Draft
  persist : Except String Unit
  reportId : Except String (Option String)
  lookupCost : String → Except String ℚ
  keyHashPrefix : Option String
  spendId : String
  spendAt : Int

structure RunConfig where
  env : WorkerEnv
  openrouterModelDeepdive : String
  deepdiveMaxSteps : Nat
  parse : String → Except String DeepDiveOutput

structure RunDeepdiveInput where
  launchId : String
  trigger : String
  force : Bool

structure RunDeepdiveResult where
  ran : Bool
  reason : String
  reportHash : Option Hex
  validatorPassed : Option Bool
  validatorFailures : List String
  probabilities : Option DeepDiveOutput
  costUsd : Option ℚ
  stoppedBy : Option StoppedBy

def notRun (reason : String) : RunDeepdiveResult := ⟨false, reason, none, none, [], none, none, none⟩

def gateOf (cfg : RunConfig) (budget : LoadedBudget) : DeepdiveRunGate := deepdiveRunGate (gateInputs cfg.env budget)

/-- Everything before the model is called: the gate that let the run through, or
the answer without a run. -/
def beforeModel (cfg : RunConfig) (input : RunDeepdiveInput) (io : RunIo) :
    Except (Except String RunDeepdiveResult) DeepdiveRunGate :=
  match assertScoredModelSlug cfg.openrouterModelDeepdive with
  | .error msg => .error (.ok (notRun msg))
  | .ok () =>
    match io.launch with
    | .error msg => .error (.error msg)
    | .ok none => .error (.ok (notRun s!"launch {input.launchId} not found"))
    | .ok (some _) =>
      match if input.force then .ok false else io.existing with
      | .error msg => .error (.error msg)
      | .ok true => .error (.ok (notRun "already scored by llm_deepdive_v0"))
      | .ok false =>
        match io.budget with
        | .error msg => .error (.error msg)
        | .ok budget =>
          let gate := gateOf cfg budget
          if !gate.allowed then
            let credit := match budget.trailingCreditsUsd with
              | some t => s!" (24h credit accrual ${Js.toFixed 2 t}, bound by {budget.bindingConstraint.text})"
              | none => ""
            .error (.ok (notRun s!"budget: {gate.reason}{credit}"))
          else
            match io.packet, io.client with
            | .error msg, _ | .ok (), .error msg => .error (.error msg)
            | .ok (), .ok () => .ok gate

/-- From the model's result to the ledger. -/
def afterModel (io : RunIo) (ledger : SpendTable) (result : DeepDiveResult) :
    SpendTable × Except String RunDeepdiveResult :=
  if result.stoppedBy = .error then
    let why := String.intercalate "; " result.warnings
    (ledger, .ok (notRun ("model run failed: " ++ if why = "" then "unknown error" else why)))
  else
    match io.assemble with
    | .error msg => (ledger, .error msg)
    | .ok draft =>
      match io.persist, io.reportId with
      | .error msg, _ | .ok (), .error msg => (ledger, .error msg)
      | .ok (), .ok reportId =>
        match recordDeepdiveSpend io.lookupCost result.toUsage io.keyHashPrefix reportId io.spendId io.spendAt ledger with
        | (ledger, .error msg) => (ledger, .error msg)
        | (ledger, .ok spend) =>
          let failures := String.intercalate "; " draft.validatorFailures
          (ledger, .ok
            { ran := true
              reason := if draft.validatorPassed then "ok" else "stored, validator failed: " ++ failures
              reportHash := some draft.reportHash, validatorPassed := some draft.validatorPassed
              validatorFailures := draft.validatorFailures, probabilities := some result.output
              costUsd := some spend.totalCostUsd, stoppedBy := some result.stoppedBy })

def runDeepdive (cfg : RunConfig) (input : RunDeepdiveInput) (io : RunIo) (ledger : SpendTable) :
    SpendTable × Except String RunDeepdiveResult :=
  match beforeModel cfg input io with
  | .error answer => (ledger, answer)
  | .ok gate =>
    let maxCostUsd := min gate.maxRunCostUsd cfg.env.deepdiveCapPerRunUsd
    match runDeepdiveAgent cfg.parse cfg.openrouterModelDeepdive cfg.deepdiveMaxSteps maxCostUsd io.run with
    | .error msg => (ledger, .error msg)
    | .ok result => afterModel io ledger result

end LaunchAuditor.Deepdive
