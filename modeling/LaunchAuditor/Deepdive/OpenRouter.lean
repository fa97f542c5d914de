import LaunchAuditor.Deepdive.Cost
import LaunchAuditor.Scoring.Mappings

/-! `generationCost` of `apps/worker/src/deepdive/openrouter.ts` -/

namespace LaunchAuditor.Deepdive
open Scoring.Mappings

/-- How the request for a generation ends; `body` is what `res.json()` comes to. -/
inductive Fetched
  | threw (msg : String)
  | answered (status : Nat) (body : Except String Json)

structure GenerationCost where
  id : String
  totalCostUsd : ℚ
  model : Option String
  tokensPrompt : Option ℚ
  tokensCompletion : Option ℚ
  raw : Json

/-- `typeof v === 'number' && Number.isFinite(v) ? v : null` -/
def finiteNumber : Option Json → Option ℚ
  | some (.num n) => Js.numeral n
  | _ => none

/-- `('data' in body && body.data) || body`, none where `in` throws. -/
def envelope (body : Json) : Option Json :=
  match body with
  | .obj _ => some (((prop "data" body).filter truthy).getD body)
  | .arr _ => some body
  | _ => none

/-- `res.ok` -/
def statusOk (status : Nat) : Bool := 200 ≤ status && status ≤ 299

/-- `noObject` is the message of the error that `in` throws. -/
def generationCost (noObject : Json → String) (id : String) : Fetched → Except String GenerationCost
  | .threw msg => .error msg
  | .answered status body =>
    if statusOk status = false then .error s!"generation lookup {id}: HTTP {status}"
    else
      match body with
      | .error msg => .error msg
      | .ok body =>
        match envelope body with
        | none => .error (noObject body)
        | some d =>
          .ok {
            id
            totalCostUsd := (finiteNumber (prop "total_cost" d) <|> finiteNumber (prop "usage" d)).getD 0
            model := match prop "model" d with
              | some (.str s) => some s
              | _ => none
            tokensPrompt := finiteNumber (prop "tokens_prompt" d) <|> finiteNumber (prop "native_tokens_prompt" d)
            tokensCompletion :=
              finiteNumber (prop "tokens_completion" d) <|> finiteNumber (prop "native_tokens_completion" d)
            raw := body }

/-- The `lookup` of `recordDeepdiveSpend` when the caller gives none. -/
def lookupGeneration (noObject : Json → String) (fetched : String → Fetched) (id : String) : Except String ℚ :=
  (generationCost noObject id (fetched id)).map GenerationCost.totalCostUsd

end LaunchAuditor.Deepdive
