import LaunchAuditor.Metabolism.Reconcile
import LaunchAuditor.Metabolism.StateMachine

/-! Rows of `packages/db/prisma/schema.prisma`, with times in milliseconds, and
`packages/db/src/deepdive-budget.ts`. -/

namespace LaunchAuditor.Db
open Metabolism

structure MetabolismSpend where
  id : String
  /-- `at` -/
  atMs : Int
  costUsd : ℚ
  model : String
  keyHashPrefix : Option String
  reportId : Option String
  generationId : Option String
  promptTokens : Option ℚ
  completionTokens : Option ℚ
  estimatedCostUsd : Option ℚ
  pricingVersion : Option String
  costBasis : CostBasis
  reconciledCostUsd : Option ℚ
  epochId : Option String
  deriving DecidableEq

structure MetabolismEpoch where
  id : String
  /-- `at` -/
  atMs : Int
  keyHashPrefix : Option String
  providerSpendUsd : ℚ
  providerDeltaUsd : ℚ
  localEstimateUsd : ℚ
  requestCount : Nat
  reconciliationFactor : Option ℚ
  discrepancyPct : Option ℚ
  anomaly : Bool
  phantom : Bool
  billingStatus : BillingStatus
  deriving DecidableEq

structure LifecycleLog where
  isSnapshot : Bool
  prevState : Option LifecycleState
  newState : LifecycleState
  reason : String
  keyId : Option String
  keyHashPrefix : Option String
  balanceUsd : Option ℚ
  keyRemainingUsd : Option ℚ
  reserveUsd : Option ℚ
  ledgerSpendUsd : Option ℚ
  providerSpendUsd : Option ℚ
  idsMismatch : Bool
  billingStatus : Option BillingStatus
  prevHash : Option String
  bodyHash : Option String
  signature : Option String
  createdAt : Int
  deriving DecidableEq

end LaunchAuditor.Db

namespace LaunchAuditor.Db
open Metabolism

def round2 (x : ℚ) : ℚ := Js.roundTo 100 x

inductive BindingConstraint
  | dailyCap
  | creditShare
  | keyReserve
  | zero
  deriving DecidableEq, Repr

def BindingConstraint.text : BindingConstraint → String
  | .dailyCap => "daily_cap"
  | .creditShare => "credit_share"
  | .keyReserve => "key_reserve"
  | .zero => "zero"

structure BudgetInputs where
  dailyCapUsd : ℚ
  trailingCreditsUsd : ℚ
  keyRemainingUsd : ℚ
  reserveUsd : ℚ

structure BudgetBreakdown where
  budgetUsd : ℚ
  bindingConstraint : BindingConstraint
  creditShareUsd : ℚ
  spendableKeyUsd : ℚ

def dailyDeepdiveBudget (i : BudgetInputs) : BudgetBreakdown :=
  let creditShareUsd := max 0 (i.trailingCreditsUsd / 2)
  let spendableKeyUsd := max 0 (i.keyRemainingUsd - i.reserveUsd)
  let dailyCap := (BindingConstraint.dailyCap, max 0 i.dailyCapUsd)
  let others := [(BindingConstraint.creditShare, creditShareUsd), (BindingConstraint.keyReserve, spendableKeyUsd)]
  let binding := others.foldl (fun binding c => if c.2 < binding.2 then c else binding) dailyCap
  let budgetUsd := max 0 binding.2
  { budgetUsd := round2 budgetUsd
    bindingConstraint := if budgetUsd = 0 then .zero else binding.1
    creditShareUsd := round2 creditShareUsd
    spendableKeyUsd := round2 spendableKeyUsd }

/-- The gate's `billingStatus`: what the log says, or `'stale'` in its place. -/
inductive GateStatus
  | stale
  | billing (status : BillingStatus)
  deriving DecidableEq, Repr

structure DeepdiveRunGateInputs where
  capPerRunUsd : ℚ
  dailyCapUsd : ℚ
  todaySpendUsd : ℚ
  providerSpendTodayUsd : Option ℚ
  spendableUsd : ℚ
  billingStatus : Option GateStatus

structure DeepdiveRunGate where
  allowed : Bool
  reason : String
  remainingTodayUsd : ℚ
  maxRunCostUsd : ℚ
  balanceStale : Bool

namespace DeepdiveRunGateInputs

/-- The larger of the local and the provider's figure. -/
def spentTodayUsd (i : DeepdiveRunGateInputs) : ℚ := max i.todaySpendUsd (i.providerSpendTodayUsd.getD 0)

def remainingTodayUsd (i : DeepdiveRunGateInputs) : ℚ := round2 (max 0 (i.dailyCapUsd - i.spentTodayUsd))

def maxRunCostUsd (i : DeepdiveRunGateInputs) : ℚ :=
  round2 (max 0 (min (min i.capPerRunUsd i.remainingTodayUsd) i.spendableUsd))

/-- `phantom` or `anomaly`, the two that stop inference. -/
def blocking (i : DeepdiveRunGateInputs) : Option BillingStatus :=
  match i.billingStatus with
  | some (.billing .phantom) => some .phantom
  | some (.billing .anomaly) => some .anomaly
  | _ => none

end DeepdiveRunGateInputs

def deepdiveRunGate (i : DeepdiveRunGateInputs) : DeepdiveRunGate :=
  let remainingTodayUsd := i.remainingTodayUsd
  let maxRunCostUsd := i.maxRunCostUsd
  let balanceStale : Bool := i.billingStatus = some .stale
  let usd (x : ℚ) := "$" ++ Js.numberText x
  match i.blocking with
  | some status =>
    { allowed := false, remainingTodayUsd, maxRunCostUsd := 0, balanceStale
      reason := s!"billing {status.text} — inference paused until the lifecycle runner clears it" }
  | none =>
    if i.spendableUsd ≤ 0 then
      { allowed := false, remainingTodayUsd, maxRunCostUsd, balanceStale
        reason := s!"balance is at or below the reserve (spendable {usd (round2 i.spendableUsd)})" }
    else if remainingTodayUsd ≤ 0 then
      { allowed := false, remainingTodayUsd, maxRunCostUsd, balanceStale
        reason := s!"daily cap {usd (round2 i.dailyCapUsd)} reached (spent {usd (round2 i.spentTodayUsd)})" }
    else if maxRunCostUsd ≤ 0 then
      { allowed := false, remainingTodayUsd, maxRunCostUsd, balanceStale, reason := "nothing affordable this run" }
    else
      { allowed := true, remainingTodayUsd, maxRunCostUsd, balanceStale
        reason := s!"ok — up to {usd maxRunCostUsd} this run" ++
          if balanceStale then " (balance figure is stale; capped by the daily limit and the local ledger)" else "" }

/-- The gate closes on a blocking status or on one of its money terms. -/
theorem deepdiveRunGate_refuses (i : DeepdiveRunGateInputs) :
    (deepdiveRunGate i).allowed = false ↔
      i.blocking.isSome ∨ i.spendableUsd ≤ 0 ∨ i.remainingTodayUsd ≤ 0 ∨ i.maxRunCostUsd ≤ 0 := by
  unfold deepdiveRunGate
  cases hb : i.blocking with
  | some status => simp
  | none =>
    by_cases hs : i.spendableUsd ≤ 0
    · simp [hs]
    · by_cases hr : i.remainingTodayUsd ≤ 0
      · simp [hs, hr]
      · by_cases hm : i.maxRunCostUsd ≤ 0
        · simp [hs, hr, hm]
        · simp [hs, hr, hm]

end LaunchAuditor.Db
