import LaunchAuditor.Db.Budget
import LaunchAuditor.Db.LifecycleChain
import LaunchAuditor.Js
import Mathlib.Data.List.Perm.Basic
import LaunchAuditor.Lib.Newest

/-! `apps/api/src/budget-display.ts`, with the reader and the route of `GET /v1/lifecycle` in
`apps/api/src/server.ts`. -/

namespace LaunchAuditor.Api
open Db Metabolism

structure LifecycleApiRow extends LifecycleChainRow where
  signature : Option String
  keyId : Option String
  billingStatus : Option BillingStatus
  deriving DecidableEq

def lifecycleApiRow (r : LifecycleLog) : LifecycleApiRow :=
  { atIso := Js.toISOString r.createdAt, prevState := r.prevState.map LifecycleState.text
    newState := r.newState.text, reason := r.reason, isSnapshot := r.isSnapshot, keyHashPrefix := r.keyHashPrefix
    balanceUsd := r.balanceUsd, keyRemainingUsd := r.keyRemainingUsd, reserveUsd := r.reserveUsd
    ledgerSpendUsd := r.ledgerSpendUsd, providerSpendUsd := r.providerSpendUsd, idsMismatch := r.idsMismatch
    prevHash := r.prevHash, bodyHash := r.bodyHash, signature := r.signature, keyId := r.keyId
    billingStatus := r.billingStatus }

/-- An answer to `orderBy: { createdAt: 'desc' }`; rows of one instant come in any order. -/
structure NewestFirst (table desc : List LifecycleLog) : Prop where
  perm : desc.Perm table
  sorted : desc.Pairwise fun a b => b.createdAt ≤ a.createdAt

/-- The most recent `limit` rows, oldest first. `desc` is the table, newest first. -/
def prismaLifecycleReader (limit : Nat) (desc : List LifecycleLog) : List LifecycleApiRow :=
  ((desc.take limit).map lifecycleApiRow).reverse

def chainRows (entries : List LifecycleApiRow) : List LifecycleChainRow :=
  entries.map LifecycleApiRow.toLifecycleChainRow

/-- The `check` of the endpoint. -/
def lifecycleCheck (lifecycleBodyHash : LifecycleBody → Hex) (limit : Nat) (desc : List LifecycleLog) :
    LifecycleChainCheck :=
  verifyLifecycleRows lifecycleBodyHash (chainRows (prismaLifecycleReader limit desc))

theorem chainRows_append (entries more : List LifecycleApiRow) :
    chainRows (entries ++ more) = chainRows entries ++ chainRows more :=
  List.map_append

/-- A window of the log is what is left of it without its oldest rows. -/
theorem prismaLifecycleReader_split (limit : Nat) (desc : List LifecycleLog) :
    prismaLifecycleReader desc.length desc =
      ((desc.drop limit).map lifecycleApiRow).reverse ++ prismaLifecycleReader limit desc := by
  rw [prismaLifecycleReader, prismaLifecycleReader, List.take_length, ← List.reverse_append, ← List.map_append,
    List.take_append_drop]

end LaunchAuditor.Api

namespace LaunchAuditor.Api
open Db Metabolism

structure BudgetDisplayInputs where
  dailyCapUsd : ℚ
  capPerRunUsd : ℚ
  todaySpendUsd : ℚ
  providerSpendTodayUsd : ℚ
  /-- `none` when none was ever read -/
  balanceUsd : Option ℚ
  reserveUsd : ℚ
  billingStatus : Option GateStatus
  trailingCreditsUsd : Option ℚ

inductive CapSource
  | creditLinked
  | flatFallback
  deriving DecidableEq, Repr

structure BudgetDisplay where
  dailyCapUsd : ℚ
  effectiveDailyCapUsd : ℚ
  effectiveCapBinding : BindingConstraint
  capSource : CapSource
  creditShareUsd : Option ℚ
  capPerRunUsd : ℚ
  spentTodayUsd : ℚ
  spendWindow : String
  remainingTodayUsd : ℚ
  spendableUsd : ℚ
  maxRunCostUsd : ℚ
  allowed : Bool
  reason : String
  gateClosedByBilling : Bool
  balanceStale : Bool
  balanceUnknown : Bool

namespace BudgetDisplayInputs

/-- Without a balance the daily cap is the spendable figure. -/
def spendableUsd (i : BudgetDisplayInputs) : ℚ :=
  match i.balanceUsd with
  | none => i.dailyCapUsd
  | some balanceUsd => balanceUsd - i.reserveUsd

def eff (i : BudgetDisplayInputs) : Option BudgetBreakdown :=
  i.trailingCreditsUsd.map fun trailing => dailyDeepdiveBudget
    { dailyCapUsd := i.dailyCapUsd, trailingCreditsUsd := trailing
      keyRemainingUsd := i.spendableUsd + i.reserveUsd, reserveUsd := i.reserveUsd }

def effectiveDailyCapUsd (i : BudgetDisplayInputs) : ℚ :=
  match i.eff with
  | some eff => eff.budgetUsd
  | none => i.dailyCapUsd

def gate (i : BudgetDisplayInputs) : DeepdiveRunGate :=
  deepdiveRunGate
    { capPerRunUsd := i.capPerRunUsd, dailyCapUsd := i.effectiveDailyCapUsd, todaySpendUsd := i.todaySpendUsd
      providerSpendTodayUsd := some i.providerSpendTodayUsd, spendableUsd := i.spendableUsd
      billingStatus := i.billingStatus }

end BudgetDisplayInputs

def budgetDisplay (i : BudgetDisplayInputs) : BudgetDisplay :=
  { dailyCapUsd := round2 i.dailyCapUsd
    effectiveDailyCapUsd := round2 i.effectiveDailyCapUsd
    effectiveCapBinding := (i.eff.map BudgetBreakdown.bindingConstraint).getD .dailyCap
    capSource := if i.trailingCreditsUsd.isSome then .creditLinked else .flatFallback
    creditShareUsd := i.eff.map BudgetBreakdown.creditShareUsd
    capPerRunUsd := round2 i.capPerRunUsd
    spentTodayUsd := round2 (max i.todaySpendUsd i.providerSpendTodayUsd)
    spendWindow := "utc_day"
    remainingTodayUsd := i.gate.remainingTodayUsd
    spendableUsd := round2 (max 0 i.spendableUsd)
    maxRunCostUsd := if i.gate.allowed then i.gate.maxRunCostUsd else 0
    allowed := i.gate.allowed
    reason := i.gate.reason
    gateClosedByBilling := i.billingStatus = some (.billing .anomaly) || i.billingStatus = some (.billing .phantom)
    balanceStale := i.gate.balanceStale
    balanceUnknown := i.balanceUsd.isNone }

/-- The part of the API's environment that the panel shows. -/
structure ApiEnv where
  deepdiveDailyCapUsd : ℚ
  deepdiveCapPerRunUsd : ℚ
  metabolismReserveUsd : ℚ

structure TodaySpend where
  ledgerUsd : ℚ
  providerUsd : ℚ

def prismaTodaySpendReader (spend : List MetabolismSpend) (epochs : List MetabolismEpoch) (now : Int) : TodaySpend :=
  let dayStart := now - now % 86400000
  { ledgerUsd := ((spend.filter fun r => dayStart ≤ r.atMs).map MetabolismSpend.costUsd).sum
    providerUsd := ((epochs.filter fun e => dayStart ≤ e.atMs).map MetabolismEpoch.providerDeltaUsd).sum }

/-- `latest` of the estimator: the newest epoch of the trailing day. -/
def estimatorLatest (tie : Nat) (epochs : List MetabolismEpoch) (now : Int) : Option MetabolismEpoch :=
  Newest.newest MetabolismEpoch.atMs tie (epochs.filter fun e => now - 24 * 3600000 ≤ e.atMs)

/-- The newest entry with a balance, and without one the newest entry. -/
def withBalance (entries : List LifecycleApiRow) : Option LifecycleApiRow :=
  entries.reverse.find? fun e => e.balanceUsd.isSome

def panelStatus (entries : List LifecycleApiRow) (estimator : Option MetabolismEpoch) : Option BillingStatus :=
  ((withBalance entries).bind fun e => e.billingStatus) <|> (entries.getLast?.bind fun e => e.billingStatus) <|>
    estimator.map fun e => e.billingStatus

/-- The `budget` of `GET /v1/lifecycle`. -/
def lifecycleBudget (env : ApiEnv) (entries : List LifecycleApiRow) (estimator : Option MetabolismEpoch)
    (trailingCreditsUsd : Option ℚ) (today : TodaySpend) : BudgetDisplay :=
  budgetDisplay
    { dailyCapUsd := env.deepdiveDailyCapUsd, capPerRunUsd := env.deepdiveCapPerRunUsd
      trailingCreditsUsd, todaySpendUsd := today.ledgerUsd, providerSpendTodayUsd := today.providerUsd
      balanceUsd := (withBalance entries).bind fun e => e.balanceUsd, reserveUsd := env.metabolismReserveUsd
      billingStatus := (panelStatus entries estimator).map .billing }

end LaunchAuditor.Api
