import LaunchAuditor.Js

/-! `apps/worker/src/metabolism/reconcile.ts` and `ids-reconcile.ts`: the provider's
spend graded against the local estimates. -/

namespace LaunchAuditor.Metabolism

inductive CostBasis
  | tokenEstimate
  | providerReconciledEstimate
  | providerReported
  | providerGeneration
  | unavailable
  deriving DecidableEq, Repr

inductive BillingStatus
  | exact
  | aggregateOnly
  | unavailable
  | anomaly
  | phantom
  deriving DecidableEq, Repr

def BillingStatus.text : BillingStatus → String
  | .exact => "exact"
  | .aggregateOnly => "aggregate_only"
  | .unavailable => "unavailable"
  | .anomaly => "anomaly"
  | .phantom => "phantom"

/-- `phantom` and `anomaly` both stop new runs; only `phantom` should revoke the key. -/
def billingBlocksInference (status : Option BillingStatus) : Bool :=
  status = some .anomaly || status = some .phantom

def r6 (n : ℚ) : ℚ := Js.roundTo 1000000 n

def usd (n : ℚ) : String := "$" ++ Js.toFixed 4 n

structure EpochInput where
  providerSpendNowUsd : ℚ
  providerSpendPrevUsd : ℚ
  localEstimateUsd : ℚ
  requestCount : Nat
  anomalyPct : ℚ
  phantomToleranceUsd : ℚ
  /-- runs recorded in the window BEFORE this one -/
  lagRequestCount : Option Nat
  minGradeUsd : Option ℚ

structure EpochResult where
  providerDeltaUsd : ℚ
  localEstimateUsd : ℚ
  requestCount : Nat
  reconciliationFactor : Option ℚ
  discrepancyPct : Option ℚ
  phantom : Bool
  anomaly : Bool
  billingStatus : BillingStatus
  reason : String
  deriving DecidableEq

def EpochInput.deltaUsd (i : EpochInput) : ℚ := r6 (max 0 (i.providerSpendNowUsd - i.providerSpendPrevUsd))

def EpochInput.estimateUsd (i : EpochInput) : ℚ := r6 (max 0 i.localEstimateUsd)

def EpochInput.discrepancy (i : EpochInput) : ℚ := r6 ((i.deltaUsd - i.estimateUsd) / i.estimateUsd * 100)

/-- The test of the first branch: money left the account and neither this window
nor the one before it has a request. -/
def EpochInput.isPhantom (i : EpochInput) : Bool :=
  i.requestCount = 0 && i.lagRequestCount.getD 0 = 0 && i.deltaUsd > i.phantomToleranceUsd

def reconcileEpoch (i : EpochInput) : EpochResult :=
  let providerDeltaUsd := i.deltaUsd
  let localEstimateUsd := i.estimateUsd
  let base (billingStatus : BillingStatus) (reason : String) : EpochResult :=
    { providerDeltaUsd, localEstimateUsd, requestCount := i.requestCount, reconciliationFactor := none
      discrepancyPct := none, phantom := false, anomaly := false, billingStatus, reason }
  if i.isPhantom then
    { base .phantom s!"phantom spend: provider charged {usd providerDeltaUsd} this window with 0 local requests"
        with phantom := true }
  else if i.requestCount = 0 then
    base .aggregateOnly "idle window — no requests, no provider spend"
  else if localEstimateUsd ≤ 0 then
    base .unavailable (s!"{i.requestCount} request(s) with no local estimate — " ++
      s!"provider charged {usd providerDeltaUsd}; attribution unavailable")
  else
    let minGradeUsd := i.minGradeUsd.getD (2 / 100)
    if localEstimateUsd < minGradeUsd ∧ providerDeltaUsd < minGradeUsd then
      base .aggregateOnly (s!"too small to grade: provider {usd providerDeltaUsd} vs estimate " ++
        s!"{usd localEstimateUsd} over {i.requestCount} request(s) (both < {usd minGradeUsd})")
    else
      let factor := if providerDeltaUsd > 0 then some (r6 (providerDeltaUsd / localEstimateUsd)) else none
      let discrepancyPct := i.discrepancy
      let anomaly : Bool := |discrepancyPct| > i.anomalyPct
      let pct := (if discrepancyPct > 0 then "+" else "") ++ Js.toFixed 1 discrepancyPct
      let figures := s!"over {i.requestCount} request(s) — {pct}%"
      { base (if anomaly then .anomaly else .aggregateOnly)
          (if anomaly then
            s!"estimator anomaly: provider {usd providerDeltaUsd} vs local estimate {usd localEstimateUsd} {figures} (limit ±{Js.numberText i.anomalyPct}%)"
          else
            s!"reconciled: provider {usd providerDeltaUsd} vs estimate {usd localEstimateUsd} {figures}" ++
              (factor.map fun f => ", factor " ++ Js.toFixed 4 f).getD "")
        with reconciliationFactor := factor, discrepancyPct := some discrepancyPct, anomaly }

theorem reconcileEpoch_phantom (i : EpochInput) : (reconcileEpoch i).phantom = i.isPhantom := by
  unfold reconcileEpoch
  cases hp : i.isPhantom with
  | true => rfl
  | false =>
    simp only [Bool.false_eq_true, if_false]
    split
    · rfl
    · split
      · rfl
      · split <;> rfl

/-- The verdict carries the figures it was given, rounded. -/
theorem reconcileEpoch_figures (i : EpochInput) :
    (reconcileEpoch i).requestCount = i.requestCount ∧ (reconcileEpoch i).localEstimateUsd = i.estimateUsd ∧
      (reconcileEpoch i).providerDeltaUsd = i.deltaUsd := by
  unfold reconcileEpoch
  dsimp only
  split
  · exact ⟨rfl, rfl, rfl⟩
  · split
    · exact ⟨rfl, rfl, rfl⟩
    · split
      · exact ⟨rfl, rfl, rfl⟩
      · split <;> exact ⟨rfl, rfl, rfl⟩

/-- A factor is the rounded ratio of two positive figures. -/
theorem reconcileEpoch_factor {i : EpochInput} {factor : ℚ}
    (h : (reconcileEpoch i).reconciliationFactor = some factor) :
    0 < i.deltaUsd ∧ 0 < i.estimateUsd ∧ factor = r6 (i.deltaUsd / i.estimateUsd) := by
  unfold reconcileEpoch at h
  dsimp only at h
  split at h
  · cases h
  · split at h
    · cases h
    · split at h
      · cases h
      · rename_i hpos
        split at h
        · cases h
        · dsimp only at h
          split at h
          · rename_i hdelta
            exact ⟨hdelta, not_le.mp hpos, (Option.some.inj h).symm⟩
          · cases h

structure SpendBaseline where
  keyPrefix : String
  providerSpentUsd : ℚ
  ledgerUsd : ℚ
  /-- `at`, in milliseconds -/
  atMs : Int
  deriving DecidableEq

inductive IdsDirection
  | ok
  | providerAhead
  | ledgerAhead
  | noBaseline
  deriving DecidableEq, Repr

structure IdsReconcile where
  mismatch : Bool
  direction : IdsDirection
  providerDeltaUsd : ℚ
  ledgerDeltaUsd : ℚ
  excessUsd : ℚ
  reason : String

/-- Only the provider outpacing the local ledger beyond the grace band is a mismatch. -/
def reconcileIds (keyPrefix : Option String) (providerSpentUsd ledgerSpendUsd : ℚ)
    (baseline : Option SpendBaseline) (toleranceUsd graceUsd : ℚ) : IdsReconcile :=
  let none' : IdsReconcile :=
    ⟨false, .noBaseline, 0, 0, 0, "no spend baseline for the current key — establishing"⟩
  match keyPrefix, baseline with
  | some keyPrefix, some baseline =>
    if keyPrefix = "" ∨ baseline.keyPrefix ≠ keyPrefix then none'
    else
      let providerDeltaUsd := r6 (providerSpentUsd - baseline.providerSpentUsd)
      let ledgerDeltaUsd := r6 (ledgerSpendUsd - baseline.ledgerUsd)
      let excessUsd := r6 (providerDeltaUsd - ledgerDeltaUsd)
      let band := max toleranceUsd graceUsd
      if excessUsd > band then
        ⟨true, .providerAhead, providerDeltaUsd, ledgerDeltaUsd, excessUsd,
          s!"ids: gateway spent {usd providerDeltaUsd} since key {keyPrefix} was minted but the local ledger recorded only {usd ledgerDeltaUsd} (excess {usd excessUsd} > {usd band})"⟩
      else if -excessUsd > band then
        ⟨false, .ledgerAhead, providerDeltaUsd, ledgerDeltaUsd, excessUsd,
          s!"local ledger {usd ledgerDeltaUsd} exceeds gateway spend {usd providerDeltaUsd} by {usd (-excessUsd)} — unsettled or over-recorded, not a compromise"⟩
      else
        ⟨false, .ok, providerDeltaUsd, ledgerDeltaUsd, excessUsd,
          s!"ids ok — gateway {usd providerDeltaUsd} vs ledger {usd ledgerDeltaUsd} (excess {usd excessUsd} ≤ {usd band})"⟩
  | _, _ => none'

end LaunchAuditor.Metabolism
