import LaunchAuditor.Lib.Keyed
import LaunchAuditor.Lib.Rounding
import LaunchAuditor.Metabolism.SpendLedger
import Mathlib.Algebra.Order.BigOperators.Group.List

namespace LaunchAuditor.Proofs.Reconciled
open Db Metabolism

/-- The window's rows that have an estimate. -/
def priced (since : Option Int) (until' : Int) (rows : SpendTable) : SpendTable :=
  rows.filter fun r => inEpoch since until' r && r.estimatedCostUsd.isSome

/-- The costs that `after` has for the priced rows of `rows`. -/
def writtenCosts (since : Option Int) (until' : Int) (rows after : SpendTable) : List ℚ :=
  (after.filter fun r => r.id ∈ (priced since until' rows).map MetabolismSpend.id).map MetabolismSpend.costUsd

variable {since : Option Int} {until' : Int} {epochId : String} {factor : ℚ} {rows : SpendTable}

theorem r6_within : Rounding.Within (1 / 2000000) r6 := by
  intro x
  have hf := Int.floor_le (x * (1000000 : ℕ) + 1 / 2)
  have hl := Int.lt_floor_add_one (x * (1000000 : ℕ) + 1 / 2)
  have he : r6 x - x = ((⌊x * (1000000 : ℕ) + 1 / 2⌋ : ℚ) - x * (1000000 : ℕ)) / (1000000 : ℕ) := by
    rw [r6, Js.roundTo, Js.mathRound, sub_div, mul_div_cancel_right₀ x (by norm_num)]
  rw [he, abs_div, abs_of_pos (by norm_num : (0 : ℚ) < (1000000 : ℕ)), div_le_iff₀ (by norm_num)]
  rw [abs_le]
  push_cast at hf hl ⊢
  constructor
  · linarith
  · linarith

/-- A row of the window with its estimate scaled. -/
def scaled (epochId : String) (factor : ℚ) (estimated : Option ℚ) (r : MetabolismSpend) : MetabolismSpend :=
  match estimated with
  | some e =>
    let reconciled := r6 (e * factor)
    { r with epochId := some epochId, reconciledCostUsd := some reconciled, costUsd := reconciled
             costBasis := .providerReconciledEstimate }
  | none => { r with epochId := some epochId }

theorem scaled_id (estimated : Option ℚ) (r : MetabolismSpend) : (scaled epochId factor estimated r).id = r.id := by
  cases estimated <;> rfl

theorem stampRow_eq (row : String × Option ℚ) (rows : SpendTable) :
    stampRow row.1 row.2 epochId factor rows =
      Keyed.update MetabolismSpend.id (scaled epochId factor) row rows := by
  unfold stampRow Keyed.update
  apply List.map_congr_left
  intro r _
  split
  · cases row.2 <;> rfl
  · rfl

/-- Every row of the window is scaled once, and no other row is touched. -/
theorem applyReconciliation_eq (hid : (rows.map MetabolismSpend.id).Nodup) :
    (applyReconciliation since until' epochId (some factor) rows).1 =
      rows.map fun r => if inEpoch since until' r then scaled epochId factor r.estimatedCostUsd r else r := by
  have hhits : (((rows.filter (inEpoch since until')).map fun r => (r.id, r.estimatedCostUsd)).map Prod.fst).Nodup := by
    rw [List.map_map]
    exact hid.sublist (List.filter_sublist.map _)
  simp only [applyReconciliation, stampRow_eq]
  rw [Keyed.foldl_update (fun b a => scaled_id b a) hhits]
  apply List.map_congr_left
  intro r hr
  rw [Keyed.find?_hits hid hr]
  split <;> rfl

theorem mem_priced_iff (hid : (rows.map MetabolismSpend.id).Nodup) {r : MetabolismSpend} (hr : r ∈ rows) :
    r.id ∈ (priced since until' rows).map MetabolismSpend.id ↔
      inEpoch since until' r = true ∧ r.estimatedCostUsd.isSome = true := by
  constructor
  · intro h
    obtain ⟨x, hx, he⟩ := List.mem_map.mp h
    obtain ⟨hmem, hp⟩ := List.mem_filter.mp hx
    have hxr : x = r := List.inj_on_of_nodup_map hid hmem hr he
    simpa [hxr] using hp
  · intro h
    exact List.mem_map_of_mem (List.mem_filter.mpr ⟨hr, by simp [h]⟩)

/-- The estimates of the window, which `windowEstimate` sums up. -/
def estimates (since : Option Int) (until' : Int) (rows : SpendTable) : List ℚ :=
  (rows.filter (inEpoch since until')).filterMap MetabolismSpend.estimatedCostUsd

theorem writtenCosts_eq (hid : (rows.map MetabolismSpend.id).Nodup) :
    writtenCosts since until' rows (applyReconciliation since until' epochId (some factor) rows).1 =
      (estimates since until' rows).map fun x => r6 (x * factor) := by
  have hmem := fun r hr => @mem_priced_iff since until' rows hid r hr
  rw [writtenCosts, applyReconciliation_eq hid, estimates]
  generalize (priced since until' rows).map MetabolismSpend.id = ids at hmem
  clear hid
  induction rows with
  | nil => rfl
  | cons r rows ih =>
    have hrest := ih fun x hx => hmem x (List.mem_cons_of_mem _ hx)
    have hr := hmem r List.mem_cons_self
    rw [List.map_cons, List.filter_cons, List.filter_cons]
    cases hw : inEpoch since until' r with
    | false =>
      have hno : r.id ∉ ids := by simp [hr, hw]
      simpa [hno] using hrest
    | true =>
      cases he : r.estimatedCostUsd with
      | none =>
        have hno : r.id ∉ ids := by simp [hr, he]
        simpa [scaled_id, hno, he] using hrest
      | some x =>
        have hyes : r.id ∈ ids := by simp [hr, hw, he]
        simpa [scaled_id, hyes, he, scaled] using hrest

/-- The rounded figure of an epoch is near the sum of the estimates. -/
theorem estimateUsd_near {i : EpochInput} (h : 0 ≤ i.localEstimateUsd) :
    |i.estimateUsd - i.localEstimateUsd| ≤ 1 / 2000000 := by
  rw [EpochInput.estimateUsd, max_eq_right h]
  exact r6_within _

theorem reconciliation_conserves (i : EpochInput) (since : Option Int) (until' : Int) (epochId : String)
    (rows : SpendTable) (factor : ℚ) (hid : (rows.map MetabolismSpend.id).Nodup)
    (hestimates : ∀ x ∈ estimates since until' rows, 0 ≤ x)
    (hsum : i.localEstimateUsd = (estimates since until' rows).sum)
    (hfactor : (reconcileEpoch i).reconciliationFactor = some factor) :
    let written := writtenCosts since until' rows (applyReconciliation since until' epochId (some factor) rows).1
    let d := (reconcileEpoch i).providerDeltaUsd
    let n := (rows.filter (inEpoch since until')).length
    (∀ cost ∈ written, 0 ≤ cost) ∧
      |written.sum - d| ≤
        1 / 2000000 * (n + (estimates since until' rows).sum + d / (reconcileEpoch i).localEstimateUsd) := by
  intro written d n
  obtain ⟨hd, hl, rfl⟩ := reconcileEpoch_factor hfactor
  obtain ⟨-, hle, hde⟩ := reconcileEpoch_figures i
  have hwritten : written = ((estimates since until' rows).map fun x => x * r6 (i.deltaUsd / i.estimateUsd)).map r6 := by
    rw [List.map_map]
    exact writtenCosts_eq hid
  have hratio : 0 ≤ r6 (i.deltaUsd / i.estimateUsd) := Js.roundTo_nonneg 1000000 (div_nonneg hd.le hl.le)
  have hL : 0 ≤ (estimates since until' rows).sum := List.sum_nonneg hestimates
  have hlen : ((estimates since until' rows).length : ℚ) ≤ n := Nat.cast_le.mpr (List.length_filterMap_le _ _)
  constructor
  · intro cost hc
    rw [hwritten, List.map_map] at hc
    obtain ⟨x, hx, rfl⟩ := List.mem_map.mp hc
    exact Js.roundTo_nonneg 1000000 (mul_nonneg (hestimates x hx) hratio)
  · have hshares := Rounding.shares_error r6_within hL hd.le hl (hsum ▸ estimateUsd_near (hsum ▸ hL))
    rw [hwritten, hle, show d = i.deltaUsd from hde]
    refine hshares.trans (mul_le_mul_of_nonneg_left ?_ (by norm_num))
    linarith

section Sample

def spendRow (id : String) (estimatedCostUsd : Option ℚ) : MetabolismSpend :=
  { id, atMs := 5, costUsd := estimatedCostUsd.getD 0, model := "m", keyHashPrefix := none, reportId := none
    generationId := none, promptTokens := none, completionTokens := none, estimatedCostUsd, pricingVersion := none
    costBasis := .tokenEstimate, reconciledCostUsd := none, epochId := none }

/-- Runs of three and of five cents, and one that was not priced. -/
def threeRuns : SpendTable := [spendRow "a" (some (3 / 100)), spendRow "b" none, spendRow "c" (some (5 / 100))]

def chargedWindow : EpochInput :=
  { providerSpendNowUsd := 1 / 10, providerSpendPrevUsd := 0, localEstimateUsd := 8 / 100, requestCount := 3
    anomalyPct := 50, phantomToleranceUsd := 5 / 1000, lagRequestCount := none, minGradeUsd := none }

theorem three_runs_conserve :
    |(writtenCosts none 10 threeRuns (applyReconciliation none 10 "e" (some (5 / 4)) threeRuns).1).sum - 1 / 10| ≤
      1 / 2000000 * (3 + 8 / 100 + 1 / 10 / (8 / 100)) := by
  have hd : (reconcileEpoch chargedWindow).providerDeltaUsd = 1 / 10 := by decide +kernel
  have hl : (reconcileEpoch chargedWindow).localEstimateUsd = 8 / 100 := by decide +kernel
  have hs : (estimates none 10 threeRuns).sum = 8 / 100 := by decide +kernel
  have h := (reconciliation_conserves chargedWindow none 10 "e" threeRuns (5 / 4) (by decide) (by decide +kernel)
    (by decide +kernel) (by decide +kernel)).2
  rw [hd, hl, hs] at h
  exact h

end Sample

end LaunchAuditor.Proofs.Reconciled
