import LaunchAuditor.Leaderboard.Statistics
import LaunchAuditor.Lib.Placements
import Mathlib.Data.Bool.Count

namespace LaunchAuditor.Proofs.DeLongVariance
open Leaderboard Placements

/-- The variance of the difference, as the test has it before its clamp. -/
def varDiff (scoresA scoresB : List ℚ) (labels : List Bool) : ℚ :=
  let m := countTrue labels
  let n := labels.length - m
  let a := placement scoresA labels
  let b := placement scoresB labels
  let s (x y : Placement) : ℚ := covariance x.v01 y.v01 / m + covariance x.v10 y.v10 / n
  s a a + s b b - 2 * s a b

/-- The two scores of every example of one class. -/
def scoresOf (label : Bool) (scoresA scoresB : List ℚ) (labels : List Bool) : List (ℚ × ℚ) :=
  (((scoresA.zip scoresB).zip labels).filter fun e => e.2 == label).map Prod.fst

variable {scoresA scoresB : List ℚ} {labels : List Bool}

section Split

theorem split_pairs (pairs : List (ℚ × ℚ)) (labels : List Bool) (r : ℚ × ℚ → ℚ) :
    split (pairs.map r) labels = ((((pairs.zip labels).filter fun e => e.2 == true).map Prod.fst).map r,
      (((pairs.zip labels).filter fun e => e.2 == false).map Prod.fst).map r) := by
  unfold split
  rw [List.zip_map_left, List.filter_map, List.filter_map]
  simp only [List.map_map, beq_true, beq_false]
  rfl

theorem split_fst (h : scoresA.length = scoresB.length) :
    split scoresA labels = ((scoresOf true scoresA scoresB labels).map Prod.fst,
      (scoresOf false scoresA scoresB labels).map Prod.fst) := by
  rw [scoresOf, scoresOf, ← split_pairs, List.map_fst_zip h.le]

theorem split_snd (h : scoresA.length = scoresB.length) :
    split scoresB labels = ((scoresOf true scoresA scoresB labels).map Prod.snd,
      (scoresOf false scoresA scoresB labels).map Prod.snd) := by
  rw [scoresOf, scoresOf, ← split_pairs, List.map_snd_zip h.ge]

end Split

section Placements
variable {pos neg : List (ℚ × ℚ)} {r s : ℚ × ℚ → ℚ}

/-- The midranks give the components. -/
theorem placement_components {scores : List ℚ} (h : split scores labels = (pos.map r, neg.map r)) (hpos : pos.length ≠ 0) :
    (placement scores labels).v01 = pos.map (above neg r) ∧ (placement scores labels).v10 = neg.map (underneath pos r) := by
  have hm : (pos.length : ℚ) ≠ 0 := Nat.cast_ne_zero.mpr hpos
  rw [placement_of_split h]
  simp only [List.map_map, List.length_map]
  constructor
  · apply List.map_congr_left
    intro x _
    exact congrArg (· / (neg.length : ℚ)) (rank_above x)
  · apply List.map_congr_left
    intro y _
    simp only [Function.comp_apply]
    rw [rank_underneath, sub_div, div_self hm, sub_sub_cancel]
    rfl

/-- The sample covariance of two rows about a mean each. -/
theorem covariance_map (xs : List (ℚ × ℚ)) (f g : ℚ × ℚ → ℚ) (hsize : 2 ≤ xs.length) {a b : ℚ}
    (ha : (xs.map f).sum / xs.length = a) (hb : (xs.map g).sum / xs.length = b) :
    covariance (xs.map f) (xs.map g) = (xs.map fun x => (f x - a) * (g x - b)).sum / (xs.length - 1) := by
  rw [covariance_eq, List.length_map, if_neg (by omega), if_pos (by omega), List.zip_map', List.map_map, ha, hb]
  rfl

/-- The covariances of the rows that a test makes are those of the components. -/
theorem shareCovariance_eq (pos neg : List (ℚ × ℚ)) (r s : ℚ × ℚ → ℚ) (hpos : 2 ≤ pos.length) (hneg : 2 ≤ neg.length) :
    covariance (pos.map (above neg r)) (pos.map (above neg s)) / pos.length +
        covariance (neg.map (underneath pos r)) (neg.map (underneath pos s)) / neg.length = shareCovariance pos neg r s := by
  rw [covariance_map pos _ _ hpos (mean_above pos neg r) (mean_above pos neg s),
    covariance_map neg _ _ hneg (mean_underneath pos neg r) (mean_underneath pos neg s)]
  rfl

end Placements

/-- The variance by the pairs: of every positive's share of negatives it is above, and of every negative's share of
positives it is below, under one score and the other. -/
def pairwiseVariance (scoresA scoresB : List ℚ) (labels : List Bool) : ℚ :=
  differenceVariance (scoresOf true scoresA scoresB labels) (scoresOf false scoresA scoresB labels) Prod.fst Prod.snd

theorem scoresOf_length (hA : scoresA.length = labels.length) (hB : scoresB.length = labels.length) :
    (scoresOf true scoresA scoresB labels).length = countTrue labels ∧
      (scoresOf false scoresA scoresB labels).length = labels.length - countTrue labels := by
  have hsplit := @split_fst scoresA scoresB labels (hA.trans hB.symm)
  have hp := split_fst_length hA
  have hn := split_snd_length hA
  rw [hsplit, List.length_map] at hp hn
  exact ⟨hp, hn⟩

theorem varDiff_eq (hA : scoresA.length = labels.length) (hB : scoresB.length = labels.length)
    (hpos : 2 ≤ countTrue labels) (hneg : 2 ≤ labels.length - countTrue labels) :
    varDiff scoresA scoresB labels = pairwiseVariance scoresA scoresB labels := by
  obtain ⟨hp, hn⟩ := scoresOf_length hA hB
  have hfst := @split_fst scoresA scoresB labels (hA.trans hB.symm)
  have hsnd := @split_snd scoresA scoresB labels (hA.trans hB.symm)
  unfold varDiff pairwiseVariance
  dsimp only
  rw [← hn, ← hp]
  rw [← hp] at hpos
  rw [← hn] at hneg
  generalize scoresOf true scoresA scoresB labels = pos at *
  generalize scoresOf false scoresA scoresB labels = neg at *
  obtain ⟨ha01, ha10⟩ := placement_components hfst (by omega)
  obtain ⟨hb01, hb10⟩ := placement_components hsnd (by omega)
  rw [ha01, ha10, hb01, hb10]
  simp only [shareCovariance_eq _ _ _ _ hpos hneg]
  rfl

/-- The test compares the AUROCs of its two scores, by the pairwise variance of their difference, which no clamp changes. -/
theorem deLong_pairwise (math : Numerics) (scoresA scoresB : List ℚ) (labels : List Bool)
    (hA : scoresA.length = labels.length) (hB : scoresB.length = labels.length)
    (hpos : 2 ≤ labels.count true) (hneg : 2 ≤ labels.count false) :
    ∃ dl, fastDeLong math scoresA scoresB labels = some dl ∧
      auroc scoresA labels = some dl.aucA ∧ auroc scoresB labels = some dl.aucB ∧
      dl.se = math.sqrt (max (varDiff scoresA scoresB labels) 0) ∧
      varDiff scoresA scoresB labels = pairwiseVariance scoresA scoresB labels ∧ 0 ≤ varDiff scoresA scoresB labels := by
  have htrue : countTrue labels = labels.count true := by
    unfold countTrue List.count
    congr 1
    funext y
    cases y <;> rfl
  have hfalse : labels.length - countTrue labels = labels.count false := by
    have hsum := List.count_false_add_count_true labels
    omega
  rw [← htrue] at hpos
  rw [← hfalse] at hneg
  have hvar := varDiff_eq hA hB hpos hneg
  have hnonneg : 0 ≤ varDiff scoresA scoresB labels := by
    obtain ⟨hp, hn⟩ := scoresOf_length hA hB
    rw [hvar]
    exact differenceVariance_nonneg _ _ _ _ (by omega) (by omega)
  obtain ⟨dl, hdl, hse⟩ : ∃ dl, fastDeLong math scoresA scoresB labels = some dl ∧
      dl.se = math.sqrt (max (varDiff scoresA scoresB labels) 0) := by
    unfold fastDeLong fastDeLongIn
    rw [if_neg (by simp [hA, hB])]
    dsimp only
    rw [if_neg (by omega)]
    exact ⟨_, rfl, rfl⟩
  obtain ⟨ha, hb, _⟩ := fastDeLong_auroc hdl
  exact ⟨dl, hdl, ha, hb, hse, hvar, hnonneg⟩

theorem deLong_pairwise_ties : ∃ dl, fastDeLong ⟨⟨id, id⟩, id⟩ [1 / 2, 1 / 2, 1, 0, 1 / 2] [1, 0, 1 / 2, 1 / 2, 0]
      [true, false, true, false, true] = some dl ∧
    auroc [1 / 2, 1 / 2, 1, 0, 1 / 2] [true, false, true, false, true] = some dl.aucA ∧
    auroc [1, 0, 1 / 2, 1 / 2, 0] [true, false, true, false, true] = some dl.aucB ∧
    dl.se = max (varDiff [1 / 2, 1 / 2, 1, 0, 1 / 2] [1, 0, 1 / 2, 1 / 2, 0] [true, false, true, false, true]) 0 ∧
    varDiff [1 / 2, 1 / 2, 1, 0, 1 / 2] [1, 0, 1 / 2, 1 / 2, 0] [true, false, true, false, true] =
      pairwiseVariance [1 / 2, 1 / 2, 1, 0, 1 / 2] [1, 0, 1 / 2, 1 / 2, 0] [true, false, true, false, true] ∧
    0 ≤ varDiff [1 / 2, 1 / 2, 1, 0, 1 / 2] [1, 0, 1 / 2, 1 / 2, 0] [true, false, true, false, true] :=
  deLong_pairwise ⟨⟨id, id⟩, id⟩ _ _ _ rfl rfl (by decide) (by decide)

end LaunchAuditor.Proofs.DeLongVariance
