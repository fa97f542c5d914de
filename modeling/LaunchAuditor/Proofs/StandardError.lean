import LaunchAuditor.Leaderboard.Scorer
import LaunchAuditor.Lib.HanleyMcNeil
import Mathlib.Analysis.Real.Sqrt

namespace LaunchAuditor.Proofs.StandardError
open Leaderboard HanleyMcNeil

section General
variable {K : Type} [Field K] [LinearOrder K] (root : K → K)

/-- The `v` of `aurocStandardError`, over any field. -/
def errorVariance (auc : K) (positives : Nat) (negatives : Int) : K :=
  let q1 := auc / (2 - auc)
  let q2 := 2 * auc * auc / (1 + auc)
  (auc * (1 - auc) + (positives - 1) * (q1 - auc * auc) + (negatives - 1) * (q2 - auc * auc)) / (positives * negatives)

/-- `aurocStandardError` over any ordered field. -/
def standardError (auc : K) (positives : Nat) (negatives : Int) : Option K :=
  if positives < 2 ∨ negatives < 2 then none
  else if 0 ≤ errorVariance auc positives negatives then some (root (errorVariance auc positives negatives))
  else none

/-- `isInvertedRanking` over any ordered field. -/
def invertedRanking (auc : Option K) (n positives : Nat) : Bool :=
  match auc with
  | none => false
  | some auc =>
    if n < MIN_FOR_CLAIMS ∨ positives < MIN_POSITIVES_FOR_CLAIMS then false
    else
      match standardError root auc positives (n - positives) with
      | none => false
      | some se => if se = 0 then decide (auc < 1 / 2) else decide ((1 / 2 - auc) / se > 196 / 100)

variable {root}

theorem standardError_nonneg (hroot : ∀ x, 0 ≤ root x) {auc : K} {positives : Nat} {negatives : Int} {se : K}
    (h : standardError root auc positives negatives = some se) : 0 ≤ se := by
  unfold standardError at h
  split at h
  · cases h
  · split at h
    · rw [← Option.some.inj h]
      exact hroot _
    · cases h

end General

theorem aurocStandardError_eq (math : Numerics) (auc : ℚ) (positives : Nat) (negatives : Int) :
    aurocStandardError math auc positives negatives = standardError math.sqrt auc positives negatives := rfl

theorem isInvertedRanking_eq (math : Numerics) (auc : Option ℚ) (n positives : Nat) :
    isInvertedRanking math auc n positives = invertedRanking math.sqrt auc n positives := by
  cases auc with
  | none => rfl
  | some auc =>
    unfold isInvertedRanking invertedRanking
    dsimp only
    rw [aurocStandardError_eq]
    split
    · rfl
    · cases standardError math.sqrt auc positives (n - positives) with
      | none => rfl
      | some se => rfl

section Guard
variable {K : Type} [Field K] [LinearOrder K] [IsStrictOrderedRing K] (root : K → K) {auc : K} {m n positives : Nat}

theorem errorVariance_eq (hlow : 0 ≤ auc) (hhigh : auc ≤ 1) : errorVariance auc m n = variance auc (m : K) (n : K) := by
  unfold errorVariance
  dsimp only
  rw [sharedPositive_eq hhigh, sharedNegative_eq hlow, Int.cast_natCast, variance]

theorem errorVariance_nonneg (hlow : 0 ≤ auc) (hhigh : auc ≤ 1) (hm : 2 ≤ m) (hn : 2 ≤ n) : 0 ≤ errorVariance auc m n := by
  have hm' : (1 : K) ≤ m := by exact_mod_cast Nat.le_of_succ_le hm
  have hn' : (1 : K) ≤ n := by exact_mod_cast Nat.le_of_succ_le hn
  rw [errorVariance_eq hlow hhigh]
  exact variance_nonneg hlow hhigh hm' hn'

/-- The guard of the root holds. -/
theorem standardError_eq_some (hlow : 0 ≤ auc) (hhigh : auc ≤ 1) (hm : 2 ≤ m) (hn : 2 ≤ n) :
    standardError root auc m n = some (root (errorVariance auc m n)) := by
  have hcounts : ¬ (m < 2 ∨ (n : Int) < 2) := by omega
  rw [standardError, if_neg hcounts, if_pos (errorVariance_nonneg hlow hhigh hm hn)]

theorem standardError_flip (hlow : 0 ≤ auc) (hhigh : auc ≤ 1) (hm : 2 ≤ m) (hn : 2 ≤ n) :
    standardError root auc m n = standardError root (1 - auc) n m := by
  have hlow' : 0 ≤ 1 - auc := sub_nonneg.mpr hhigh
  have hhigh' : 1 - auc ≤ 1 := sub_le_self 1 hlow
  rw [standardError_eq_some root hlow hhigh hm hn, standardError_eq_some root hlow' hhigh' hn hm,
    errorVariance_eq hlow hhigh, errorVariance_eq hlow' hhigh', variance_flip]

variable {root}

/-- Only an AUC below one half is far enough below it. -/
theorem lt_half_of_inverted (hroot : ∀ x, 0 ≤ root x) (h : invertedRanking root (some auc) n positives = true) :
    auc < 1 / 2 := by
  unfold invertedRanking at h
  dsimp only at h
  split at h
  · cases h
  · cases hse : standardError root auc positives (n - positives) with
    | none =>
      rw [hse] at h
      cases h
    | some se =>
      have hnonneg : 0 ≤ se := standardError_nonneg hroot hse
      rw [hse] at h
      dsimp only at h
      split at h
      · exact of_decide_eq_true h
      · have hfar : (1 / 2 - auc) / se > 196 / 100 := of_decide_eq_true h
        by_contra hle
        have hquot : (1 / 2 - auc) / se ≤ 0 := div_nonpos_of_nonpos_of_nonneg (by linarith) hnonneg
        linarith

end Guard

/-- The error over the reals: the guard of its root is never needed, it is the same for the ranking
turned round, and what is called inverted is below one half. -/
theorem standard_error_over_reals :
    (∀ (math : Numerics) (auc : ℚ) (positives : Nat) (negatives : Int),
      aurocStandardError math auc positives negatives = standardError math.sqrt auc positives negatives) ∧
    (∀ (math : Numerics) (auc : Option ℚ) (n positives : Nat),
      isInvertedRanking math auc n positives = invertedRanking math.sqrt auc n positives) ∧
    (∀ (auc : ℝ) (m n : Nat), 0 ≤ auc → auc ≤ 1 → 2 ≤ m → 2 ≤ n →
      0 ≤ errorVariance auc m n ∧
      standardError Real.sqrt auc m n = some (Real.sqrt (errorVariance auc m n)) ∧
      standardError Real.sqrt auc m n = standardError Real.sqrt (1 - auc) n m) ∧
    ∀ (auc : ℝ) (n positives : Nat), invertedRanking Real.sqrt (some auc) n positives = true → auc < 1 / 2 := by
  refine ⟨aurocStandardError_eq, isInvertedRanking_eq, ?_, ?_⟩
  · intro auc m n hlow hhigh hm hn
    exact ⟨errorVariance_nonneg hlow hhigh hm hn, standardError_eq_some Real.sqrt hlow hhigh hm hn,
      standardError_flip Real.sqrt hlow hhigh hm hn⟩
  · intro auc n positives h
    exact lt_half_of_inverted Real.sqrt_nonneg h

/-- The figures that the source gives for det_v0. -/
theorem det_v0_inverted : invertedRanking Real.sqrt (some (344 / 1000)) 1227 231 = true := by
  have hcount : ((1227 : Nat) : Int) - (231 : Nat) = (996 : Nat) := by norm_num
  have hse : standardError Real.sqrt (344 / 1000) 231 (996 : Nat) =
      some (Real.sqrt (errorVariance (344 / 1000) 231 (996 : Nat))) :=
    standardError_eq_some Real.sqrt (by norm_num) (by norm_num) (by norm_num) (by norm_num)
  have hpos : 0 < Real.sqrt (errorVariance (344 / 1000) 231 (996 : Nat)) :=
    Real.sqrt_pos.mpr (by norm_num [errorVariance])
  have hsmall : Real.sqrt (errorVariance (344 / 1000) 231 (996 : Nat)) < 1 / 50 :=
    (Real.sqrt_lt' (by norm_num)).mpr (by norm_num [errorVariance])
  have hfar : (1 / 2 - 344 / 1000) / Real.sqrt (errorVariance (344 / 1000) 231 (996 : Nat)) > 196 / 100 := by
    rw [gt_iff_lt, lt_div_iff₀ hpos]
    linarith
  unfold invertedRanking
  dsimp only
  rw [hcount, hse]
  simp only [hpos.ne', if_false]
  rw [if_neg (by decide)]
  exact decide_eq_true hfar

theorem standard_error_over_reals_det_v0 :
    (0 ≤ errorVariance (344 / 1000 : ℝ) 231 (996 : Nat) ∧
      standardError Real.sqrt (344 / 1000) 231 (996 : Nat) =
        some (Real.sqrt (errorVariance (344 / 1000) 231 (996 : Nat))) ∧
      standardError Real.sqrt (344 / 1000) 231 (996 : Nat) = standardError Real.sqrt (1 - 344 / 1000) 996 (231 : Nat)) ∧
    (344 / 1000 : ℝ) < 1 / 2 :=
  ⟨standard_error_over_reals.2.2.1 (344 / 1000) 231 996 (by norm_num) (by norm_num) (by norm_num) (by norm_num),
    standard_error_over_reals.2.2.2 (344 / 1000) 1227 231 det_v0_inverted⟩

end LaunchAuditor.Proofs.StandardError
