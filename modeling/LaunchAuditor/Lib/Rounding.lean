import Mathlib.Algebra.BigOperators.Ring.List
import Mathlib.Algebra.Order.Field.Basic
import Mathlib.Tactic.Linarith
import Mathlib.Tactic.Ring
import Mathlib.Algebra.Order.Floor.Semifield
import Mathlib.Tactic.Positivity

/-! Sums of numbers that were rounded one by one, over any rounding that moves a number
by at most `ε`. -/

namespace Rounding

variable {K : Type} [Field K] [LinearOrder K] [IsStrictOrderedRing K]

/-- The rounding moves no number by more than `ε`. -/
def Within (ε : K) (round : K → K) : Prop := ∀ x, |round x - x| ≤ ε

variable {ε : K} {round : K → K}

theorem sum_error (h : Within ε round) (xs : List K) : |(xs.map round).sum - xs.sum| ≤ xs.length * ε := by
  induction xs with
  | nil => simp
  | cons x xs ih =>
    have hx := h x
    rw [abs_le] at hx ih ⊢
    simp only [List.map_cons, List.sum_cons, List.length_cons, Nat.cast_add, Nat.cast_one, add_mul, one_mul]
    constructor
    · linarith [hx.1, ih.1]
    · linarith [hx.2, ih.2]

/-- Shares `x * f` of a total `d`, where the factor `f` is `d` over a figure for the sum
of the `x` and all four are rounded: they add up to `d` but for one `ε` a share, one a unit
shared and one a unit of the factor. -/
theorem shares_error (h : Within ε round) {xs : List K} (hxs : 0 ≤ xs.sum) {d whole : K} (hd : 0 ≤ d)
    (hpos : 0 < whole) (hwhole : |whole - xs.sum| ≤ ε) :
    |((xs.map fun x => x * round (d / whole)).map round).sum - d| ≤ ε * (xs.length + xs.sum + d / whole) := by
  have hratio : 0 ≤ d / whole := div_nonneg hd hpos.le
  have hshares := sum_error h (xs.map fun x => x * round (d / whole))
  rw [List.sum_map_mul_right, List.map_id', List.length_map] at hshares
  have hfactor : |xs.sum * round (d / whole) - xs.sum * (d / whole)| ≤ xs.sum * ε := by
    rw [← mul_sub, abs_mul, abs_of_nonneg hxs]
    exact mul_le_mul_of_nonneg_left (h _) hxs
  have htotal : |xs.sum * (d / whole) - d| ≤ ε * (d / whole) := by
    have he : xs.sum * (d / whole) - d = (xs.sum - whole) * (d / whole) := by
      rw [sub_mul, mul_div_cancel₀ d hpos.ne']
    rw [he, abs_mul, abs_of_nonneg hratio, abs_sub_comm]
    exact mul_le_mul_of_nonneg_right hwhole hratio
  calc |((xs.map fun x => x * round (d / whole)).map round).sum - d|
      ≤ |((xs.map fun x => x * round (d / whole)).map round).sum - xs.sum * round (d / whole)| +
          |xs.sum * round (d / whole) - xs.sum * (d / whole)| + |xs.sum * (d / whole) - d| := by
        refine (abs_sub_le _ (xs.sum * (d / whole)) _).trans ?_
        exact add_le_add_left (abs_sub_le _ _ _) _
    _ ≤ xs.length * ε + xs.sum * ε + ε * (d / whole) := add_le_add (add_le_add hshares hfactor) htotal
    _ = ε * (xs.length + xs.sum + d / whole) := by ring

end Rounding

namespace Grid

variable {K : Type} [Field K] [LinearOrder K]

section Down
variable [IsStrictOrderedRing K] [FloorSemiring K] (step : K)

/-- The largest multiple of the step at or below a number. -/
def down (x : K) : K := ⌊x / step⌋₊ * step

variable {step}

theorem down_nonneg (hstep : 0 < step) (x : K) : 0 ≤ down step x := mul_nonneg (Nat.cast_nonneg _) hstep.le

theorem down_le (hstep : 0 < step) {x : K} (hx : 0 ≤ x) : down step x ≤ x := by
  have hfloor := Nat.floor_le (div_nonneg hx hstep.le)
  calc down step x ≤ x / step * step := mul_le_mul_of_nonneg_right hfloor hstep.le
    _ = x := div_mul_cancel₀ x hstep.ne'

/-- Rounding down passes no multiple. -/
theorem mul_le_down_iff (hstep : 0 < step) {x : K} (hx : 0 ≤ x) (n : ℕ) : n * step ≤ down step x ↔ n * step ≤ x := by
  constructor
  · exact fun h => h.trans (down_le hstep hx)
  · intro h
    have hfloor : n ≤ ⌊x / step⌋₊ := Nat.le_floor ((le_div_iff₀ hstep).mpr h)
    exact mul_le_mul_of_nonneg_right (Nat.cast_le.mpr hfloor) hstep.le

theorem down_pos_iff (hstep : 0 < step) {x : K} (hx : 0 ≤ x) : 0 < down step x ↔ step ≤ x := by
  have hone := mul_le_down_iff hstep hx 1
  rw [Nat.cast_one, one_mul] at hone
  rw [← hone]
  constructor
  · intro h
    have hpos : 0 < ⌊x / step⌋₊ := by
      by_contra hzero
      rw [down, Nat.le_zero.mp (not_lt.mp hzero), Nat.cast_zero, zero_mul] at h
      exact lt_irrefl 0 h
    have hle : (1 : K) ≤ ⌊x / step⌋₊ := by exact_mod_cast hpos
    calc step = 1 * step := (one_mul step).symm
      _ ≤ down step x := mul_le_mul_of_nonneg_right hle hstep.le
  · exact fun h => hstep.trans_le h

/-- What lies below a rounded number has a multiple above it. -/
theorem lt_down_iff (hstep : 0 < step) (x : K) {y : K} (hy : 0 ≤ y) :
    x < down step y ↔ ∃ n : ℕ, x < n * step ∧ n * step ≤ y := by
  constructor
  · exact fun h => ⟨⌊y / step⌋₊, h, down_le hstep hy⟩
  · rintro ⟨n, hx, hn⟩
    exact hx.trans_le ((mul_le_down_iff hstep hy n).mpr hn)

/-- A whole number of rounded values is a multiple as well. -/
theorem mul_down_le_down_iff (hstep : 0 < step) (n : ℕ) (x : K) {y : K} (hy : 0 ≤ y) :
    n * down step x ≤ down step y ↔ n * down step x ≤ y := by
  have hmul : n * down step x = (n * ⌊x / step⌋₊ : ℕ) * step := by
    rw [down, Nat.cast_mul, mul_assoc]
  rw [hmul]
  exact mul_le_down_iff hstep hy _

end Down

section Top

/-- The largest number of a list, 0 when there is no larger. -/
def top (xs : List K) : K := xs.foldl (fun m x => if x > m then x else m) 0

theorem le_top_iff {c : K} (xs : List K) : c ≤ top xs ↔ c ≤ 0 ∨ ∃ x ∈ xs, c ≤ x := by
  have hfold : ∀ m : K, c ≤ xs.foldl (fun m x => if x > m then x else m) m ↔ c ≤ m ∨ ∃ x ∈ xs, c ≤ x := by
    induction xs with
    | nil => simp
    | cons x xs ih =>
      intro m
      rw [List.foldl_cons, ih]
      have hmax : c ≤ (if x > m then x else m) ↔ c ≤ m ∨ c ≤ x := by
        split
        · rename_i h
          exact ⟨Or.inr, fun hc => hc.elim (fun hm => hm.trans h.le) id⟩
        · rename_i h
          exact ⟨Or.inl, fun hc => hc.elim id fun hx => hx.trans (not_lt.mp h)⟩
      rw [hmax, or_assoc]
      simp
  exact hfold 0

theorem le_top_map_iff {α : Type} {c : K} (f : α → K) (xs : List α) :
    c ≤ top (xs.map f) ↔ c ≤ 0 ∨ ∃ x ∈ xs, c ≤ f x := by
  rw [le_top_iff]
  simp

theorem lt_top_iff {c : K} (hc : 0 ≤ c) (xs : List K) : c < top xs ↔ ∃ x ∈ xs, c < x := by
  constructor
  · intro h
    rcases (le_top_iff xs).mp (le_refl (top xs)) with hzero | ⟨x, hx, hle⟩
    · exact absurd (hc.trans_lt h) (not_lt.mpr hzero)
    · exact ⟨x, hx, h.trans_le hle⟩
  · rintro ⟨x, hx, hlt⟩
    exact hlt.trans_le ((le_top_iff xs).mpr (Or.inr ⟨x, hx, le_refl x⟩))

theorem lt_top_map_iff {α : Type} {c : K} (hc : 0 ≤ c) (f : α → K) (xs : List α) :
    c < top (xs.map f) ↔ ∃ x ∈ xs, c < f x := by
  rw [lt_top_iff hc]
  simp

end Top

end Grid
