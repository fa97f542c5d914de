import LaunchAuditor.Lib.Midranks
import Mathlib.Algebra.BigOperators.Ring.List
import Mathlib.Algebra.Order.BigOperators.Group.List
import Mathlib.Tactic.Positivity

/-! The structural components of the share of pairs in order, and the variance they give to the
difference of two such shares on the same examples. -/

namespace Placements

variable {ι α : Type} [LinearOrder α]

section Components
variable (pos neg : List ι) (r s : ι → α)

/-- The share of pairs that `r` puts in order. -/
def share : ℚ := Midranks.auc (pos.map r) (neg.map r)

/-- Of one positive: the share of the negatives it is above. -/
def above (x : ι) : ℚ := (neg.map fun y => Midranks.inOrder (r x) (r y)).sum / neg.length

/-- Of one negative: the share of the positives it is below. -/
def underneath (y : ι) : ℚ := (pos.map fun x => Midranks.inOrder (r x) (r y)).sum / pos.length

/-- The covariance of two predictors' components on the positives. -/
def posCovariance : ℚ :=
  (pos.map fun x => (above neg r x - share pos neg r) * (above neg s x - share pos neg s)).sum / (pos.length - 1)

def negCovariance : ℚ :=
  (neg.map fun y => (underneath pos r y - share pos neg r) * (underneath pos s y - share pos neg s)).sum / (neg.length - 1)

/-- The covariance of the two shares. -/
def shareCovariance : ℚ := posCovariance pos neg r s / pos.length + negCovariance pos neg r s / neg.length

def differenceVariance : ℚ :=
  shareCovariance pos neg r r + shareCovariance pos neg s s - 2 * shareCovariance pos neg r s

end Components

section Ranks
variable {pos neg : List ι} {r : ι → α}

/-- In the pooled sample a positive rises by the negatives it is above. -/
theorem rank_above (x : ι) : Midranks.rank (r x) (pos.map r ++ neg.map r) - Midranks.rank (r x) (pos.map r) =
    (neg.map fun y => Midranks.inOrder (r x) (r y)).sum := by
  rw [Midranks.rank_eq_sum, Midranks.rank_eq_sum, List.map_append, List.sum_append, List.map_map (f := r) (l := neg)]
  change _ + (neg.map fun y => Midranks.inOrder (r x) (r y)).sum + _ - _ = _
  ring

/-- A negative rises by the positives it is not below. -/
theorem rank_underneath (y : ι) : Midranks.rank (r y) (pos.map r ++ neg.map r) - Midranks.rank (r y) (neg.map r) =
    pos.length - (pos.map fun x => Midranks.inOrder (r x) (r y)).sum := by
  have hflip : (pos.map fun x => Midranks.inOrder (r y) (r x)).sum + (pos.map fun x => Midranks.inOrder (r x) (r y)).sum =
      pos.length := by
    rw [← List.sum_map_add]
    simp [Midranks.inOrder_add]
  rw [Midranks.rank_eq_sum, Midranks.rank_eq_sum, List.map_append, List.sum_append, List.map_map (f := r) (l := pos)]
  change (pos.map fun x => Midranks.inOrder (r y) (r x)).sum + _ + _ - _ = _
  linarith

end Ranks

section Means
variable (pos neg : List ι) (r : ι → α)

theorem sum_map_div (xs : List ι) (f : ι → ℚ) (c : ℚ) : (xs.map fun x => f x / c).sum = (xs.map f).sum / c := by
  simp only [div_eq_mul_inv]
  exact List.sum_map_mul_right xs f c⁻¹

theorem sum_comm (xs ys : List ι) (f : ι → ι → ℚ) :
    (xs.map fun x => (ys.map fun y => f x y).sum).sum = (ys.map fun y => (xs.map fun x => f x y).sum).sum := by
  induction xs with
  | nil => simp
  | cons x xs ih =>
    simp only [List.map_cons, List.sum_cons]
    rw [ih, ← List.sum_map_add]

theorem pairSum_map : Midranks.pairSum (pos.map r) (neg.map r) =
    (pos.map fun x => (neg.map fun y => Midranks.inOrder (r x) (r y)).sum).sum := by
  simp only [Midranks.pairSum, List.map_map]
  rfl

/-- The components of the positives are the share on average, as are those of the negatives. -/
theorem mean_above : (pos.map (above neg r)).sum / pos.length = share pos neg r := by
  have hsum := sum_map_div pos (fun x => (neg.map fun y => Midranks.inOrder (r x) (r y)).sum) neg.length
  rw [share, Midranks.auc, pairSum_map, List.length_map, List.length_map, mul_comm (pos.length : ℚ), ← div_div, ← hsum]
  rfl

theorem mean_underneath : (neg.map (underneath pos r)).sum / neg.length = share pos neg r := by
  have hsum := sum_map_div neg (fun y => (pos.map fun x => Midranks.inOrder (r x) (r y)).sum) pos.length
  rw [share, Midranks.auc, pairSum_map, sum_comm, List.length_map, List.length_map, ← div_div, ← hsum]
  rfl

end Means

section Difference
variable (pos neg : List ι) (r s : ι → α)

/-- Three sums of products are one of squares. -/
theorem sum_sq_sub (xs : List ι) (f g : ι → ℚ) :
    (xs.map fun x => f x * f x).sum + (xs.map fun x => g x * g x).sum - 2 * (xs.map fun x => f x * g x).sum =
      (xs.map fun x => (f x - g x) ^ 2).sum := by
  induction xs with
  | nil => simp
  | cons x xs ih =>
    simp only [List.map_cons, List.sum_cons]
    rw [← ih]
    ring

theorem sum_sq_nonneg (xs : List ι) (f : ι → ℚ) : 0 ≤ (xs.map fun x => f x ^ 2).sum := by
  apply List.sum_nonneg
  intro a ha
  obtain ⟨x, _, rfl⟩ := List.mem_map.mp ha
  positivity

/-- What a predictor's component of a positive has over the other's. -/
def aboveDifference (x : ι) : ℚ := above neg r x - share pos neg r - (above neg s x - share pos neg s)

def underneathDifference (y : ι) : ℚ := underneath pos r y - share pos neg r - (underneath pos s y - share pos neg s)

theorem differenceVariance_eq : differenceVariance pos neg r s =
    (pos.map fun x => aboveDifference pos neg r s x ^ 2).sum / (pos.length - 1) / pos.length +
      (neg.map fun y => underneathDifference pos neg r s y ^ 2).sum / (neg.length - 1) / neg.length := by
  have habove := sum_sq_sub pos (fun x => above neg r x - share pos neg r) fun x => above neg s x - share pos neg s
  have hunder := sum_sq_sub neg (fun y => underneath pos r y - share pos neg r) fun y => underneath pos s y - share pos neg s
  unfold aboveDifference underneathDifference
  rw [← habove, ← hunder]
  unfold differenceVariance shareCovariance posCovariance negCovariance
  ring

/-- The variance is made of squares. -/
theorem differenceVariance_nonneg (hpos : 1 ≤ pos.length) (hneg : 1 ≤ neg.length) : 0 ≤ differenceVariance pos neg r s := by
  have hp : (0 : ℚ) ≤ pos.length - 1 := sub_nonneg.mpr (Nat.one_le_cast.mpr hpos)
  have hn : (0 : ℚ) ≤ neg.length - 1 := sub_nonneg.mpr (Nat.one_le_cast.mpr hneg)
  have hpsum := sum_sq_nonneg pos (aboveDifference pos neg r s)
  have hnsum := sum_sq_nonneg neg (underneathDifference pos neg r s)
  rw [differenceVariance_eq]
  positivity

end Difference

end Placements
