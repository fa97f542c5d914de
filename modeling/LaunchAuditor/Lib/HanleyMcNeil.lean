import Mathlib.Algebra.Order.Field.Basic
import Mathlib.Tactic.FieldSimp
import Mathlib.Tactic.Linarith
import Mathlib.Tactic.Positivity
import Mathlib.Tactic.Ring

/-! The variance of the share `θ` of pairs in order that two exponential samples have,
by the numbers of positives and of negatives. -/

namespace HanleyMcNeil

variable {K : Type} [Field K]

/-- The probability that one positive is above two negatives, less that of two separate pairs in order. -/
def sharedPositive (θ : K) : K := θ * (1 - θ) ^ 2 / (1 + (1 - θ))

/-- The same for two positives above one negative. -/
def sharedNegative (θ : K) : K := θ ^ 2 * (1 - θ) / (1 + θ)

def variance (θ positives negatives : K) : K :=
  (θ * (1 - θ) + (positives - 1) * sharedPositive θ + (negatives - 1) * sharedNegative θ) / (positives * negatives)

/-- The ranking turned round, with the two samples in each other's place. -/
theorem sharedPositive_flip (θ : K) : sharedPositive (1 - θ) = sharedNegative θ := by
  unfold sharedPositive sharedNegative
  rw [sub_sub_cancel, mul_comm (1 - θ)]

theorem sharedNegative_flip (θ : K) : sharedNegative (1 - θ) = sharedPositive θ := by
  rw [← sharedPositive_flip, sub_sub_cancel]

theorem variance_flip (θ positives negatives : K) : variance (1 - θ) negatives positives = variance θ positives negatives := by
  unfold variance
  rw [sharedPositive_flip, sharedNegative_flip, mul_comm negatives positives]
  ring

variable [LinearOrder K] [IsStrictOrderedRing K] {θ positives negatives : K}

/-- Two negatives are both below with the probability `θ / (2 - θ)`. -/
theorem sharedPositive_eq (h : θ ≤ 1) : θ / (2 - θ) - θ * θ = sharedPositive θ := by
  have hden : 2 - θ ≠ 0 := by linarith
  have hsame : 1 + (1 - θ) = 2 - θ := by ring
  rw [sharedPositive, hsame]
  field_simp
  ring

/-- Two positives are both above with the probability `2 * θ ^ 2 / (1 + θ)`. -/
theorem sharedNegative_eq (h : 0 ≤ θ) : 2 * θ * θ / (1 + θ) - θ * θ = sharedNegative θ := by
  have hden : 1 + θ ≠ 0 := by linarith
  rw [sharedNegative]
  field_simp
  ring

/-- Each of the three terms is at least 0. -/
theorem variance_nonneg (hlow : 0 ≤ θ) (hhigh : θ ≤ 1) (hpositives : 1 ≤ positives) (hnegatives : 1 ≤ negatives) :
    0 ≤ variance θ positives negatives := by
  have hflip : 0 ≤ 1 - θ := by linarith
  have hone : 0 ≤ sharedPositive θ := div_nonneg (mul_nonneg hlow (sq_nonneg _)) (by linarith)
  have hother : 0 ≤ sharedNegative θ := div_nonneg (mul_nonneg (sq_nonneg θ) hflip) (by linarith)
  have hp : 0 ≤ (positives - 1) * sharedPositive θ := mul_nonneg (by linarith) hone
  have hn : 0 ≤ (negatives - 1) * sharedNegative θ := mul_nonneg (by linarith) hother
  have hpairs : 0 ≤ positives * negatives := mul_nonneg (by linarith) (by linarith)
  exact div_nonneg (add_nonneg (add_nonneg (mul_nonneg hlow hflip) hp) hn) hpairs

end HanleyMcNeil
