import Mathlib.Algebra.Group.Nat.Defs
import Mathlib.Data.Nat.Basic
import Mathlib.Algebra.Order.Group.Nat

/-! Bisection for the last number of a range with a property that no larger number has once one lacks it, and
for the first number with a property, both given up after a number of probes. -/

namespace Bisect

variable (p : Nat → Bool)

def search : (probes lo hi answer : Nat) → Nat
  | 0, _, _, answer => answer
  | probes + 1, lo, hi, answer =>
    if lo ≤ hi then
      if p (lo + (hi - lo) / 2) then search probes (lo + (hi - lo) / 2 + 1) hi (lo + (hi - lo) / 2)
      else search probes lo (lo + (hi - lo) / 2 - 1) answer
    else answer

variable {p}

/-- Enough probes for the range single out the last number that has the property. -/
theorem search_eq {b probes lo hi answer : Nat} (hp : ∀ n, lo ≤ n → n ≤ hi → (p n = true ↔ n ≤ b)) (hb : b ≤ hi)
    (hlo : lo ≤ b ∨ (answer = b ∧ lo = b + 1)) (hprobes : hi + 1 - lo < 2 ^ probes) :
    search p probes lo hi answer = b := by
  induction probes generalizing lo hi answer with
  | zero =>
    rcases hlo with hlo | ⟨ha, _⟩
    · rw [Nat.pow_zero] at hprobes
      omega
    · exact ha
  | succ probes ih =>
    rw [Nat.pow_succ] at hprobes
    rw [search]
    by_cases hle : lo ≤ hi
    · rw [if_pos hle]
      have hmid := hp (lo + (hi - lo) / 2) (by omega) (by omega)
      by_cases h : lo + (hi - lo) / 2 ≤ b
      · rw [if_pos (hmid.mpr h)]
        apply ih
        · exact fun n hn hh => hp n (by omega) hh
        · exact hb
        · omega
        · omega
      · rw [if_neg (mt hmid.mp h)]
        apply ih
        · exact fun n hn hh => hp n hn (by omega)
        · omega
        · exact hlo
        · omega
    · rw [if_neg hle]
      omega

/-- Nothing in the range has the property: the answer stays. -/
theorem search_none {probes lo hi answer : Nat} (hp : ∀ n, lo ≤ n → n ≤ hi → p n = false) :
    search p probes lo hi answer = answer := by
  induction probes generalizing hi with
  | zero => rfl
  | succ probes ih =>
    rw [search]
    by_cases hle : lo ≤ hi
    · rw [if_pos hle, hp _ (by omega) (by omega), if_neg Bool.false_ne_true]
      exact ih fun n hn hh => hp n hn (by omega)
    · rw [if_neg hle]

/-- Only the first of the range has the property, and it is the answer to begin with. -/
theorem search_first {probes lo hi : Nat} (hp : ∀ n, lo ≤ n → n ≤ hi → (p n = true ↔ n ≤ lo)) :
    search p probes lo hi lo = lo := by
  induction probes generalizing hi with
  | zero => rfl
  | succ probes ih =>
    rw [search]
    by_cases hle : lo ≤ hi
    · rw [if_pos hle]
      have hmid := hp (lo + (hi - lo) / 2) (by omega) (by omega)
      by_cases hfirst : lo + (hi - lo) / 2 ≤ lo
      · have heq : lo + (hi - lo) / 2 = lo := by omega
        rw [if_pos (hmid.mpr hfirst), heq]
        apply search_none
        intro n hn hh
        have hlate := hp n (by omega) hh
        rw [Bool.eq_false_iff]
        exact fun h => absurd (hlate.mp h) (by omega)
      · rw [if_neg (mt hmid.mp hfirst)]
        exact ih fun n hn hh => hp n hn (by omega)
    · rw [if_neg hle]

/-- A midpoint of one of the ranges that halving leads to, on the way to it. -/
def reaches (b : Nat) : (probes lo hi : Nat) → Bool
  | 0, _, _ => false
  | probes + 1, lo, hi =>
    if b = lo + (hi - lo) / 2 then true
    else if lo + (hi - lo) / 2 < b then reaches b probes (lo + (hi - lo) / 2 + 1) hi
    else reaches b probes lo (lo + (hi - lo) / 2 - 1)

/-- The last number with the property is found exactly where it is one of the midpoints probed. -/
theorem search_eq_iff {b probes lo hi answer : Nat} (hp : ∀ n, lo ≤ n → n ≤ hi → (p n = true ↔ n ≤ b)) (hlo : lo ≤ b)
    (hb : b ≤ hi) (hanswer : answer ≠ b) : search p probes lo hi answer = b ↔ reaches b probes lo hi = true := by
  induction probes generalizing lo hi answer with
  | zero => simp [search, reaches, hanswer]
  | succ probes ih =>
    have hmid := hp (lo + (hi - lo) / 2) (by omega) (by omega)
    rw [search, reaches, if_pos (by omega)]
    rcases Nat.lt_trichotomy b (lo + (hi - lo) / 2) with hlt | heq | hgt
    · rw [if_neg (mt hmid.mp (by omega)), if_neg (by omega), if_neg (by omega)]
      exact ih (fun n hn hh => hp n hn (by omega)) hlo (by omega) hanswer
    · rw [if_pos (hmid.mpr (by omega)), if_pos heq, ← heq]
      have hnone : search p probes (b + 1) hi b = b := by
        apply search_none
        intro n hn hh
        have hlate := hp n (by omega) hh
        rw [Bool.eq_false_iff]
        exact fun h => absurd (hlate.mp h) (by omega)
      simp [hnone]
    · rw [if_pos (hmid.mpr (by omega)), if_neg (by omega), if_pos hgt]
      exact ih (fun n hn hh => hp n (by omega) hh) (by omega) hb (by omega)

theorem reaches_all {b probes lo hi : Nat} (hlo : lo ≤ b) (hb : b ≤ hi) (hprobes : hi + 1 - lo < 2 ^ probes) :
    reaches b probes lo hi = true := by
  induction probes generalizing lo hi with
  | zero =>
    rw [Nat.pow_zero] at hprobes
    omega
  | succ probes ih =>
    rw [Nat.pow_succ] at hprobes
    rw [reaches]
    split
    · rfl
    · split
      · exact ih (by omega) hb (by omega)
      · exact ih hlo (by omega) (by omega)

/-- What is found is the answer to begin with or in the range, and has the property then. -/
theorem search_mem {probes lo hi answer : Nat} :
    search p probes lo hi answer = answer ∨
      (search p probes lo hi answer ≤ hi ∧ p (search p probes lo hi answer) = true) := by
  induction probes generalizing lo hi answer with
  | zero => exact Or.inl rfl
  | succ probes ih =>
    rw [search]
    split
    · split
      · rename_i hp
        rcases @ih (lo + (hi - lo) / 2 + 1) hi (lo + (hi - lo) / 2) with h | h
        · rw [h]
          exact Or.inr ⟨by omega, hp⟩
        · exact Or.inr h
      · rcases @ih lo (lo + (hi - lo) / 2 - 1) answer with h | h
        · exact Or.inl h
        · exact Or.inr ⟨by omega, h.2⟩
    · exact Or.inl rfl

end Bisect

namespace Narrowing

variable {mid : Nat → Nat → Nat} {p : Nat → Bool} {d probes first last : Nat}

end Narrowing
