import LaunchAuditor.Lib.Decimal
import Mathlib.Algebra.Order.Floor.Semifield
import Mathlib.Data.Rat.Floor
import Mathlib.Data.Nat.Log
import Mathlib.Tactic.FieldSimp
import Mathlib.Tactic.Linarith
import Mathlib.Tactic.Positivity

/-! Binary floating-point numbers: the one next to a rational, and the shortest decimal that
reads back as a number. The two zeros are one number. -/

/-- Magnitudes of `bits` bits, multiples of `2 ^ -scale`, fewer than `2 ^ top` of them. -/
structure Floating where
  bits : Nat
  scale : Nat
  top : Nat
  pos : 0 < bits

namespace Floating

def binary64 : Floating := ⟨53, 1074, 2098, by omega⟩

/-- To the nearest integer, from the middle to the even one. -/
def roundEven (x : ℚ) : Nat :=
  let n := ⌊x⌋₊
  if x - n < 1 / 2 then n else if 1 / 2 < x - n then n + 1 else if n % 2 = 0 then n else n + 1

theorem roundEven_le (x : ℚ) : roundEven x ≤ ⌊x⌋₊ + 1 := by
  simp only [roundEven]
  split_ifs <;> omega

theorem le_roundEven (x : ℚ) : ⌊x⌋₊ ≤ roundEven x := by
  simp only [roundEven]
  split_ifs <;> omega

theorem roundEven_mono {x y : ℚ} (h : x ≤ y) : roundEven x ≤ roundEven y := by
  rcases Nat.lt_or_eq_of_le (Nat.floor_le_floor h) with hlt | heq
  · exact (roundEven_le x).trans (hlt.trans_le (le_roundEven y))
  · simp only [roundEven, heq]
    split_ifs
    all_goals first | omega | (exfalso; linarith)

/-- No integer is nearer. -/
theorem roundEven_error {x : ℚ} (h : 0 ≤ x) : |(roundEven x : ℚ) - x| ≤ 1 / 2 := by
  have hlow := Nat.floor_le h
  have hhigh := Nat.lt_floor_add_one x
  simp only [roundEven]
  split_ifs
  all_goals
    rw [abs_le]
    push_cast
    constructor <;> linarith

/-- The integer that is less than one half away. -/
theorem roundEven_eq {x : ℚ} {n : Nat} (hx : 0 ≤ x) (h : |x - n| < 1 / 2) : roundEven x = n := by
  have herror := abs_le.mp (roundEven_error hx)
  have hnear := abs_lt.mp h
  have hlow : (n : ℚ) < roundEven x + 1 := by linarith [herror.1]
  have hhigh : (roundEven x : ℚ) < n + 1 := by linarith [herror.2]
  have hlow' : n < roundEven x + 1 := by exact_mod_cast hlow
  have hhigh' : roundEven x < n + 1 := by exact_mod_cast hhigh
  omega

@[simp] theorem roundEven_natCast (n : Nat) : roundEven n = n := by
  simp [roundEven]

section Rounding
variable (F : Floating)

/-- The bits of a magnitude behind the leading ones. -/
def excess (n : Nat) : Nat := n.log2 + 1 - F.bits

/-- What the bits hold. -/
def fits (n : Nat) : Bool := decide (2 ^ F.excess n ∣ n)

/-- The magnitude next to a number of units. -/
def nearest (x : ℚ) : Nat := roundEven (x / (2 ^ F.excess ⌊x⌋₊ : Nat)) * 2 ^ F.excess ⌊x⌋₊

variable {F}

theorem excess_le {n k : Nat} (h : n < 2 ^ (F.bits + k)) : F.excess n ≤ k := by
  have hbits := F.pos
  by_cases hn : n = 0
  · simp only [hn, excess, Nat.log2_zero]
    omega
  · have hlog : n.log2 < F.bits + k := (Nat.log2_lt hn).mpr h
    simp only [excess]
    omega

theorem excess_eq {n k : Nat} (hlow : 2 ^ (F.bits - 1 + k) ≤ n) (hhigh : n < 2 ^ (F.bits + k)) : F.excess n = k := by
  have hbits := F.pos
  have hpos : n ≠ 0 := (Nat.lt_of_lt_of_le (Nat.two_pow_pos _) hlow).ne'
  have hlog : F.bits - 1 + k ≤ n.log2 := (Nat.le_log2 hpos).mpr hlow
  have hle := excess_le hhigh
  simp only [excess] at hle ⊢
  omega

theorem fits_mul {m k : Nat} (h : m ≤ 2 ^ F.bits) : F.fits (m * 2 ^ k) := by
  have hbits := F.pos
  simp only [fits, decide_eq_true_eq]
  rcases Nat.lt_or_eq_of_le h with hlt | rfl
  · have hbound : m * 2 ^ k < 2 ^ (F.bits + k) := by
      rw [Nat.pow_add]
      exact Nat.mul_lt_mul_of_pos_right hlt (Nat.two_pow_pos k)
    exact Nat.dvd_trans (Nat.pow_dvd_pow 2 (excess_le hbound)) (Nat.dvd_mul_left ..)
  · rw [← Nat.pow_add, excess, Nat.log2_two_pow]
    exact Nat.pow_dvd_pow 2 (by omega)

theorem excess_mono {m n : Nat} (h : m ≤ n) : F.excess m ≤ F.excess n := by
  have hlog : m.log2 ≤ n.log2 := by
    rw [Nat.log2_eq_log_two, Nat.log2_eq_log_two]
    exact Nat.log_mono_right h
  simp only [excess]
  omega

theorem floor_div_pow (x : ℚ) (k : Nat) : ⌊x / (2 ^ k : Nat)⌋₊ = ⌊x⌋₊ / 2 ^ k := Nat.floor_div_natCast x _

/-- What is left of a magnitude is rounded to no more than the bits. -/
theorem roundEven_excess (x : ℚ) : roundEven (x / (2 ^ F.excess ⌊x⌋₊ : Nat)) ≤ 2 ^ F.bits := by
  have hlog : ⌊x⌋₊ < 2 ^ (⌊x⌋₊.log2 + 1) := Nat.lt_log2_self
  have hpow : 2 ^ (⌊x⌋₊.log2 + 1) ≤ 2 ^ F.excess ⌊x⌋₊ * 2 ^ F.bits := by
    rw [← Nat.pow_add]
    exact Nat.pow_le_pow_right (by omega) (by simp only [excess]; omega)
  have hquot : ⌊x⌋₊ / 2 ^ F.excess ⌊x⌋₊ < 2 ^ F.bits := Nat.div_lt_of_lt_mul (Nat.lt_of_lt_of_le hlog hpow)
  have hround := roundEven_le (x / (2 ^ F.excess ⌊x⌋₊ : Nat))
  rw [floor_div_pow] at hround
  omega

theorem nearest_fits (x : ℚ) : F.fits (F.nearest x) := fits_mul (roundEven_excess x)

theorem nearest_le_pow (x : ℚ) : F.nearest x ≤ 2 ^ (F.bits + F.excess ⌊x⌋₊) := by
  rw [nearest, Nat.pow_add]
  exact Nat.mul_le_mul_right _ (roundEven_excess x)

theorem pow_le_nearest {x : ℚ} {k : Nat} (h : k < F.excess ⌊x⌋₊) : 2 ^ (F.bits + k) ≤ F.nearest x := by
  have hbits := F.pos
  have hne : ⌊x⌋₊ ≠ 0 := by
    intro hzero
    simp only [hzero, excess, Nat.log2_zero] at h
    omega
  have hround := le_roundEven (x / (2 ^ F.excess ⌊x⌋₊ : Nat))
  rw [floor_div_pow] at hround
  have hpow : 2 ^ (F.bits + k) ≤ 2 ^ (⌊x⌋₊.log2 - F.excess ⌊x⌋₊) * 2 ^ F.excess ⌊x⌋₊ := by
    rw [← Nat.pow_add]
    exact Nat.pow_le_pow_right (by omega) (by simp only [excess] at h ⊢; omega)
  have hquot : 2 ^ (⌊x⌋₊.log2 - F.excess ⌊x⌋₊) ≤ ⌊x⌋₊ / 2 ^ F.excess ⌊x⌋₊ := by
    rw [Nat.le_div_iff_mul_le (Nat.two_pow_pos _), ← Nat.pow_add]
    refine le_trans (Nat.pow_le_pow_right (by omega) ?_) (Nat.log2_self_le hne)
    simp only [excess] at h ⊢
    omega
  exact hpow.trans (Nat.mul_le_mul_right _ (hquot.trans hround))

theorem nearest_mono {x y : ℚ} (h : x ≤ y) : F.nearest x ≤ F.nearest y := by
  rcases Nat.lt_or_eq_of_le (excess_mono (F := F) (Nat.floor_le_floor h)) with hlt | heq
  · -- a power of two lies between the two
    exact (nearest_le_pow x).trans (pow_le_nearest hlt)
  · rw [nearest, nearest, ← heq]
    exact Nat.mul_le_mul_right _ (roundEven_mono (div_le_div_of_nonneg_right h (Nat.cast_nonneg _)))

theorem nearest_error {x : ℚ} (hx : 0 ≤ x) {k : Nat} (h : x < 2 ^ (F.bits + k)) :
    |(F.nearest x : ℚ) - x| ≤ 2 ^ k / 2 := by
  have hfloor : ⌊x⌋₊ < 2 ^ (F.bits + k) := (Nat.floor_lt hx).mpr (by exact_mod_cast h)
  have hpow : (2 : ℚ) ^ F.excess ⌊x⌋₊ ≤ 2 ^ k := pow_le_pow_right₀ (by norm_num) (excess_le hfloor)
  have hunit : (0 : ℚ) < 2 ^ F.excess ⌊x⌋₊ := by positivity
  have hround := roundEven_error (x := x / 2 ^ F.excess ⌊x⌋₊) (by positivity)
  have hscaled : (F.nearest x : ℚ) - x =
      (roundEven (x / 2 ^ F.excess ⌊x⌋₊) - x / 2 ^ F.excess ⌊x⌋₊) * 2 ^ F.excess ⌊x⌋₊ := by
    rw [nearest, sub_mul, div_mul_cancel₀ _ hunit.ne']
    push_cast
    rfl
  rw [hscaled, abs_mul, abs_of_pos hunit]
  calc |(roundEven (x / 2 ^ F.excess ⌊x⌋₊) : ℚ) - x / 2 ^ F.excess ⌊x⌋₊| * 2 ^ F.excess ⌊x⌋₊
      ≤ 1 / 2 * 2 ^ k := mul_le_mul hround hpow hunit.le (by norm_num)
    _ = 2 ^ k / 2 := by ring

/-- What fits is not moved. -/
theorem nearest_of_fits {n : Nat} (h : F.fits n) : F.nearest n = n := by
  obtain ⟨m, hm⟩ : 2 ^ F.excess n ∣ n := by simpa [fits] using h
  have hquot : (n : ℚ) / (2 ^ F.excess n : Nat) = (m : ℚ) := by
    have hne : ((2 ^ F.excess n : Nat) : ℚ) ≠ 0 := by positivity
    rw [div_eq_iff hne, mul_comm]
    exact_mod_cast hm
  rw [nearest, Nat.floor_natCast, hquot, roundEven_natCast, Nat.mul_comm]
  exact hm.symm

/-- The number next to a rational, with no bound on it. -/
def rounded (F : Floating) (q : ℚ) : ℚ :=
  (if q < 0 then -(F.nearest (-q * 2 ^ F.scale) : ℚ) else F.nearest (q * 2 ^ F.scale)) / 2 ^ F.scale

theorem rounded_of_nonneg {q : ℚ} (h : 0 ≤ q) : F.rounded q = F.nearest (q * 2 ^ F.scale) / 2 ^ F.scale := by
  rw [rounded, if_neg (not_lt.mpr h)]

theorem rounded_of_units {n : Nat} (h : F.fits n) : F.rounded (n / 2 ^ F.scale) = n / 2 ^ F.scale := by
  rw [rounded_of_nonneg (by positivity), div_mul_cancel₀ _ (by positivity), nearest_of_fits h]

@[simp] theorem rounded_zero : F.rounded 0 = 0 := by
  have h := rounded_of_units (F := F) (n := 0) (by simp [fits])
  simpa using h

theorem rounded_neg (q : ℚ) : F.rounded (-q) = -F.rounded q := by
  rcases lt_trichotomy q 0 with h | rfl | h
  · rw [rounded, rounded, if_neg (by linarith), if_pos h, neg_div, neg_neg]
  · simp
  · rw [rounded, rounded, if_pos (by linarith), if_neg (by linarith), neg_neg, neg_div]

theorem rounded_nonneg {q : ℚ} (h : 0 ≤ q) : 0 ≤ F.rounded q := by
  rw [rounded_of_nonneg h]
  positivity

/-- What holds of the numbers from 0 on and goes with the sign holds of all. -/
theorem rounded_mono {q r : ℚ} (h : q ≤ r) : F.rounded q ≤ F.rounded r := by
  have hnonneg : ∀ {q r : ℚ}, 0 ≤ q → q ≤ r → F.rounded q ≤ F.rounded r := by
    intro q r hq hr
    rw [rounded_of_nonneg hq, rounded_of_nonneg (hq.trans hr)]
    refine div_le_div_of_nonneg_right (Nat.cast_le.mpr (nearest_mono ?_)) (by positivity)
    exact mul_le_mul_of_nonneg_right hr (by positivity)
  rcases le_total 0 q with hq | hq
  · exact hnonneg hq h
  · rcases le_total 0 r with hr | hr
    · have hneg := rounded_nonneg (F := F) (neg_nonneg.mpr hq)
      rw [rounded_neg] at hneg
      exact (neg_nonneg.mp hneg).trans (rounded_nonneg hr)
    · have hneg := hnonneg (neg_nonneg.mpr hr) (neg_le_neg h)
      rw [rounded_neg, rounded_neg] at hneg
      exact neg_le_neg_iff.mp hneg

theorem rounded_rounded (q : ℚ) : F.rounded (F.rounded q) = F.rounded q := by
  rcases le_total 0 q with h | h
  · rw [rounded_of_nonneg h, rounded_of_units (nearest_fits _)]
  · have hneg : F.rounded (F.rounded (-q)) = F.rounded (-q) := by
      rw [rounded_of_nonneg (neg_nonneg.mpr h), rounded_of_units (nearest_fits _)]
    rw [rounded_neg, rounded_neg] at hneg
    exact neg_inj.mp hneg

/-- A fraction of few bits is a number of the format. -/
theorem rounded_dyadic {n k : Nat} (hn : n ≤ 2 ^ F.bits) (hk : k ≤ F.scale) : F.rounded (n / 2 ^ k) = n / 2 ^ k := by
  have hunits : (n : ℚ) / 2 ^ k = (n * 2 ^ (F.scale - k) : Nat) / 2 ^ F.scale := by
    obtain ⟨j, hj⟩ := Nat.exists_eq_add_of_le hk
    rw [hj, Nat.add_sub_cancel_left, pow_add]
    push_cast
    field_simp
  rw [hunits, rounded_of_units (fits_mul hn)]

/-- The number of the format that is less than half a unit away. -/
theorem rounded_eq {q : ℚ} {n k : Nat} (hk : k ≤ F.scale) (hlow : 2 ^ (F.bits - 1) ≤ q * 2 ^ k)
    (hhigh : q * 2 ^ k < 2 ^ F.bits) (hnear : |q * 2 ^ k - n| < 1 / 2) : F.rounded q = n / 2 ^ k := by
  obtain ⟨j, hj⟩ := Nat.exists_eq_add_of_le hk
  have hpow : (0 : ℚ) < 2 ^ k := by positivity
  have hscaled : 0 ≤ q * 2 ^ k := le_trans (by positivity) hlow
  have hq : 0 ≤ q := nonneg_of_mul_nonneg_left hscaled hpow
  have hunits : q * 2 ^ F.scale = q * 2 ^ k * 2 ^ j := by rw [hj, pow_add, mul_assoc]
  have hexcess : F.excess ⌊q * 2 ^ F.scale⌋₊ = j := by
    apply excess_eq
    · apply Nat.le_floor
      rw [hunits, pow_add]
      push_cast
      exact mul_le_mul_of_nonneg_right hlow (by positivity)
    · rw [Nat.floor_lt (by positivity), hunits, pow_add]
      push_cast
      exact mul_lt_mul_of_pos_right hhigh (by positivity)
  have hquot : q * 2 ^ F.scale / (2 ^ j : Nat) = q * 2 ^ k := by
    rw [hunits]
    push_cast
    exact mul_div_cancel_right₀ _ (by positivity)
  rw [rounded_of_nonneg hq, nearest, hexcess, hquot, roundEven_eq hscaled hnear, hj, pow_add]
  push_cast
  exact mul_div_mul_right _ _ (by positivity)

theorem rounded_natCast {n : Nat} (hn : n ≤ 2 ^ F.bits) : F.rounded n = n := by
  have h := rounded_dyadic (F := F) hn (Nat.zero_le _)
  simpa using h

theorem rounded_error {q : ℚ} {k : Nat} (hk : F.bits ≤ F.scale + k) (h : |q| < 2 ^ k) :
    |F.rounded q - q| ≤ 2 ^ k / 2 ^ (F.bits + 1) := by
  have hnonneg : ∀ {q : ℚ}, 0 ≤ q → q < 2 ^ k → |F.rounded q - q| ≤ 2 ^ k / 2 ^ (F.bits + 1) := by
    intro q hq hlt
    have hscale : (0 : ℚ) < 2 ^ F.scale := by positivity
    obtain ⟨j, hj⟩ := Nat.exists_eq_add_of_le hk
    have hunits : q * 2 ^ F.scale < 2 ^ (F.bits + j) := by
      rw [← hj, Nat.add_comm, pow_add]
      exact mul_lt_mul_of_pos_right hlt hscale
    have herror := nearest_error (F := F) (mul_nonneg hq hscale.le) hunits
    have hdiff : F.rounded q - q = (F.nearest (q * 2 ^ F.scale) - q * 2 ^ F.scale) / 2 ^ F.scale := by
      rw [rounded_of_nonneg hq, sub_div, mul_div_cancel_right₀ _ hscale.ne']
    rw [hdiff, abs_div, abs_of_pos hscale, div_le_div_iff₀ hscale (by positivity)]
    calc |(F.nearest (q * 2 ^ F.scale) : ℚ) - q * 2 ^ F.scale| * 2 ^ (F.bits + 1)
        ≤ 2 ^ j / 2 * 2 ^ (F.bits + 1) := mul_le_mul_of_nonneg_right herror (by positivity)
      _ = 2 ^ (F.bits + j) := by ring
      _ = 2 ^ k * 2 ^ F.scale := by rw [← hj, ← pow_add, Nat.add_comm]
  rcases le_total 0 q with hq | hq
  · rw [abs_of_nonneg hq] at h
    exact hnonneg hq h
  · rw [abs_of_nonpos hq] at h
    have herror := hnonneg (neg_nonneg.mpr hq) h
    rwa [rounded_neg, sub_neg_eq_add, neg_add_eq_sub, abs_sub_comm] at herror

end Rounding

/-- The numbers that are not infinite. -/
structure Finite (F : Floating) where
  /-- multiples of `2 ^ -scale` -/
  units : Int
  fits : F.fits units.natAbs
  bounded : units.natAbs < 2 ^ F.top

inductive Number (F : Floating) where
  | finite (x : Finite F)
  | infinite (negative : Bool)

def signed (negative : Bool) (n : Nat) : Int := if negative then -n else n

@[simp] theorem natAbs_signed (negative : Bool) (n : Nat) : (signed negative n).natAbs = n := by
  cases negative <;> simp [signed]

variable {F : Floating}

theorem Finite.ext {x y : Finite F} (h : x.units = y.units) : x = y := by
  cases x
  cases y
  cases h
  rfl

def ofUnits (negative : Bool) (n : Nat) (h : F.fits n) : Number F :=
  if hb : n < 2 ^ F.top then
    .finite ⟨signed negative n, by rwa [natAbs_signed], by rwa [natAbs_signed]⟩
  else .infinite negative

/-- The number that is read for a rational. -/
def ofRat (F : Floating) (q : ℚ) : Number F := ofUnits (q < 0) (F.nearest (|q| * 2 ^ F.scale)) (nearest_fits _)

section Shortest
variable (F)

/-- A magnitude of `u` units is this many times `10 ^ -scale`. -/
def exactDigits (u : Nat) : Nat := u * 5 ^ F.scale

/-- `s` with `j` more digits behind it. -/
def readsBack (u s j : Nat) : Bool := F.nearest ((s : ℚ) * 10 ^ j / 5 ^ F.scale) == u

/-- The better one of the two decimals next to the magnitude that have `j` digits less. -/
def candidate (u j : Nat) : Option Nat :=
  let s := F.exactDigits u / 10 ^ j
  let low := 0 < s && F.readsBack u s j
  let high := F.readsBack u (s + 1) j
  let below := F.exactDigits u - s * 10 ^ j
  let above := (s + 1) * 10 ^ j - F.exactDigits u
  if low && high then
    some (if below < above then s else if above < below then s + 1 else if s % 2 = 0 then s else s + 1)
  else if low then some s
  else if high then some (s + 1)
  else none

/-- Of at most `j` digits, as many dropped as can be. -/
def shortestFrom (u : Nat) : Nat → Nat × Nat
  | 0 => (F.exactDigits u, 0)
  | j + 1 => match F.candidate u (j + 1) with
    | some s => (s, j + 1)
    | none => shortestFrom u j

def shortest (u : Nat) : Nat × Nat := F.shortestFrom u (Nat.toDigits 10 (F.exactDigits u)).length

variable {F}

theorem candidate_readsBack {u j s : Nat} (h : F.candidate u j = some s) : 0 < s ∧ F.readsBack u s j := by
  simp only [candidate] at h
  split at h
  · rename_i hboth
    simp only [Bool.and_eq_true, decide_eq_true_eq] at hboth
    simp only [Option.some.injEq] at h
    split_ifs at h
    all_goals subst h
    · exact ⟨hboth.1.1, hboth.1.2⟩
    · exact ⟨Nat.succ_pos _, hboth.2⟩
    · exact ⟨hboth.1.1, hboth.1.2⟩
    · exact ⟨Nat.succ_pos _, hboth.2⟩
  · split at h
    · rename_i hlow
      simp only [Bool.and_eq_true, decide_eq_true_eq] at hlow
      simp only [Option.some.injEq] at h
      subst h
      exact hlow
    · split at h
      · rename_i hhigh
        simp only [Option.some.injEq] at h
        subst h
        exact ⟨Nat.succ_pos _, hhigh⟩
      · cases h

theorem exact_readsBack {u : Nat} (h : F.fits u) : F.readsBack u (F.exactDigits u) 0 := by
  have hunits : ((F.exactDigits u : Nat) : ℚ) * 10 ^ 0 / 5 ^ F.scale = u := by
    simp [exactDigits]
  rw [readsBack, hunits, nearest_of_fits h]
  exact beq_self_eq_true u

theorem shortestFrom_readsBack {u : Nat} (h : F.fits u) (hu : 0 < u) (j : Nat) :
    0 < (F.shortestFrom u j).1 ∧ F.readsBack u (F.shortestFrom u j).1 (F.shortestFrom u j).2 := by
  induction j with
  | zero => exact ⟨Nat.mul_pos hu (Nat.pow_pos (by omega)), exact_readsBack h⟩
  | succ j ih =>
    rw [shortestFrom]
    split
    · rename_i s hs
      exact candidate_readsBack hs
    · exact ih

end Shortest

def Finite.literal (x : Finite F) : Decimal.Literal :=
  if x.units = 0 then { negative := false, whole := ['0'], fraction := [], exponent := none }
  else Decimal.layout (x.units < 0) (F.shortest x.units.natAbs).1 ((F.shortest x.units.natAbs).2 - F.scale)

theorem Finite.literal_wellFormed (x : Finite F) : x.literal.wellFormed := by
  rw [literal]
  split
  · rfl
  · rename_i hunits
    have hshort := shortestFrom_readsBack x.fits (Int.natAbs_pos.mpr hunits)
    exact Decimal.layout_wellFormed _ _ (hshort _).1

theorem ofRat_of_nearest {q : ℚ} {x : Finite F} (hsign : x.units = signed (q < 0) x.units.natAbs)
    (h : F.nearest (|q| * 2 ^ F.scale) = x.units.natAbs) : ofRat F q = .finite x := by
  have hbound : F.nearest (|q| * 2 ^ F.scale) < 2 ^ F.top := by
    rw [h]
    exact x.bounded
  rw [ofRat, ofUnits, dif_pos hbound]
  congr 1
  apply Finite.ext
  rw [hsign]
  exact congrArg (signed (q < 0)) h

/-- A magnitude and the sign. -/
theorem ofRat_signed {x : Finite F} {m : ℚ} (hm : 0 < m) (h : F.nearest (m * 2 ^ F.scale) = x.units.natAbs) :
    ofRat F (if x.units < 0 then -m else m) = .finite x := by
  by_cases hneg : x.units < 0
  · rw [if_pos hneg]
    apply ofRat_of_nearest
    · have hlt : -m < 0 := neg_lt_zero.mpr hm
      simp only [signed, hlt, decide_true, ↓reduceIte]
      omega
    · rwa [abs_neg, abs_of_pos hm]
  · rw [if_neg hneg]
    apply ofRat_of_nearest
    · have hge : ¬ m < 0 := not_lt.mpr hm.le
      simp only [signed, hge, decide_false, Bool.false_eq_true, ↓reduceIte]
      omega
    · rwa [abs_of_pos hm]

theorem decimal_units (s j : Nat) :
    (s : ℚ) * 10 ^ ((j : Int) - F.scale) * 2 ^ F.scale = s * 10 ^ j / 5 ^ F.scale := by
  have hten : (10 : ℚ) ^ F.scale = 5 ^ F.scale * 2 ^ F.scale := by
    rw [← mul_pow]
    norm_num
  rw [zpow_sub₀ (by norm_num), zpow_natCast, zpow_natCast, hten]
  field_simp

/-- A number is what is read for its text. -/
theorem Finite.ofRat_literal (x : Finite F) : ofRat F x.literal.value = .finite x := by
  by_cases hunits : x.units = 0
  · have hvalue : x.literal.value = 0 := by
      simp [literal, hunits, Decimal.Literal.value, Decimal.Literal.magnitude, Nat.ofDigitChars_cons]
    have hzero : F.fits 0 := by simp [Floating.fits]
    apply ofRat_of_nearest
    · simp [hvalue, signed, hunits]
    · have hnearest := nearest_of_fits hzero
      simpa [hvalue, hunits] using hnearest
  · obtain ⟨hpos, hback⟩ := shortestFrom_readsBack x.fits (Int.natAbs_pos.mpr hunits)
      (Nat.toDigits 10 (F.exactDigits x.units.natAbs)).length
    obtain ⟨⟨s, j⟩, hs⟩ : ∃ p, F.shortest x.units.natAbs = p := ⟨_, rfl⟩
    rw [← shortest, hs] at hpos hback
    have hvalue : x.literal.value =
        if x.units < 0 then -((s : ℚ) * 10 ^ ((j : Int) - F.scale)) else (s : ℚ) * 10 ^ ((j : Int) - F.scale) := by
      simp [literal, hunits, hs, Decimal.Literal.value, Decimal.layout_magnitude]
    have hspos : (0 : ℚ) < s := by exact_mod_cast hpos
    rw [hvalue]
    apply ofRat_signed
    · exact mul_pos hspos (zpow_pos (by norm_num) _)
    · rw [decimal_units]
      exact eq_of_beq hback

end Floating
