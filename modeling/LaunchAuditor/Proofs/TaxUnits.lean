import LaunchAuditor.Scanners
import LaunchAuditor.Scoring.Mappings
import Mathlib.Algebra.Order.Group.MinMax

namespace LaunchAuditor.Proofs.TaxUnits
open OrderedMap Scoring Scoring.Mappings

/-- The risk of a payload in a cell. -/
def riskIn (o : Members) (key : OutcomeKey) : Option ℚ :=
  ((goplusToProbabilities (some (.obj o))).lookup key).map (risk key)

def NeverLower (before after : Members) : Prop :=
  ∀ key, ∀ p ∈ riskIn before key, ∀ q ∈ riskIn after key, p ≤ q

/-- A larger number that stands for less: one that is too large counts as none, and one that is no longer a fraction counts
as percent. -/
def Drops (n m : ℚ) : Prop := m < n ∨ (n ≤ 1 ∧ 1 < m ∧ m < 25 ∧ m < 100 * n)

/-- What a tax adds to the score, in exact numbers. -/
def tax (n : ℚ) : ℚ := min (1 / 2) (if n ≤ 1 then 2 * n else n / 50)

/-- The score of a payload with this tax and no flag. -/
def score (n : ℚ) : ℚ := clamp01 (1 / 20 + tax n)

def NoFlag (o : Members) : Prop := ∀ f ∈ GOPLUS.flagWeight, asBool (prop f.1 (.obj o)) = false

instance (o : Members) : Decidable (NoFlag o) :=
  inferInstanceAs (Decidable (∀ f ∈ GOPLUS.flagWeight, asBool (prop f.1 (.obj o)) = false))

/-- What a tax adds to the score. -/
def added (n : ℚ) : ℚ :=
  min GOPLUS.sellTaxCap (Js.double (Js.double (n * if n ≤ 1 then 100 else 1) * GOPLUS.sellTaxPerPercent))

section Tax
variable {n m : ℚ}

theorem base_eq : GOPLUS.base = 7205759403792794 / 2 ^ 57 := Js.double_eq 7205759403792794 57 (by norm_num [abs_lt])

theorem perPercent_eq : GOPLUS.sellTaxPerPercent = 5764607523034235 / 2 ^ 58 :=
  Js.double_eq 5764607523034235 58 (by norm_num [abs_lt])

theorem sellTaxCap_eq : GOPLUS.sellTaxCap = 1 / 2 := Js.double_eq (2 ^ 52) 53 (by norm_num)

theorem double_quarters : Js.double (3 / 4) = 3 / 4 := Js.double_eq (3 * 2 ^ 51) 53 (by norm_num)

theorem perPercent_pos : 0 < GOPLUS.sellTaxPerPercent := by
  rw [perPercent_eq]
  norm_num

/-- The tax goes with the percentage. -/
theorem added_mono (h : Js.double (n * if n ≤ 1 then 100 else 1) ≤ Js.double (m * if m ≤ 1 then 100 else 1)) :
    added n ≤ added m :=
  min_le_min le_rfl (Js.double_mono (mul_le_mul_of_nonneg_right h perPercent_pos.le))

theorem added_mono_fraction (hm : m ≤ 1) (h : n ≤ m) : added n ≤ added m := by
  apply added_mono
  rw [if_pos hm, if_pos (h.trans hm)]
  exact Js.double_mono (by linarith)

theorem added_mono_percent (hn : 1 < n) (h : n ≤ m) : added n ≤ added m := by
  apply added_mono
  rw [if_neg (not_le.mpr hn), if_neg (not_le.mpr (hn.trans_le h))]
  exact Js.double_mono (by linarith)

theorem added_le_cap (n : ℚ) : added n ≤ GOPLUS.sellTaxCap := min_le_left _ _

/-- From 25 percent on, the cap is reached. -/
theorem added_twentyFive : added 25 = GOPLUS.sellTaxCap := by
  have hpercent : Js.double (25 * if (25 : ℚ) ≤ 1 then 100 else 1) = 25 := by
    rw [if_neg (by norm_num), mul_one]
    exact Js.double_natCast (n := 25) (by norm_num)
  rw [added, hpercent]
  apply min_eq_left
  calc GOPLUS.sellTaxCap = Js.double GOPLUS.sellTaxCap := (Js.double_double _).symm
    _ ≤ Js.double (25 * GOPLUS.sellTaxPerPercent) := Js.double_mono (by rw [sellTaxCap_eq, perPercent_eq]; norm_num)

theorem added_le (h : ¬ Drops n m) : added n ≤ added m := by
  rw [Drops, not_or, not_lt] at h
  obtain ⟨hle, hdrop⟩ := h
  by_cases hm1 : m ≤ 1
  · exact added_mono_fraction hm1 hle
  · by_cases hn1 : n ≤ 1
    · by_cases hcap : 25 ≤ m
      · refine (added_le_cap n).trans ?_
        rw [← added_twentyFive]
        exact added_mono_percent (by norm_num) hcap
      · have hpercent : 100 * n ≤ m := not_lt.mp fun hlt => hdrop ⟨hn1, not_le.mp hm1, not_le.mp hcap, hlt⟩
        apply added_mono
        rw [if_neg hm1, if_pos hn1]
        exact Js.double_mono (by linarith)
    · exact added_mono_percent (not_le.mp hn1) hle

end Tax

section Cells
variable {before after : Members} {key : OutcomeKey} {raw raw' factor : ℚ}

theorem risk_goplusCell_mono (h : raw ≤ raw') (hfactor : 0 ≤ factor) :
    risk key (goplusCell raw key factor) ≤ risk key (goplusCell raw' key factor) := by
  have hp := min_le_min (le_refl GOPLUS.cap) (clamp01_mono (Js.double_mono (mul_le_mul_of_nonneg_right h hfactor)))
  unfold risk goplusCell
  cases outcomeIsPositive key with
  | true => exact sub_le_sub_left (Js.roundDouble_mono 10000 (Js.double_mono (sub_le_sub_left hp 1))) 1
  | false => exact Js.roundDouble_mono 10000 hp

theorem riskIn_eq (o : Members) (key : OutcomeKey) : riskIn o key = (GOPLUS.outcomeFactor.lookup key).map fun factor =>
    risk key (goplusCell (goplusRaw (.obj o)) key factor) := by
  have hcells : (goplusToProbabilities (some (.obj o))).lookup key =
      (GOPLUS.outcomeFactor.lookup key).map (goplusCell (goplusRaw (.obj o)) key) :=
    goplus_factors.lookup_cells _ key
  rw [riskIn, hcells, Option.map_map]
  rfl

theorem neverLower_of_le (h : goplusRaw (.obj before) ≤ goplusRaw (.obj after)) : NeverLower before after := by
  intro key p hp q hq
  rw [riskIn_eq] at hp hq
  obtain ⟨factor, hfactor, rfl⟩ := Option.map_eq_some_iff.mp hp
  rw [hfactor] at hq
  obtain rfl := Option.some.inj hq
  exact risk_goplusCell_mono h (goplus_factors.factor_nonneg hfactor)

end Cells

section Payload
variable {k s t : String} {v : Json} {o : Members} {flags : List (String × ℚ)} {raw raw' : ℚ}

theorem flagWeight_ne : ∀ f ∈ GOPLUS.flagWeight, f.1 ≠ "sell_tax" := by
  simp [GOPLUS.flagWeight]

theorem flagWeight_nonneg : ∀ f ∈ GOPLUS.flagWeight, 0 ≤ f.2 := by
  rw [GOPLUS.flagWeight, List.forall_mem_map]
  intro e he
  apply Js.double_nonneg
  revert e
  norm_num

theorem addFlags_tax (h : ∀ f ∈ flags, f.1 ≠ "sell_tax") :
    addFlags (.obj (set "sell_tax" v o)) raw flags = addFlags (.obj o) raw flags := by
  induction flags generalizing raw with
  | nil => rfl
  | cons f flags ih =>
    obtain ⟨hf, hflags⟩ := List.forall_mem_cons.mp h
    rw [addFlags, addFlags, prop_set, if_neg hf, ih hflags]

/-- What was there of the flag does not matter, and a weight never lowers a double. -/
theorem addFlags_flag (hflags : ∀ f ∈ flags, 0 ≤ f.2) (hraw : Js.double raw' = raw') (h : raw ≤ raw') :
    addFlags (.obj o) raw flags ≤ addFlags (.obj (set k (.str "1") o)) raw' flags := by
  induction flags generalizing raw raw' with
  | nil => exact h
  | cons f flags ih =>
    obtain ⟨hf, hflags⟩ := List.forall_mem_cons.mp hflags
    have hup : raw' ≤ Js.double (raw' + f.2) := hraw.symm.le.trans (Js.double_mono (le_add_of_nonneg_right hf))
    have hboth : Js.double (raw + f.2) ≤ Js.double (raw' + f.2) := Js.double_mono (add_le_add_left h f.2)
    rw [addFlags, addFlags, prop_set]
    by_cases hk : f.1 = k
    · have hone : asBool (some (.str "1")) = true := rfl
      rw [if_pos hk, if_pos hone]
      apply ih hflags (Js.double_double _)
      split
      · exact hboth
      · exact h.trans hup
    · rw [if_neg hk]
      split
      · exact ih hflags (Js.double_double _) hboth
      · exact ih hflags hraw h

theorem addFlags_none (h : ∀ f ∈ flags, asBool (prop f.1 (.obj o)) = false) : addFlags (.obj o) raw flags = raw := by
  induction flags with
  | nil => rfl
  | cons f flags ih =>
    obtain ⟨hf, hflags⟩ := List.forall_mem_cons.mp h
    rw [addFlags, hf, if_neg Bool.false_ne_true, ih hflags]

theorem goplusRaw_tax : goplusRaw (.obj (set "sell_tax" (.str s) o)) =
    clamp01 (Js.double (addFlags (.obj o) GOPLUS.base GOPLUS.flagWeight + added (num (some (.str s))))) := by
  have hprop : prop "sell_tax" (.obj (set "sell_tax" (.str s) o)) = some (.str s) := by rw [prop_set, if_pos rfl]
  rw [goplusRaw, addFlags_tax flagWeight_ne, sellTaxPct, hprop]
  rfl

theorem neverLower_flag (h : k ≠ "sell_tax") : NeverLower o (set k (.str "1") o) := by
  apply neverLower_of_le
  have htax : sellTaxPct (.obj (set k (.str "1") o)) = sellTaxPct (.obj o) := by
    rw [sellTaxPct, sellTaxPct, prop_set, if_neg h.symm]
  rw [goplusRaw, goplusRaw, htax]
  exact clamp01_mono (Js.double_mono (add_le_add_left (addFlags_flag flagWeight_nonneg (Js.double_double _) le_rfl) _))

/-- The number of a text is a double. -/
theorem num_double (s : String) : Js.double (num (some (.str s))) = num (some (.str s)) := by
  have hnum : num (some (.str s)) = (((Js.stringValue s).filter Js.finite).map Js.double).getD 0 := rfl
  rw [hnum]
  cases (Js.stringValue s).filter Js.finite with
  | none => exact Js.double_zero
  | some x => exact Js.double_double x

theorem neverLower_tax (h : ¬ Drops (num (some (.str s))) (num (some (.str t)))) :
    NeverLower (set "sell_tax" (.str s) o) (set "sell_tax" (.str t) o) := by
  apply neverLower_of_le
  rw [goplusRaw_tax, goplusRaw_tax]
  exact clamp01_mono (Js.double_mono (add_le_add_right (added_le h) _))

end Payload

section Shown
variable {n m : ℚ}

theorem base_near : |GOPLUS.base - 1 / 20| ≤ 1 / 2 ^ 54 := by
  rw [base_eq]
  norm_num [abs_le]

theorem perPercent_near : |GOPLUS.sellTaxPerPercent - 1 / 50| ≤ 1 / 2 ^ 54 := by
  rw [perPercent_eq]
  norm_num [abs_le]

/-- A percentage that is read as a double, times its weight. -/
theorem product_near {percent : ℚ} (h : |percent| ≤ 100) :
    |Js.double percent * GOPLUS.sellTaxPerPercent - percent / 50| ≤ 1 / 2 ^ 46 := by
  have hread : |Js.double percent - percent| ≤ 2 ^ 7 / 2 ^ 54 := Js.double_error (h.trans_lt (by norm_num))
  have hrate := perPercent_near
  have hsplit : Js.double percent * GOPLUS.sellTaxPerPercent - percent / 50 =
      (Js.double percent - percent) * GOPLUS.sellTaxPerPercent + percent * (GOPLUS.sellTaxPerPercent - 1 / 50) := by ring
  have hfirst : |(Js.double percent - percent) * GOPLUS.sellTaxPerPercent| ≤ 2 ^ 7 / 2 ^ 54 * (1 / 40) := by
    rw [abs_mul]
    refine mul_le_mul hread ?_ (abs_nonneg _) (by norm_num)
    rw [abs_of_pos perPercent_pos]
    linarith [(abs_le.mp hrate).2]
  have hsecond : |percent * (GOPLUS.sellTaxPerPercent - 1 / 50)| ≤ 100 * (1 / 2 ^ 54) := by
    rw [abs_mul]
    exact mul_le_mul h hrate (abs_nonneg _) (by norm_num)
  rw [hsplit]
  refine (abs_add_le _ _).trans ((add_le_add hfirst hsecond).trans ?_)
  norm_num

theorem added_near (hlow : -(1 / 40) ≤ n) (hhigh : n ≤ 25) : |added n - tax n| ≤ 1 / 2 ^ 44 := by
  obtain ⟨percent, hpercent⟩ : ∃ x, x = n * if n ≤ 1 then 100 else 1 := ⟨_, rfl⟩
  have htax : tax n = min (1 / 2) (percent / 50) := by
    rw [tax, hpercent]
    split_ifs
    · ring_nf
    · ring_nf
  have hbound : |percent| ≤ 100 := by
    rw [hpercent, abs_le]
    split_ifs
    · constructor <;> linarith
    · constructor <;> linarith
  have hproduct := product_near hbound
  have hsmall : |Js.double percent * GOPLUS.sellTaxPerPercent| < 2 ^ 2 := by
    obtain ⟨hbound1, hbound2⟩ := abs_le.mp hbound
    obtain ⟨h1, h2⟩ := abs_le.mp hproduct
    rw [abs_lt]
    constructor
    · linarith
    · linarith
  have hround := Js.double_error hsmall
  rw [added, ← hpercent, htax, sellTaxCap_eq]
  refine (abs_min_sub_min_le_max _ _ _ _).trans ?_
  rw [sub_self, abs_zero, max_eq_right (abs_nonneg _)]
  refine (abs_sub_le _ (Js.double percent * GOPLUS.sellTaxPerPercent) _).trans ((add_le_add hround hproduct).trans ?_)
  norm_num

theorem clamp01_near {x y : ℚ} : |clamp01 x - clamp01 y| ≤ |x - y| := by
  have hclamp : ∀ z, clamp01 z = min (max z 0) 1 := by
    intro z
    unfold clamp01
    split_ifs with hneg hone
    · rw [max_eq_right hneg.le, min_eq_left (by norm_num)]
    · rw [max_eq_left (by linarith), min_eq_right hone.le]
    · rw [max_eq_left (not_lt.mp hneg), min_eq_left (not_lt.mp hone)]
  rw [hclamp, hclamp]
  refine (abs_min_sub_min_le_max _ _ _ _).trans (max_le ?_ ?_)
  · refine (abs_max_sub_max_le_max _ _ _ _).trans (max_le le_rfl ?_)
    rw [sub_self, abs_zero]
    exact abs_nonneg _
  · rw [sub_self, abs_zero]
    exact abs_nonneg _

/-- The score of a payload with this tax and no flag, in doubles. -/
def scored (n : ℚ) : ℚ := clamp01 (Js.double (GOPLUS.base + added n))

theorem scored_mono (h : added n ≤ added m) : scored n ≤ scored m :=
  clamp01_mono (Js.double_mono (add_le_add_right h _))

theorem tax_le_half (n : ℚ) : tax n ≤ 1 / 2 := min_le_left _ _

theorem tax_low (h : -(1 / 40) ≤ n) : -(1 / 20) ≤ tax n := by
  unfold tax
  split_ifs
  · exact le_min (by norm_num) (by linarith)
  · exact le_min (by norm_num) (by linarith)

theorem scored_near (hlow : -(1 / 40) ≤ n) (hhigh : n ≤ 25) : |scored n - score n| ≤ 1 / 2 ^ 43 := by
  have hadded := added_near hlow hhigh
  have hbase := base_near
  have htax := tax_le_half n
  have htax' := tax_low hlow
  obtain ⟨h1, h2⟩ := abs_le.mp hadded
  obtain ⟨h3, h4⟩ := abs_le.mp hbase
  have hsmall : |GOPLUS.base + added n| < 2 ^ 0 := by
    rw [abs_lt]
    constructor
    · linarith
    · linarith
  have hround := Js.double_error hsmall
  have hsum : |GOPLUS.base + added n - (1 / 20 + tax n)| ≤ 1 / 2 ^ 54 + 1 / 2 ^ 44 := by
    rw [show GOPLUS.base + added n - (1 / 20 + tax n) = (GOPLUS.base - 1 / 20) + (added n - tax n) by ring]
    exact (abs_add_le _ _).trans (add_le_add hbase hadded)
  refine clamp01_near.trans ((abs_sub_le _ (GOPLUS.base + added n) _).trans ((add_le_add hround hsum).trans ?_))
  norm_num

theorem score_of_low (h : n < -(1 / 40)) : score n = 0 := by
  have htax : tax n ≤ 2 * n := by
    rw [tax, if_pos (by linarith)]
    exact min_le_right _ _
  rw [score, clamp01, if_pos (by linarith)]

theorem tax_of_high (h : 25 ≤ n) : tax n = 1 / 2 := by
  rw [tax, if_neg (by linarith)]
  exact min_eq_left (by linarith)

theorem score_le_full (n : ℚ) : score n ≤ 11 / 20 := by
  refine (clamp01_mono (y := 11 / 20) (by linarith [tax_le_half n])).trans ?_
  rw [clamp01_of_mem (by norm_num) (by norm_num)]

theorem score_of_high (h : 25 ≤ n) : score n = 11 / 20 := by
  rw [score, tax_of_high h, clamp01_of_mem (by norm_num) (by norm_num)]
  norm_num

theorem le_scored (h : 0 < score n) : score n - 1 / 2 ^ 43 ≤ scored n := by
  have hlow : -(1 / 40) ≤ n := by
    by_contra hlow
    rw [score_of_low (not_le.mp hlow)] at h
    exact lt_irrefl _ h
  rcases le_total n 25 with hhigh | hhigh
  · linarith [(abs_le.mp (scored_near hlow hhigh)).1]
  · have hcap := (abs_le.mp (scored_near (n := 25) (by norm_num) le_rfl)).1
    have hmono := scored_mono (added_mono_percent (by norm_num) hhigh)
    rw [score_of_high le_rfl] at hcap
    rw [score_of_high hhigh]
    linarith

theorem scored_le (h : score m < 11 / 20) : scored m ≤ score m + 1 / 2 ^ 43 := by
  have hhigh : m ≤ 25 := by
    by_contra hhigh
    rw [score_of_high (not_le.mp hhigh).le] at h
    exact lt_irrefl _ h
  rcases le_or_gt (-(1 / 40)) m with hlow | hlow
  · linarith [(abs_le.mp (scored_near hlow hhigh)).2]
  · have hedge := (abs_le.mp (scored_near (n := -(1 / 40)) le_rfl (by norm_num))).2
    have hmono := scored_mono (added_mono_fraction (by norm_num) hlow.le)
    have hzero : score (-(1 / 40)) = 0 := by norm_num [score, tax, clamp01]
    rw [hzero] at hedge
    rw [score_of_low hlow]
    linarith

/-- The cell in which the score stands as it is. -/
def plainCell : OutcomeKey := ⟨.SELL_IMPAIRED, "24h"⟩

theorem riskIn_plain {o : Members} {x : ℚ} (hraw : goplusRaw (.obj o) = x) (hdouble : Js.double x = x) (h0 : 0 ≤ x)
    (hcap : x ≤ 3 / 4) : riskIn o plainCell = some (Js.roundDouble 10000 x) := by
  have hfactor : GOPLUS.outcomeFactor.lookup plainCell = some 1 := congrArg some Js.double_one
  have hle : 3 / 4 ≤ GOPLUS.cap := by
    rw [← double_quarters]
    exact Js.double_mono (by norm_num)
  have hcell : goplusCell x plainCell 1 = Js.roundDouble 10000 x := by
    rw [goplusCell, mul_one, hdouble, clamp01_of_mem h0 (hcap.trans (by norm_num)), min_eq_right (hcap.trans hle)]
    rfl
  rw [riskIn_eq, hfactor, hraw, Option.map_some, hcell]
  rfl

theorem scored_double (n : ℚ) : Js.double (scored n) = scored n := by
  unfold scored clamp01
  split_ifs
  · exact Js.double_zero
  · exact Js.double_one
  · exact Js.double_double _

theorem scored_bounds (n : ℚ) : 0 ≤ scored n ∧ scored n ≤ 3 / 4 := by
  constructor
  · unfold scored clamp01
    split_ifs with hneg
    · exact le_rfl
    · exact zero_le_one
    · exact not_lt.mp hneg
  · have hfull : scored 25 ≤ 3 / 4 := by
      have hround : Js.double (GOPLUS.base + added 25) ≤ 3 / 4 := by
        rw [← double_quarters, added_twentyFive, sellTaxCap_eq, base_eq]
        exact Js.double_mono (by norm_num)
      exact (clamp01_mono hround).trans_eq (clamp01_of_mem (by norm_num) (by norm_num))
    refine (scored_mono ?_).trans hfull
    rw [added_twentyFive]
    exact added_le_cap n

theorem scaled_small {x : ℚ} (hx : 0 ≤ x) (h : x ≤ 1) : |x * (10000 : ℕ)| < 2 ^ 14 := by
  rw [abs_of_nonneg (by positivity)]
  push_cast
  linarith

/-- A little less than a step apart, two shares are scaled to different whole numbers. -/
theorem mathRound_step {x y : ℚ} (hx : 0 ≤ x) (hy : y ≤ 1) (h : x + 1 / 9999 - 1 / 2 ^ 42 ≤ y) :
    Js.mathRound (Js.double (x * (10000 : ℕ))) + 1 ≤ Js.mathRound (Js.double (y * (10000 : ℕ))) := by
  norm_num at h
  obtain ⟨-, hlow⟩ := abs_le.mp (Js.double_error (scaled_small hx (by linarith)))
  obtain ⟨hhigh, -⟩ := abs_le.mp (Js.double_error (scaled_small (by linarith) hy))
  unfold Js.mathRound
  rw [← Int.floor_add_one]
  apply Int.floor_le_floor
  push_cast at hlow hhigh ⊢
  norm_num at hlow hhigh ⊢
  linarith

theorem mathRound_scaled {x : ℚ} (hx : 0 ≤ x) (h : x ≤ 1) :
    0 ≤ Js.mathRound (Js.double (x * (10000 : ℕ))) ∧ Js.mathRound (Js.double (x * (10000 : ℕ))) ≤ 10000 := by
  have hscaled : 0 ≤ Js.double (x * (10000 : ℕ)) := Js.double_nonneg (by positivity)
  obtain ⟨-, hhigh⟩ := abs_le.mp (Js.double_error (scaled_small hx h))
  push_cast at hscaled hhigh ⊢
  refine ⟨Int.floor_nonneg.mpr (add_nonneg hscaled (by norm_num)), ?_⟩
  apply Int.lt_add_one_iff.mp
  apply Int.floor_lt.mpr
  push_cast
  norm_num at hhigh ⊢
  linarith

/-- Different whole steps of the scale are different doubles. -/
theorem steps_lt {a b : ℤ} (ha : 0 ≤ a) (hab : a + 1 ≤ b) (hb : b ≤ 10000) :
    Js.double (a / (10000 : ℕ)) < Js.double (b / (10000 : ℕ)) := by
  have ha' : (0 : ℚ) ≤ a := by exact_mod_cast ha
  have hab' : (a : ℚ) + 1 ≤ b := by exact_mod_cast hab
  have hb' : (b : ℚ) ≤ 10000 := by exact_mod_cast hb
  apply Js.double_lt (k := 1)
  · rw [abs_of_nonneg (by positivity)]
    push_cast
    linarith
  · rw [abs_of_nonneg (div_nonneg (by linarith) (by norm_num))]
    push_cast
    linarith
  · push_cast
    norm_num
    linarith

theorem roundDouble_lt {x y : ℚ} (hx : 0 ≤ x) (hy : y ≤ 1) (h : x + 1 / 9999 - 1 / 2 ^ 42 ≤ y) :
    Js.roundDouble 10000 x < Js.roundDouble 10000 y := by
  have hxy : x ≤ y := by
    norm_num at h
    linarith
  exact steps_lt (mathRound_scaled hx (hxy.trans hy)).1 (mathRound_step hx hy h) (mathRound_scaled (hx.trans hxy) hy).2

theorem not_neverLower {o : Members} {s t : String} (ho : NoFlag o)
    (h : score (num (some (.str t))) + 1 / 9999 ≤ score (num (some (.str s)))) :
    ¬ NeverLower (set "sell_tax" (.str s) o) (set "sell_tax" (.str t) o) := by
  have hraw : ∀ s, goplusRaw (.obj (set "sell_tax" (.str s) o)) = scored (num (some (.str s))) := by
    intro s
    rw [goplusRaw_tax, addFlags_none ho]
    rfl
  have hrisk : ∀ s, riskIn (set "sell_tax" (.str s) o) plainCell = some (Js.roundDouble 10000 (scored (num (some (.str s))))) :=
    fun s => riskIn_plain (hraw s) (scored_double _) (scored_bounds _).1 (scored_bounds _).2
  have hnonneg : 0 ≤ score (num (some (.str t))) := by
    unfold score clamp01
    split_ifs with hneg
    · exact le_rfl
    · exact zero_le_one
    · exact not_lt.mp hneg
  have hbefore := le_scored (n := num (some (.str s))) (by linarith)
  have hafter := scored_le (m := num (some (.str t))) (by linarith [score_le_full (num (some (.str s)))])
  intro hnever
  have hle := hnever plainCell _ (hrisk s) _ (hrisk t)
  refine absurd hle (not_le.mpr (roundDouble_lt (scored_bounds _).1 ((scored_bounds _).2.trans (by norm_num)) ?_))
  norm_num at h hbefore hafter ⊢
  linarith

end Shown

/-- One rate has the percentage of the mapping and the basis points of the scanner. -/
def SameRate (gp : Json) (bps : ℤ) : Prop :=
  ∃ rate : ℚ, Js.double (rate * 100) = sellTaxPct gp ∧ Js.mathRound (Js.double (rate * 10000)) = bps

section Rates
variable {n : ℚ}

/-- A percentage that is the number itself, and basis points for which it is the rate. -/
theorem rates_apart (hn : 1 < n) (rate : ℚ) (hpercent : Js.double (rate * 100) = n) :
    Js.mathRound (Js.double (rate * 10000)) ≠ Js.mathRound (Js.double (n * 10000)) := by
  have hrate : rate < n / 2 := by
    by_contra hle
    have hmono : Js.double (n * 50) ≤ Js.double (rate * 100) := Js.double_mono (by linarith)
    have hnear := (abs_le.mp (Js.double_near (x := n * 50) (by linarith))).1
    norm_num at hnear
    linarith
  have hmono : Js.double (rate * 10000) ≤ Js.double (n * 5000) := Js.double_mono (by linarith)
  have hlow := (abs_le.mp (Js.double_near (x := n * 5000) (by linarith))).2
  have hhigh := (abs_le.mp (Js.double_near (x := n * 10000) (by linarith))).1
  norm_num at hlow hhigh
  have hapart : Js.double (rate * 10000) + 1 / 2 + 1 ≤ Js.double (n * 10000) + 1 / 2 := by linarith
  have hround : Js.mathRound (Js.double (rate * 10000)) + 1 ≤ Js.mathRound (Js.double (n * 10000)) := by
    unfold Js.mathRound
    rw [← Int.floor_add_one]
    exact Int.floor_le_floor hapart
  omega

theorem sameRate_iff {gp : Json} {s : String} {bps : ℤ} (hgp : prop "sell_tax" gp = some (.str s))
    (hbps : Scanners.taxToBps (some s) = some bps) : SameRate gp bps ↔ num (some (.str s)) ≤ 1 := by
  obtain ⟨n, hn, rfl⟩ := Option.map_eq_some_iff.mp hbps
  obtain ⟨s', hs', hnumber⟩ := Option.bind_eq_some_iff.mp hn
  obtain rfl : s = s' := Option.some.inj (Option.filter_eq_some_iff.mp hs').1
  have hnum : num (some (.str s)) = n := by rw [num, hnumber, Option.getD_some]
  have hdouble := num_double s
  rw [SameRate, sellTaxPct, hgp, hnum]
  rw [hnum] at hdouble
  by_cases hone : n ≤ 1
  · rw [if_pos hone]
    exact iff_of_true ⟨n, rfl, rfl⟩ hone
  · rw [if_neg hone, mul_one, hdouble]
    refine iff_of_false ?_ hone
    rintro ⟨rate, hpercent, hround⟩
    exact rates_apart (not_le.mp hone) rate hpercent hround

end Rates

/-- A flag never lowers a risk. A raise of the tax lowers none where the number does not drop, and shows a drop of more
than a step where no flag is set; the rates are the same up to the number 1. -/
theorem goplus_monotone (o : Members) (gp : Json) :
    (∀ k, k ≠ "sell_tax" → NeverLower o (set k (.str "1") o)) ∧
    (∀ s t x y, Js.stringValue s = some x → Js.stringValue t = some y → x < y →
      (¬ Drops (num (some (.str s))) (num (some (.str t))) →
        NeverLower (set "sell_tax" (.str s) o) (set "sell_tax" (.str t) o)) ∧
      (NoFlag o → score (num (some (.str t))) + 1 / 9999 ≤ score (num (some (.str s))) →
        ¬ NeverLower (set "sell_tax" (.str s) o) (set "sell_tax" (.str t) o))) ∧
    (∀ s bps, prop "sell_tax" gp = some (.str s) → Scanners.taxToBps (some s) = some bps →
      (SameRate gp bps ↔ num (some (.str s)) ≤ 1)) :=
  ⟨fun _ h => neverLower_flag h, fun _ _ _ _ _ _ _ => ⟨neverLower_tax, not_neverLower⟩,
    fun _ _ hgp hbps => sameRate_iff hgp hbps⟩

/-- The payload of a token with no flag and with a tax. -/
def taxed (text : String) : Members := set "sell_tax" (.str text) [("is_honeypot", .str "0")]

theorem goplus_monotone_twentieth : NeverLower (taxed "0.05") (set "is_honeypot" (.str "1") (taxed "0.05")) ∧
    NeverLower (taxed "0.05") (taxed "0.1") ∧ ¬ NeverLower (taxed "0.05") (taxed "1.05") ∧
    SameRate (.obj (taxed "0.05")) 500 := by
  obtain ⟨hflag, -, hrate⟩ := goplus_monotone (taxed "0.05") (.obj (taxed "0.05"))
  obtain ⟨-, hraise, -⟩ := goplus_monotone [("is_honeypot", .str "0")] .null
  have hvalue : Js.stringValue "0.05" = some (1 / 20) := by decide +kernel
  have hkept : ¬ Drops (num (some (.str "0.05"))) (num (some (.str "0.1"))) := by
    unfold Drops
    decide +kernel
  refine ⟨hflag _ (by decide), (hraise _ _ _ (1 / 10) hvalue ?_ (by norm_num)).1 hkept,
    (hraise _ _ _ (21 / 20) hvalue ?_ (by norm_num)).2 ?_ ?_, ?_⟩
  · decide +kernel
  · decide +kernel
  · decide +kernel
  · decide +kernel
  · refine (hrate "0.05" 500 ?_ ?_).mpr ?_
    · rw [taxed, prop_set, if_pos rfl]
    · decide +kernel
    · decide +kernel

theorem goplus_tax_percent : riskIn (taxed "1") ⟨.SELL_IMPAIRED, "24h"⟩ = some (Js.double (55 / 100)) ∧
    riskIn (taxed "1.5") ⟨.SELL_IMPAIRED, "24h"⟩ = some (Js.double (8 / 100)) ∧ ¬ NeverLower (taxed "1") (taxed "1.5") ∧
    Scanners.taxToBps (some "1.5") = some 15000 ∧ ¬ SameRate (.obj (taxed "1.5")) 15000 := by
  have hbefore : riskIn (taxed "1") ⟨.SELL_IMPAIRED, "24h"⟩ = some (Js.double (55 / 100)) := by decide +kernel
  have hafter : riskIn (taxed "1.5") ⟨.SELL_IMPAIRED, "24h"⟩ = some (Js.double (8 / 100)) := by decide +kernel
  have hbps : Scanners.taxToBps (some "1.5") = some 15000 := by decide +kernel
  refine ⟨hbefore, hafter, ?_, hbps, ?_⟩
  · intro h
    exact absurd (h _ _ hbefore _ hafter) (by decide +kernel)
  · intro h
    have hprop : prop "sell_tax" (.obj (taxed "1.5")) = some (.str "1.5") := by rw [taxed, prop_set, if_pos rfl]
    exact absurd ((sameRate_iff hprop hbps).mp h) (by decide +kernel)

end LaunchAuditor.Proofs.TaxUnits
