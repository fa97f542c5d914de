import LaunchAuditor.Scoring.Mappings

namespace LaunchAuditor.Proofs.ScanSignals
open OrderedMap Scoring Scoring.Mappings

/-- The risk of a payload in a cell, where it is a number. -/
def riskIn (o : Members) (key : OutcomeKey) : Option ℚ :=
  ((scanhoodToProbabilities (some (.obj o))).lookup key).join.map (risk key)

/-- Every cell has what a full score gives it, up to the cap. -/
def AtCap (o : Members) : Prop := ∀ e ∈ SCANHOOD.outcomeFactor, riskIn o e.1 = some (min SCANHOOD.cap e.2)

structure Monotone (better worse : Members) : Prop where
  neverLower : ∀ key, ∀ p ∈ riskIn better key, ∀ q ∈ riskIn worse key, p ≤ q
  higher : (∃ key, ∃ p ∈ riskIn better key, ∃ q ∈ riskIn worse key, p < q) ∨ AtCap better

/-- The verdict has a score. -/
def Scored (o : Members) : Prop := verdictScoreOf (verdictRaw (.obj o)) ≠ none

/-- The score and what is added to it fill the scale. -/
def Saturated (o : Members) : Prop :=
  ∃ score, verdictScoreOf (verdictRaw (.obj o)) = some score ∧ 1 ≤ score + bumps (.obj o)

section Cells
variable {key : OutcomeKey} {raw raw' factor : ℚ} {u u' : Bool}

theorem risk_scanhoodCell_mono (hraw : raw ≤ raw') (hu : u = true → u' = true) (hfactor : 0 ≤ factor) :
    risk key (scanhoodCell raw u key factor) ≤ risk key (scanhoodCell raw' u' key factor) := by
  have hp : raw * factor ≤ raw' * factor := mul_le_mul_of_nonneg_right hraw hfactor
  have hdirect : (if key.label = .SELL_IMPAIRED ∧ u = true then max (raw * factor) (85 / 100) else raw * factor) ≤
      if key.label = .SELL_IMPAIRED ∧ u' = true then max (raw' * factor) (85 / 100) else raw' * factor := by
    by_cases hworse : key.label = .SELL_IMPAIRED ∧ u' = true
    · rw [if_pos hworse]
      split
      · exact max_le_max hp le_rfl
      · exact le_max_of_le_left hp
    · have hbetter : ¬ (key.label = .SELL_IMPAIRED ∧ u = true) := fun h => hworse ⟨h.1, hu h.2⟩
      rw [if_neg hworse, if_neg hbetter]
      exact hp
  exact risk_round4_mono key (min_le_min (le_refl SCANHOOD.cap) (clamp01_mono hdirect))

/-- A full score. -/
theorem risk_scanhoodCell_one : ∀ e ∈ SCANHOOD.outcomeFactor, ∀ u,
    risk e.1 (scanhoodCell 1 u e.1 e.2) = min SCANHOOD.cap e.2 := by
  decide +kernel

/-- The first cell tells all scores of whole hundredths apart. -/
theorem risk_scanhoodCell_first {k : ℕ} (hk : k < 101) (u : Bool) :
    risk ⟨.INSIDER_EXIT, "6h"⟩ (scanhoodCell ((k : ℚ) / 100) u ⟨.INSIDER_EXIT, "6h"⟩ (85 / 100)) = 85 * k / 10000 := by
  have hnonneg : (0 : ℚ) ≤ k := Nat.cast_nonneg k
  have hle : (k : ℚ) ≤ 100 := by exact_mod_cast Nat.lt_succ_iff.mp hk
  have hclamp : clamp01 ((k : ℚ) / 100 * (85 / 100)) = 85 * k / 10000 := by
    rw [clamp01_of_mem (by positivity) (by linarith)]
    ring
  have hcap : min SCANHOOD.cap (85 * k / 10000 : ℚ) = 85 * k / 10000 := by
    apply min_eq_right
    unfold SCANHOOD.cap
    linarith
  have hround : round4 (85 * k / 10000) = 85 * k / 10000 := by
    have hsteps := round4_steps (85 * k)
    push_cast at hsteps
    exact hsteps
  unfold risk scanhoodCell
  simp only [outcomeIsPositive, reduceCtorEq, decide_false, false_and, if_false, Bool.false_eq_true, hclamp, hcap, hround]

end Cells

section Payload
variable {o : Members} {key : OutcomeKey}

theorem riskIn_eq : riskIn o key = (SCANHOOD.outcomeFactor.lookup key).bind fun factor =>
    (scanhoodRaw (.obj o)).map fun raw => risk key (scanhoodCell raw (unsellable (.obj o)) key factor) := by
  have hcells : (scanhoodToProbabilities (some (.obj o))).lookup key = (SCANHOOD.outcomeFactor.lookup key).map fun factor =>
      (scanhoodRaw (.obj o)).map fun raw => scanhoodCell raw (unsellable (.obj o)) key factor :=
    scanhood_factors.lookup_cells
      (fun key factor => (scanhoodRaw (.obj o)).map fun raw => scanhoodCell raw (unsellable (.obj o)) key factor) key
  unfold riskIn
  rw [hcells]
  cases SCANHOOD.outcomeFactor.lookup key with
  | none => rfl
  | some factor =>
    cases scanhoodRaw (.obj o) with
    | none => rfl
    | some raw => rfl

theorem riskIn_first {k : ℕ} (hk : k < 101) (h : scanhoodRaw (.obj o) = some ((k : ℚ) / 100)) :
    riskIn o ⟨.INSIDER_EXIT, "6h"⟩ = some (85 * k / 10000 : ℚ) := by
  rw [riskIn_eq, h]
  exact congrArg some (risk_scanhoodCell_first hk _)

theorem riskIn_of_not_scored (h : ¬ Scored o) : riskIn o key = none := by
  have hraw : scanhoodRaw (.obj o) = none := by rw [scanhoodRaw, not_not.mp h, Option.map_none]
  rw [riskIn_eq, hraw]
  cases SCANHOOD.outcomeFactor.lookup key <;> rfl

end Payload

def Hundredths (x : ℚ) : Prop := ∃ k : ℕ, x = k / 100

theorem Hundredths.add {x y : ℚ} (hx : Hundredths x) (hy : Hundredths y) : Hundredths (x + y) := by
  obtain ⟨k, rfl⟩ := hx
  obtain ⟨l, rfl⟩ := hy
  exact ⟨k + l, by push_cast; ring⟩

theorem Hundredths.ite {c : Prop} [Decidable c] (k : ℕ) : Hundredths (if c then (k : ℚ) / 100 else 0) := by
  split
  · exact ⟨k, rfl⟩
  · exact ⟨0, by simp⟩

theorem bumps_hundredths (scan : Json) : Hundredths (bumps scan) :=
  ((((Hundredths.ite 40).add (Hundredths.ite 6)).add (Hundredths.ite 15)).add (Hundredths.ite 10)).add (Hundredths.ite 5)

theorem verdictScore_hundredths : ∀ e ∈ SCANHOOD.verdictScore, ∃ k : ℕ, k < 101 ∧ e.2 = k / 100 := by decide +kernel

theorem verdictScoreOf_hundredths {name : List Char} {score : ℚ} (h : verdictScoreOf name = some score) :
    Hundredths score := by
  unfold verdictScoreOf at h
  split at h
  · cases h
  · obtain rfl := Option.some.inj h
    cases hfound : SCANHOOD.verdictScore.lookup (String.ofList name) with
    | none => exact ⟨50, rfl⟩
    | some score =>
      obtain ⟨pre, post, hsplit, _⟩ := List.lookup_eq_some_iff.mp hfound
      obtain ⟨k, _, hk⟩ := verdictScore_hundredths (String.ofList name, score) (by rw [hsplit]; simp)
      exact ⟨k, hk⟩

theorem clamp01_hundredths {x : ℚ} (h : Hundredths x) : ∃ k : ℕ, k < 101 ∧ clamp01 x = k / 100 := by
  obtain ⟨k, rfl⟩ := h
  by_cases hk : k < 101
  · have hle : (k : ℚ) ≤ 100 := by exact_mod_cast Nat.lt_succ_iff.mp hk
    have hnonneg : (0 : ℚ) ≤ k := Nat.cast_nonneg k
    exact ⟨k, hk, clamp01_of_mem (by linarith) (by linarith)⟩
  · have hle : (101 : ℚ) ≤ k := by exact_mod_cast not_lt.mp hk
    exact ⟨100, by omega, (clamp01_of_one_le (by linarith)).trans (by norm_num)⟩

section Scores
variable {o better worse : Members} {score : ℚ}

theorem score_hundredths (h : verdictScoreOf (verdictRaw (.obj o)) = some score) :
    ∃ k : ℕ, k < 101 ∧ clamp01 (score + bumps (.obj o)) = k / 100 :=
  clamp01_hundredths ((verdictScoreOf_hundredths h).add (bumps_hundredths _))

theorem total_nonneg (h : verdictScoreOf (verdictRaw (.obj o)) = some score) : 0 ≤ score + bumps (.obj o) := by
  obtain ⟨k, hk⟩ := (verdictScoreOf_hundredths h).add (bumps_hundredths (.obj o))
  rw [hk]
  exact div_nonneg (Nat.cast_nonneg k) (by norm_num)

theorem scanhoodRaw_of_score (h : verdictScoreOf (verdictRaw (.obj o)) = some score) :
    scanhoodRaw (.obj o) = some (clamp01 (score + bumps (.obj o))) := by
  rw [scanhoodRaw, h, Option.map_some]

theorem atCap_iff : AtCap o ↔ Saturated o := by
  constructor
  · intro h
    have hfirst := h (⟨.INSIDER_EXIT, "6h"⟩, 85 / 100) List.mem_cons_self
    cases hscore : verdictScoreOf (verdictRaw (.obj o)) with
    | none =>
      have hnone : ¬ Scored o := not_not.mpr hscore
      rw [riskIn_of_not_scored hnone] at hfirst
      cases hfirst
    | some score =>
      obtain ⟨k, hk, hclamp⟩ := score_hundredths hscore
      have hraw := scanhoodRaw_of_score hscore
      rw [hclamp] at hraw
      rw [riskIn_first hk hraw] at hfirst
      have hfull : (85 * k / 10000 : ℚ) = 85 / 100 :=
        (Option.some.inj hfirst).trans (min_eq_right (by norm_num [SCANHOOD.cap]))
      have hone : clamp01 (score + bumps (.obj o)) = 1 := by linarith
      exact ⟨score, hscore, one_le_of_clamp01 hone⟩
  · rintro ⟨score, hscore, hfull⟩ ⟨key, factor⟩ he
    have hraw := scanhoodRaw_of_score hscore
    rw [clamp01_of_one_le hfull] at hraw
    rw [riskIn_eq, hraw, scanhood_factors.mem_iff.mp he]
    exact congrArg some (risk_scanhoodCell_one _ he _)

/-- The risk goes with the score, and the sellability pulls the same way. -/
theorem riskIn_mono {x y : ℚ} (hbetter : scanhoodRaw (.obj better) = some x) (hworse : scanhoodRaw (.obj worse) = some y)
    (hxy : x ≤ y) (hu : unsellable (.obj better) = true → unsellable (.obj worse) = true) :
    ∀ key, ∀ p ∈ riskIn better key, ∀ q ∈ riskIn worse key, p ≤ q := by
  intro key p hp q hq
  rw [riskIn_eq, hbetter] at hp
  rw [riskIn_eq, hworse] at hq
  cases hfactor : SCANHOOD.outcomeFactor.lookup key with
  | none =>
    rw [hfactor] at hp
    cases hp
  | some factor =>
    rw [hfactor] at hp hq
    obtain rfl := Option.some.inj hp
    obtain rfl := Option.some.inj hq
    exact risk_scanhoodCell_mono hxy hu (scanhood_factors.factor_nonneg hfactor)

/-- The worse payload scores higher. -/
theorem monotone_of_rise {s t : ℚ} (hbetter : verdictScoreOf (verdictRaw (.obj better)) = some s)
    (hworse : verdictScoreOf (verdictRaw (.obj worse)) = some t)
    (hrise : s + bumps (.obj better) < t + bumps (.obj worse))
    (hu : unsellable (.obj better) = true → unsellable (.obj worse) = true) : Monotone better worse := by
  have hrawBetter := scanhoodRaw_of_score hbetter
  have hrawWorse := scanhoodRaw_of_score hworse
  refine ⟨riskIn_mono hrawBetter hrawWorse (clamp01_mono hrise.le) hu, ?_⟩
  by_cases hfull : 1 ≤ s + bumps (.obj better)
  · exact Or.inr (atCap_iff.mpr ⟨s, hbetter, hfull⟩)
  · left
    obtain ⟨k, hk, hclampBetter⟩ := score_hundredths hbetter
    obtain ⟨l, hl, hclampWorse⟩ := score_hundredths hworse
    have hlt := clamp01_lt (total_nonneg hbetter) (not_le.mp hfull) hrise
    rw [hclampBetter] at hrawBetter hlt
    rw [hclampWorse] at hrawWorse hlt
    refine ⟨⟨.INSIDER_EXIT, "6h"⟩, _, riskIn_first hk hrawBetter, _, riskIn_first hl hrawWorse, ?_⟩
    linarith

/-- What is read is the same in both. -/
theorem monotone_same_iff (hraw : scanhoodRaw (.obj better) = scanhoodRaw (.obj worse))
    (hu : unsellable (.obj better) = unsellable (.obj worse)) : Monotone better worse ↔ Saturated worse := by
  have hrisk : ∀ key, riskIn better key = riskIn worse key := by
    intro key
    rw [riskIn_eq, riskIn_eq, hraw, hu]
  have hcap : AtCap better ↔ Saturated worse := by
    rw [← atCap_iff]
    simp only [AtCap, hrisk]
  constructor
  · intro h
    rcases h.higher with ⟨key, p, hp, q, hq, hpq⟩ | hfull
    · rw [hrisk] at hp
      exact absurd (Option.mem_unique hp hq) hpq.ne
    · exact hcap.mp hfull
  · intro h
    refine ⟨?_, Or.inr (hcap.mpr h)⟩
    intro key p hp q hq
    rw [hrisk] at hp
    exact (Option.mem_unique hp hq).le

/-- The worse payload scores lower. -/
theorem monotone_fall_iff {s t : ℚ} (hbetter : verdictScoreOf (verdictRaw (.obj better)) = some s)
    (hworse : verdictScoreOf (verdictRaw (.obj worse)) = some t)
    (hfall : t + bumps (.obj worse) < s + bumps (.obj better))
    (hu : unsellable (.obj better) = unsellable (.obj worse)) : Monotone better worse ↔ Saturated worse := by
  have hrawBetter := scanhoodRaw_of_score hbetter
  have hrawWorse := scanhoodRaw_of_score hworse
  constructor
  · intro h
    by_contra hopen
    have hlow : t + bumps (.obj worse) < 1 := not_le.mp fun hfull => hopen ⟨t, hworse, hfull⟩
    obtain ⟨k, hk, hclampBetter⟩ := score_hundredths hbetter
    obtain ⟨l, hl, hclampWorse⟩ := score_hundredths hworse
    have hlt := clamp01_lt (total_nonneg hworse) hlow hfall
    rw [hclampBetter] at hrawBetter hlt
    rw [hclampWorse] at hrawWorse hlt
    have hle := h.neverLower _ _ (riskIn_first hk hrawBetter) _ (riskIn_first hl hrawWorse)
    linarith
  · rintro ⟨score, hscore, hfull⟩
    obtain rfl : t = score := Option.some.inj (hworse.symm.trans hscore)
    have hraw : scanhoodRaw (.obj better) = scanhoodRaw (.obj worse) := by
      rw [hrawBetter, hrawWorse, clamp01_of_one_le hfull, clamp01_of_one_le (hfull.trans hfall.le)]
    exact (monotone_same_iff hraw hu).mpr ⟨t, hscore, hfull⟩

theorem Saturated.scored (h : Saturated o) : Scored o := by
  obtain ⟨score, hscore, _⟩ := h
  intro hnone
  rw [hscore] at hnone
  cases hnone

theorem scored_iff : Scored o ↔ Scored o ∨ Saturated o := (or_iff_left_of_imp Saturated.scored).symm

theorem not_monotone_of_not_scored (h : ¬ Scored better) : ¬ Monotone better worse := by
  intro hmono
  rcases hmono.higher with ⟨key, p, hp, _⟩ | hfull
  · rw [riskIn_of_not_scored h] at hp
    cases hp
  · exact h (atCap_iff.mp hfull).scored

/-- More is added to the score of one verdict. -/
theorem monotone_iff_scored (hname : verdictRaw (.obj better) = verdictRaw (.obj worse))
    (hbumps : bumps (.obj better) < bumps (.obj worse))
    (hu : unsellable (.obj better) = true → unsellable (.obj worse) = true) : Monotone better worse ↔ Scored worse := by
  have hscored : Scored better ↔ Scored worse := by rw [Scored, Scored, hname]
  constructor
  · intro hmono
    by_contra hnone
    exact not_monotone_of_not_scored (mt hscored.mp hnone) hmono
  · intro h
    obtain ⟨score, hscore⟩ := Option.ne_none_iff_exists'.mp h
    exact monotone_of_rise (by rw [hname, hscore]) hscore (add_lt_add_of_le_of_lt le_rfl hbumps) hu

end Scores

inductive Verdict
  | PASS
  | CAUTION
  | DANGER
  deriving DecidableEq

def Verdict.text : Verdict → String
  | PASS => "PASS"
  | CAUTION => "CAUTION"
  | DANGER => "DANGER"

def Verdict.rank : Verdict → Nat
  | PASS => 0
  | CAUTION => 1
  | DANGER => 2

/-- A signal of the payload from one value to a worse one. The records of two of them keep what else they hold. -/
inductive Change
  | verdict (better worse : Verdict) (worsens : better.rank < worse.rank)
  | sellable
  | verified
  | rwa
  | lpSafe (lp : Members)
  | deployerLaunched (deployer : Members) (positive zero : Numeral)
    (isPositive : ∃ n, Js.numeral positive = some n ∧ 0 < n) (isZero : Js.numeral zero = some 0)

/-- The property that changes, before and after. -/
def Change.values : Change → String × Json × Json
  | verdict better worse _ => ("verdict", .str better.text, .str worse.text)
  | sellable => ("sellable", .bool true, .bool false)
  | verified => ("verified", .bool true, .bool false)
  | rwa => ("rwa", .str "official", .str "impostor")
  | lpSafe lp => ("lp", .obj (set "safe" (.bool true) lp), .obj (set "safe" (.bool false) lp))
  | deployerLaunched deployer positive zero _ _ =>
    ("deployer", .obj (set "launched" (.num positive) deployer), .obj (set "launched" (.num zero) deployer))

def Change.better (c : Change) (o : Members) : Members := set c.values.1 c.values.2.1 o

def Change.worse (c : Change) (o : Members) : Members := set c.values.1 c.values.2.2 o

/-- The changes that add to the score. -/
def Change.Counts : Change → Prop
  | verdict _ worse _ => worse = .DANGER
  | sellable | verified => True
  | rwa | lpSafe _ | deployerLaunched .. => False

section Reading
variable {k : String} {v w : Json} {o : Members}

/-- The score of each verdict: one of them is not in the table. -/
def Verdict.score : Verdict → ℚ
  | PASS => 50 / 100
  | CAUTION => 30 / 100
  | DANGER => 85 / 100

theorem verdictScoreOf_text (verdict : Verdict) :
    verdictScoreOf (verdictRaw (.obj (set "verdict" (.str verdict.text) o))) = some verdict.score := by
  unfold verdictRaw
  rw [prop_set, if_pos rfl]
  simp only [orElse_str, Option.getD_some, valueText_str]
  cases verdict with
  | PASS => decide +kernel
  | CAUTION => decide +kernel
  | DANGER => decide +kernel

theorem verdictRaw_set (h : k ∉ ["verdict", "risk", "rating"]) :
    verdictRaw (.obj (set k v o)) = verdictRaw (.obj o) := by
  simp only [List.mem_cons, List.not_mem_nil, or_false, not_or, eq_comm (a := k)] at h
  simp only [verdictRaw, prop_set, h, if_false]

theorem sellable_set (h : k ∉ ["sellable", "can_sell", "canSell", "market"]) :
    sellable (.obj (set k v o)) = sellable (.obj o) := by
  simp only [List.mem_cons, List.not_mem_nil, or_false, not_or, eq_comm (a := k)] at h
  simp only [sellable, prop_set, h, if_false]

theorem verified_set (h : k ∉ ["verified", "is_verified"]) : verified (.obj (set k v o)) = verified (.obj o) := by
  simp only [List.mem_cons, List.not_mem_nil, or_false, not_or, eq_comm (a := k)] at h
  simp only [verified, prop_set, h, if_false]

theorem rwa_set (h : k ∉ ["rwa", "is_rwa", "impersonation"]) : rwa (.obj (set k v o)) = rwa (.obj o) := by
  simp only [List.mem_cons, List.not_mem_nil, or_false, not_or, eq_comm (a := k)] at h
  simp only [rwa, prop_set, h, if_false]

theorem lpLocked_set (h : k ∉ ["lp_locked", "lpLocked", "locked"]) :
    lpLocked (.obj (set k v o)) = lpLocked (.obj o) := by
  simp only [List.mem_cons, List.not_mem_nil, or_false, not_or, eq_comm (a := k)] at h
  simp only [lpLocked, prop_set, h, if_false]

theorem deployerLaunches_set (h : k ≠ "deployer") :
    deployerLaunches (.obj (set k v o)) = deployerLaunches (.obj o) := by
  simp only [deployerLaunches, prop_set, h.symm, if_false]

/-- The property `launched` of a deployer is not read. -/
theorem deployerLaunches_launched (d : Members) :
    deployerLaunches (.obj (set "deployer" (.obj (set "launched" v d)) o)) =
      deployerLaunches (.obj (set "deployer" (.obj d) o)) := by
  simp [deployerLaunches]

theorem unsellable_set (h : k ∉ ["sellable", "can_sell", "canSell", "market"]) :
    unsellable (.obj (set k v o)) = unsellable (.obj o) := by
  rw [unsellable, sellable_set h, ← unsellable]

theorem unsellable_sellable (b : Bool) : unsellable (.obj (set "sellable" (.bool b) o)) = !b := by
  simp [unsellable, sellable, asBool]

theorem verified_verified (b : Bool) : verified (.obj (set "verified" (.bool b) o)) = some (.bool b) := by
  simp [verified]

/-- No name of a state is read as a flag. -/
theorem asBool_rwa {state : String} (h : state ≠ "1" ∧ state ≠ "true") :
    asBool (rwa (.obj (set "rwa" (.str state) o))) = false := by
  simp [rwa, asBool, h]

theorem bumps_congr {a b : Json} (hsellable : unsellable a = unsellable b) (hverified : verified a = verified b)
    (hrwa : asBool (rwa a) = asBool (rwa b)) (hlp : lpLocked a = lpLocked b)
    (hdeployer : deployerLaunches a = deployerLaunches b) : bumps a = bumps b := by
  unfold bumps
  rw [hsellable, hverified, hrwa, hlp, hdeployer]

theorem bumps_verdict : bumps (.obj (set "verdict" v o)) = bumps (.obj o) :=
  bumps_congr (unsellable_set (by decide)) (verified_set (by decide)) (by rw [rwa_set (by decide)])
    (lpLocked_set (by decide)) (deployerLaunches_set (by decide))

theorem bumps_sellable : bumps (.obj (set "sellable" (.bool false) o)) =
    bumps (.obj (set "sellable" (.bool true) o)) + SCANHOOD.notSellable := by
  unfold bumps
  rw [unsellable_sellable, unsellable_sellable, verified_set (by decide), verified_set (by decide), rwa_set (by decide),
    rwa_set (by decide), lpLocked_set (by decide), lpLocked_set (by decide), deployerLaunches_set (by decide),
    deployerLaunches_set (by decide), Bool.not_false, Bool.not_true, if_pos rfl, if_neg Bool.false_ne_true]
  ring

theorem bumps_verified : bumps (.obj (set "verified" (.bool false) o)) =
    bumps (.obj (set "verified" (.bool true) o)) + SCANHOOD.notVerified := by
  have htrue : (!asBool (some (.bool true)) && (some (Json.bool true)).isSome) = false := rfl
  have hfalse : (!asBool (some (.bool false)) && (some (Json.bool false)).isSome) = true := rfl
  unfold bumps
  rw [verified_verified, verified_verified, unsellable_set (by decide), unsellable_set (by decide), rwa_set (by decide),
    rwa_set (by decide), lpLocked_set (by decide), lpLocked_set (by decide), deployerLaunches_set (by decide),
    deployerLaunches_set (by decide), htrue, hfalse, if_pos rfl, if_neg Bool.false_ne_true]
  ring

/-- A property of which nothing is read as the verdict, the sellability or the verification, and the rest as before. -/
theorem monotone_unread_iff (hverdict : k ∉ ["verdict", "risk", "rating"])
    (hsellable : k ∉ ["sellable", "can_sell", "canSell", "market"]) (hverified : k ∉ ["verified", "is_verified"])
    (hrwa : asBool (rwa (.obj (set k v o))) = asBool (rwa (.obj (set k w o))))
    (hlp : lpLocked (.obj (set k v o)) = lpLocked (.obj (set k w o)))
    (hdeployer : deployerLaunches (.obj (set k v o)) = deployerLaunches (.obj (set k w o))) :
    Monotone (set k v o) (set k w o) ↔ Saturated (set k w o) := by
  have hu : unsellable (.obj (set k v o)) = unsellable (.obj (set k w o)) := by
    rw [unsellable_set hsellable, unsellable_set hsellable]
  have hbumps := bumps_congr hu (by rw [verified_set hverified, verified_set hverified]) hrwa hlp hdeployer
  apply monotone_same_iff _ hu
  rw [scanhoodRaw, scanhoodRaw, hbumps, verdictRaw_set hverdict, verdictRaw_set hverdict]

end Reading

theorem Verdict.score_danger {verdict : Verdict} (h : verdict.rank < DANGER.rank) : verdict.score < DANGER.score := by
  cases verdict with
  | PASS => norm_num [Verdict.score]
  | CAUTION => norm_num [Verdict.score]
  | DANGER => exact absurd h (lt_irrefl _)

theorem monotone_verdict_iff (o : Members) (c d : Verdict) (h : c.rank < d.rank) :
    Monotone (set "verdict" (.str c.text) o) (set "verdict" (.str d.text) o) ↔
      d = .DANGER ∨ Saturated (set "verdict" (.str d.text) o) := by
  have hu : unsellable (.obj (set "verdict" (.str c.text) o)) = unsellable (.obj (set "verdict" (.str d.text) o)) := by
    rw [unsellable_set (by decide), unsellable_set (by decide)]
  have hscore := verdictScoreOf_text (o := o) c
  have hscore' := verdictScoreOf_text (o := o) d
  by_cases hd : d = .DANGER
  · subst hd
    refine iff_of_true (monotone_of_rise hscore hscore' ?_ (fun hbetter => hu ▸ hbetter)) (Or.inl rfl)
    rw [bumps_verdict, bumps_verdict]
    exact add_lt_add_of_lt_of_le (Verdict.score_danger h) le_rfl
  · -- the verdict in between scores less than one that is not in the table
    obtain ⟨rfl, rfl⟩ : c = .PASS ∧ d = .CAUTION := by
      cases c <;> cases d <;> simp_all [Verdict.rank]
    have hfall := monotone_fall_iff hscore hscore' ?_ hu
    · simpa using hfall
    · rw [bumps_verdict, bumps_verdict]
      exact add_lt_add_of_lt_of_le (by norm_num [Verdict.score]) le_rfl

/-- The mapping is monotone in a change of sellability, of verification or to DANGER, where the verdict has a score, and
where the scale is full without the change. -/
theorem scanhood_monotone_iff (o : Members) (c : Change) :
    Monotone (c.better o) (c.worse o) ↔ (c.Counts ∧ Scored (c.worse o)) ∨ Saturated (c.worse o) := by
  cases c with
  | verdict b w h =>
    have hscored : Scored (set "verdict" (.str w.text) o) := by
      rw [Scored, verdictScoreOf_text]
      exact Option.some_ne_none _
    exact (monotone_verdict_iff o b w h).trans (or_congr (and_iff_left hscored).symm Iff.rfl)
  | sellable =>
    have hscored : Monotone (set "sellable" (.bool true) o) (set "sellable" (.bool false) o) ↔
        Scored (set "sellable" (.bool false) o) := by
      apply monotone_iff_scored
      · rw [verdictRaw_set (by decide), verdictRaw_set (by decide)]
      · rw [bumps_sellable]
        exact lt_add_of_pos_right _ (by norm_num [SCANHOOD.notSellable])
      · intro _
        rw [unsellable_sellable, Bool.not_false]
    exact hscored.trans (scored_iff.trans (or_congr (and_iff_right trivial).symm Iff.rfl))
  | verified =>
    have hscored : Monotone (set "verified" (.bool true) o) (set "verified" (.bool false) o) ↔
        Scored (set "verified" (.bool false) o) := by
      apply monotone_iff_scored
      · rw [verdictRaw_set (by decide), verdictRaw_set (by decide)]
      · rw [bumps_verified]
        exact lt_add_of_pos_right _ (by norm_num [SCANHOOD.notVerified])
      · rw [unsellable_set (by decide), unsellable_set (by decide)]
        exact id
    exact hscored.trans (scored_iff.trans (or_congr (and_iff_right trivial).symm Iff.rfl))
  | rwa =>
    have hsaturated := monotone_unread_iff (o := o) (k := "rwa") (v := .str "official") (w := .str "impostor") (by decide)
      (by decide) (by decide) (by rw [asBool_rwa (by decide), asBool_rwa (by decide)])
      (by rw [lpLocked_set (by decide), lpLocked_set (by decide)])
      (by rw [deployerLaunches_set (by decide), deployerLaunches_set (by decide)])
    exact hsaturated.trans (or_iff_right fun hcounts => hcounts.1).symm
  | lpSafe lp =>
    have hsaturated := monotone_unread_iff (o := o) (k := "lp") (v := .obj (set "safe" (.bool true) lp))
      (w := .obj (set "safe" (.bool false) lp)) (by decide) (by decide) (by decide)
      (by rw [rwa_set (by decide), rwa_set (by decide)]) (by rw [lpLocked_set (by decide), lpLocked_set (by decide)])
      (by rw [deployerLaunches_set (by decide), deployerLaunches_set (by decide)])
    exact hsaturated.trans (or_iff_right fun hcounts => hcounts.1).symm
  | deployerLaunched d positive zero _ _ =>
    have hsaturated := monotone_unread_iff (o := o) (k := "deployer") (v := .obj (set "launched" (.num positive) d))
      (w := .obj (set "launched" (.num zero) d)) (by decide) (by decide) (by decide)
      (by rw [rwa_set (by decide), rwa_set (by decide)]) (by rw [lpLocked_set (by decide), lpLocked_set (by decide)])
      (by rw [deployerLaunches_launched, deployerLaunches_launched])
    exact hsaturated.trans (or_iff_right fun hcounts => hcounts.1).symm

/-- A token that sells, with a safe pool and a deployer of three tokens. -/
def sampleScan : Members :=
  [("sellable", .bool true), ("verified", .bool true), ("lp", .obj [("safe", .bool true)]),
    ("deployer", .obj [("launched", .num ⟨['3'], List.cons_ne_nil _ _, List.forall_mem_singleton.mpr rfl⟩)])]

def passToCaution : Change := .verdict .PASS .CAUTION (by decide)

theorem scanhood_pass_caution : riskIn (passToCaution.better sampleScan) ⟨.DRAWDOWN_80, "24h"⟩ = some (55 / 100) ∧
    riskIn (passToCaution.worse sampleScan) ⟨.DRAWDOWN_80, "24h"⟩ = some (35 / 100) ∧
    ¬ Monotone (passToCaution.better sampleScan) (passToCaution.worse sampleScan) := by
  have hbetter : riskIn (passToCaution.better sampleScan) ⟨.DRAWDOWN_80, "24h"⟩ = some (55 / 100) := by decide +kernel
  have hworse : riskIn (passToCaution.worse sampleScan) ⟨.DRAWDOWN_80, "24h"⟩ = some (35 / 100) := by decide +kernel
  refine ⟨hbetter, hworse, ?_⟩
  intro h
  exact absurd (h.neverLower _ _ hbetter _ hworse) (by decide +kernel)

end LaunchAuditor.Proofs.ScanSignals
