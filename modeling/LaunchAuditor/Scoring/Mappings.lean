import LaunchAuditor.Js
import LaunchAuditor.Js.Number
import LaunchAuditor.Lib.OrderedMap
import LaunchAuditor.Scoring.Vocabulary

/-! `packages/scoring/src/mappings.ts` with `weights/forecaster_mappings_v0.json`. A property that is not there is none. -/

namespace LaunchAuditor.Scoring.Mappings

namespace SCANHOOD

def verdictScore : List (String × ℚ) :=
  [("safe", 4 / 100), ("ok", 6 / 100), ("low", 12 / 100), ("low_risk", 12 / 100), ("caution", 30 / 100),
    ("warning", 35 / 100), ("medium", 45 / 100), ("medium_risk", 45 / 100), ("high", 70 / 100), ("high_risk", 70 / 100),
    ("danger", 85 / 100), ("critical", 90 / 100), ("honeypot", 95 / 100), ("scam", 95 / 100), ("unknown", 50 / 100)]

def unknown : ℚ := 50 / 100

def notSellable : ℚ := 40 / 100
def notVerified : ℚ := 6 / 100
def rwaImpersonation : ℚ := 15 / 100
def lpUnlocked : ℚ := 10 / 100
def freshDeployer : ℚ := 5 / 100

def outcomeFactor : List (OutcomeKey × ℚ) :=
  [(⟨.INSIDER_EXIT, "6h"⟩, 85 / 100), (⟨.INSIDER_EXIT, "24h"⟩, 90 / 100), (⟨.INSIDER_EXIT, "72h"⟩, 90 / 100),
    (⟨.SELL_IMPAIRED, "1h"⟩, 1), (⟨.SELL_IMPAIRED, "24h"⟩, 1), (⟨.LIQ_IMPAIRED, "24h"⟩, 80 / 100),
    (⟨.LIQ_IMPAIRED, "7d"⟩, 85 / 100), (⟨.DRAWDOWN_80, "24h"⟩, 1), (⟨.DRAWDOWN_80, "7d"⟩, 1),
    (⟨.TRADING_ALIVE, "24h"⟩, 90 / 100), (⟨.TRADING_ALIVE, "7d"⟩, 1)]

def cap : ℚ := 97 / 100

end SCANHOOD

namespace GOPLUS

/-- As the numbers of the file are read. -/
def base : ℚ := Js.double (5 / 100)

def flagWeight : List (String × ℚ) :=
  [("is_honeypot", 50 / 100), ("cannot_sell_all", 40 / 100), ("cannot_buy", 15 / 100), ("transfer_pausable", 25 / 100),
    ("trading_cooldown", 15 / 100), ("is_mintable", 15 / 100), ("owner_change_balance", 40 / 100),
    ("hidden_owner", 30 / 100), ("is_blacklisted", 20 / 100), ("slippage_modifiable", 25 / 100),
    ("personal_slippage_modifiable", 25 / 100), ("selfdestruct", 40 / 100), ("external_call", 10 / 100),
    ("is_proxy", 5 / 100)].map fun e => (e.1, Js.double e.2)

def sellTaxPerPercent : ℚ := Js.double (2 / 100)
def sellTaxCap : ℚ := Js.double (50 / 100)

def outcomeFactor : List (OutcomeKey × ℚ) :=
  [(⟨.INSIDER_EXIT, "6h"⟩, 70 / 100), (⟨.INSIDER_EXIT, "24h"⟩, 75 / 100), (⟨.INSIDER_EXIT, "72h"⟩, 75 / 100),
    (⟨.SELL_IMPAIRED, "1h"⟩, 1), (⟨.SELL_IMPAIRED, "24h"⟩, 1), (⟨.LIQ_IMPAIRED, "24h"⟩, 60 / 100),
    (⟨.LIQ_IMPAIRED, "7d"⟩, 65 / 100), (⟨.DRAWDOWN_80, "24h"⟩, 85 / 100), (⟨.DRAWDOWN_80, "7d"⟩, 85 / 100),
    (⟨.TRADING_ALIVE, "24h"⟩, 80 / 100), (⟨.TRADING_ALIVE, "7d"⟩, 90 / 100)].map fun e => (e.1, Js.double e.2)

def cap : ℚ := Js.double (97 / 100)

end GOPLUS

def clamp01 (x : ℚ) : ℚ := if x < 0 then 0 else if x > 1 then 1 else x

theorem clamp01_mono {x y : ℚ} (h : x ≤ y) : clamp01 x ≤ clamp01 y := by
  unfold clamp01
  split_ifs <;> linarith

theorem clamp01_of_mem {x : ℚ} (hlow : 0 ≤ x) (hhigh : x ≤ 1) : clamp01 x = x := by
  rw [clamp01, if_neg (not_lt.mpr hlow), if_neg (not_lt.mpr hhigh)]

theorem clamp01_of_one_le {x : ℚ} (h : 1 ≤ x) : clamp01 x = 1 := by
  unfold clamp01
  split_ifs <;> linarith

theorem clamp01_lt {x y : ℚ} (hlow : 0 ≤ x) (hhigh : x < 1) (h : x < y) : clamp01 x < clamp01 y := by
  unfold clamp01
  split_ifs <;> linarith

theorem one_le_of_clamp01 {x : ℚ} (h : clamp01 x = 1) : 1 ≤ x := by
  unfold clamp01 at h
  split_ifs at h <;> linarith

/-- The properties of a payload. -/
abbrev Members := List (String × Json)

def asBool : Option Json → Bool
  | some (.bool b) => b
  | some (.num n) => decide (Js.numeral n = some 1)
  | some (.str s) => decide (s = "1" ∨ s = "true")
  | _ => false

def num : Option Json → ℚ
  | some (.str s) => (Js.number s).getD 0
  | some (.num n) => (Js.numeral n).getD 0
  | _ => 0

def round4 (x : ℚ) : ℚ := Js.roundTo 10000 x

/-- A number of whole steps stays. -/
theorem round4_steps (k : ℕ) : round4 (k / 10000) = k / 10000 := by
  have hscaled : (k / 10000 : ℚ) * (10000 : ℕ) + 1 / 2 = k + 1 / 2 := by
    push_cast
    ring
  have hfloor : ⌊(k : ℚ) + 1 / 2⌋ = (k : ℤ) := by
    rw [Int.floor_eq_iff]
    constructor
    · push_cast
      linarith
    · push_cast
      linarith
  rw [round4, Js.roundTo, Js.mathRound, hscaled, hfloor]
  norm_num

/-- The probability that the bad outcome of a cell is given. -/
def risk (key : OutcomeKey) (p : ℚ) : ℚ := if outcomeIsPositive key then 1 - p else p

/-- The rounding of either side keeps the order of the risks. -/
theorem risk_round4_mono (key : OutcomeKey) {p q : ℚ} (h : p ≤ q) :
    risk key (round4 (if outcomeIsPositive key then 1 - p else p)) ≤
      risk key (round4 (if outcomeIsPositive key then 1 - q else q)) := by
  unfold risk round4
  cases outcomeIsPositive key with
  | true => exact sub_le_sub_left (Js.roundTo_mono 10000 (sub_le_sub_left h 1)) 1
  | false => exact Js.roundTo_mono 10000 h

def truthy : Json → Bool
  | .null => false
  | .bool b => b
  | .num n => decide (Js.numeral n ≠ some 0)
  | .str s => decide (s ≠ "")
  | _ => true

def prop (name : String) : Json → Option Json
  | .obj members => members.lookup name
  | _ => none

@[simp] theorem prop_set (name k : String) (v : Json) (o : List (String × Json)) :
    prop name (.obj (OrderedMap.set k v o)) = if name = k then some v else prop name (.obj o) :=
  OrderedMap.lookup_set

/-- `a ?? b` -/
def orElse (a b : Option Json) : Option Json :=
  match a with
  | none | some .null => b
  | some v => some v

@[simp] theorem orElse_bool (b : Bool) (c : Option Json) : orElse (some (.bool b)) c = some (.bool b) := rfl

@[simp] theorem orElse_str (s : String) (c : Option Json) : orElse (some (.str s)) c = some (.str s) := rfl

mutual

/-- `String(v)`, but for the form of numbers, which no verdict has. -/
def valueText : Json → List Char
  | .null => "null".toList
  | .bool b => (toString b).toList
  | .num n => n.text
  | .str s => s.toList
  | .arr items => itemsText items
  | .obj _ => "[object Object]".toList

/-- `items.join(',')` -/
def itemsText : List Json → List Char
  | [] => []
  | [.null] => []
  | [v] => valueText v
  | .null :: vs => ',' :: itemsText vs
  | v :: vs => valueText v ++ ',' :: itemsText vs

end

@[simp] theorem valueText_str (s : String) : valueText (.str s) = s.toList := rfl

/-- `.replace(/\s+/g, '_')` -/
def underscored (inSpace : Bool) : List Char → List Char
  | [] => []
  | c :: cs =>
    if Js.isTrimmed c then if inSpace then underscored true cs else '_' :: underscored true cs
    else c :: underscored false cs

/-- The score of a verdict. Two names find what every object inherits, and from there on there is no number. -/
def verdictScoreOf (name : List Char) : Option ℚ :=
  if name = "constructor".toList ∨ name = "__proto__".toList then none
  else some ((SCANHOOD.verdictScore.lookup (String.ofList name)).getD SCANHOOD.unknown)

/-- A table of factors: a grid cell has at most one, and none is negative. -/
structure Factors (factors : List (OutcomeKey × ℚ)) : Prop where
  nodup : (OrderedMap.keys factors).Nodup
  cells : ∀ e ∈ factors, e.1 ∈ ALL_OUTCOME_KEYS
  nonneg : ∀ e ∈ factors, 0 ≤ e.2

section Factors
variable {factors : List (OutcomeKey × ℚ)} {key : OutcomeKey} {factor : ℚ}

theorem Factors.mem_iff (h : Factors factors) : (key, factor) ∈ factors ↔ factors.lookup key = some factor :=
  OrderedMap.mem_iff_lookup h.nodup

theorem Factors.factor_nonneg (h : Factors factors) (hfactor : factors.lookup key = some factor) : 0 ≤ factor :=
  h.nonneg _ (h.mem_iff.mpr hfactor)

/-- The cell of a key. -/
theorem Factors.lookup_cells {α : Type} (h : Factors factors) (cell : OutcomeKey → ℚ → α) (key : OutcomeKey) :
    (ALL_OUTCOME_KEYS.filterMap fun key => (factors.lookup key).map fun factor => (key, cell key factor)).lookup key =
      (factors.lookup key).map (cell key) := by
  have hmap := OrderedMap.lookup_filterMap (fun key => (factors.lookup key).map (cell key)) ALL_OUTCOME_KEYS (k := key)
  simp only [Option.map_map, Function.comp_def] at hmap
  refine hmap.trans (ite_eq_left_iff.mpr ?_)
  intro hout
  cases hfactor : factors.lookup key with
  | none => rfl
  | some factor => exact absurd (h.cells _ (h.mem_iff.mpr hfactor)) hout

end Factors

theorem scanhood_factors : Factors SCANHOOD.outcomeFactor := by
  refine ⟨by decide, by decide, ?_⟩
  norm_num [SCANHOOD.outcomeFactor]

theorem goplus_factors : Factors GOPLUS.outcomeFactor := by
  refine ⟨by decide, by decide, ?_⟩
  rw [GOPLUS.outcomeFactor, List.forall_mem_map]
  intro e he
  apply Js.double_nonneg
  revert e
  norm_num

section Scanhood
variable (scan : Json)

def verdictRaw : List Char :=
  let verdict := orElse (prop "verdict" scan) (orElse (prop "risk" scan) (prop "rating" scan))
  underscored false (Js.toLowerCase (String.ofList (valueText ((orElse verdict none).getD (.str "unknown")))))

def sellable : Option Json :=
  orElse (prop "sellable" scan) (orElse (prop "can_sell" scan) (orElse (prop "canSell" scan)
    (orElse ((prop "market" scan).bind (prop "sellable")) (some (.bool true)))))

def verified : Option Json := orElse (prop "verified" scan) (orElse (prop "is_verified" scan) (some (.bool true)))

def rwa : Option Json :=
  orElse (prop "rwa" scan) (orElse (prop "is_rwa" scan) (orElse (prop "impersonation" scan) (some (.bool false))))

/-- The last of the names may give null, which counts as unlocked. -/
def lpLocked : Option Json := orElse (prop "lp_locked" scan) (orElse (prop "lpLocked" scan) (prop "locked" scan))

def deployerLaunches : ℚ :=
  let deployer := prop "deployer" scan
  num (orElse (deployer.bind (prop "launches")) (orElse (deployer.bind (prop "count")) (deployer.bind (prop "deploys"))))

def unsellable : Bool := !asBool (sellable scan) && (sellable scan).isSome

/-- All that is added to the score of the verdict. -/
def bumps : ℚ :=
  (if unsellable scan then SCANHOOD.notSellable else 0) +
    (if !asBool (verified scan) && (verified scan).isSome then SCANHOOD.notVerified else 0) +
    (if asBool (rwa scan) then SCANHOOD.rwaImpersonation else 0) +
    (if (lpLocked scan).isSome && !asBool (lpLocked scan) then SCANHOOD.lpUnlocked else 0) +
    (if deployerLaunches scan = 0 then SCANHOOD.freshDeployer else 0)

def scanhoodRaw : Option ℚ := (verdictScoreOf (verdictRaw scan)).map fun score => clamp01 (score + bumps scan)

end Scanhood

/-- One cell. Sellability is the direct signal of SELL_IMPAIRED. -/
def scanhoodCell (raw : ℚ) (unsellable : Bool) (key : OutcomeKey) (factor : ℚ) : ℚ :=
  let p := raw * factor
  let p := if key.label = .SELL_IMPAIRED ∧ unsellable then max p (85 / 100) else p
  let p := min SCANHOOD.cap (clamp01 p)
  round4 (if outcomeIsPositive key then 1 - p else p)

/-- The probabilities of a scan, none for what is not a number. -/
def scanhoodToProbabilities (scan : Option Json) : List (OutcomeKey × Option ℚ) :=
  match scan.filter truthy with
  | none => []
  | some scan =>
    ALL_OUTCOME_KEYS.filterMap fun key =>
      (SCANHOOD.outcomeFactor.lookup key).map fun factor =>
        (key, (scanhoodRaw scan).map fun raw => scanhoodCell raw (unsellable scan) key factor)

section Goplus
variable (gp : Json)

/-- The loop over the flags, from the score so far. -/
def addFlags (raw : ℚ) : List (String × ℚ) → ℚ
  | [] => raw
  | (flag, weight) :: flags => addFlags (if asBool (prop flag gp) then Js.double (raw + weight) else raw) flags

/-- A number up to 1 is taken for a fraction, a larger one for a percentage. -/
def sellTaxPct : ℚ := Js.double (num (prop "sell_tax" gp) * if num (prop "sell_tax" gp) ≤ 1 then 100 else 1)

def goplusRaw : ℚ :=
  clamp01 (Js.double (addFlags gp GOPLUS.base GOPLUS.flagWeight +
    min GOPLUS.sellTaxCap (Js.double (sellTaxPct gp * GOPLUS.sellTaxPerPercent))))

end Goplus

def goplusCell (raw : ℚ) (key : OutcomeKey) (factor : ℚ) : ℚ :=
  let p := min GOPLUS.cap (clamp01 (Js.double (raw * factor)))
  Js.roundDouble 10000 (if outcomeIsPositive key then Js.double (1 - p) else p)

def goplusToProbabilities (gp : Option Json) : List (OutcomeKey × ℚ) :=
  match gp.filter truthy with
  | none => []
  | some gp =>
    ALL_OUTCOME_KEYS.filterMap fun key =>
      (GOPLUS.outcomeFactor.lookup key).map fun factor => (key, goplusCell (goplusRaw gp) key factor)

end LaunchAuditor.Scoring.Mappings
