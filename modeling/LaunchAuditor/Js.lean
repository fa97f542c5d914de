import LaunchAuditor.Lib.Floating
import Mathlib.Algebra.Order.Archimedean.Basic
import Mathlib.Data.List.DropRight
import Mathlib.Data.List.Infix
import Mathlib.Data.List.Lex

/-! The JavaScript built-ins the sources rest on. Numbers are exact rationals; where the rounding of
a double tells, it is written out. -/

namespace LaunchAuditor.Js

/-- The double next to a number, which is what an operation gives; none is taken to be too large. -/
def double (x : ℚ) : ℚ := Floating.binary64.rounded x

section Double
variable {x y : ℚ}

@[simp] theorem double_zero : double 0 = 0 := Floating.rounded_zero

@[simp] theorem double_double (x : ℚ) : double (double x) = double x := Floating.rounded_rounded x

theorem double_mono (h : x ≤ y) : double x ≤ double y := Floating.rounded_mono h

theorem double_nonneg (h : 0 ≤ x) : 0 ≤ double x := Floating.rounded_nonneg h

/-- The double that is less than half a step away. -/
theorem double_eq (n k : ℕ) (h : k ≤ 1074 ∧ 2 ^ 52 ≤ x * 2 ^ k ∧ x * 2 ^ k < 2 ^ 53 ∧ |x * 2 ^ k - n| < 1 / 2 ∧
    y = n / 2 ^ k) : double x = y := by
  obtain ⟨hk, hlow, hhigh, hnear, rfl⟩ := h
  exact Floating.rounded_eq hk hlow hhigh hnear

theorem double_natCast {n : ℕ} (hn : n ≤ 2 ^ 53) : double n = n := Floating.rounded_natCast hn

@[simp] theorem double_one : double 1 = 1 := by
  have h := double_natCast (n := 1) (by norm_num)
  simpa using h

theorem double_error {k : ℕ} (h : |x| < 2 ^ k) : |double x - x| ≤ 2 ^ k / 2 ^ 54 :=
  Floating.rounded_error (F := Floating.binary64) (by simp only [Floating.binary64]; omega) h

theorem double_near (h : 1 ≤ x) : |double x - x| ≤ x / 2 ^ 53 := by
  obtain ⟨k, hlow, hhigh⟩ := exists_nat_pow_near h one_lt_two
  have herror := double_error (x := x) (k := k + 1) (by rwa [abs_of_nonneg (by linarith)])
  refine herror.trans ?_
  rw [pow_succ]
  linarith

/-- Numbers that are apart are told apart. -/
theorem double_lt {k : ℕ} (hx : |x| < 2 ^ k) (hy : |y| < 2 ^ k) (h : x + 2 ^ k / 2 ^ 53 < y) : double x < double y := by
  have hlow := (abs_le.mp (double_error hx)).2
  have hhigh := (abs_le.mp (double_error hy)).1
  linarith

end Double

attribute [irreducible] double

/-- `Math.round`: halves go up. -/
def mathRound (x : ℚ) : ℤ := ⌊x + 1 / 2⌋

/-- `Math.round(x * scale) / scale`, the shape of every rounding helper. -/
def roundTo (scale : ℕ) (x : ℚ) : ℚ := mathRound (x * scale) / scale

theorem roundTo_nonneg (scale : ℕ) {x : ℚ} (h : 0 ≤ x) : 0 ≤ roundTo scale x := by
  have hs : (0 : ℚ) ≤ scale := Nat.cast_nonneg scale
  have hround : 0 ≤ mathRound (x * scale) := by
    apply Int.floor_nonneg.mpr
    have hx : 0 ≤ x * scale := mul_nonneg h hs
    linarith
  exact div_nonneg (Int.cast_nonneg hround) hs

theorem roundTo_mono (scale : ℕ) {x y : ℚ} (h : x ≤ y) : roundTo scale x ≤ roundTo scale y := by
  have hs : (0 : ℚ) ≤ scale := Nat.cast_nonneg scale
  have hround : mathRound (x * scale) ≤ mathRound (y * scale) := by
    apply Int.floor_le_floor
    have hxy : x * scale ≤ y * scale := mul_le_mul_of_nonneg_right h hs
    linarith
  exact div_le_div_of_nonneg_right (Int.cast_le.mpr hround) hs

/-- `roundTo` in doubles. -/
def roundDouble (scale : ℕ) (x : ℚ) : ℚ := double (mathRound (double (x * scale)) / scale)

theorem roundDouble_mono (scale : ℕ) {x y : ℚ} (h : x ≤ y) : roundDouble scale x ≤ roundDouble scale y := by
  have hs : (0 : ℚ) ≤ scale := Nat.cast_nonneg scale
  have hround : mathRound (double (x * scale)) ≤ mathRound (double (y * scale)) := by
    apply Int.floor_le_floor
    have hscaled := double_mono (mul_le_mul_of_nonneg_right h hs)
    linarith
  exact double_mono (div_le_div_of_nonneg_right (Int.cast_le.mpr hround) hs)

/-- What `String.prototype.trim` takes off. -/
def isTrimmed (c : Char) : Bool :=
  c.toNat ∈ [9, 10, 11, 12, 13, 32, 160, 5760, 8232, 8233, 8239, 8287, 12288, 65279] ||
    (8192 ≤ c.toNat && c.toNat ≤ 8202)

def trim (cs : List Char) : List Char := (cs.dropWhile isTrimmed).rdropWhile isTrimmed

def padLeft (width : Nat) (s : List Char) : List Char :=
  List.replicate (width - s.length) '0' ++ s

/-- `Number.prototype.toFixed` for `digits ≥ 1`: the larger of two nearest
decimals, with the sign in front. -/
def toFixed (digits : Nat) (x : ℚ) : String :=
  let n := (mathRound (|x| * 10 ^ digits)).toNat
  let frac := padLeft digits (toString (n % 10 ^ digits)).toList
  (if x < 0 then "-" else "") ++ toString (n / 10 ^ digits) ++ "." ++ String.ofList frac

/-- `String(x)` for a decimal of at most twenty places, outside the exponent forms. -/
def numberText (x : ℚ) : String :=
  let digits := ((List.range 20).find? (fun k => (x * 10 ^ k).den = 1)).getD 20
  if digits = 0 then toString (mathRound x) else toFixed digits x

structure UtcDate where
  year : Int
  month : Int
  day : Int
  deriving DecidableEq

/-- The proleptic Gregorian date of a day counted from 1970-01-01. -/
def utcDate (days : Int) : UtcDate :=
  -- counted from 1 March of the year 0, in eras of 400 years
  let z := days + 719468
  let doe := z % 146097
  let yoe := (doe - doe / 1460 + doe / 36524 - doe / 146096) / 365
  let doy := doe - (365 * yoe + yoe / 4 - yoe / 100)
  let mp := (5 * doy + 2) / 153
  let month := if mp < 10 then mp + 3 else mp - 9
  { year := yoe + z / 146097 * 400 + (if month ≤ 2 then 1 else 0), month, day := doy - (153 * mp + 2) / 5 + 1 }

def padded (width : Nat) (n : Int) : String := String.ofList (padLeft width (toString n.toNat).toList)

/-- `Date.prototype.toISOString` of a time in milliseconds. -/
def toISOString (ms : Int) : String :=
  let date := utcDate (ms / 86400000)
  let t := ms % 86400000
  let year :=
    if 0 ≤ date.year ∧ date.year ≤ 9999 then padded 4 date.year
    else (if date.year < 0 then "-" else "+") ++ padded 6 date.year.natAbs
  year ++ "-" ++ padded 2 date.month ++ "-" ++ padded 2 date.day ++ "T" ++ padded 2 (t / 3600000) ++ ":" ++
    padded 2 (t / 60000 % 60) ++ ":" ++ padded 2 (t / 1000 % 60) ++ "." ++ padded 3 (t % 1000) ++ "Z"

example : toISOString 1790000000123 = "2026-09-21T14:13:20.123Z" := by decide +kernel

/-- The value of an optional property that may be null as well. -/
inductive Nullish (α : Type) where
  | undefined
  | null
  | value (a : α)

/-- `x ?? null` and `x ?? undefined`: what is left has one way to be absent. -/
def Nullish.toOption {α : Type} : Nullish α → Option α
  | .value a => some a
  | _ => none

/-- A literal alternative of a case-insensitive pattern, itself in lower case. -/
def containsText (s text : String) : Bool := decide (text.toList <:+: s.toLower.toList)

def isWordChar (c : Char) : Bool := c.isAlphanum || c == '_'

/-- `\bword\b`, read from a place whose left neighbour is `before`. -/
def containsWord (word : List Char) (before : Option Char) : List Char → Bool
  | [] => false
  | c :: cs =>
    (word.isPrefixOf (c :: cs) && !before.any isWordChar && !((c :: cs).drop word.length).head?.any isWordChar) ||
      containsWord word (some c) cs

/-- The UTF-16 code units, by which strings are compared. -/
def codeUnits (s : String) : List Nat :=
  s.toList.flatMap fun c =>
    if c.toNat < 65536 then [c.toNat]
    else [55296 + (c.toNat - 65536) / 1024, 56320 + (c.toNat - 65536) % 1024]

/-- A property key that is an array index, as a number. -/
def arrayIndex (key : String) : Option Nat :=
  let digits := key.toList
  let n := digits.foldl (fun n c => 10 * n + (c.toNat - '0'.toNat)) 0
  if digits ≠ [] ∧ digits.all Char.isDigit ∧ (digits.head? = some '0' → digits.length = 1) ∧ n < 4294967295 then
    some n
  else none

/-- The order in which an object with string keys in sorted order lists them: array
indices come first. -/
def keyLe (k l : String) : Bool :=
  match arrayIndex k, arrayIndex l with
  | some m, some n => m ≤ n
  | some _, none => true
  | none, some _ => false
  | none, none => decide (codeUnits k ≤ codeUnits l)

/-- `new Set(xs)` spread back: the first occurrence of each entry is kept. -/
def setOf {α : Type} [DecidableEq α] (xs : List α) : List α :=
  xs.foldl (fun acc x => if x ∈ acc then acc else acc ++ [x]) []

section Set
variable {α : Type} [DecidableEq α]

theorem foldl_set_mem (xs acc : List α) (a : α) :
    a ∈ xs.foldl (fun acc x => if x ∈ acc then acc else acc ++ [x]) acc ↔ a ∈ acc ∨ a ∈ xs := by
  induction xs generalizing acc with
  | nil => simp
  | cons x xs ih =>
    simp only [List.foldl_cons, ih, List.mem_cons]
    split
    · rename_i hx
      constructor
      · rintro (h | h)
        · exact Or.inl h
        · exact Or.inr (Or.inr h)
      · rintro (h | rfl | h)
        · exact Or.inl h
        · exact Or.inl hx
        · exact Or.inr h
    · simp only [List.mem_append, List.mem_singleton, or_assoc]

theorem foldl_set_nodup (xs acc : List α) (h : acc.Nodup) :
    (xs.foldl (fun acc x => if x ∈ acc then acc else acc ++ [x]) acc).Nodup := by
  induction xs generalizing acc with
  | nil => exact h
  | cons x xs ih =>
    simp only [List.foldl_cons]
    apply ih
    split
    · exact h
    · rename_i hx
      exact List.nodup_append.mpr ⟨h, by simp, by
        intro a ha b hb
        rw [List.mem_singleton.mp hb]
        exact fun he => hx (he ▸ ha)⟩

@[simp] theorem mem_setOf (xs : List α) (a : α) : a ∈ setOf xs ↔ a ∈ xs := by
  simp [setOf, foldl_set_mem]

theorem setOf_nodup (xs : List α) : (setOf xs).Nodup :=
  foldl_set_nodup xs [] .nil

end Set

end LaunchAuditor.Js
