import LaunchAuditor.Js
import LaunchAuditor.Lib.Decimal
import LaunchAuditor.Lib.Json

/-! `toLowerCase`, and the doubles of `Number(text)` and of a JSON literal. -/

namespace LaunchAuditor.Js

/-- `text.toLowerCase()`, for comparison with ASCII text: one letter from outside has its lower case there. -/
def toLowerCase (text : String) : List Char := text.toList.map fun c => if c = '\u212a' then 'k' else c.toLower

/-- Numbers from here on are rounded to infinity. -/
def OVERFLOW : ℚ := 2 ^ 1024 - 2 ^ 970

def finite (x : ℚ) : Bool := decide (|x| < OVERFLOW)

/-- A point may stand at either end, and leading zeros are nothing special. -/
def readDecimal (cs : List Char) : Option ℚ :=
  let (negative, rest) :=
    match cs with
    | '-' :: rest => (true, rest)
    | '+' :: rest => (false, rest)
    | rest => (false, rest)
  let (whole, rest) := Decimal.spanDigits rest
  let (fraction, rest) :=
    match rest with
    | '.' :: rest => Decimal.spanDigits rest
    | rest => ([], rest)
  if whole = [] ∧ fraction = [] then none
  else (Decimal.readExponent rest).map fun exponent => Decimal.Literal.value { negative, whole, fraction, exponent }

def digitValue (c : Char) : Option Nat :=
  if c.isDigit then some (c.toNat - '0'.toNat)
  else if 'a' ≤ c ∧ c ≤ 'f' then some (c.toNat - 'a'.toNat + 10)
  else if 'A' ≤ c ∧ c ≤ 'F' then some (c.toNat - 'A'.toNat + 10)
  else none

/-- All of the text are digits of the base. -/
def readRadix (base : Nat) (ds : List Char) : Option ℚ :=
  if ds = [] then none
  else
    (ds.foldlM (fun n c => (digitValue c).bind fun d => if d < base then some (n * base + d) else none) 0).map
      fun n : Nat => (n : ℚ)

/-- The number a text stands for, before it is rounded. The empty text stands for 0. -/
def stringValue (text : String) : Option ℚ :=
  match trim text.toList with
  | [] => some 0
  | '0' :: x :: ds =>
    if x = 'x' ∨ x = 'X' then readRadix 16 ds
    else if x = 'o' ∨ x = 'O' then readRadix 8 ds
    else if x = 'b' ∨ x = 'B' then readRadix 2 ds
    else readDecimal ('0' :: x :: ds)
  | cs => readDecimal cs

/-- `Number(text)`, none where `Number.isFinite` says no. -/
def number (text : String) : Option ℚ := ((stringValue text).filter finite).map double

/-- The value of a JSON number. -/
def numeral (n : Numeral) : Option ℚ := ((Decimal.read n.text).filter finite).map double

example : [number "0.05", number " 5 ", number "1e-400", number "0x1F", number "", number "5%", number "1e400"] =
    [some (3602879701896397 / 2 ^ 56), some 5, some 0, some 31, some 0, none, none] := by
  decide +kernel

end LaunchAuditor.Js
