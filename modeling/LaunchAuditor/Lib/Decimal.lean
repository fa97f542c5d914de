import Mathlib.Data.Rat.Defs
import Mathlib.Algebra.Order.Field.Rat
import Mathlib.Data.List.TakeWhile
import Mathlib.Tactic.Ring
import Mathlib.Tactic.FieldSimp
import Mathlib.Tactic.NormNum

/-! Decimal literals: their text, the reading of it, and the number it stands for. -/

namespace Decimal

/-- The parts of a literal; digits are characters. -/
structure Literal where
  negative : Bool
  whole : List Char
  fraction : List Char
  exponent : Option Int

def digits (cs : List Char) : Bool := cs.all Char.isDigit

namespace Literal

/-- No leading zero, and digits where digits stand. -/
def wellFormed (l : Literal) : Bool :=
  l.whole ≠ [] && digits l.whole && digits l.fraction && (l.whole.head? ≠ some '0' || l.whole.length == 1)

def fractionText (fraction : List Char) : List Char :=
  match fraction with
  | [] => []
  | _ => '.' :: fraction

def exponentText : Option Int → List Char
  | none => []
  | some e => 'e' :: (if e < 0 then '-' else '+') :: Nat.toDigits 10 e.natAbs

def text (l : Literal) : List Char :=
  (if l.negative then ['-'] else []) ++ (l.whole ++ (fractionText l.fraction ++ exponentText l.exponent))

/-- The number of a literal, without the sign. -/
def magnitude (l : Literal) : ℚ :=
  Nat.ofDigitChars 10 (l.whole ++ l.fraction) 0 * 10 ^ (l.exponent.getD 0 - l.fraction.length)

def value (l : Literal) : ℚ := if l.negative then -l.magnitude else l.magnitude

end Literal

/-- The digits in front, and what follows them. -/
def spanDigits (cs : List Char) : List Char × List Char := (cs.takeWhile Char.isDigit, cs.dropWhile Char.isDigit)

def readSign (cs : List Char) : Bool × List Char :=
  match cs with
  | '-' :: rest => (true, rest)
  | _ => (false, cs)

/-- A point is followed by a digit. -/
def readFraction (cs : List Char) : Option (List Char × List Char) :=
  match cs with
  | '.' :: rest => if (spanDigits rest).1 = [] then none else some (spanDigits rest)
  | _ => some ([], cs)

def readNat (cs : List Char) : Option Int :=
  if cs ≠ [] ∧ digits cs then some (Nat.ofDigitChars 10 cs 0) else none

/-- The exponent is all that is left. -/
def readExponent : List Char → Option (Option Int)
  | [] => some none
  | c :: rest =>
    if c = 'e' ∨ c = 'E' then
      match rest with
      | '+' :: ds => (readNat ds).map some
      | '-' :: ds => (readNat ds).map fun n => some (-n)
      | ds => (readNat ds).map some
    else none

/-- The literal that is the whole text. -/
def readLiteral (cs : List Char) : Option Literal := do
  let (negative, rest) := readSign cs
  let (whole, rest) := spanDigits rest
  let (fraction, rest) ← readFraction rest
  let exponent ← readExponent rest
  let l : Literal := { negative, whole, fraction, exponent }
  if l.wellFormed then some l else none

def read (cs : List Char) : Option ℚ := (readLiteral cs).map Literal.value

section Digits
variable {ds : List Char} {x : List Char}

/-- What does not go on with a digit. -/
def Ends (x : List Char) : Prop := ∀ c ∈ x.head?, c.isDigit = false

theorem spanDigits_append (hds : digits ds) (hx : Ends x) : spanDigits (ds ++ x) = (ds, x) := by
  have hall : ∀ c ∈ ds, c.isDigit = true := List.all_eq_true.mp hds
  rw [spanDigits, List.takeWhile_append_of_pos hall, List.dropWhile_append_of_pos hall]
  cases x with
  | nil => simp
  | cons c x =>
    have hc : c.isDigit = false := hx c rfl
    simp [hc]

theorem digits_toDigits (n : Nat) : digits (Nat.toDigits 10 n) := by
  apply List.all_eq_true.mpr
  intro c hc
  exact Nat.isDigit_of_mem_toDigits (by omega) (by omega) hc

theorem readNat_toDigits (n : Nat) : readNat (Nat.toDigits 10 n) = some (n : Int) := by
  rw [readNat, if_pos ⟨Nat.toDigits_ne_nil, digits_toDigits n⟩, Nat.ofDigitChars_ten_toDigits]

end Digits

namespace Literal

theorem readExponent_text (e : Option Int) : readExponent (exponentText e) = some e := by
  cases e with
  | none => rfl
  | some e =>
    by_cases he : e < 0
    · have hneg : -|e| = e := by rw [abs_of_neg he, neg_neg]
      simp [exponentText, readExponent, he, readNat_toDigits, hneg]
    · have hpos : |e| = e := abs_of_nonneg (not_lt.mp he)
      simp [exponentText, readExponent, he, readNat_toDigits, hpos]

theorem exponentText_ends (e : Option Int) : Ends (exponentText e) := by
  cases e <;> simp [exponentText, Ends]

theorem fractionText_ends (fraction : List Char) (e : Option Int) : Ends (fractionText fraction ++ exponentText e) := by
  cases fraction with
  | nil => exact exponentText_ends e
  | cons c cs => simp [fractionText, Ends]

theorem readFraction_text {fraction : List Char} (h : digits fraction) (e : Option Int) :
    readFraction (fractionText fraction ++ exponentText e) = some (fraction, exponentText e) := by
  cases fraction with
  | nil => cases e <;> rfl
  | cons c cs =>
    have hspan := spanDigits_append h (exponentText_ends e)
    simp only [fractionText, List.cons_append, readFraction]
    rw [← List.cons_append, hspan]
    simp

theorem readSign_text {l : Literal} (h : l.wellFormed) :
    readSign l.text = (l.negative, l.whole ++ (fractionText l.fraction ++ exponentText l.exponent)) := by
  obtain ⟨negative, whole, fraction, exponent⟩ := l
  cases negative with
  | true => rfl
  | false =>
    cases whole with
    | nil => simp [wellFormed] at h
    | cons c cs =>
      have hc : c.isDigit = true := by
        simp only [wellFormed, digits, List.all_cons, Bool.and_eq_true] at h
        exact h.1.1.2.1
      have hminus : c ≠ '-' := by
        rintro rfl
        cases hc
      simp [readSign, text, hminus]

theorem readLiteral_text {l : Literal} (h : l.wellFormed) : readLiteral l.text = some l := by
  have hparts := h
  simp only [wellFormed, Bool.and_eq_true] at hparts
  have hspan := spanDigits_append hparts.1.1.2 (fractionText_ends l.fraction l.exponent)
  have hfraction := readFraction_text hparts.1.2 l.exponent
  simp [readLiteral, readSign_text h, hspan, hfraction, readExponent_text, h]

theorem read_text {l : Literal} (h : l.wellFormed) : read l.text = some l.value := by
  rw [read, readLiteral_text h, Option.map_some]

end Literal

def isLiteralChar (c : Char) : Bool := c.isDigit || c ∈ ['+', '-', '.', 'e', 'E']

/-- Not the continuation of a literal. -/
def Stops (x : List Char) : Prop := ∀ c ∈ x.head?, isLiteralChar c = false

theorem stops_cons {c : Char} (h : isLiteralChar c = false) (x : List Char) : Stops (c :: x) := by
  intro d hd
  obtain rfl := Option.some.inj hd
  exact h

theorem isLiteralChar_digits {ds : List Char} (h : digits ds) : ∀ c ∈ ds, isLiteralChar c := by
  intro c hc
  simp [isLiteralChar, List.all_eq_true.mp h c hc]

namespace Literal

theorem fractionText_chars {fraction : List Char} (h : digits fraction) :
    ∀ c ∈ fractionText fraction, isLiteralChar c := by
  cases fraction with
  | nil => simp [fractionText]
  | cons d ds =>
    intro c hc
    rcases List.mem_cons.mp hc with rfl | hc
    · rfl
    · exact isLiteralChar_digits h c hc

theorem exponentText_chars (e : Option Int) : ∀ c ∈ exponentText e, isLiteralChar c := by
  cases e with
  | none => simp [exponentText]
  | some e =>
    intro c hc
    simp only [exponentText, List.mem_cons] at hc
    rcases hc with rfl | rfl | hc
    · rfl
    · split <;> rfl
    · exact isLiteralChar_digits (digits_toDigits _) c hc

theorem text_chars {l : Literal} (h : l.wellFormed) : ∀ c ∈ l.text, isLiteralChar c := by
  simp only [wellFormed, Bool.and_eq_true] at h
  intro c hc
  simp only [text, List.mem_append] at hc
  rcases hc with hc | hc | hc | hc
  · split at hc
    · simp only [List.mem_singleton] at hc
      rw [hc]
      rfl
    · simp at hc
  · exact isLiteralChar_digits h.1.1.2 c hc
  · exact fractionText_chars h.1.2 c hc
  · exact exponentText_chars l.exponent c hc

theorem text_ne_nil {l : Literal} (h : l.wellFormed) : l.text ≠ [] := by
  intro hnil
  have hlit := readLiteral_text h
  rw [hnil] at hlit
  cases hlit

end Literal

/-- The literal of `n * 10 ^ x`: without an exponent from `10 ^ -6` up to 21 digits. -/
def layout (negative : Bool) (n : Nat) (x : Int) : Literal :=
  let ds := Nat.toDigits 10 n
  -- where the point stands, counted from the first digit
  let point := ds.length + x
  if 0 ≤ x ∧ point ≤ 21 then
    { negative, whole := ds ++ List.replicate x.toNat '0', fraction := [], exponent := none }
  else if 0 < point ∧ point ≤ 21 then
    { negative, whole := ds.take point.toNat, fraction := ds.drop point.toNat, exponent := none }
  else if -6 < point ∧ point ≤ 0 then
    { negative, whole := ['0'], fraction := List.replicate (-point).toNat '0' ++ ds, exponent := none }
  else
    { negative, whole := ds.take 1, fraction := ds.drop 1, exponent := some (point - 1) }

theorem digitChar_ne_zero : ∀ d < 10, d ≠ 0 → d.digitChar ≠ '0' := by decide

theorem toDigits_head {n : Nat} (h : 0 < n) : (Nat.toDigits 10 n).head? ≠ some '0' := by
  induction n using Nat.strongRecOn with
  | ind n ih =>
    by_cases hn : n < 10
    · rw [Nat.toDigits_of_lt_base hn]
      exact fun hzero => digitChar_ne_zero n hn (by omega) (Option.some.inj hzero)
    · rw [Nat.toDigits_of_base_le (by omega) (not_lt.mp hn)]
      have hrest := ih (n / 10) (by omega) (by omega)
      obtain ⟨c, cs, hcs⟩ := List.exists_cons_of_ne_nil (Nat.toDigits_ne_nil (n := n / 10) (b := 10))
      rw [hcs] at hrest ⊢
      exact hrest

theorem digits_append {xs ys : List Char} : digits (xs ++ ys) = (digits xs && digits ys) := by
  simp [digits]

theorem digits_zeros (k : Nat) : digits (List.replicate k '0') := by
  simp [digits]

theorem digits_take {ds : List Char} (h : digits ds) (k : Nat) : digits (ds.take k) :=
  List.all_eq_true.mpr fun c hc => List.all_eq_true.mp h c (List.mem_of_mem_take hc)

theorem digits_drop {ds : List Char} (h : digits ds) (k : Nat) : digits (ds.drop k) :=
  List.all_eq_true.mpr fun c hc => List.all_eq_true.mp h c (List.mem_of_mem_drop hc)

theorem wellFormed_of_head {l : Literal} (hne : l.whole ≠ []) (hhead : l.whole.head? ≠ some '0') (hwhole : digits l.whole)
    (hfraction : digits l.fraction) : l.wellFormed := by
  simp [Literal.wellFormed, hne, hhead, hwhole, hfraction]

theorem layout_wellFormed (negative : Bool) {n : Nat} (x : Int) (h : 0 < n) : (layout negative n x).wellFormed := by
  have hds := digits_toDigits n
  have hne := Nat.toDigits_ne_nil (n := n) (b := 10)
  have hhead := toDigits_head h
  have htake : ∀ k : Nat, 0 < k → (Nat.toDigits 10 n).take k ≠ [] ∧ ((Nat.toDigits 10 n).take k).head? ≠ some '0' := by
    intro k hk
    rw [List.head?_take, if_neg (by omega)]
    exact ⟨by simp [hne]; omega, hhead⟩
  simp only [layout]
  split_ifs with hwhole hpoint hsmall
  · apply wellFormed_of_head
    · simp [hne]
    · rwa [List.head?_append_of_ne_nil _ hne]
    · rw [digits_append, hds, digits_zeros]
      rfl
    · rfl
  · obtain ⟨hnil, hzero⟩ := htake ((Nat.toDigits 10 n).length + x).toNat (by omega)
    exact wellFormed_of_head hnil hzero (digits_take hds _) (digits_drop hds _)
  · simp [Literal.wellFormed, digits_append, digits_zeros, hds]
    rfl
  · obtain ⟨hnil, hzero⟩ := htake 1 (by omega)
    exact wellFormed_of_head hnil hzero (digits_take hds _) (digits_drop hds _)

@[simp] theorem layout_negative (negative : Bool) (n : Nat) (x : Int) : (layout negative n x).negative = negative := by
  simp only [layout]
  split_ifs <;> rfl

theorem layout_magnitude (negative : Bool) (n : Nat) (x : Int) : (layout negative n x).magnitude = n * 10 ^ x := by
  have hlength := Nat.length_toDigits_pos (n := n) (b := 10)
  have hvalue := Nat.ofDigitChars_ten_toDigits (n := n)
  simp only [layout]
  split_ifs with hwhole hpoint hsmall
  · obtain ⟨k, rfl⟩ : ∃ k : Nat, x = k := ⟨x.toNat, by omega⟩
    simp [Literal.magnitude, Nat.ofDigitChars_append, hvalue, mul_comm]
  · have hexp : (0 : Int) - ((Nat.toDigits 10 n).drop ((Nat.toDigits 10 n).length + x).toNat).length = x := by
      rw [List.length_drop]
      omega
    simp only [Literal.magnitude, List.take_append_drop, hvalue, Option.getD_none, hexp]
  · have hzeros : ∀ k : Nat, Nat.ofDigitChars 10 (['0'] ++ (List.replicate k '0' ++ Nat.toDigits 10 n)) 0 = n := by
      intro k
      simp [Nat.ofDigitChars_append, Nat.ofDigitChars_cons, hvalue]
    have hexp : ∀ k : Nat, (k : Int) = -((Nat.toDigits 10 n).length + x) →
        (0 : Int) - (List.replicate k '0' ++ Nat.toDigits 10 n).length = x := by
      intro k hk
      rw [List.length_append, List.length_replicate]
      omega
    simp only [Literal.magnitude, hzeros, Option.getD_none, hexp _ (Int.toNat_of_nonneg (by omega))]
  · have hexp : ((Nat.toDigits 10 n).length : Int) + x - 1 - ((Nat.toDigits 10 n).drop 1).length = x := by
      rw [List.length_drop]
      omega
    simp only [Literal.magnitude, List.take_append_drop, hvalue, Option.getD_some, hexp]

end Decimal
