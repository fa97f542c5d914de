import LaunchAuditor.Lib.JsonValue

/-! What is read of the text that was written for a value. -/

namespace JsonValue
open Decimal (Stops stops_cons)

variable {F : Floating} {x : List Char}

theorem skip_cons {c : Char} (h : isSpace c = false) : skip (c :: x) = c :: x := by
  simp [skip, h]

/-- How the text of a value begins. -/
def isHead (c : Char) : Bool := Decimal.isLiteralChar c || c ∈ ['"', '[', '\x7b', 'n', 't', 'f']

theorem stringify_head (v : JsonValue F) : ∃ c rest, v.stringify = c :: rest ∧ isHead c := by
  cases v with
  | null => exact ⟨_, _, rfl, rfl⟩
  | bool b =>
    cases b with
    | true => exact ⟨_, _, rfl, rfl⟩
    | false => exact ⟨_, _, rfl, rfl⟩
  | number n =>
    cases n with
    | finite y =>
      obtain ⟨c, rest, hc⟩ := List.exists_cons_of_ne_nil (Decimal.Literal.text_ne_nil y.literal_wellFormed)
      have hchar := Decimal.Literal.text_chars y.literal_wellFormed c (by simp [hc])
      exact ⟨c, rest, hc, by simp [isHead, hchar]⟩
    | infinite negative => exact ⟨_, _, rfl, rfl⟩
  | string s => exact ⟨_, _, rfl, rfl⟩
  | array items => exact ⟨_, _, rfl, rfl⟩
  | object members => exact ⟨_, _, rfl, rfl⟩

theorem head_ne {c d : Char} (h : isHead c) (hd : isHead d = false) : c ≠ d := by
  rintro rfl
  rw [h] at hd
  cases hd

theorem literalChar_ne {c d : Char} (h : Decimal.isLiteralChar c) (hd : Decimal.isLiteralChar d = false) : c ≠ d := by
  rintro rfl
  rw [h] at hd
  cases hd

theorem isHead_not_space {c : Char} (h : isHead c) : isSpace c = false := by
  simp only [isSpace, List.mem_cons, List.not_mem_nil, or_false, decide_eq_false_iff_not, not_or]
  exact ⟨head_ne h rfl, head_ne h rfl, head_ne h rfl, head_ne h rfl⟩

theorem stringifyItems_stops (vs : List (JsonValue F)) (x : List Char) : Stops (stringifyItems [','] vs ++ x) := by
  cases vs with
  | nil => exact stops_cons rfl _
  | cons v vs => exact stops_cons rfl _

theorem stringifyMembers_stops (ms : List (List UInt16 × JsonValue F)) (x : List Char) :
    Stops (stringifyMembers [','] ms ++ x) := by
  cases ms with
  | nil => exact stops_cons rfl _
  | cons m ms => exact stops_cons rfl _

theorem readNumber_literal (y : Floating.Finite F) (hx : Stops x) :
    readNumber (y.literal.text ++ x) = some (number (.finite y), x) := by
  have hchars := Decimal.Literal.text_chars y.literal_wellFormed
  have htake : (y.literal.text ++ x).takeWhile Decimal.isLiteralChar = y.literal.text := by
    rw [List.takeWhile_append_of_pos hchars]
    cases x with
    | nil => simp
    | cons c x => simp [hx c rfl]
  have hdrop : (y.literal.text ++ x).dropWhile Decimal.isLiteralChar = x := by
    rw [List.dropWhile_append_of_pos hchars]
    cases x with
    | nil => simp
    | cons c x => simp [hx c rfl]
  rw [readNumber, htake, hdrop, Decimal.Literal.read_text y.literal_wellFormed, Option.map_some, y.ofRat_literal]

theorem read_literal (y : Floating.Finite F) (hx : Stops x) (n : Nat) :
    read (n + 1) (y.literal.text ++ x) = some (number (.finite y), x) := by
  obtain ⟨c, rest, hc⟩ := List.exists_cons_of_ne_nil (Decimal.Literal.text_ne_nil y.literal_wellFormed)
  have hchar := Decimal.Literal.text_chars y.literal_wellFormed c (by simp [hc])
  have hnumber := readNumber_literal y hx
  rw [hc, List.cons_append] at hnumber ⊢
  have hspace := isHead_not_space (c := c) (by simp [isHead, hchar])
  simp only [read, skip_cons hspace, literalChar_ne hchar (d := '"') rfl, literalChar_ne hchar (d := '[') rfl,
    literalChar_ne hchar (d := '\x7b') rfl, literalChar_ne hchar (d := 'n') rfl, literalChar_ne hchar (d := 't') rfl,
    literalChar_ne hchar (d := 'f') rfl, if_false, hnumber]

/-- What stands in front of an entry. -/
def separator (first : Bool) : List Char := if first then [] else [',']

theorem readItems_separator {c : Char} (h : isHead c) (first : Bool) (n : Nat) :
    readItems (F := F) (n + 1) first (separator first ++ c :: x) =
      (read n (c :: x)).bind fun p => (readItems n false p.2).bind fun q => some (p.1 :: q.1, q.2) := by
  have hbracket : c ≠ ']' := head_ne h rfl
  cases first with
  | true =>
    simp only [separator, if_true, List.nil_append, readItems, skip_cons (isHead_not_space h), hbracket, if_false, Bool.true_or]
    rfl
  | false => rfl

theorem readMembers_separator (k : List UInt16) (first : Bool) (c : Char) (n : Nat) :
    readMembers (F := F) (n + 1) first (separator first ++ '"' :: (JsonString.text k ++ ':' :: c :: x)) =
      (read n (c :: x)).bind fun p => (readMembers n false p.2).bind fun q => some ((k, p.1) :: q.1, q.2) := by
  have hkey := JsonString.read_text k (':' :: c :: x)
  cases first with
  | true =>
    change (JsonString.read (JsonString.text k ++ ':' :: c :: x)).bind _ = _
    rw [hkey]
    rfl
  | false =>
    change (JsonString.read (JsonString.text k ++ ':' :: c :: x)).bind _ = _
    rw [hkey]
    rfl

mutual

/-- The text of a value, whatever stands behind it. -/
theorem read_stringify (v : JsonValue F) {n : Nat} {x : List Char} (hn : v.stringify.length < n) (hx : Stops x) :
    read n (v.stringify ++ x) = some (v.normal, x) := by
  obtain ⟨n, rfl⟩ : ∃ m, n = m + 1 := ⟨n - 1, by omega⟩
  match v with
  | null => rfl
  | bool true => rfl
  | bool false => rfl
  | number (.finite y) => exact read_literal y hx n
  | number (.infinite _) => rfl
  | string s =>
    change (JsonString.read (JsonString.text s ++ x)).map _ = _
    rw [JsonString.read_text]
    rfl
  | array items =>
    simp only [stringify, List.length_cons] at hn
    change (readItems n true (stringifyItems (separator true) items ++ x)).map _ = _
    rw [readItems_stringify items true (Nat.lt_of_succ_lt_succ hn)]
    rfl
  | object members =>
    simp only [stringify, List.length_cons] at hn
    change (readMembers n true (stringifyMembers (separator true) members ++ x)).map _ = _
    rw [readMembers_stringify members true (Nat.lt_of_succ_lt_succ hn)]
    rfl

theorem readItems_stringify (vs : List (JsonValue F)) (first : Bool) {n : Nat} {x : List Char}
    (hn : (stringifyItems (separator first) vs).length < n) :
    readItems n first (stringifyItems (separator first) vs ++ x) = some (normalItems vs, x) := by
  obtain ⟨n, rfl⟩ : ∃ m, n = m + 1 := ⟨n - 1, by omega⟩
  match vs with
  | [] => cases first <;> rfl
  | v :: vs =>
    obtain ⟨c, rest, hc, hhead⟩ := stringify_head v
    have hlength : v.stringify.length = rest.length + 1 := by rw [hc, List.length_cons]
    have hlast : 0 < (stringifyItems [','] vs).length := by cases vs <;> simp [stringifyItems]
    simp only [stringifyItems, List.length_append] at hn
    have hvalue := read_stringify v (n := n) (by omega) (stringifyItems_stops vs x)
    have hrest := readItems_stringify vs false (n := n) (x := x) (by simp only [separator, Bool.false_eq_true, if_false]; omega)
    simp only [stringifyItems, List.append_assoc]
    rw [hc, List.cons_append] at hvalue ⊢
    rw [readItems_separator hhead, hvalue, Option.bind_some]
    change (readItems n false (stringifyItems (separator false) vs ++ x)).bind _ = _
    rw [hrest]
    rfl

theorem readMembers_stringify (ms : List (List UInt16 × JsonValue F)) (first : Bool) {n : Nat} {x : List Char}
    (hn : (stringifyMembers (separator first) ms).length < n) :
    readMembers n first (stringifyMembers (separator first) ms ++ x) = some (normalMembers ms, x) := by
  obtain ⟨n, rfl⟩ : ∃ m, n = m + 1 := ⟨n - 1, by omega⟩
  match ms with
  | [] => cases first <;> rfl
  | (k, v) :: ms =>
    obtain ⟨c, rest, hc, _⟩ := stringify_head v
    simp only [stringifyMembers, List.length_append, List.length_cons] at hn
    have hvalue := read_stringify v (n := n) (by omega) (stringifyMembers_stops ms x)
    have hrest := readMembers_stringify ms false (n := n) (x := x) (by simp only [separator, Bool.false_eq_true, if_false]; omega)
    simp only [stringifyMembers, List.append_assoc, List.cons_append]
    rw [hc, List.cons_append] at hvalue ⊢
    rw [readMembers_separator k first c, hvalue, Option.bind_some]
    change (readMembers n false (stringifyMembers (separator false) ms ++ x)).bind _ = _
    rw [hrest]
    rfl

end

/-- Writing and reading. -/
theorem parse_stringify (v : JsonValue F) : parse v.stringify = some v.normal := by
  have hread := read_stringify v (Nat.lt_succ_self _) (x := []) (by simp [Stops])
  rw [List.append_nil] at hread
  rw [parse, hread]
  rfl

theorem parse_stringify_of_proper {v : JsonValue F} (h : v.proper) : parse v.stringify = some v := by
  rw [parse_stringify, normal_of_proper v h]

end JsonValue
