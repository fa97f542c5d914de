import LaunchAuditor.Lib.Decimal
import Mathlib.Data.List.TakeWhile
import Mathlib.Data.List.Sort

/-! JSON values, the text that is printed for one without any layout, and that the
text determines the value. -/

structure Numeral where
  text : List Char
  nonempty : text ≠ []
  plain : ∀ c ∈ text, Decimal.isLiteralChar c

theorem Numeral.ext {n m : Numeral} (h : n.text = m.text) : n = m := by
  cases n
  cases m
  cases h
  rfl

inductive Json where
  | null
  | bool (b : Bool)
  | num (n : Numeral)
  | str (s : String)
  | arr (items : List Json)
  | obj (members : List (String × Json))

namespace Json

/-- A character as it stands between the quotes. -/
def escape (c : Char) : List Char :=
  if c = '"' then ['\\', '"']
  else if c = '\\' then ['\\', '\\']
  else if c = '\x08' then ['\\', 'b']
  else if c = '\x0c' then ['\\', 'f']
  else if c = '\n' then ['\\', 'n']
  else if c = '\r' then ['\\', 'r']
  else if c = '\t' then ['\\', 't']
  else if c.toNat < 32 then ['\\', 'u', '0', '0', Nat.digitChar (c.toNat / 16), Nat.digitChar (c.toNat % 16)]
  else [c]

/-- The characters and the closing quote. -/
def body : List Char → List Char
  | [] => ['"']
  | c :: cs => escape c ++ body cs

def quoted (s : String) : List Char := '"' :: body s.toList

mutual

def text : Json → List Char
  | null => ['n', 'u', 'l', 'l']
  | bool true => ['t', 'r', 'u', 'e']
  | bool false => ['f', 'a', 'l', 's', 'e']
  | num n => n.text
  | str s => quoted s
  | arr items => '[' :: itemsText [] items
  | obj members => '\x7b' :: membersText [] members

/-- The items with the separator in front of the first of them, and the bracket. -/
def itemsText (sep : List Char) : List Json → List Char
  | [] => [']']
  | a :: as => sep ++ (a.text ++ itemsText [','] as)

def membersText (sep : List Char) : List (String × Json) → List Char
  | [] => ['\x7d']
  | (k, v) :: ms => sep ++ (quoted k ++ ':' :: (v.text ++ membersText [','] ms))

end

def hexValue (c : Char) : Nat := "0123456789abcdef".toList.idxOf c

/-- The reading of one character, the inverse of `escape`. -/
def unescape : List Char → Option (Char × List Char)
  | [] => none
  | c :: rest =>
    if c ≠ '\\' then some (c, rest)
    else match rest with
    | 'b' :: rest => some ('\x08', rest)
    | 'f' :: rest => some ('\x0c', rest)
    | 'n' :: rest => some ('\n', rest)
    | 'r' :: rest => some ('\r', rest)
    | 't' :: rest => some ('\t', rest)
    | 'u' :: '0' :: '0' :: h :: l :: rest => some (Char.ofNat (16 * hexValue h + hexValue l), rest)
    | c :: rest => some (c, rest)
    | [] => none

theorem hexValue_digitChar : ∀ d < 16, hexValue (Nat.digitChar d) = d := by decide +kernel

/-- A backslash and a letter, a backslash and a code, or the character as it is. -/
theorem escape_cases (c : Char) :
    (∃ d, escape c = ['\\', d] ∧ ∀ rest, unescape ('\\' :: d :: rest) = some (c, rest)) ∨
    (c.toNat < 32 ∧ escape c =
      ['\\', 'u', '0', '0', Nat.digitChar (c.toNat / 16), Nat.digitChar (c.toNat % 16)]) ∨
    (c ≠ '"' ∧ c ≠ '\\' ∧ escape c = [c]) := by
  by_cases hlisted : c ∈ ['"', '\\', '\x08', '\x0c', '\n', '\r', '\t']
  · left
    simp only [List.mem_cons, List.not_mem_nil, or_false] at hlisted
    rcases hlisted with rfl | rfl | rfl | rfl | rfl | rfl | rfl
    all_goals exact ⟨_, rfl, fun _ => rfl⟩
  · right
    simp only [List.mem_cons, List.not_mem_nil, or_false, not_or] at hlisted
    obtain ⟨h1, h2, h3, h4, h5, h6, h7⟩ := hlisted
    have hrest : escape c = if c.toNat < 32 then
        ['\\', 'u', '0', '0', Nat.digitChar (c.toNat / 16), Nat.digitChar (c.toNat % 16)] else [c] := by
      rw [escape, if_neg h1, if_neg h2, if_neg h3, if_neg h4, if_neg h5, if_neg h6, if_neg h7]
    by_cases hlow : c.toNat < 32
    · rw [if_pos hlow] at hrest
      exact Or.inl ⟨hlow, hrest⟩
    · rw [if_neg hlow] at hrest
      exact Or.inr ⟨h1, h2, hrest⟩

theorem unescape_escape (c : Char) (rest : List Char) : unescape (escape c ++ rest) = some (c, rest) := by
  rcases escape_cases c with ⟨d, he, hread⟩ | ⟨hlow, he⟩ | ⟨_, hplain, he⟩
  · rw [he]
    exact hread rest
  · have hfirst := hexValue_digitChar (c.toNat / 16) (by omega)
    have hlast := hexValue_digitChar (c.toNat % 16) (by omega)
    have hsum : 16 * (c.toNat / 16) + c.toNat % 16 = c.toNat := Nat.div_add_mod ..
    rw [he]
    change some (Char.ofNat (16 * hexValue _ + hexValue _), rest) = _
    rw [hfirst, hlast, hsum, Char.ofNat_toNat]
  · rw [he]
    exact if_pos hplain

theorem escape_prefix {c d : Char} {x y : List Char} (h : escape c ++ x = escape d ++ y) : c = d ∧ x = y := by
  have hread := congrArg unescape h
  rw [unescape_escape, unescape_escape] at hread
  exact ⟨congrArg Prod.fst (Option.some.inj hread), congrArg Prod.snd (Option.some.inj hread)⟩

theorem escape_head (c : Char) : ∃ e rest, escape c = e :: rest ∧ e ≠ '"' := by
  rcases escape_cases c with ⟨d, he, _⟩ | ⟨_, he⟩ | ⟨hquote, _, he⟩
  · exact ⟨_, _, he, by decide⟩
  · exact ⟨_, _, he, by decide⟩
  · exact ⟨_, _, he, hquote⟩

theorem body_prefix {cs ds x y : List Char} (h : body cs ++ x = body ds ++ y) : cs = ds ∧ x = y := by
  induction cs generalizing ds with
  | nil =>
    cases ds with
    | nil => exact ⟨rfl, (List.cons.inj h).2⟩
    | cons d ds =>
      obtain ⟨e, rest, he, hne⟩ := escape_head d
      rw [body, body, he] at h
      exact absurd (List.cons.inj h).1.symm hne
  | cons c cs ih =>
    cases ds with
    | nil =>
      obtain ⟨e, rest, he, hne⟩ := escape_head c
      rw [body, body, he] at h
      exact absurd (List.cons.inj h).1 hne
    | cons d ds =>
      rw [body, body, List.append_assoc, List.append_assoc] at h
      obtain ⟨hc, hrest⟩ := escape_prefix h
      obtain ⟨hcs, hx⟩ := ih hrest
      exact ⟨by rw [hc, hcs], hx⟩

theorem quoted_prefix {s t : String} {x y : List Char} (h : quoted s ++ x = quoted t ++ y) : s = t ∧ x = y := by
  obtain ⟨hchars, hx⟩ := body_prefix (List.cons.inj h).2
  exact ⟨String.toList_injective hchars, hx⟩

theorem numeral_prefix {n m : Numeral} {x y : List Char} (hx : Decimal.Stops x) (hy : Decimal.Stops y)
    (h : n.text ++ x = m.text ++ y) : n = m ∧ x = y := by
  have hspan : ∀ (n : Numeral) {x : List Char}, Decimal.Stops x → (n.text ++ x).takeWhile Decimal.isLiteralChar = n.text := by
    intro n x hx
    rw [List.takeWhile_append_of_pos n.plain]
    cases x with
    | nil => simp
    | cons c x => simp [hx c rfl]
  have htext : n.text = m.text := by rw [← hspan n hx, h, hspan m hy]
  rw [htext] at h
  exact ⟨Numeral.ext htext, List.append_cancel_left h⟩

inductive Kind where
  | null | bool | num | str | arr | obj

def kind : Json → Kind
  | null => .null
  | bool _ => .bool
  | num _ => .num
  | str _ => .str
  | arr _ => .arr
  | obj _ => .obj

/-- The kind of the value whose text begins with the character. -/
def kindOf (c : Char) : Option Kind :=
  if Decimal.isLiteralChar c then some .num
  else if c = '"' then some .str
  else if c = '[' then some .arr
  else if c = '\x7b' then some .obj
  else if c = 'n' then some .null
  else if c = 't' ∨ c = 'f' then some .bool
  else none

theorem text_head (a : Json) : ∃ c rest, a.text = c :: rest ∧ kindOf c = some a.kind := by
  cases a with
  | null => exact ⟨_, _, rfl, rfl⟩
  | bool b =>
    cases b with
    | true => exact ⟨_, _, rfl, rfl⟩
    | false => exact ⟨_, _, rfl, rfl⟩
  | num n =>
    obtain ⟨c, rest, hn⟩ := List.exists_cons_of_ne_nil n.nonempty
    have hc : Decimal.isLiteralChar c := n.plain c (by simp [hn])
    exact ⟨c, rest, hn, by simp [kindOf, hc, kind]⟩
  | str s => exact ⟨_, _, rfl, rfl⟩
  | arr items => exact ⟨_, _, rfl, rfl⟩
  | obj members => exact ⟨_, _, rfl, rfl⟩

theorem kind_eq {a b : Json} {x y : List Char} (h : a.text ++ x = b.text ++ y) : a.kind = b.kind := by
  obtain ⟨c, rest, ha, hc⟩ := text_head a
  obtain ⟨d, rest', hb, hd⟩ := text_head b
  rw [ha, hb] at h
  rw [(List.cons.inj h).1, hd] at hc
  exact (Option.some.inj hc).symm

/-- No value begins like the end of a list. -/
theorem text_ne_bracket {a : Json} {x y : List Char} : a.text ++ x ≠ ']' :: y := by
  intro h
  obtain ⟨c, rest, ha, hc⟩ := text_head a
  rw [ha] at h
  rw [(List.cons.inj h).1] at hc
  cases hc

theorem itemsText_stops (as : List Json) (x : List Char) : Decimal.Stops (itemsText [','] as ++ x) := by
  cases as with
  | nil => exact Decimal.stops_cons rfl _
  | cons a as => exact Decimal.stops_cons rfl _

theorem membersText_stops (ms : List (String × Json)) (x : List Char) : Decimal.Stops (membersText [','] ms ++ x) := by
  cases ms with
  | nil => exact Decimal.stops_cons rfl _
  | cons m ms => exact Decimal.stops_cons rfl _

/-- The separator in front of the first entry and of the later ones. -/
def Separator (sep : List Char) : Prop := sep = [] ∨ sep = [',']

/-- A list that has an entry does not begin like the end of one. -/
theorem itemsText_ne_bracket {sep : List Char} (hsep : Separator sep) (a : Json) (as : List Json) {x y : List Char} :
    itemsText sep (a :: as) ++ x ≠ ']' :: y := by
  rcases hsep with rfl | rfl
  · simp only [itemsText, List.nil_append, List.append_assoc]
    exact text_ne_bracket
  · intro h
    cases h

theorem membersText_ne_brace {sep : List Char} (hsep : Separator sep) (m : String × Json) (ms : List (String × Json))
    {x y : List Char} : membersText sep (m :: ms) ++ x ≠ '\x7d' :: y := by
  rcases hsep with rfl | rfl
  · intro h
    cases h
  · intro h
    cases h

mutual

/-- Where two values are printed at the start of one text, they are one value and
what follows them is the same. -/
theorem text_determined (a b : Json) {x y : List Char} (hx : Decimal.Stops x) (hy : Decimal.Stops y) (h : a.text ++ x = b.text ++ y) :
    a = b ∧ x = y := by
  have hkind := kind_eq h
  match a, b with
  | null, null => exact ⟨rfl, by simpa [text] using h⟩
  | bool p, bool q => cases p <;> cases q <;> simp_all [text]
  | num n, num m =>
    obtain ⟨rfl, hrest⟩ := numeral_prefix hx hy h
    exact ⟨rfl, hrest⟩
  | str s, str t =>
    obtain ⟨rfl, hrest⟩ := quoted_prefix h
    exact ⟨rfl, hrest⟩
  | arr as, arr bs =>
    obtain ⟨rfl, hrest⟩ := itemsText_determined as bs (Or.inl rfl) (List.cons.inj h).2
    exact ⟨rfl, hrest⟩
  | obj ms, obj ns =>
    obtain ⟨rfl, hrest⟩ := membersText_determined ms ns (Or.inl rfl) (List.cons.inj h).2
    exact ⟨rfl, hrest⟩

theorem itemsText_determined (as bs : List Json) {sep x y : List Char} (hsep : Separator sep)
    (h : itemsText sep as ++ x = itemsText sep bs ++ y) : as = bs ∧ x = y := by
  match as, bs with
  | [], [] => exact ⟨rfl, (List.cons.inj h).2⟩
  | [], b :: bs => exact absurd h.symm (itemsText_ne_bracket hsep b bs)
  | a :: as, [] => exact absurd h (itemsText_ne_bracket hsep a as)
  | a :: as, b :: bs =>
    simp only [itemsText, List.append_assoc] at h
    have hitems := List.append_cancel_left h
    obtain ⟨rfl, hrest⟩ := text_determined a b (itemsText_stops as x) (itemsText_stops bs y) hitems
    obtain ⟨rfl, hx⟩ := itemsText_determined as bs (Or.inr rfl) hrest
    exact ⟨rfl, hx⟩

theorem membersText_determined (ms ns : List (String × Json)) {sep x y : List Char} (hsep : Separator sep)
    (h : membersText sep ms ++ x = membersText sep ns ++ y) : ms = ns ∧ x = y := by
  match ms, ns with
  | [], [] => exact ⟨rfl, (List.cons.inj h).2⟩
  | [], (l, w) :: ns => exact absurd h.symm (membersText_ne_brace hsep (l, w) ns)
  | (k, v) :: ms, [] => exact absurd h (membersText_ne_brace hsep (k, v) ms)
  | (k, v) :: ms, (l, w) :: ns =>
    simp only [membersText, List.append_assoc, List.cons_append] at h
    obtain ⟨rfl, hcolon⟩ := quoted_prefix (List.append_cancel_left h)
    have hvalues := (List.cons.inj hcolon).2
    obtain ⟨rfl, hrest⟩ := text_determined v w (membersText_stops ms x) (membersText_stops ns y) hvalues
    obtain ⟨rfl, hx⟩ := membersText_determined ms ns (Or.inr rfl) hrest
    exact ⟨rfl, hx⟩

end

theorem text_injective {a b : Json} (h : a.text = b.text) : a = b := by
  have hstops : Decimal.Stops [] := by simp [Decimal.Stops]
  exact (text_determined a b hstops hstops (by rw [h])).1

end Json
