import Mathlib.Data.List.Basic

/-! JSON strings. The string is a list of UTF-16 code units, lone surrogates among them; its text
between the quotes is a list of characters. -/

namespace JsonString

/-- The code units of a character. -/
def units (c : Char) : List UInt16 :=
  if c.toNat < 65536 then [UInt16.ofNat c.toNat]
  else [UInt16.ofNat (55296 + (c.toNat - 65536) / 1024), UInt16.ofNat (56320 + (c.toNat - 65536) % 1024)]

def ofString (s : String) : List UInt16 := s.toList.flatMap units

def isHigh (u : UInt16) : Bool := 55296 ≤ u.toNat && u.toNat < 56320

def isLow (u : UInt16) : Bool := 56320 ≤ u.toNat && u.toNat < 57344

/-- The character of a pair of surrogates. -/
def pair (high low : UInt16) : Char := Char.ofNat (65536 + (high.toNat - 55296) * 1024 + (low.toNat - 56320))

def hexText (n : Nat) : List Char :=
  [Nat.digitChar (n / 4096 % 16), Nat.digitChar (n / 256 % 16), Nat.digitChar (n / 16 % 16), Nat.digitChar (n % 16)]

/-- A code unit that is not half of a pair. -/
def unitText (u : UInt16) : List Char :=
  if u = 34 then ['\\', '"']
  else if u = 92 then ['\\', '\\']
  else if u = 8 then ['\\', 'b']
  else if u = 12 then ['\\', 'f']
  else if u = 10 then ['\\', 'n']
  else if u = 13 then ['\\', 'r']
  else if u = 9 then ['\\', 't']
  else if u.toNat < 32 || isHigh u || isLow u then '\\' :: 'u' :: hexText u.toNat
  else [Char.ofNat u.toNat]

/-- The units and the closing quote. -/
def text : List UInt16 → List Char
  | [] => ['"']
  | [u] => unitText u ++ ['"']
  | u :: v :: rest => if isHigh u && isLow v then pair u v :: text rest else unitText u ++ text (v :: rest)

def hexDigit (c : Char) : Option Nat :=
  if '0' ≤ c ∧ c ≤ '9' then some (c.toNat - 48)
  else if 'a' ≤ c ∧ c ≤ 'f' then some (c.toNat - 87)
  else if 'A' ≤ c ∧ c ≤ 'F' then some (c.toNat - 55)
  else none

def readHex (a b c d : Char) : Option UInt16 := do
  let a ← hexDigit a
  let b ← hexDigit b
  let c ← hexDigit c
  let d ← hexDigit d
  some (UInt16.ofNat (4096 * a + 256 * b + 16 * c + d))

/-- The letter behind a backslash. -/
def readEscape (c : Char) : Option UInt16 :=
  match c with
  | '"' => some 34
  | '\\' => some 92
  | '/' => some 47
  | 'b' => some 8
  | 'f' => some 12
  | 'n' => some 10
  | 'r' => some 13
  | 't' => some 9
  | _ => none

/-- From behind the opening quote: the units up to the closing one, and what follows it. -/
def read : List Char → Option (List UInt16 × List Char)
  | [] => none
  | '"' :: x => some ([], x)
  | '\\' :: 'u' :: a :: b :: c :: d :: x => do
    let u ← readHex a b c d
    (read x).map fun p => (u :: p.1, p.2)
  | '\\' :: e :: x => do
    let u ← readEscape e
    (read x).map fun p => (u :: p.1, p.2)
  | c :: x => if c = '\\' ∨ c.toNat < 32 then none else (read x).map fun p => (units c ++ p.1, p.2)

/-- The text read puts the units in front of what is read behind it. -/
def Reads (cs : List Char) (us : List UInt16) : Prop := ∀ x, read (cs ++ x) = (read x).map fun p => (us ++ p.1, p.2)

theorem reads_plain {c : Char} (hquote : c ≠ '"') (hslash : c ≠ '\\') (hlow : 32 ≤ c.toNat) : Reads [c] (units c) := by
  intro x
  simp [read, hslash, Nat.not_lt.mpr hlow]

theorem hexDigit_table : ∀ d < 16, hexDigit (Nat.digitChar d) = some d := by decide

theorem hexDigit_digitChar (n : Nat) : hexDigit (Nat.digitChar (n % 16)) = some (n % 16) :=
  hexDigit_table _ (Nat.mod_lt _ (by omega))

theorem readHex_hexText (u : UInt16) :
    readHex (Nat.digitChar (u.toNat / 4096 % 16)) (Nat.digitChar (u.toNat / 256 % 16))
      (Nat.digitChar (u.toNat / 16 % 16)) (Nat.digitChar (u.toNat % 16)) = some u := by
  have hu := u.toNat_lt
  have hsum : 4096 * (u.toNat / 4096 % 16) + 256 * (u.toNat / 256 % 16) + 16 * (u.toNat / 16 % 16) + u.toNat % 16 =
      u.toNat := by omega
  simp only [readHex, hexDigit_digitChar, Option.bind_eq_bind, Option.bind_some, hsum, UInt16.ofNat_toNat]

theorem reads_hex (u : UInt16) : Reads ('\\' :: 'u' :: hexText u.toNat) [u] := by
  intro x
  simp only [hexText, List.cons_append, List.nil_append, read, readHex_hexText, Option.bind_eq_bind, Option.bind_some]

theorem toNat_ofNat_valid {n : Nat} (h : n.isValidChar) : (Char.ofNat n).toNat = n := by
  have hchar : Char.ofNat n = Char.ofNatAux n h := dif_pos h
  exact congrArg Char.toNat hchar

theorem reads_unitText (u : UInt16) : Reads (unitText u) [u] := by
  by_cases hlisted : u ∈ [34, 92, 8, 12, 10, 13, (9 : UInt16)]
  · simp only [List.mem_cons, List.not_mem_nil, or_false] at hlisted
    rcases hlisted with rfl | rfl | rfl | rfl | rfl | rfl | rfl
    all_goals exact fun _ => rfl
  · simp only [List.mem_cons, List.not_mem_nil, or_false, not_or] at hlisted
    obtain ⟨hquote, hslash, h8, h12, h10, h13, h9⟩ := hlisted
    rw [unitText, if_neg hquote, if_neg hslash, if_neg h8, if_neg h12, if_neg h10, if_neg h13, if_neg h9]
    split
    · exact reads_hex u
    · rename_i hplain
      simp only [isHigh, isLow, Bool.or_eq_true, decide_eq_true_eq, Bool.and_eq_true, not_or, not_and] at hplain
      have hu := u.toNat_lt
      have hvalid : u.toNat.isValidChar := by
        simp only [Nat.isValidChar]
        omega
      have hnat := toNat_ofNat_valid hvalid
      have hunits : units (Char.ofNat u.toNat) = [u] := by
        rw [units, hnat, if_pos (by omega), UInt16.ofNat_toNat]
      have hne : ∀ (c : Char) (v : UInt16), c.toNat = v.toNat → u ≠ v → Char.ofNat u.toNat ≠ c := by
        rintro c v hc hv rfl
        exact hv (UInt16.toNat_inj.mp (hnat.symm.trans hc))
      have hreads := reads_plain (hne '"' 34 rfl hquote) (hne '\\' 92 rfl hslash) (by rw [hnat]; omega)
      rwa [hunits] at hreads

theorem reads_pair {u v : UInt16} (hu : isHigh u) (hv : isLow v) : Reads [pair u v] [u, v] := by
  simp only [isHigh, isLow, Bool.and_eq_true, decide_eq_true_eq] at hu hv
  have hvalid : (65536 + (u.toNat - 55296) * 1024 + (v.toNat - 56320)).isValidChar := by
    simp only [Nat.isValidChar]
    omega
  have hnat : (pair u v).toNat = 65536 + (u.toNat - 55296) * 1024 + (v.toNat - 56320) := toNat_ofNat_valid hvalid
  have hunits : units (pair u v) = [u, v] := by
    have hfirst : 55296 + ((pair u v).toNat - 65536) / 1024 = u.toNat := by omega
    have hsecond : 56320 + ((pair u v).toNat - 65536) % 1024 = v.toNat := by omega
    rw [units, if_neg (by omega), hfirst, hsecond, UInt16.ofNat_toNat, UInt16.ofNat_toNat]
  have hne : ∀ c : Char, c.toNat < 65536 → pair u v ≠ c := by
    rintro c hc rfl
    omega
  have hreads := reads_plain (hne '"' (by decide)) (hne '\\' (by decide)) (by omega)
  rwa [hunits] at hreads

/-- A string is read back from its text. -/
theorem read_text (us : List UInt16) (x : List Char) : read (text us ++ x) = some (us, x) := by
  induction us using text.induct with
  | case1 => rfl
  | case2 u =>
    rw [text, List.append_assoc, reads_unitText]
    rfl
  | case3 u v rest hpair ih =>
    simp only [Bool.and_eq_true] at hpair
    rw [text, if_pos (by simp [hpair])]
    change read ([pair u v] ++ (text rest ++ x)) = _
    rw [reads_pair hpair.1 hpair.2, ih]
    rfl
  | case4 u v rest hpair ih =>
    rw [text, if_neg hpair, List.append_assoc, reads_unitText, ih]
    rfl

end JsonString
