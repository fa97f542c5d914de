import Mathlib.Data.List.Nodup

/-! Base64 in the alphabet for URLs, without padding. A reader takes both alphabets, skips every
other character and drops the bits that fill no byte. -/

namespace Base64

def alphabet : List Char := "ABCDEFGHIJKLMNOPQRSTUVWXYZabcdefghijklmnopqrstuvwxyz0123456789-_".toList

def digit (v : Nat) : Char := alphabet.getD v '_'

def value (c : Char) : Option Nat :=
  if c = '+' then some 62 else if c = '/' then some 63 else alphabet.findIdx? fun d => d == c

/-- Three bytes make four values. -/
def encodeValues : List UInt8 → List Nat
  | [] => []
  | [a] => [a.toNat / 4, a.toNat % 4 * 16]
  | [a, b] => [a.toNat / 4, a.toNat % 4 * 16 + b.toNat / 16, b.toNat % 16 * 4]
  | a :: b :: c :: bytes =>
    [a.toNat / 4, a.toNat % 4 * 16 + b.toNat / 16, b.toNat % 16 * 4 + c.toNat / 64, c.toNat % 64] ++ encodeValues bytes

def decodeValues : List Nat → List UInt8
  | w :: x :: y :: z :: values =>
    UInt8.ofNat (w * 4 + x / 16) :: UInt8.ofNat (x % 16 * 16 + y / 4) :: UInt8.ofNat (y % 4 * 64 + z) ::
      decodeValues values
  | [w, x, y] => [UInt8.ofNat (w * 4 + x / 16), UInt8.ofNat (x % 16 * 16 + y / 4)]
  | [w, x] => [UInt8.ofNat (w * 4 + x / 16)]
  | _ => []

def encode (bytes : List UInt8) : List Char := (encodeValues bytes).map digit

def decode (cs : List Char) : List UInt8 := decodeValues (cs.filterMap value)

theorem alphabet_eq : alphabet =
    ['A', 'B', 'C', 'D', 'E', 'F', 'G', 'H', 'I', 'J', 'K', 'L', 'M', 'N', 'O', 'P', 'Q', 'R', 'S', 'T', 'U', 'V', 'W', 'X',
      'Y', 'Z', 'a', 'b', 'c', 'd', 'e', 'f', 'g', 'h', 'i', 'j', 'k', 'l', 'm', 'n', 'o', 'p', 'q', 'r', 's', 't', 'u', 'v',
      'w', 'x', 'y', 'z', '0', '1', '2', '3', '4', '5', '6', '7', '8', '9', '-', '_'] :=
  String.toList_ofList

theorem alphabet_length : alphabet.length = 64 := by
  rw [alphabet_eq]
  rfl

theorem alphabet_nodup : alphabet.Nodup := by
  have hcodes : (alphabet.map Char.toNat).Nodup := by
    rw [alphabet_eq]
    decide
  exact List.Nodup.of_map _ hcodes

theorem alphabet_letters : ∀ c ∈ alphabet, c ≠ '+' ∧ c ≠ '/' ∧ c ≠ '=' := by
  rw [alphabet_eq]
  simp

@[simp] theorem value_digit {v : Nat} (h : v < 64) : value (digit v) = some v := by
  have hv : v < alphabet.length := by rw [alphabet_length]; exact h
  have hdigit : digit v = alphabet[v] := by
    rw [digit, List.getD_eq_getElem?_getD, List.getElem?_eq_getElem hv, Option.getD_some]
  obtain ⟨hplus, hslash, -⟩ := alphabet_letters _ (List.getElem_mem hv)
  rw [value, hdigit, if_neg hplus, if_neg hslash, List.findIdx?_eq_some_iff_getElem]
  refine ⟨hv, beq_self_eq_true _, ?_⟩
  intro j hj hsame
  have := alphabet_nodup.getElem_inj_iff.mp (beq_iff_eq.mp hsame)
  omega

theorem encodeValues_lt (bytes : List UInt8) : ∀ v ∈ encodeValues bytes, v < 64 := by
  induction bytes using encodeValues.induct with
  | case1 => simp [encodeValues]
  | case2 a =>
    have ha := a.toNat_lt
    simp only [encodeValues, List.forall_mem_cons]
    refine ⟨by omega, by omega, by simp⟩
  | case3 a b =>
    have ha := a.toNat_lt
    have hb := b.toNat_lt
    simp only [encodeValues, List.forall_mem_cons]
    refine ⟨by omega, by omega, by omega, by simp⟩
  | case4 a b c bytes ih =>
    have ha := a.toNat_lt
    have hb := b.toNat_lt
    have hc := c.toNat_lt
    simp only [encodeValues, List.cons_append, List.nil_append, List.forall_mem_cons]
    exact ⟨by omega, by omega, by omega, by omega, ih⟩

theorem ofNat_parts {b : UInt8} {n : Nat} (h : n = b.toNat) : UInt8.ofNat n = b := by
  rw [h, UInt8.ofNat_toNat]

theorem decodeValues_encodeValues (bytes : List UInt8) : decodeValues (encodeValues bytes) = bytes := by
  induction bytes using encodeValues.induct with
  | case1 => rfl
  | case2 a =>
    have hfirst : UInt8.ofNat (a.toNat / 4 * 4 + a.toNat % 4 * 16 / 16) = a := ofNat_parts (by omega)
    simp only [encodeValues, decodeValues, hfirst]
  | case3 a b =>
    have hb := b.toNat_lt
    have hfirst : UInt8.ofNat (a.toNat / 4 * 4 + (a.toNat % 4 * 16 + b.toNat / 16) / 16) = a := ofNat_parts (by omega)
    have hsecond : UInt8.ofNat ((a.toNat % 4 * 16 + b.toNat / 16) % 16 * 16 + b.toNat % 16 * 4 / 4) = b :=
      ofNat_parts (by omega)
    simp only [encodeValues, decodeValues, hfirst, hsecond]
  | case4 a b c bytes ih =>
    have hb := b.toNat_lt
    have hc := c.toNat_lt
    have hfirst : UInt8.ofNat (a.toNat / 4 * 4 + (a.toNat % 4 * 16 + b.toNat / 16) / 16) = a := ofNat_parts (by omega)
    have hsecond : UInt8.ofNat ((a.toNat % 4 * 16 + b.toNat / 16) % 16 * 16 + (b.toNat % 16 * 4 + c.toNat / 64) / 4) = b :=
      ofNat_parts (by omega)
    have hthird : UInt8.ofNat ((b.toNat % 16 * 4 + c.toNat / 64) % 4 * 64 + c.toNat % 64) = c := ofNat_parts (by omega)
    simp only [encodeValues, List.cons_append, List.nil_append, decodeValues, hfirst, hsecond, hthird, ih]

theorem filterMap_value_digit {values : List Nat} (h : ∀ v ∈ values, v < 64) :
    (values.map digit).filterMap value = values := by
  induction values with
  | nil => rfl
  | cons v values ih =>
    obtain ⟨hv, hvalues⟩ := List.forall_mem_cons.mp h
    simp [hv, ih hvalues]

theorem decode_encode (bytes : List UInt8) : decode (encode bytes) = bytes := by
  rw [decode, encode, filterMap_value_digit (encodeValues_lt bytes), decodeValues_encodeValues]

def standardDigit (v : Nat) : Char := if v = 62 then '+' else if v = 63 then '/' else digit v

def encodePadded (bytes : List UInt8) : List Char :=
  (encodeValues bytes).map standardDigit ++ List.replicate ((3 - bytes.length % 3) % 3) '='

@[simp] theorem value_standardDigit {v : Nat} (h : v < 64) : value (standardDigit v) = some v := by
  by_cases h62 : v = 62
  · subst h62
    rfl
  · by_cases h63 : v = 63
    · subst h63
      rfl
    · rw [standardDigit, if_neg h62, if_neg h63, value_digit h]

theorem filterMap_standardDigit {values : List Nat} (h : ∀ v ∈ values, v < 64) :
    (values.map standardDigit).filterMap value = values := by
  induction values with
  | nil => rfl
  | cons v values ih =>
    obtain ⟨hv, hvalues⟩ := List.forall_mem_cons.mp h
    simp [hv, ih hvalues]

theorem value_pad : value '=' = none := by
  rw [value, if_neg (by simp), if_neg (by simp), List.findIdx?_eq_none_iff]
  intro c hc
  exact beq_eq_false_iff_ne.mpr (alphabet_letters c hc).2.2

theorem filterMap_padding (k : Nat) : (List.replicate k '=').filterMap value = [] := by
  induction k with
  | zero => rfl
  | succ k ih => rw [List.replicate_succ, List.filterMap_cons_none value_pad, ih]

theorem decode_encodePadded (bytes : List UInt8) : decode (encodePadded bytes) = bytes := by
  rw [decode, encodePadded, List.filterMap_append, filterMap_standardDigit (encodeValues_lt bytes), filterMap_padding,
    List.append_nil, decodeValues_encodeValues]

/-- The characters of the text: digits and padding. -/
theorem encodePadded_chars (bytes : List UInt8) : ∀ c ∈ encodePadded bytes, (value c).isSome ∨ c = '=' := by
  intro c hc
  rcases List.mem_append.mp hc with hc | hc
  · obtain ⟨v, hv, rfl⟩ := List.mem_map.mp hc
    simp [encodeValues_lt bytes v hv]
  · exact Or.inr (List.eq_of_mem_replicate hc)

theorem encodePadded_ne_nil {bytes : List UInt8} (h : bytes ≠ []) : encodePadded bytes ≠ [] := by
  intro hnil
  have hdecode := decode_encodePadded bytes
  rw [hnil] at hdecode
  exact h hdecode.symm

end Base64
