import Mathlib.Data.List.Sort
import Mathlib.Order.Lattice
import Mathlib.Data.List.Lex
import Mathlib.Data.UInt

namespace LaunchAuditor

/-- The characters a hex string may hold after its `0x`. -/
inductive HexDigit where
  | dec (n : Fin 10)
  | lower (n : Fin 6)
  | upper (n : Fin 6)
  deriving DecidableEq, Repr

namespace HexDigit

/-- The UTF-16 code unit, which is what string comparison looks at. -/
def code : HexDigit → Nat
  | .dec n => 48 + n
  | .lower n => 97 + n
  | .upper n => 65 + n

def value : HexDigit → Nat
  | .dec n => n
  | .lower n => 10 + n
  | .upper n => 10 + n

def toLowerCase : HexDigit → HexDigit
  | .upper n => .lower n
  | d => d

def toChar (d : HexDigit) : Char := Char.ofNat d.code

/-- The lower-case digit of a nibble. -/
def ofNibble (n : Nat) : HexDigit :=
  if h : n < 10 then .dec ⟨n, h⟩ else .lower ⟨(n - 10) % 6, Nat.mod_lt _ (by decide)⟩

theorem code_injective : Function.Injective code := by
  intro a b h
  cases a <;> cases b <;> simp only [code, dec.injEq, lower.injEq, upper.injEq, reduceCtorEq] at h ⊢
    <;> omega

theorem toChar_injective : Function.Injective toChar := by
  intro a b h
  cases a with
  | dec n => cases b <;> (revert h; rename_i m; revert n m; decide +kernel)
  | lower n => cases b <;> (revert h; rename_i m; revert n m; decide +kernel)
  | upper n => cases b <;> (revert h; rename_i m; revert n m; decide +kernel)

instance : LinearOrder HexDigit := LinearOrder.lift' code code_injective

@[simp] theorem value_toLowerCase (d : HexDigit) : d.toLowerCase.value = d.value := by
  cases d <;> rfl

@[simp] theorem toLowerCase_toLowerCase (d : HexDigit) : d.toLowerCase.toLowerCase = d.toLowerCase := by
  cases d <;> rfl

@[simp] theorem toLowerCase_ofNibble (n : Nat) : (ofNibble n).toLowerCase = ofNibble n := by
  unfold ofNibble
  split <;> rfl

end HexDigit

/-- viem's `0x${string}`: the digits after the prefix. Strings of the same
prefix compare as their digits do, code unit by code unit. -/
abbrev Hex := List HexDigit

namespace Hex

def toLowerCase (h : Hex) : Hex := h.map HexDigit.toLowerCase

def toString (h : Hex) : String := "0x" ++ String.ofList (h.map HexDigit.toChar)

/-- `BigInt(hex)` -/
def toNat (h : Hex) : Nat := h.foldl (fun n d => 16 * n + d.value) 0

def concatHex (a b : Hex) : Hex := a ++ b

/-- Two digits a byte; viem pads an odd digit in front, which 32-byte values
never need. -/
def hexToBytes : Hex → List UInt8
  | hi :: lo :: rest => UInt8.ofNat (16 * hi.value + lo.value) :: hexToBytes rest
  | _ => []

def bytesToHex (bs : List UInt8) : Hex :=
  bs.flatMap (fun b => [.ofNibble (b.toNat / 16), .ofNibble (b.toNat % 16)])

theorem toString_injective : Function.Injective Hex.toString := by
  intro a b h
  have hl : ("0x" ++ String.ofList (a.map HexDigit.toChar)).toList =
      ("0x" ++ String.ofList (b.map HexDigit.toChar)).toList := congrArg String.toList h
  rw [String.toList_append, String.toList_append, List.append_cancel_left_eq, String.toList_ofList,
    String.toList_ofList] at hl
  exact HexDigit.toChar_injective.list_map hl

theorem toString_ne_empty (h : Hex) : h.toString ≠ "" := by
  intro he
  have hl := congrArg String.length he
  simp [Hex.toString] at hl

@[simp] theorem toLowerCase_toLowerCase (h : Hex) : h.toLowerCase.toLowerCase = h.toLowerCase := by
  simp [toLowerCase, Function.comp_def]

@[simp] theorem length_toLowerCase (h : Hex) : h.toLowerCase.length = h.length := by
  simp [toLowerCase]

@[simp] theorem toLowerCase_append (a b : Hex) :
    Hex.toLowerCase (a ++ b) = a.toLowerCase ++ b.toLowerCase := by
  simp [toLowerCase]

/-- The case of a digit never reaches the bytes. -/
@[simp] theorem hexToBytes_toLowerCase (h : Hex) : hexToBytes h.toLowerCase = hexToBytes h := by
  fun_induction hexToBytes h with
  | case1 hi lo rest ih =>
    simp only [toLowerCase, List.map_cons] at ih ⊢
    simp only [hexToBytes, HexDigit.value_toLowerCase, ih]
  | case2 h hh =>
    match h, hh with
    | [], _ => rfl
    | [x], _ => rfl
    | x :: y :: zs, hh => exact absurd rfl (hh x y zs)

@[simp] theorem toLowerCase_bytesToHex (bs : List UInt8) :
    (bytesToHex bs).toLowerCase = bytesToHex bs := by
  induction bs with
  | nil => rfl
  | cons b bs ih =>
    simp only [bytesToHex, toLowerCase, List.flatMap_cons, List.map_append] at ih ⊢
    simp [ih]

@[simp] theorem hexToBytes_bytesToHex (bs : List UInt8) : hexToBytes (bytesToHex bs) = bs := by
  have hvalue : ∀ n < 16, (HexDigit.ofNibble n).value = n := by decide
  induction bs with
  | nil => rfl
  | cons b bs ih =>
    have hlt := b.toNat_lt
    change UInt8.ofNat (16 * (HexDigit.ofNibble (b.toNat / 16)).value + (HexDigit.ofNibble (b.toNat % 16)).value) ::
      hexToBytes (bytesToHex bs) = b :: bs
    rw [ih, hvalue _ (by omega), hvalue _ (by omega), Nat.div_add_mod, UInt8.ofNat_toNat]

@[simp] theorem length_bytesToHex (bs : List UInt8) : (bytesToHex bs).length = 2 * bs.length := by
  induction bs with
  | nil => rfl
  | cons b bs ih =>
    simp only [bytesToHex, List.flatMap_cons, List.length_append, List.length_cons,
      List.length_nil] at ih ⊢
    omega

end Hex

/-- The 64 digits of a word, in lower case. -/
def wordText (w : BitVec 256) : Hex := (List.range 64).reverse.map fun i => HexDigit.ofNibble (w.toNat / 16 ^ i % 16)

/-- A 32-byte digest, as keccak256 returns it. -/
abbrev Digest := { bs : List UInt8 // bs.length = 32 }

/-- A digest that answers 0x11 in every byte. -/
def constantDigest : List UInt8 → Digest := fun _ => ⟨List.replicate 32 17, by decide⟩

/-- viem's `keccak256` on a hex string, over any function on byte strings. -/
def keccak256 (keccak : List UInt8 → Digest) (h : Hex) : Hex :=
  Hex.bytesToHex (keccak (Hex.hexToBytes h)).val

@[simp] theorem keccak256_toLowerCase (keccak : List UInt8 → Digest) (h : Hex) :
    keccak256 keccak h.toLowerCase = keccak256 keccak h := by
  simp [keccak256]

@[simp] theorem toLowerCase_keccak256 (keccak : List UInt8 → Digest) (h : Hex) :
    (keccak256 keccak h).toLowerCase = keccak256 keccak h := by
  simp [keccak256]

end LaunchAuditor
