import LaunchAuditor.Js.Number
import Mathlib.Data.Rat.Defs

/-! `goplus.ts` and `scanhood.ts` of `apps/worker/src/scanners` -/

namespace LaunchAuditor.Scanners

structure LpHolder where
  is_locked : Option Int
  tag : Option String

/-- The payload, as far as it is read; every field is optional. -/
structure GoPlusTokenSecurity where
  /-- "1" = verified source -/
  is_open_source : Option String
  is_mintable : Option String
  is_honeypot : Option String
  owner_address : Option String
  can_take_back_ownership : Option String
  /-- a decimal fraction -/
  sell_tax : Option String
  lp_holders : Option (List LpHolder)

def isOne (v : Option String) : Option Bool := (v.filter (· ≠ "")).map fun v => decide (v = "1")

/-- A decimal fraction to basis points, which are not taken to be too many for a double. -/
def taxToBps (v : Option String) : Option Int :=
  ((v.filter (· ≠ "")).bind Js.number).map fun n => Js.mathRound (Js.double (n * 10000))

structure GoPlusMapped where
  verified : Option Bool
  mintable : Option Bool
  honeypot : Option Bool
  ownerRenounced : Option Bool
  sellTaxBps : Option Int
  lpLocked : Option Bool

def isLockedHolder (h : LpHolder) : Bool :=
  decide (h.is_locked = some 1) || decide ("lock".toList <:+: Js.toLowerCase (h.tag.getD ""))

def mapGoPlus : Option GoPlusTokenSecurity → GoPlusMapped
  | none => ⟨none, none, none, none, none, none⟩
  | some s =>
    let owner := Js.toLowerCase (s.owner_address.getD "")
    let ownerGone := decide (owner = [] ∨ owner = "0x0000000000000000000000000000000000000000".toList)
    let lp := s.lp_holders.getD []
    { verified := isOne s.is_open_source
      mintable := isOne s.is_mintable
      honeypot := isOne s.is_honeypot
      ownerRenounced :=
        if ownerGone ∧ isOne s.can_take_back_ownership ≠ some true then some true
        else if ownerGone then none
        else some false
      sellTaxBps := taxToBps s.sell_tax
      lpLocked := if lp = [] then none else some (lp.any isLockedHolder) }

structure ScanHoodLp where
  type : Option String
  status : Option String

/-- The payload, as far as it is read; null is absent. -/
structure ScanHoodScan where
  sellable : Option Bool
  verified : Option Bool
  rwa : Option String
  lp : Option ScanHoodLp
  /-- `deployer.launched` -/
  launched : Option Nat
  /-- `market.liq` -/
  liq : Option ℚ

structure ScanHoodMapped where
  verified : Option Bool
  sellable : Option Bool
  lpHolderType : Option String
  liquidityUsd : Option ℚ
  deployerLaunched : Option Nat
  isImpostorRwa : Option Bool

/-- The status, unless it says nothing. -/
def lpHolderType (lp : ScanHoodLp) : Option String :=
  match lp.status.filter fun status => status ≠ "" ∧ status ≠ "unknown" with
  | some status => some status
  | none => lp.type

def mapScanHood : Option ScanHoodScan → ScanHoodMapped
  | none => ⟨none, none, none, none, none, none⟩
  | some s =>
    { verified := s.verified
      sellable := s.sellable
      lpHolderType := s.lp.bind lpHolderType
      liquidityUsd := s.liq
      deployerLaunched := s.launched
      isImpostorRwa := s.rwa.map fun rwa => decide (rwa = "impostor") }

end LaunchAuditor.Scanners
