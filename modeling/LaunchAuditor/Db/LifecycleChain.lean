import LaunchAuditor.Hex
import LaunchAuditor.Metabolism.StateMachine
import Mathlib.Data.Rat.Defs

/-! `packages/db/src/lifecycle-chain.ts`: the signed body of a lifecycle row and the
check of a run of rows. The hash of the canonical JSON of a body is a parameter
`lifecycleBodyHash` of what follows. -/

namespace LaunchAuditor.Db
open Metabolism

def GENESIS_HASH : Hex := List.replicate 64 (.ofNibble 0)

structure LifecycleBody where
  /-- `at` -/
  atIso : String
  prevState : Option String
  newState : String
  reason : String
  isSnapshot : Bool
  keyHashPrefix : Option String
  balanceUsd : Option ℚ
  keyRemainingUsd : Option ℚ
  reserveUsd : Option ℚ
  ledgerSpendUsd : Option ℚ
  providerSpendUsd : Option ℚ
  idsMismatch : Bool
  prevHash : String
  deriving DecidableEq

/-- A row as the verifier sees it. -/
structure LifecycleChainRow where
  atIso : String
  prevState : Option String
  newState : String
  reason : String
  isSnapshot : Bool
  keyHashPrefix : Option String
  balanceUsd : Option ℚ
  keyRemainingUsd : Option ℚ
  reserveUsd : Option ℚ
  ledgerSpendUsd : Option ℚ
  providerSpendUsd : Option ℚ
  idsMismatch : Bool
  prevHash : Option String
  bodyHash : Option String
  deriving DecidableEq

structure LifecycleChainCheck where
  linked : Bool
  /-- no row altered and no missing parent, forks allowed -/
  intact : Bool
  forks : List Nat
  startsAtGenesis : Bool
  length : Nat
  brokenAt : Option Nat
  deriving DecidableEq

def bodyOf (r : LifecycleChainRow) (prevHash : String) : LifecycleBody :=
  { atIso := r.atIso, prevState := r.prevState, newState := r.newState, reason := r.reason
    isSnapshot := r.isSnapshot, keyHashPrefix := r.keyHashPrefix, balanceUsd := r.balanceUsd
    keyRemainingUsd := r.keyRemainingUsd, reserveUsd := r.reserveUsd, ledgerSpendUsd := r.ledgerSpendUsd
    providerSpendUsd := r.providerSpendUsd, idsMismatch := r.idsMismatch, prevHash }

/-- `bodyOf(r, r.prevHash ?? GENESIS_HASH)` -/
def LifecycleChainRow.body (r : LifecycleChainRow) : LifecycleBody :=
  bodyOf r (r.prevHash.getD GENESIS_HASH.toString)

/-- The variables of the loop, with `rows[i - 1]`. -/
structure ChainScan where
  i : Nat
  last : Option LifecycleChainRow
  linked : Bool
  brokenAt : Option Nat
  forks : List Nat
  seenBodies : List String

def ChainScan.start : ChainScan := ⟨0, none, true, none, [], []⟩

section Verify
variable (lifecycleBodyHash : LifecycleBody → Hex)

def bodyOk (r : LifecycleChainRow) : Bool := some (lifecycleBodyHash r.body).toString = r.bodyHash

/-- The first row has no row before it to link to. -/
def linkOk (last : Option LifecycleChainRow) (r : LifecycleChainRow) : Bool :=
  last.all fun p => r.prevHash = p.bodyHash

/-- `r.prevHash && seenBodies.has(r.prevHash)`: an empty string is no parent. -/
def isFork (seenBodies : List String) (r : LifecycleChainRow) : Bool :=
  r.prevHash.any fun h => h ≠ "" && h ∈ seenBodies

def scanRow (s : ChainScan) (r : LifecycleChainRow) : ChainScan :=
  let bodyOk := bodyOk lifecycleBodyHash r
  let linkOk := linkOk s.last r
  let fork := isFork s.seenBodies r
  let broken := !bodyOk || (!linkOk && !fork)
  { i := s.i + 1, last := some r
    linked := s.linked && linkOk && bodyOk
    brokenAt := if broken && s.brokenAt.isNone then some s.i else s.brokenAt
    forks := if bodyOk && !linkOk && fork then s.forks ++ [s.i] else s.forks
    seenBodies := s.seenBodies ++ (r.bodyHash.filter (· ≠ "")).toList }

def scanRows (rows : List LifecycleChainRow) : ChainScan := rows.foldl (scanRow lifecycleBodyHash) .start

/-- Rows in ascending order; a window need not hold the genesis row. -/
def verifyLifecycleRows (rows : List LifecycleChainRow) : LifecycleChainCheck :=
  let s := scanRows lifecycleBodyHash rows
  { linked := s.linked, intact := s.brokenAt.isNone, forks := s.forks
    startsAtGenesis := rows.head?.all fun r => r.prevHash.getD GENESIS_HASH.toString = GENESIS_HASH.toString
    length := rows.length, brokenAt := s.brokenAt }

end Verify

end LaunchAuditor.Db
