import LaunchAuditor.Db.LifecycleChain
import LaunchAuditor.Js
import LaunchAuditor.Lib.Newest
import LaunchAuditor.Lib.Steps
import LaunchAuditor.Metabolism.Reconcile

/-! The signed `lifecycle_log` writer of `apps/worker/src/metabolism/lifecycle-runner.ts`,
with any number of writers on one table. -/

namespace LaunchAuditor.Metabolism
open Db

structure LifecycleRowInput where
  isSnapshot : Bool
  prevState : Option LifecycleState
  newState : LifecycleState
  reason : String
  keyId : Option String
  keyHashPrefix : Option String
  balanceUsd : Option ℚ
  reserveUsd : Option ℚ
  ledgerSpendUsd : Option ℚ
  providerSpendUsd : Option ℚ
  idsMismatch : Bool
  /-- stored, not folded into the signed body -/
  billingStatus : Option BillingStatus

/-- The row as it is stored. -/
structure LifecyclePersistRecord extends LifecycleRowInput where
  keyRemainingUsd : Option ℚ
  prevHash : Hex
  bodyHash : Hex
  signature : Hex
  createdAt : Int

/-- The body whose hash a row carries; its `at` is the row's `createdAt`. -/
def LifecyclePersistRecord.body (r : LifecyclePersistRecord) : LifecycleBody :=
  { atIso := Js.toISOString r.createdAt, prevState := r.prevState.map LifecycleState.text
    newState := r.newState.text, reason := r.reason, isSnapshot := r.isSnapshot, keyHashPrefix := r.keyHashPrefix
    balanceUsd := r.balanceUsd, keyRemainingUsd := r.keyRemainingUsd, reserveUsd := r.reserveUsd
    ledgerSpendUsd := r.ledgerSpendUsd, providerSpendUsd := r.providerSpendUsd, idsMismatch := r.idsMismatch
    prevHash := r.prevHash.toString }

/-- A record as `appendOnce` builds it. -/
structure SignedRecord (lifecycleBodyHash : LifecycleBody → Hex) extends LifecyclePersistRecord where
  hashed : bodyHash = lifecycleBodyHash toLifecyclePersistRecord.body

section Writers
variable (lifecycleBodyHash : LifecycleBody → Hex) (sign : Hex → Hex)

/-- `appendOnce` up to the call of `persist`. -/
def signedRecord (input : LifecycleRowInput) (prevHash : Hex) (now : Int) : SignedRecord lifecycleBodyHash :=
  let unsigned : LifecyclePersistRecord :=
    { input with keyRemainingUsd := none, prevHash, bodyHash := [], signature := [], createdAt := now }
  let bodyHash := lifecycleBodyHash unsigned.body
  { unsigned with bodyHash, signature := sign bodyHash, hashed := rfl }

variable {lifecycleBodyHash}

/-- `findFirst({ orderBy: { createdAt: 'desc' } })?.bodyHash ?? GENESIS_HASH` -/
def headHash (tie : Nat) (rows : List (SignedRecord lifecycleBodyHash)) : Hex :=
  ((Newest.newest (fun r => r.createdAt) tie rows).map fun r => r.bodyHash).getD GENESIS_HASH

/-- One transaction under the advisory lock; the error is `HeadMovedError`'s head. -/
def prismaPersist (tie : Nat) (rows : List (SignedRecord lifecycleBodyHash))
    (record : SignedRecord lifecycleBodyHash) : Except Hex (List (SignedRecord lifecycleBodyHash)) :=
  let head := headHash tie rows
  if head ≠ record.prevHash then .error head else .ok (rows ++ [record])

/-- An append between its clock reading and its persist. -/
structure Inflight (lifecycleBodyHash : LifecycleBody → Hex) where
  input : LifecycleRowInput
  record : SignedRecord lifecycleBodyHash
  retried : Bool

structure LifecycleLogWriter (lifecycleBodyHash : LifecycleBody → Hex) where
  prevHash : Hex
  inflight : Option (Inflight lifecycleBodyHash)

structure LogState (lifecycleBodyHash : LifecycleBody → Hex) where
  /-- in the order they were persisted -/
  rows : List (SignedRecord lifecycleBodyHash)
  writers : Nat → LifecycleLogWriter lifecycleBodyHash

/-- How the transaction ends: `ackLost` is committed although the writer sees it fail. -/
inductive PersistOutcome
  | ok
  | failed
  | ackLost
  deriving DecidableEq

/-- Writers act in any order, each on its own clock. -/
inductive LogStep
  | fromDb (writer tie : Nat)
  | append (writer : Nat) (input : LifecycleRowInput) (now : Int)
  | persist (writer tie : Nat) (outcome : PersistOutcome) (retryAt : Int)

def LogState.setWriter (s : LogState lifecycleBodyHash) (writer : Nat)
    (w : LifecycleLogWriter lifecycleBodyHash) : LogState lifecycleBodyHash :=
  { s with writers := fun i => if i = writer then w else s.writers i }

/-- The `persist` call of `appendOnce` and the `catch` of `append`, which re-chains once. -/
def persistStep (s : LogState lifecycleBodyHash) (writer tie : Nat) (outcome : PersistOutcome) (retryAt : Int)
    (fl : Inflight lifecycleBodyHash) : LogState lifecycleBodyHash :=
  let w := s.writers writer
  if outcome = .failed then s.setWriter writer { w with inflight := none }
  else
    match prismaPersist tie s.rows fl.record with
    | .ok rows =>
      let prevHash := if outcome = .ok then fl.record.bodyHash else w.prevHash
      { s with rows }.setWriter writer ⟨prevHash, none⟩
    | .error head =>
      if fl.retried then s.setWriter writer { w with inflight := none }
      else
        let record := signedRecord lifecycleBodyHash sign fl.input head retryAt
        s.setWriter writer ⟨head, some ⟨fl.input, record, true⟩⟩

def logStep (s : LogState lifecycleBodyHash) : LogStep → LogState lifecycleBodyHash
  | .fromDb writer tie => s.setWriter writer ⟨headHash tie s.rows, none⟩
  | .append writer input now =>
    let w := s.writers writer
    match w.inflight with
    | some _ => s
    | none =>
      let record := signedRecord lifecycleBodyHash sign input w.prevHash now
      s.setWriter writer { w with inflight := some ⟨input, record, false⟩ }
  | .persist writer tie outcome retryAt =>
    match (s.writers writer).inflight with
    | none => s
    | some fl => persistStep sign s writer tie outcome retryAt fl

/-- An empty table. -/
def emptyLog (lifecycleBodyHash : LifecycleBody → Hex) : LogState lifecycleBodyHash :=
  ⟨[], fun _ => ⟨GENESIS_HASH, none⟩⟩

end Writers

end LaunchAuditor.Metabolism
