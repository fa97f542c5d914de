import LaunchAuditor.Db.Budget
import LaunchAuditor.Metabolism.LogWriter

/-! The entries of `apps/worker/src/metabolism/lifecycle.ts`, their check, and the record
that `LifecycleLogWriter.appendOnce` makes with one. -/

namespace LaunchAuditor.Metabolism
open Db Js

/-- `none` is undefined in every optional field and null in `prevState`. -/
structure LifecycleEntryInput where
  prevState : Option LifecycleState
  newState : LifecycleState
  reason : String
  isSnapshot : Option Bool
  keyHashPrefix : Option String
  balanceUsd : Option ℚ
  keyRemainingUsd : Option ℚ
  reserveUsd : Option ℚ
  ledgerSpendUsd : Option ℚ
  providerSpendUsd : Option ℚ
  idsMismatch : Option Bool
  atIso : Option String

structure LifecycleEntry extends LifecycleEntryInput where
  prevHash : Hex
  bodyHash : Hex
  /-- `at` is no longer optional -/
  dated : atIso.isSome = true

/-- The body that is hashed; `clock` is the time read when there is no `at`. -/
def entryBody (input : LifecycleEntryInput) (prevHash : Hex) (clock : Int) : LifecycleBody :=
  { atIso := input.atIso.getD (toISOString clock), prevState := input.prevState.map LifecycleState.text
    newState := input.newState.text, reason := input.reason, isSnapshot := input.isSnapshot.getD false
    keyHashPrefix := input.keyHashPrefix, balanceUsd := input.balanceUsd
    keyRemainingUsd := input.keyRemainingUsd, reserveUsd := input.reserveUsd
    ledgerSpendUsd := input.ledgerSpendUsd, providerSpendUsd := input.providerSpendUsd
    idsMismatch := input.idsMismatch.getD false, prevHash := prevHash.toString }

def buildLifecycleEntry (lifecycleBodyHash : LifecycleBody → Hex) (input : LifecycleEntryInput) (prevHash : Hex)
    (clock : Int) : LifecycleEntry :=
  let body := entryBody input prevHash clock
  { input with atIso := some body.atIso, prevHash, bodyHash := lifecycleBodyHash body, dated := rfl }

/-- The loop of `verifyLifecycleChain`. -/
def verifyFrom (lifecycleBodyHash : LifecycleBody → Hex) (clock : Int) (prev : Hex) : List LifecycleEntry → Bool
  | [] => true
  | e :: entries =>
    if e.prevHash ≠ prev then false
    else
      let recomputed := (buildLifecycleEntry lifecycleBodyHash e.toLifecycleEntryInput e.prevHash clock).bodyHash
      if recomputed ≠ e.bodyHash then false else verifyFrom lifecycleBodyHash clock e.bodyHash entries

/-- `clock` is never read: every entry has its time. -/
def verifyLifecycleChain (lifecycleBodyHash : LifecycleBody → Hex) (clock : Int) (entries : List LifecycleEntry) :
    Bool :=
  verifyFrom lifecycleBodyHash clock GENESIS_HASH entries

/-- An entry as a stored row, absent fields as null or `false`. -/
def LifecycleEntry.chainRow (e : LifecycleEntry) : LifecycleChainRow :=
  { atIso := e.atIso.get e.dated, prevState := e.prevState.map LifecycleState.text
    newState := e.newState.text, reason := e.reason, isSnapshot := e.isSnapshot.getD false
    keyHashPrefix := e.keyHashPrefix, balanceUsd := e.balanceUsd
    keyRemainingUsd := e.keyRemainingUsd, reserveUsd := e.reserveUsd
    ledgerSpendUsd := e.ledgerSpendUsd, providerSpendUsd := e.providerSpendUsd
    idsMismatch := e.idsMismatch.getD false
    prevHash := some e.prevHash.toString, bodyHash := some e.bodyHash.toString }

/-- The argument of `append`, before its nullish figures are settled. -/
structure AppendArgs where
  isSnapshot : Bool
  prevState : Option LifecycleState
  newState : LifecycleState
  reason : String
  keyId : Nullish String
  keyHashPrefix : Nullish String
  balanceUsd : Nullish ℚ
  reserveUsd : Nullish ℚ
  ledgerSpendUsd : Nullish ℚ
  providerSpendUsd : Nullish ℚ
  idsMismatch : Option Bool
  billingStatus : Nullish BillingStatus

/-- What `appendOnce` hands to `buildLifecycleEntry`. -/
def AppendArgs.entryInput (input : AppendArgs) (clock : Int) : LifecycleEntryInput :=
  { prevState := input.prevState, newState := input.newState, reason := input.reason
    isSnapshot := some input.isSnapshot, keyHashPrefix := input.keyHashPrefix.toOption
    balanceUsd := input.balanceUsd.toOption, keyRemainingUsd := none, reserveUsd := input.reserveUsd.toOption
    ledgerSpendUsd := input.ledgerSpendUsd.toOption, providerSpendUsd := input.providerSpendUsd.toOption
    idsMismatch := some (input.idsMismatch.getD false), atIso := some (toISOString clock) }

/-- The record `appendOnce` hands to `persist`, with the clock read once. -/
def appendOnce (lifecycleBodyHash : LifecycleBody → Hex) (sign : Hex → Hex) (input : AppendArgs) (prevHash : Hex)
    (clock : Int) : LifecyclePersistRecord :=
  let entry := buildLifecycleEntry lifecycleBodyHash (input.entryInput clock) prevHash clock
  { isSnapshot := input.isSnapshot, prevState := input.prevState, newState := input.newState
    reason := input.reason, keyId := input.keyId.toOption, keyHashPrefix := input.keyHashPrefix.toOption
    balanceUsd := input.balanceUsd.toOption, keyRemainingUsd := none, reserveUsd := input.reserveUsd.toOption
    ledgerSpendUsd := input.ledgerSpendUsd.toOption, providerSpendUsd := input.providerSpendUsd.toOption
    idsMismatch := input.idsMismatch.getD false, billingStatus := input.billingStatus.toOption
    prevHash, bodyHash := entry.bodyHash, signature := sign entry.bodyHash, createdAt := clock }

/-- The figures that reach the log, an absent one in one way only. -/
def AppendArgs.row (input : AppendArgs) : LifecycleRowInput :=
  { isSnapshot := input.isSnapshot, prevState := input.prevState, newState := input.newState
    reason := input.reason, keyId := input.keyId.toOption, keyHashPrefix := input.keyHashPrefix.toOption
    balanceUsd := input.balanceUsd.toOption, reserveUsd := input.reserveUsd.toOption
    ledgerSpendUsd := input.ledgerSpendUsd.toOption, providerSpendUsd := input.providerSpendUsd.toOption
    idsMismatch := input.idsMismatch.getD false, billingStatus := input.billingStatus.toOption }

/-- `lifecycleLog.create({ data: record })` -/
def LifecyclePersistRecord.stored (r : LifecyclePersistRecord) : LifecycleLog :=
  { isSnapshot := r.isSnapshot, prevState := r.prevState, newState := r.newState, reason := r.reason
    keyId := r.keyId, keyHashPrefix := r.keyHashPrefix, balanceUsd := r.balanceUsd
    keyRemainingUsd := r.keyRemainingUsd, reserveUsd := r.reserveUsd, ledgerSpendUsd := r.ledgerSpendUsd
    providerSpendUsd := r.providerSpendUsd, idsMismatch := r.idsMismatch, billingStatus := r.billingStatus
    prevHash := some r.prevHash.toString, bodyHash := some r.bodyHash.toString
    signature := some r.signature.toString, createdAt := r.createdAt }

section Writer
variable {lifecycleBodyHash : LifecycleBody → Hex} {sign : Hex → Hex}

/-- The body that is signed is the one the stored columns make up. -/
theorem entryBody_appendOnce (input : AppendArgs) (prevHash : Hex) (clock : Int) :
    (appendOnce lifecycleBodyHash sign input prevHash clock).body =
      entryBody (input.entryInput clock) prevHash clock := rfl

/-- The records of `appendOnce` are those of the log's writers. -/
theorem appendOnce_eq (input : AppendArgs) (prevHash : Hex) (clock : Int) :
    appendOnce lifecycleBodyHash sign input prevHash clock =
      (signedRecord lifecycleBodyHash sign input.row prevHash clock).toLifecyclePersistRecord := rfl

end Writer

end LaunchAuditor.Metabolism
