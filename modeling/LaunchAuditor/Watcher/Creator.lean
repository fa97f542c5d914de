import LaunchAuditor.Db.Reports
import LaunchAuditor.Lib.OrderedMap

/-! `apps/worker/src/watcher/creator.ts` -/

namespace LaunchAuditor.Watcher
open Chain Outcomes Scoring Db

structure CreatorContext where
  creatorAgeDays : Option ℚ
  creatorPriorLaunches : Nat
  creatorPriorInsiderExitRate : Option ℚ

/-- `eth_getTransactionCount` of the creator at a block. -/
abbrev NonceClient := Nat → Except RpcError Nat

/-- The loop of the search, of at most `fuel` probes: the nonce is positive at `hi`. -/
def searchFirstTx (client : NonceClient) : (fuel lo hi : Nat) → Except RpcError Nat
  | 0, _, hi => .ok hi
  | fuel + 1, lo, hi =>
    if lo < hi then do
      let mid := (lo + hi) / 2
      let nonce ← client mid
      if nonce ≥ 1 then searchFirstTx client fuel lo mid else searchFirstTx client fuel (mid + 1) hi
    else .ok hi

/-- The `maxIters` of a caller that gives none. -/
def NONCE_PROBES : Nat := 8

/-- None for a creator without a transaction before the launch. -/
def firstTxBlock (client : NonceClient) (launchBlock maxIters : Nat) : Except RpcError (Option Nat) := do
  let nonceAtLaunch ← client launchBlock
  if nonceAtLaunch = 0 then return none
  let hi ← searchFirstTx client maxIters 0 launchBlock
  return some hi

structure CreatorCalls where
  getTransactionCount : NonceClient
  findLaunches : Option RpcError
  findOutcomes : Option RpcError

structure CreatorContextParams where
  chainId : Nat
  creator : Address
  launchBlock : Nat
  /-- not counted among the prior launches -/
  launchId : Option String
  approxBlockSeconds : ℚ
  /-- an age that is known already -/
  existingAgeDays : Option ℚ

/-- Left open by a search that fails. -/
def creatorAge (calls : CreatorCalls) (p : CreatorContextParams) : Option ℚ :=
  match p.existingAgeDays with
  | some age => some age
  | none =>
    match firstTxBlock calls.getTransactionCount p.launchBlock NONCE_PROBES with
    | .ok (some first) => some ((p.launchBlock - first : Nat) * p.approxBlockSeconds / 86400)
    | _ => none

def creatorPriorLaunches (db : WorkerDb) (p : CreatorContextParams) : List Launch :=
  db.launches.filter fun l =>
    decide (l.chainId = p.chainId ∧ l.creatorAddress = p.creator ∧ l.launchBlock < p.launchBlock ∧
      p.launchId ≠ some l.id)

def resolvedExits (db : WorkerDb) (ids : List String) : List Outcome :=
  db.outcomes.filter fun o =>
    decide (o.label = .INSIDER_EXIT ∧ o.status = .RESOLVED) && o.launchId.any fun id => decide (id ∈ ids)

/-- The share of the launches whose last row says that the insiders left. -/
def insiderExitRate (resolved : List Outcome) : Option ℚ :=
  if resolved = [] then none
  else
    let byLaunch := resolved.foldl (fun byLaunch o =>
      match o.launchId with
      | none => byLaunch
      | some id => OrderedMap.set id (o.value.getD false) byLaunch) []
    some (byLaunch.countP Prod.snd / byLaunch.length)

def computeCreatorContext (calls : CreatorCalls) (p : CreatorContextParams) (db : WorkerDb) :
    Except RpcError CreatorContext :=
  let age := creatorAge calls p
  match calls.findLaunches with
  | some e => .error e
  | none =>
    let prior := creatorPriorLaunches db p
    if prior = [] then .ok ⟨age, 0, none⟩
    else
      match calls.findOutcomes with
      | some e => .error e
      | none => .ok ⟨age, prior.length, insiderExitRate (resolvedExits db (prior.map Launch.id))⟩

end LaunchAuditor.Watcher
