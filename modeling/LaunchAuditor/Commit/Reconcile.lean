import LaunchAuditor.Chain.Logs
import LaunchAuditor.Commit.Artifacts

/-! `apps/worker/src/scripts/commit-reconcile.ts`: the rows that a run which died after its transaction
has left out. What it prints is the statuses. -/

namespace LaunchAuditor.Commit.Artifacts
open Chain Job

def EVENT_TEXT : String := "ArtifactCommitted(bytes32,bytes32,uint256)"

/-- A digest as it stands in a topic. -/
def topicOf (d : Digest) : Word := BitVec.ofNat 256 (d.val.foldl (fun n b => 256 * n + b.toNat) 0)

def registryAddress (registry : Hex) : Address := BitVec.ofNat 160 (Hex.toNat registry)

structure OnChain where
  hash : Hex
  block : Nat
  tx : Hex
  deriving DecidableEq

def eventFilter (registry : Address) (sig kind : Word) (fromBlock toBlock : Nat) : LogFilter :=
  ⟨[registry], [some [sig], some [kind]], fromBlock, toBlock⟩

/-- The first 32 bytes of the data are the hash, the rest is the time. -/
def ofLog (l : RpcLog) : OnChain := ⟨wordText (l.data.headD 0), l.blockNumber, wordText l.transactionHash⟩

/-- Back from `to_` in windows of 10000 blocks, until one holds an event of the kind; `fuel` bounds their number. -/
def walkBack (request : GetLogs) (registry : Address) (sig kind : Word) (floor : Nat) :
    Nat → Nat → Except RpcError (Option OnChain)
  | 0, _ => .ok none
  | fuel + 1, to_ =>
    if to_ > floor then do
      let from_ := if to_ > floor + 9999 then to_ - 9999 else floor
      let logs ← getLogsChunked request (eventFilter registry sig kind from_ to_) 9999
      match logs.getLast? with
      | some l => .ok (some (ofLog l))
      | none => walkBack request registry sig kind floor fuel (to_ - 10000)
    else .ok none

/-- Only recent commits are looked for. -/
def floorOf (head : Nat) : Nat := if head > 800000 then head - 800000 else 0

inductive ReconcileStatus
  | ok
  | insert
  | stale
  deriving DecidableEq, Repr

def ReconcileStatus.text : ReconcileStatus → String
  | .ok => "ok"
  | .insert => "INSERT db row (on-chain, missing locally)"
  | .stale => "stale on-chain — recommit needed"

/-- The fourth text of the source, `??`, is for none of the cases. -/
def statusOf (fileHash : Hex) (chainHash db : Option Hex) : ReconcileStatus :=
  if chainHash = some fileHash then if db = some fileHash then .ok else .insert else .stale

structure ReconcileIo where
  head : Except RpcError Nat
  request : GetLogs
  hashes : Except String ArtifactHashes
  findMany : Except String Unit
  createMany : DbOutcome
  committedAt : Int
  createdAt : Int

section Script
variable (keccak : List UInt8 → Digest) (env : WorkerEnv)

def missingRow (label : ArtifactLabel) (fileHash : Hex) (onChain : OnChain) (io : ReconcileIo) : ArtifactRow :=
  setColumn label {
    chainId := env.chainId
    merkleRoot := fileHash
    leafCount := 0
    leaves := some (label, fileHash)
    featureCodeHash := none
    weightHash := none
    outcomeRuleHash := none
    scorerHash := none
    txHash := onChain.tx
    blockNumber := onChain.block
    committedAt := io.committedAt
    createdAt := io.createdAt }

def lookBack (registry : Hex) (request : GetLogs) (head : Nat) (label : ArtifactLabel) : Except RpcError (Option OnChain) :=
  walkBack request (registryAddress registry) (topicOf (keccak EVENT_TEXT.toUTF8.toList))
    (topicOf (ARTIFACT_KIND keccak label)) (floorOf head) (head + 1) head

/-- The loop over the labels, with the row to insert for each. -/
def reconcileLabels (registry : Hex) (head : Nat) (files : ArtifactHashes) (dbHas : List (ArtifactLabel × Hex))
    (io : ReconcileIo) : List ArtifactLabel → Except RpcError (List (ArtifactLabel × ReconcileStatus) × List ArtifactRow)
  | [] => .ok ([], [])
  | label :: labels => do
    let onChain ← lookBack keccak registry io.request head label
    let fileHash := (files.get label).toLowerCase
    let status := statusOf fileHash (onChain.map OnChain.hash) (dbHas.lookup label)
    let insert := match onChain with
      | some onChain => if status = .insert then [missingRow env label fileHash onChain io] else []
      | none => []
    let (statuses, inserts) ← reconcileLabels registry head files dbHas io labels
    return ((label, status) :: statuses, insert ++ inserts)

/-- `main`, with `--commit` as `apply`. -/
def reconcile (apply : Bool) (io : ReconcileIo) (s : ArtifactState) :
    ArtifactState × Except String (List (ArtifactLabel × ReconcileStatus)) :=
  match env.commitRegistryAddress with
  | none => (s, .error "COMMIT_REGISTRY_ADDRESS not set")
  | some registry =>
    match io.head with
    | .error e => (s, .error e.message)
    | .ok head =>
      match io.hashes with
      | .error msg => (s, .error msg)
      | .ok files =>
        match io.findMany with
        | .error msg => (s, .error msg)
        | .ok () =>
          match reconcileLabels keccak env registry head files (lastCommitted s.rows) io ARTIFACT_LABELS with
          | .error e => (s, .error e.message)
          | .ok (statuses, inserts) =>
            if inserts = [] || !apply then (s, .ok statuses)
            else
              let s := if io.createMany.applied then { s with rows := s.rows ++ inserts } else s
              match io.createMany with
              | .failed msg | .ackLost msg => (s, .error msg)
              | .ok => (s, .ok statuses)

end Script

end LaunchAuditor.Commit.Artifacts
