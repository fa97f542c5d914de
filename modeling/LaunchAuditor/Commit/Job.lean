import LaunchAuditor.Commit.Merkle
import LaunchAuditor.Lib.Steps

/-! `apps/worker/src/commit/job.ts`: the batch job with its held transaction.
What the chain, the clock and the database answer in one tick is its `CommitIo`;
the trace `seen` is not in the source and records what the properties are about. -/

namespace LaunchAuditor.Commit.Job

/-- `WorkerEnv`, the part the job reads. -/
structure WorkerEnv where
  gasWalletPrivateKey : Option Hex
  commitRegistryAddress : Option Hex
  commitIntervalSec : Nat
  commitMaxLeaves : Nat
  chainId : Nat

/-- A worker that commits one report at a time. -/
def smallEnv : WorkerEnv := ⟨some [], some [], 300, 1, 4663⟩

def requireCommitEnv (env : WorkerEnv) : Except String (Hex × Hex) :=
  match env.gasWalletPrivateKey, env.commitRegistryAddress with
  | none, _ => .error "GAS_WALLET_PRIVATE_KEY not set"
  | some _, none => .error "COMMIT_REGISTRY_ADDRESS not set"
  | some pk, some registry => .ok (pk, registry)

inductive TxStatus
  | success
  | reverted
  deriving DecidableEq, Repr

/-- A log with the `batchId` it decodes to when it is a `BatchCommitted` event. -/
structure Log where
  address : Hex
  batchCommitted : Option Nat

structure TransactionReceipt where
  status : TxStatus
  logs : List Log
  blockNumber : Nat

/-- One `getTransactionReceipt` call of `waitReceipt`. -/
inductive Poll
  | found (receipt : TransactionReceipt)
  | threw (msg : String)

/-- `/could not be found|not be processed|not found|receipt/i.test(msg)` -/
def swallowed (msg : String) : Bool :=
  ["could not be found", "not be processed", "not found", "receipt"].any (Js.containsText msg)

/-- `polls` are the calls made before the deadline. -/
def waitReceipt (hash : Hex) (polls : List Poll) (lastErr : Option String) (deadlineMs : Nat) :
    Except String TransactionReceipt :=
  match polls with
  | [] =>
    .error (s!"receipt for {hash.toString} not found within {deadlineMs}ms (tx likely mined — check the explorer)"
      ++ (lastErr.map (": " ++ ·)).getD "")
  | .found r :: _ => .ok r
  | .threw msg :: polls => if swallowed msg then waitReceipt hash polls (some msg) deadlineMs else .error msg

structure PendingReport where
  id : String
  reportHash : Hex
  createdAt : Int
  deriving DecidableEq

structure UnconfirmedBatch where
  txHash : Hex
  batch : List PendingReport
  sentAt : Int
  deriving DecidableEq

/-- Give up on an unconfirmed tx after this long and let its reports re-commit. -/
def UNCONFIRMED_MAX_AGE_MS : Int := 30 * 60000

inductive UnconfirmedAction
  | finalize
  | wait
  | dropReverted
  | dropExpired
  deriving DecidableEq, Repr

def UnconfirmedAction.text : UnconfirmedAction → String
  | .finalize => "finalize"
  | .wait => "wait"
  | .dropReverted => "drop_reverted"
  | .dropExpired => "drop_expired"

def unconfirmedAction (sentAt : Int) (receipt : Option TxStatus) (now : Int) (maxAgeMs : Int) :
    UnconfirmedAction :=
  match receipt with
  | some .success => .finalize
  | some .reverted => .dropReverted
  | none => if now - sentAt ≥ maxAgeMs then .dropExpired else .wait

/-- A row of `reports`, the columns the job reads and writes. -/
structure Report where
  id : String
  reportHash : Hex
  createdAt : Int
  validatorPassed : Bool
  commitId : Option String
  merkleLeafHash : Option Hex

def Report.toPending (r : Report) : PendingReport := ⟨r.id, r.reportHash, r.createdAt⟩

/-- A `REPORT_BATCH` row of `commits`. -/
structure CommitRow where
  id : String
  chainId : Nat
  merkleRoot : Hex
  leafCount : Nat
  leaves : List StoredLeaf
  txHash : Hex
  blockNumber : Nat
  committedAt : Int

structure Db where
  reports : List Report
  commits : List CommitRow

/-- `update({ where: { id: r.id }, data: { commitId, merkleLeafHash } })` -/
def Db.linkReport (db : Db) (commitId : String) (r : PendingReport) : Db :=
  { db with reports := db.reports.map fun row =>
      if row.id = r.id then
        { row with commitId := some commitId, merkleLeafHash := some r.reportHash.toLowerCase }
      else row }

/-- The array of updates given to `$transaction`. -/
def Db.linkReports (db : Db) (commitId : String) (batch : List PendingReport) : Db :=
  batch.foldl (fun db r => db.linkReport commitId r) db

/-- How a write ends: `ackLost` is applied although the caller sees it fail. -/
inductive DbOutcome
  | ok
  | failed (msg : String)
  | ackLost (msg : String)
  deriving DecidableEq

def DbOutcome.applied : DbOutcome → Bool
  | .failed _ => false
  | _ => true

/-- How `writeContract` ends: `replyLost` is broadcast although it throws. -/
inductive Submission
  | sent (txHash : Hex)
  | rejected (msg : String)
  | replyLost (txHash : Hex) (msg : String)

/-- What the world answers in one tick, in the order the tick asks. -/
structure CommitIo where
  force : Bool
  lookup : Except String TransactionReceipt
  lookupAt : Int
  findPending : Except String Unit
  now : Int
  submission : Submission
  sentAt : Int
  polls : List Poll
  createCommit : DbOutcome
  commitId : String
  committedAt : Int
  linkReports : DbOutcome

/-- What happened to a transaction, as far as this process could see. -/
inductive Event
  | submitted (txHash : Hex) (ids : List String) (sentAt : Int)
  | receiptSeen (txHash : Hex) (status : TxStatus)
  | noReceipt (txHash : Hex) (now : Int)
  | created (commitId : String) (ids : List String)
  deriving DecidableEq

structure JobState where
  db : Db
  /-- `let unconfirmed: UnconfirmedBatch | null` -/
  unconfirmed : Option UnconfirmedBatch
  seen : List Event

def JobState.note (s : JobState) (e : Event) : JobState := { s with seen := s.seen ++ [e] }

structure CommitResult where
  committed : Bool
  batchId : Option Nat
  root : Option Hex
  leafCount : Option Nat
  txHash : Option Hex
  reason : Option String

def notCommitted (reason : String) : CommitResult := ⟨false, none, none, none, none, some reason⟩

/-- A `REPORT_BATCH` that `recordBatch` is called with. -/
structure Recording where
  batch : List PendingReport
  tree : MerkleTree
  txHash : Hex
  receipt : TransactionReceipt

def Recording.ids (r : Recording) : List String := r.batch.map PendingReport.id

/-- `batchId` after the loop over the receipt's logs. -/
def eventBatchId (registry : Hex) (logs : List Log) : Option Nat :=
  logs.foldl (fun batchId log =>
    if log.address.toLowerCase = registry.toLowerCase then log.batchCommitted <|> batchId else batchId) none

/-- The row `recordBatch` creates. -/
def Recording.row (env : WorkerEnv) (r : Recording) (io : CommitIo) : CommitRow :=
  { id := io.commitId, chainId := env.chainId, merkleRoot := r.tree.root, leafCount := r.tree.leafCount
    leaves := r.batch.map fun p => storedLeaf r.tree p.reportHash
    txHash := r.txHash, blockNumber := r.receipt.blockNumber, committedAt := io.committedAt }

/-- `prisma.commit.create` -/
def JobState.insertCommit (s : JobState) (row : CommitRow) (ids : List String) : JobState :=
  { s with db := { s.db with commits := s.db.commits ++ [row] } }.note (.created row.id ids)

/-- The row first, then the links in a transaction of their own. -/
def recordBatch (env : WorkerEnv) (registry : Hex) (r : Recording) (s : JobState) (io : CommitIo) :
    JobState × Except String CommitResult :=
  let batchId := eventBatchId registry r.receipt.logs
  let s := if io.createCommit.applied then s.insertCommit (r.row env io) r.ids else s
  match io.createCommit with
  | .failed msg | .ackLost msg => (s, .error msg)
  | .ok =>
    let s := if io.linkReports.applied then { s with db := s.db.linkReports io.commitId r.batch } else s
    match io.linkReports with
    | .failed msg | .ackLost msg => (s, .error msg)
    | .ok => (s, .ok ⟨true, batchId, some r.tree.root, some r.tree.leafCount, some r.txHash, none⟩)

/-- `findMany({ where: { validatorPassed: true, commitId: null, id: { notIn: held } },
orderBy: { createdAt: 'asc' } })`, ties in stored order. -/
def findPending (db : Db) (held : List String) : List PendingReport :=
  ((db.reports.filter fun r => r.validatorPassed && r.commitId.isNone && !held.contains r.id).map
    Report.toPending).insertionSort (fun a b => a.createdAt ≤ b.createdAt)

/-- The batch this tick sends, or why it sends none. -/
def selectBatch (env : WorkerEnv) (db : Db) (held : List String) (force : Bool) (now : Int) :
    Except String (List PendingReport) :=
  match findPending db held with
  | [] => .error "nothing pending"
  | oldest :: others =>
    let pending := oldest :: others
    let oldestAgeSec : ℚ := (now - oldest.createdAt) / 1000
    if force || pending.length ≥ env.commitMaxLeaves || oldestAgeSec ≥ env.commitIntervalSec then
      .ok (pending.take env.commitMaxLeaves)
    else
      .error (s!"waiting — {pending.length}/{env.commitMaxLeaves} leaves, " ++
        s!"oldest {Js.mathRound oldestAgeSec}s/{env.commitIntervalSec}s")

/-- Where a tick stands before it records. -/
inductive Stage
  | done (out : Except String CommitResult)
  | record (r : Recording)

section Tick
variable (keccak : List UInt8 → Digest)

/-- A batch sent in this tick: its transaction, its receipt or the hold. -/
def submitBatch (s : JobState) (batch : List PendingReport) (tree : MerkleTree) (io : CommitIo) :
    JobState × Stage :=
  let ids := batch.map PendingReport.id
  match io.submission with
  | .rejected msg => (s, .done (.error msg))
  | .replyLost txHash msg => (s.note (.submitted txHash ids io.sentAt), .done (.error msg))
  | .sent txHash =>
    let s := s.note (.submitted txHash ids io.sentAt)
    match waitReceipt txHash io.polls none 240000 with
    | .error msg =>
      ({ s with unconfirmed := some ⟨txHash, batch, io.sentAt⟩ },
        .done (.error (msg ++ " — held as unconfirmed; its reports are excluded from later batches until it resolves")))
    | .ok receipt =>
      let s := s.note (.receiptSeen txHash receipt.status)
      match receipt.status with
      | .reverted => (s, .done (.ok (notCommitted s!"commitBatch tx reverted ({txHash.toString})")))
      | .success => (s, .record ⟨batch, tree, txHash, receipt⟩)

/-- The second half of `runCommitBatch`: choose, build, send. -/
def sendNext (env : WorkerEnv) (s : JobState) (held : List String) (io : CommitIo) : JobState × Stage :=
  match io.findPending with
  | .error msg => (s, .done (.error msg))
  | .ok () =>
    match selectBatch env s.db held io.force io.now with
    | .error reason => (s, .done (.ok (notCommitted reason)))
    | .ok batch =>
      match buildMerkleTree keccak (batch.map PendingReport.reportHash) with
      | .error msg => (s, .done (.error msg))
      | .ok tree => submitBatch s batch tree io

/-- `const action = unconfirmedAction(u, receipt, Date.now())` -/
def UnconfirmedBatch.action (u : UnconfirmedBatch) (io : CommitIo) : UnconfirmedAction :=
  unconfirmedAction u.sentAt (io.lookup.toOption.map TransactionReceipt.status) io.lookupAt UNCONFIRMED_MAX_AGE_MS

/-- What the lookup of the held batch showed. -/
def UnconfirmedBatch.lookupEvent (u : UnconfirmedBatch) (io : CommitIo) : Event :=
  match io.lookup with
  | .ok receipt => .receiptSeen u.txHash receipt.status
  | .error _ => .noReceipt u.txHash io.lookupAt

/-- `runCommitBatch` up to the call of `recordBatch`. -/
def prepare (env : WorkerEnv) (s : JobState) (io : CommitIo) : JobState × Stage :=
  match s.unconfirmed with
  | none => sendNext keccak env s [] io
  | some u =>
    let s := s.note (u.lookupEvent io)
    match u.action io with
    | .wait => sendNext keccak env s (u.batch.map PendingReport.id) io
    | .dropReverted | .dropExpired => sendNext keccak env { s with unconfirmed := none } [] io
    | .finalize =>
      let s := { s with unconfirmed := none }
      match buildMerkleTree keccak (u.batch.map PendingReport.reportHash), io.lookup with
      | .error msg, _ | .ok _, .error msg => (s, .done (.error msg))
      | .ok tree, .ok receipt => (s, .record ⟨u.batch, tree, u.txHash, receipt⟩)

def runCommitBatch (env : WorkerEnv) (s : JobState) (io : CommitIo) : JobState × Except String CommitResult :=
  match requireCommitEnv env with
  | .error reason => (s, .ok (notCommitted reason))
  | .ok (_, registry) =>
    match prepare keccak env s io with
    | (s, .done out) => (s, out)
    | (s, .record r) => recordBatch env registry r s io

/-- The process and its surroundings: ticks of `runCommitLoop`, which goes on
after a throw, and reports inserted by other processes under a new id. -/
inductive Step
  | tick (io : CommitIo)
  | arrive (report : PendingReport) (validatorPassed : Bool)

def Db.arrive (db : Db) (p : PendingReport) (validatorPassed : Bool) : Db :=
  if db.reports.any (fun r => r.id == p.id) then db
  else { db with reports := db.reports ++ [⟨p.id, p.reportHash, p.createdAt, validatorPassed, none, none⟩] }

def step (env : WorkerEnv) (s : JobState) : Step → JobState
  | .tick io => (runCommitBatch keccak env s io).1
  | .arrive report validatorPassed => { s with db := s.db.arrive report validatorPassed }

/-- A fresh process on a database. -/
def start (db : Db) : JobState := ⟨db, none, []⟩

end Tick

end LaunchAuditor.Commit.Job
