import LaunchAuditor.Commit.Job
import LaunchAuditor.Lib.OrderedMap

/-! The artifacts of `apps/worker/src/commit/job.ts` and `artifacts.ts`. The files behind the hashes are not modelled,
nor are the rows of report batches; `chain`, the registry's transactions, is not in the source. -/

namespace LaunchAuditor.Commit.Artifacts
open Job

/-- `keyof ArtifactHashes` -/
inductive ArtifactLabel
  | weights
  | weightsV01
  | featureCode
  | outcomeRule
  | forecasterMappings
  | scorerCode
  deriving DecidableEq, Repr

/-- What `ARTIFACT_KIND` hashes for the label. -/
def ArtifactLabel.kindText : ArtifactLabel → String
  | .weights => "weights"
  | .weightsV01 => "weights_v0_1"
  | .featureCode => "feature_code"
  | .outcomeRule => "outcome_rule"
  | .forecasterMappings => "forecaster_mappings"
  | .scorerCode => "scorer_code"

def ArtifactLabel.text : ArtifactLabel → String
  | .weights => "weights"
  | .weightsV01 => "weightsV01"
  | .featureCode => "featureCode"
  | .outcomeRule => "outcomeRule"
  | .forecasterMappings => "forecasterMappings"
  | .scorerCode => "scorerCode"

structure ArtifactHashes where
  weights : Hex
  weightsV01 : Hex
  featureCode : Hex
  outcomeRule : Hex
  forecasterMappings : Hex
  scorerCode : Hex

def ArtifactHashes.get (h : ArtifactHashes) : ArtifactLabel → Hex
  | .weights => h.weights
  | .weightsV01 => h.weightsV01
  | .featureCode => h.featureCode
  | .outcomeRule => h.outcomeRule
  | .forecasterMappings => h.forecasterMappings
  | .scorerCode => h.scorerCode

/-- `Object.keys(hashes)` -/
def ARTIFACT_LABELS : List ArtifactLabel :=
  [.weights, .weightsV01, .featureCode, .outcomeRule, .forecasterMappings, .scorerCode]

/-- The labels of the three items. -/
def FROZEN_LABELS : List ArtifactLabel := [.weights, .featureCode, .outcomeRule]

/-- An `ARTIFACT` row of `commits`; its leaves are the label and the hash, or none. -/
structure ArtifactRow where
  chainId : Nat
  merkleRoot : Hex
  leafCount : Nat
  leaves : Option (ArtifactLabel × Hex)
  featureCodeHash : Option Hex
  weightHash : Option Hex
  outcomeRuleHash : Option Hex
  scorerHash : Option Hex
  txHash : Hex
  blockNumber : Nat
  committedAt : Int
  createdAt : Int

/-- A `commitArtifact` transaction that was broadcast, and what becomes of it. It emits its hash when it succeeds. -/
structure ArtifactTx where
  txHash : Hex
  kind : Digest
  hash : Hex
  status : TxStatus

structure ArtifactState where
  rows : List ArtifactRow
  chain : List ArtifactTx

/-- What the world answers for one artifact. -/
structure ArtifactIo where
  submission : Submission
  status : TxStatus
  logs : List Log
  /-- the block of the receipt, or what the call throws -/
  polls : List (Except String Nat)
  createCommit : DbOutcome
  committedAt : Int
  createdAt : Int

def ArtifactIo.poll (io : ArtifactIo) : Except String Nat → Poll
  | .ok blockNumber => .found ⟨io.status, io.logs, blockNumber⟩
  | .error msg => .threw msg

def ArtifactIo.receipt (io : ArtifactIo) (txHash : Hex) : Except String TransactionReceipt :=
  waitReceipt txHash (io.polls.map io.poll) none 240000

section Calls
variable (keccak : List UInt8 → Digest) (env : WorkerEnv)

def ARTIFACT_KIND (label : ArtifactLabel) : Digest := keccak label.kindText.toUTF8.toList

def ArtifactState.broadcast (s : ArtifactState) (tx : ArtifactTx) : ArtifactState := { s with chain := s.chain ++ [tx] }

/-- The transaction with its receipt. The receipt's status is not looked at. -/
def sendArtifact (label : ArtifactLabel) (hash : Hex) (io : ArtifactIo) (s : ArtifactState) :
    ArtifactState × Except String (Hex × TransactionReceipt) :=
  match io.submission with
  | .rejected msg => (s, .error msg)
  | .replyLost txHash msg => (s.broadcast ⟨txHash, ARTIFACT_KIND keccak label, hash, io.status⟩, .error msg)
  | .sent txHash =>
    (s.broadcast ⟨txHash, ARTIFACT_KIND keccak label, hash, io.status⟩,
      (io.receipt txHash).map fun receipt => (txHash, receipt))

/-- The fields the two loops have in common. -/
def baseRow (hash : Hex) (io : ArtifactIo) (txHash : Hex) (receipt : TransactionReceipt) : ArtifactRow where
  chainId := env.chainId
  merkleRoot := hash
  leafCount := 0
  leaves := none
  featureCodeHash := none
  weightHash := none
  outcomeRuleHash := none
  scorerHash := none
  txHash
  blockNumber := receipt.blockNumber
  committedAt := io.committedAt
  createdAt := io.createdAt

/-- The column of the label that `ARTIFACT_COLUMN` names. -/
def setColumn (label : ArtifactLabel) (row : ArtifactRow) : ArtifactRow :=
  match label with
  | .weights => { row with weightHash := some row.merkleRoot }
  | .featureCode => { row with featureCodeHash := some row.merkleRoot }
  | .outcomeRule => { row with outcomeRuleHash := some row.merkleRoot }
  | .scorerCode => { row with scorerHash := some row.merkleRoot }
  | _ => row

/-- `prisma.commit.create` -/
def createRow (w : DbOutcome) (row : ArtifactRow) (s : ArtifactState) : ArtifactState × Except String Unit :=
  let s := if w.applied then { s with rows := s.rows ++ [row] } else s
  match w with
  | .failed msg | .ackLost msg => (s, .error msg)
  | .ok => (s, .ok ())

/-- One item of either loop: the transaction, its receipt and the row. -/
def postArtifact (finish : ArtifactRow → ArtifactRow) (label : ArtifactLabel) (hash : Hex) (io : ArtifactIo)
    (s : ArtifactState) : ArtifactState × Except String Hex :=
  match sendArtifact keccak label hash io s with
  | (s, .error msg) => (s, .error msg)
  | (s, .ok (txHash, receipt)) =>
    match createRow io.createCommit (finish (baseRow env hash io txHash receipt)) s with
    | (s, .error msg) => (s, .error msg)
    | (s, .ok _) => (s, .ok txHash)

/-- How the operations of one call end. -/
structure EnsureIo where
  findFirst : Except String Unit
  /-- of the files as they are at this call -/
  hashes : Except String ArtifactHashes
  item : ArtifactLabel → ArtifactIo

/-- The loop over the items, with how many have been committed. -/
def ensureItems (h : ArtifactHashes) (item : ArtifactLabel → ArtifactIo) :
    List ArtifactLabel → Nat → ArtifactState → ArtifactState × Except String Nat
  | [], committed, s => (s, .ok committed)
  | label :: labels, committed, s =>
    match postArtifact keccak env (setColumn label) label (h.get label) (item label) s with
    | (s, .error msg) => (s, .error msg)
    | (s, .ok _) => ensureItems h item labels (committed + 1) s

/-- Only the first row of the table is looked for. -/
def ensureArtifactsCommitted (io : EnsureIo) (s : ArtifactState) : ArtifactState × Except String Nat :=
  match requireCommitEnv env with
  | .error _ => (s, .ok 0)
  | .ok _ =>
    match io.findFirst with
    | .error msg => (s, .error msg)
    | .ok () =>
      if s.rows ≠ [] then (s, .ok 0)
      else
        match io.hashes with
        | .error msg => (s, .error msg)
        | .ok h => ensureItems keccak env h io.item FROZEN_LABELS 0 s

/-- The hash each label was last committed with. -/
def lastCommitted (rows : List ArtifactRow) : List (ArtifactLabel × Hex) :=
  (rows.insertionSort fun a b => a.createdAt ≤ b.createdAt).foldl (fun last r =>
    match r.leaves with
    | some (label, hash) => OrderedMap.set label hash.toLowerCase last
    | none =>
      let setSome (label : ArtifactLabel) (hash : Option Hex) (last : List (ArtifactLabel × Hex)) :=
        match hash with
        | some hash => OrderedMap.set label hash.toLowerCase last
        | none => last
      setSome .scorerCode r.scorerHash (setSome .outcomeRule r.outcomeRuleHash
        (setSome .featureCode r.featureCodeHash (setSome .weights r.weightHash last)))) []

structure RecommitResult where
  committed : List String
  skipped : List String
  reason : Option String

structure RecommitIo where
  force : Bool
  hashes : Except String ArtifactHashes
  findMany : Except String Unit
  item : ArtifactLabel → ArtifactIo

def recommitItems (force : Bool) (h : ArtifactHashes) (last : List (ArtifactLabel × Hex)) (item : ArtifactLabel → ArtifactIo) :
    List ArtifactLabel → List String → List String → ArtifactState → ArtifactState × Except String RecommitResult
  | [], committed, skipped, s => (s, .ok ⟨committed, skipped, none⟩)
  | label :: labels, committed, skipped, s =>
    let hash := h.get label
    if !force && decide (last.lookup label = some hash.toLowerCase) then
      recommitItems force h last item labels committed (skipped ++ [label.text]) s
    else
      let finish (row : ArtifactRow) : ArtifactRow := setColumn label { row with leaves := some (label, hash) }
      match postArtifact keccak env finish label hash (item label) s with
      | (s, .error msg) => (s, .error msg)
      | (s, .ok txHash) =>
        recommitItems force h last item labels (committed ++ [s!"{label.text} {hash.toString} -> {txHash.toString}"]) skipped s

def recommitArtifacts (io : RecommitIo) (s : ArtifactState) : ArtifactState × Except String RecommitResult :=
  match requireCommitEnv env with
  | .error reason => (s, .ok ⟨[], [], some reason⟩)
  | .ok _ =>
    match io.hashes with
    | .error msg => (s, .error msg)
    | .ok h =>
      match io.findMany with
      | .error msg => (s, .error msg)
      | .ok () => recommitItems keccak env io.force h (lastCommitted s.rows) io.item ARTIFACT_LABELS [] [] s

inductive Call
  | ensure (io : EnsureIo)
  | recommit (io : RecommitIo)

def runCall (s : ArtifactState) : Call → ArtifactState
  | .ensure io => (ensureArtifactsCommitted keccak env io s).1
  | .recommit io => (recommitArtifacts keccak env io s).1

end Calls

end LaunchAuditor.Commit.Artifacts
