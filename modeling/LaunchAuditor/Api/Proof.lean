import LaunchAuditor.Api.VerifyReceipt
import LaunchAuditor.Commit.Job

/-! The readers of a stored proof: `prismaProofReader`, `prismaReceiptReader` and their routes in
`apps/api/src/server.ts`, and `apps/worker/src/scripts/commit-verify.ts`. They read the tables
that the commit job writes. -/

namespace LaunchAuditor.Api
open Chain Commit

def HEX_DIGITS : List HexDigit :=
  (List.finRange 10).map .dec ++ (List.finRange 6).map .lower ++ (List.finRange 6).map .upper

def hexDigit (c : Char) : Option HexDigit := HEX_DIGITS.find? fun d => decide (d.toChar = c)

/-- `/^0x[0-9a-fA-F]{n}$/`, with the digits it matches. -/
def matchHex (n : Nat) (s : String) : Option Hex :=
  match s.toList with
  | '0' :: 'x' :: digits => (digits.mapM hexDigit).filter fun h => h.length = n
  | _ => none

theorem hexDigit_toChar (d : HexDigit) : hexDigit d.toChar = some d := by
  cases d with
  | dec n => revert n; decide
  | lower n => revert n; decide
  | upper n => revert n; decide

theorem mapM_hexDigit (h : Hex) : h.mapM (hexDigit ∘ HexDigit.toChar) = some h := by
  induction h with
  | nil => rfl
  | cons d h ih => simp [hexDigit_toChar, ih]

/-- Every spelling of a value is matched, in any letter case. -/
@[simp] theorem matchHex_toString (h : Hex) : matchHex h.length h.toString = some h := by
  have ht : h.toString.toList = '0' :: 'x' :: h.map HexDigit.toChar := by
    simp [Hex.toString]
  simp [matchHex, ht, mapM_hexDigit]

/-- What a route sends. -/
inductive Reply (α : Type)
  | ok (body : α)
  | error (code : Nat) (error : String)

/-- `ApiEnv`, the part these readers need. -/
structure ProofEnv where
  commitRegistryAddress : Option Hex
  rpcUrl : String

/-- The `merkleRoot` of every `BatchCommitted` event of a registry in one block, as the node answers. -/
abbrev RootLogs := Hex → Nat → Except RpcError (List (Option Hex))

/-- The part of a `ProofRow` that comes with a proof. -/
structure ServedProof where
  proofValid : Bool
  merkleRoot : Hex
  leafIndex : Option Nat
  proof : List Hex
  txHash : Hex
  blockNumber : Nat
  /-- null is "unknown" -/
  onChainConfirmed : Option Bool

structure ProofRow where
  reportHash : Hex
  committed : Bool
  proofAvailable : Option Bool
  served : Option ServedProof

def rootLogged (logs : List (Option Hex)) (merkleRoot : Hex) : Bool :=
  logs.any fun l => l.any fun root => decide (root.toLowerCase = merkleRoot.toLowerCase)

/-- Asked of the node when there is one, and a registry to ask about. -/
def onChainConfirmed (env : ProofEnv) (getLogs : RootLogs) (commit : Job.CommitRow) : Option Bool :=
  match env.commitRegistryAddress with
  | none => none
  | some registry =>
    if env.rpcUrl = "" then none
    else (getLogs registry commit.blockNumber).toOption.map fun logs => rootLogged logs commit.merkleRoot

/-- `findUnique({ where: { reportHash } })` -/
def reportOf (db : Job.Db) (hash : Hex) : Option Job.Report :=
  db.reports.find? fun r => decide (r.reportHash = hash)

/-- `include: { commit: true }` -/
def commitOf (db : Job.Db) (report : Job.Report) : Option Job.CommitRow :=
  report.commitId.bind fun id => db.commits.find? fun c => decide (c.id = id)

def leafOf (commit : Job.CommitRow) (hash : Hex) : Option StoredLeaf :=
  commit.leaves.find? fun l => decide (l.reportHash.toLowerCase = hash)

section Readers
variable (keccak : List UInt8 → Digest)

def prismaProofReader (env : ProofEnv) (getLogs : RootLogs) (db : Job.Db) (hash : Hex) : Option ProofRow :=
  (reportOf db hash).map fun report =>
    match commitOf db report with
    | none => ⟨hash, false, none, none⟩
    | some commit =>
      match leafOf commit hash with
      | none => ⟨hash, true, some false, none⟩
      | some leaf =>
        ⟨hash, true, some true, some
          { proofValid := Api.verifyProof keccak hash leaf.proof commit.merkleRoot
            merkleRoot := commit.merkleRoot
            leafIndex := leaf.index
            proof := leaf.proof
            txHash := commit.txHash
            blockNumber := commit.blockNumber
            onChainConfirmed := onChainConfirmed env getLogs commit }⟩

/-- `GET /v1/proof/:hash` and `GET /v1/receipt/:hash` ask their readers alike. -/
def hashRoute {α : Type} (read : Hex → Option α) (hash : String) : Reply α :=
  match matchHex 64 hash with
  | none => .error 400 "hash must be a 32-byte hex value"
  | some h =>
    match read h.toLowerCase with
    | none => .error 404 "unknown report hash"
    | some row => .ok row

/-- What `commit:verify` prints of a committed report, but for its forecaster. -/
structure Verification where
  reportHash : Hex
  merkleRoot : Hex
  leafIndex : Option Nat
  proofLength : Nat
  proofVerifiesLocally : Bool
  rootCommittedOnChain : Bool
  txHash : Hex
  /-- block 0 is printed as null -/
  blockNumber : Option Nat

inductive VerifyRun
  | threw (message : String)
  | uncommitted (reportHash : Hex)
  | printed (out : Verification)

def VerifyRun.exitCode : VerifyRun → Nat
  | .threw _ => 1
  | .uncommitted _ => 0
  | .printed out => if !out.proofVerifiesLocally || !out.rootCommittedOnChain then 1 else 0

/-- Without a registry nothing is on chain; a node that fails ends the script. -/
def rootCommitted (registry : Option Hex) (getLogs : RootLogs) (commit : Job.CommitRow) : Except RpcError Bool :=
  match registry with
  | none => .ok false
  | some registry => (getLogs registry commit.blockNumber).map fun logs => rootLogged logs commit.merkleRoot

def commitVerify (registry : Option Hex) (getLogs : RootLogs) (db : Job.Db) (arg : Option String) : VerifyRun :=
  match matchHex 64 (arg.getD "").toLower with
  | none => .threw "usage: pnpm commit:verify <0x… 32-byte reportHash>"
  | some target =>
    match reportOf db target with
    | none => .threw s!"no report with hash {target.toString}"
    | some report =>
      match commitOf db report with
      | none => .uncommitted target
      | some commit =>
        match leafOf commit target with
        | none => .threw "commit has no stored proof for this report"
        | some leaf =>
          match rootCommitted registry getLogs commit with
          | .error e => .threw e.message
          | .ok onChain =>
            .printed {
              reportHash := target
              merkleRoot := commit.merkleRoot
              leafIndex := leaf.index
              proofLength := leaf.proof.length
              proofVerifiesLocally := Commit.verifyProof keccak target leaf.proof commit.merkleRoot
              rootCommittedOnChain := onChain
              txHash := commit.txHash
              blockNumber := if commit.blockNumber = 0 then none else some commit.blockNumber }

end Readers

/-- The columns of a report that the commit job does not touch. -/
structure SignedColumns where
  canonicalJson : String
  eip712Signature : Option Hex
  signerAddress : Option Hex
  chainId : Nat
  tokenAddress : String
  reportTime : Js.Date
  forecaster : String

def receiptRowOf (columns : SignedColumns) (db : Job.Db) (report : Job.Report) : ReceiptRow where
  reportHash := report.reportHash
  canonicalJson := columns.canonicalJson
  eip712Signature := columns.eip712Signature
  signerAddress := columns.signerAddress
  chainId := columns.chainId
  tokenAddress := columns.tokenAddress
  reportTime := columns.reportTime
  forecaster := columns.forecaster
  commit := (commitOf db report).map fun c => ⟨some c.txHash, some c.blockNumber, c.merkleRoot, some c.leaves⟩

/-- The block times read so far, by block. -/
abbrev BlockTimes := List (Nat × Js.Date)

/-- `blockTimeOf`; the node's answer is none when it fails. A time out of range stays an invalid date. -/
def blockTimeOf (env : ProofEnv) (getBlock : Nat → Option Js.Date) (times : BlockTimes) (blockNumber : Nat) :
    Option Js.Date × BlockTimes :=
  match times.lookup blockNumber with
  | some t => (some t, times)
  | none =>
    if env.rpcUrl = "" then (none, times)
    else
      match getBlock blockNumber with
      | none => (none, times)
      | some t => (some t, times ++ [(blockNumber, t)])

/-- The reader of receipts, with the block times it keeps. -/
def prismaReceiptReader (env : ProofEnv) (parse : String → Option Json) (columns : String → SignedColumns)
    (outcomesOf : SignedColumns → List ReceiptOutcomeRow) (getBlock : Nat → Option Js.Date) (times : BlockTimes)
    (db : Job.Db) (hash : Hex) : Option (Except String Receipt) × BlockTimes :=
  match reportOf db hash with
  | none => (none, times)
  | some report =>
    let row := receiptRowOf (columns report.id) db report
    let (blockTime, times) :=
      match commitOf db report with
      | none => (none, times)
      | some commit => blockTimeOf env getBlock times commit.blockNumber
    (some (buildReceipt parse row (outcomesOf (columns report.id)) blockTime env.commitRegistryAddress), times)

end LaunchAuditor.Api
