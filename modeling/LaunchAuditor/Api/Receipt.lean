import LaunchAuditor.Commit.Merkle
import LaunchAuditor.Db.Reports
import LaunchAuditor.Js.Date
import LaunchAuditor.Lib.Json
import LaunchAuditor.Report.Drafts
import LaunchAuditor.Scoring.Vocabulary

/-! `apps/api/src/receipt.ts`, and `prismaReceiptReader` of `server.ts`. The types of the signed message and the
closing advice, which are constant, are left out. -/

namespace LaunchAuditor.Api
open Chain Scoring Commit Db

structure ReceiptOutcome where
  label : String
  horizon : String
  status : String
  value : Option Bool
  horizonEnd : String
  /-- whether this forecast may count toward a claim on this outcome -/
  eligibility : Eligibility

structure Eip712Domain where
  name : String
  version : String
  chainId : Nat

structure Eip712Message where
  reportHash : Hex
  chainId : Nat
  token : String
  /-- in unix seconds -/
  reportTime : Int
  forecaster : String

structure ReceiptCommitment where
  committed : Bool
  registry : Option Hex
  txHash : Option Hex
  blockNumber : Option Nat
  /-- the block's own timestamp -/
  blockTime : Option String
  merkleRoot : Option Hex
  leafIndex : Option Int
  proof : Option (List Hex)
  lagFromAnchorSec : Option Int

structure Receipt where
  reportHash : Hex
  /-- the exact string whose keccak256 is `reportHash` -/
  canonicalJson : String
  content : Option Json
  signature : Option Hex
  signer : Option Hex
  domain : Eip712Domain
  message : Eip712Message
  commit : ReceiptCommitment
  outcomes : List ReceiptOutcome

structure ReceiptRowCommit where
  txHash : Option Hex
  blockNumber : Option Nat
  merkleRoot : Hex
  /-- null when the column holds no list -/
  leaves : Option (List StoredLeaf)

structure ReceiptRow where
  reportHash : Hex
  canonicalJson : String
  eip712Signature : Option Hex
  signerAddress : Option Hex
  chainId : Nat
  tokenAddress : String
  reportTime : Js.Date
  forecaster : String
  commit : Option ReceiptRowCommit

structure ReceiptOutcomeRow where
  label : String
  horizon : String
  status : String
  value : Option Bool

def EIP712_DOMAIN_NAME : String := "LaunchAuditor"
def EIP712_DOMAIN_VERSION : String := "1"

/-- The part of an outcome; a horizon that ends out of range has no ISO text. -/
def receiptOutcome (reportTime : Js.Date) (committed : Bool) (blockTime : Option Js.Date) (o : ReceiptOutcomeRow) :
    Except String ReceiptOutcome := do
  let ms ← horizonToMs o.horizon
  let horizonEnd := reportTime.val + ms
  if Js.isTime horizonEnd then
    return {
      label := o.label, horizon := o.horizon, status := o.status, value := o.value
      horizonEnd := Js.toISOString horizonEnd
      eligibility := classifyEligibility ⟨reportTime.val, committed, blockTime.map Subtype.val, horizonEnd⟩ }
  else throw "Invalid time value"

/-- The outcomes in turn, up to the first that throws. -/
def receiptOutcomes (reportTime : Js.Date) (committed : Bool) (blockTime : Option Js.Date) :
    List ReceiptOutcomeRow → Except String (List ReceiptOutcome)
  | [] => .ok []
  | o :: outcomes => do
    let first ← receiptOutcome reportTime committed blockTime o
    let rest ← receiptOutcomes reportTime committed blockTime outcomes
    return first :: rest

def ReceiptRow.committed (row : ReceiptRow) : Bool := (row.commit.bind ReceiptRowCommit.blockNumber).isSome

/-- `JSON.parse` is a parameter; null is its failure as well. -/
def buildReceipt (parse : String → Option Json) (row : ReceiptRow) (outcomes : List ReceiptOutcomeRow)
    (blockTime : Option Js.Date) (registry : Option Hex) : Except String Receipt := do
  let leaf := row.commit.bind fun c => (c.leaves.getD []).find? fun l => l.reportHash.toLowerCase = row.reportHash.toLowerCase
  let parts ← receiptOutcomes row.reportTime row.committed blockTime outcomes
  return {
    reportHash := row.reportHash
    canonicalJson := row.canonicalJson
    content := parse row.canonicalJson
    signature := row.eip712Signature
    signer := row.signerAddress
    domain := ⟨EIP712_DOMAIN_NAME, EIP712_DOMAIN_VERSION, row.chainId⟩
    message := ⟨row.reportHash, row.chainId, row.tokenAddress, row.reportTime.val / 1000, row.forecaster⟩
    commit := {
      committed := row.committed
      registry
      txHash := row.commit.bind ReceiptRowCommit.txHash
      blockNumber := row.commit.bind ReceiptRowCommit.blockNumber
      blockTime := blockTime.map fun t => Js.toISOString t.val
      merkleRoot := row.commit.map ReceiptRowCommit.merkleRoot
      leafIndex := leaf.map fun l => l.index.elim (-1) Int.ofNat
      proof := leaf.map StoredLeaf.proof
      lagFromAnchorSec := blockTime.map fun t => Js.mathRound (((t.val - row.reportTime.val : ℤ) : ℚ) / 1000) }
    outcomes := parts }

/-- The columns that the pipeline does not read, by the content of a report and the id of a commit. -/
structure ReceiptColumns where
  canonicalJson : ReportContent → String
  reportHash : ReportContent → Hex
  eip712Signature : ReportContent → Option Hex
  signerAddress : ReportContent → Option Hex
  txHash : String → Option Hex
  merkleRoot : String → Hex
  leaves : String → Option (List StoredLeaf)

def receiptRow (cols : ReceiptColumns) (db : WorkerDb) (r : Db.Report) (h : Js.isTime r.reportTime = true) : ReceiptRow where
  reportHash := cols.reportHash r.content
  canonicalJson := cols.canonicalJson r.content
  eip712Signature := cols.eip712Signature r.content
  signerAddress := cols.signerAddress r.content
  chainId := r.chainId
  tokenAddress := Report.addressText r.tokenAddress
  reportTime := ⟨r.reportTime, h⟩
  forecaster := r.forecaster.text
  commit := (r.commitId.bind fun id => db.commits.find? fun c => decide (c.id = id)).map fun c =>
    ⟨cols.txHash c.id, c.blockNumber, cols.merkleRoot c.id, cols.leaves c.id⟩

/-- By label and then by horizon. -/
def outcomeLe (o p : Outcome) : Prop :=
  o.label.ctorIdx < p.label.ctorIdx ∨ o.label.ctorIdx = p.label.ctorIdx ∧ o.horizon ≤ p.horizon

instance (o p : Outcome) : Decidable (outcomeLe o p) := inferInstanceAs (Decidable (_ ∨ _))

/-- The outcomes of the report's anchor. -/
def anchorOutcomes (db : WorkerDb) (r : Db.Report) : List Outcome :=
  (db.outcomes.filter fun o =>
    decide (o.chainId = r.chainId ∧ o.tokenAddress = r.tokenAddress ∧ o.anchorTime = r.reportTime)).insertionSort outcomeLe

def receiptOutcomeRow (o : Outcome) : ReceiptOutcomeRow := ⟨o.label.text, o.horizon, o.status.text, o.value⟩

end LaunchAuditor.Api
