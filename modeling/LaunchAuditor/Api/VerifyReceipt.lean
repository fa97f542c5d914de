import LaunchAuditor.Api.Receipt
import LaunchAuditor.Chain.Logs

/-! `apps/api/src/verify-receipt.ts`, beside the check of the Merkle proof. -/

namespace LaunchAuditor.Api.VerifyReceipt
open Chain Scoring

/-- The properties of the parsed text that are read. -/
structure Content where
  chainId : Option Nat
  tokenAddress : Option String
  reportTime : Option String
  forecaster : Option String

/-- What `recoverTypedDataAddress` is given beside the signature. -/
structure TypedData where
  domain : Eip712Domain
  message : Eip712Message

/-- What the checks rest on: the digest, `JSON.parse`, `Date.parse` and the recovery of a signer. -/
structure Verifier where
  keccak : List UInt8 → Digest
  parse : String → Option Content
  dateParse : String → Option Int
  recover : TypedData → Hex → Except String String

/-- A text that is there and not empty. -/
def truthy (s : Option String) : Option String := s.filter fun text => text ≠ ""

/-- The message is rebuilt from the content, when it has all the parts. -/
def signedMessage (v : Verifier) (content : Content) (recomputed : Hex) : Option TypedData := do
  let chainId ← content.chainId
  let token ← truthy content.tokenAddress
  let forecaster ← truthy content.forecaster
  let reportTime ← content.reportTime.bind v.dateParse
  return ⟨⟨"LaunchAuditor", "1", chainId⟩, ⟨recomputed, chainId, token, reportTime / 1000, forecaster⟩⟩

def signatureCheck (v : Verifier) (signature : Option Hex) (content : Content) (recomputed : Hex) (expectedSigner : String) :
    Check :=
  match signature, signedMessage v content recomputed with
  | some signature, some data =>
    let recovered := match v.recover data signature with
      | .ok address => address
      | .error message => s!"error: {message}"
    ⟨"signature", decide (recovered.toLower = expectedSigner.toLower),
      s!"EIP-712 signer recovered from the canonical content = {recovered}"⟩
  | _, _ =>
    ⟨"signature", false, "unsigned, or the canonical content lacks chainId/tokenAddress/reportTime/forecaster"⟩

/-- Everything that needs no network. -/
def verifyReceiptOffline (v : Verifier) (receipt : Receipt) (expectedHash : Hex) (expectedSigner : String) : List Check :=
  let recomputed := keccak256 v.keccak (stringToHex receipt.canonicalJson)
  let hash : Check := ⟨"hash", decide (recomputed.toLowerCase = expectedHash.toLowerCase),
    s!"keccak256(canonicalJson) = {recomputed.toString}"⟩
  match v.parse receipt.canonicalJson with
  | none => [hash, ⟨"signature", false, "canonicalJson does not parse"⟩]
  | some content =>
    [hash, signatureCheck v receipt.signature content recomputed expectedSigner,
      merkleCheck v.keccak receipt.canonicalJson receipt.commit.proof receipt.commit.merkleRoot]

/-- As many tries as are given, whatever the errors. -/
def retry {α : Type} (f : Nat → Except RpcError α) : (tries attempt : Nat) → Except RpcError α
  | 0, _ => .error ⟨"", "undefined"⟩
  | tries + 1, attempt =>
    match f attempt with
    | .ok a => .ok a
    | .error e => if tries = 0 then .error e else retry f tries (attempt + 1)

structure TxLog where
  address : Hex
  topics : List Word
  data : List Word

/-- `keccak256("BatchCommitted(uint256,bytes32,uint256,uint256)")` -/
def BATCH_COMMITTED : Word := 0xfa40e96e471e72b998df0d8c9c149ef2258b60506b234dbfdeb87f3866ec2e5e#256

/-- The root in a `BatchCommitted` event; another event does not decode. -/
def decodeBatchCommitted (log : TxLog) : Option Hex :=
  match log.topics, log.data with
  | topic0 :: _ :: _, merkleRoot :: _ :: _ :: _ => if topic0 = BATCH_COMMITTED then some (wordText merkleRoot) else none
  | _, _ => none

def rootInTxLogs (logs : List TxLog) (registry merkleRoot : Hex) : Bool :=
  logs.any fun l => decide (l.address.toLowerCase = registry.toLowerCase) &&
    (decodeBatchCommitted l).any fun root => decide (root.toLowerCase = merkleRoot.toLowerCase)

structure TxReceipt where
  blockNumber : Nat
  success : Bool
  logs : List TxLog

/-- What a node answers, at each attempt. -/
structure Rpc where
  getTransactionReceipt : Hex → Nat → Except RpcError TxReceipt
  /-- the timestamp of a block, in seconds -/
  getBlock : Nat → Nat → Except RpcError Nat

structure OnChain where
  checks : List Check
  blockTime : Option Int

/-- `hex.slice(0, 10)` -/
def shortHex (h : Hex) : String := Hex.toString (h.take 8)

def onChainChecks (tx : TxReceipt) (blockTime : Int) (txHash merkleRoot registry : Hex) (blockNumber : Nat) : List Check :=
  let found := tx.success && rootInTxLogs tx.logs registry merkleRoot
  let sameBlock := decide (tx.blockNumber = blockNumber)
  let status := if tx.success then "success" else "reverted"
  let emitted := if found then "emitted" else "did NOT emit"
  [⟨"on-chain root", found,
      s!"tx {shortHex txHash}… ({status}) {emitted} BatchCommitted({shortHex merkleRoot}…) from registry {registry.toString}"⟩,
    ⟨"block", sameBlock,
      s!"tx mined in block {tx.blockNumber}" ++ (if sameBlock then "" else s!" — receipt claims {blockNumber}")⟩,
    ⟨"block time", true, s!"block {tx.blockNumber} timestamp {Js.toISOString blockTime} (read from chain)"⟩]

/-- The transaction that emitted the root, its block, and that block's own timestamp. -/
def verifyReceiptOnChain (rpc : Rpc) (receipt : Receipt) (registry : Hex) : Except RpcError OnChain :=
  match receipt.commit.blockNumber, receipt.commit.merkleRoot, receipt.commit.txHash with
  | some blockNumber, some merkleRoot, some txHash => do
    let tx ← retry (rpc.getTransactionReceipt txHash) 10 0
    let timestamp ← retry (rpc.getBlock tx.blockNumber) 10 0
    let blockTime : Int := timestamp * 1000
    if Js.isTime blockTime then return ⟨onChainChecks tx blockTime txHash merkleRoot registry blockNumber, some blockTime⟩
    else throw ⟨"RangeError", "Invalid time value"⟩
  | _, _, _ => .ok ⟨[⟨"on-chain root", false, "not committed"⟩], none⟩

/-- `new Date(ms)`, none for an invalid date. -/
def newDate (ms : Int) : Option Int := if Js.isTime ms then some ms else none

/-- The class of one outcome, with the anchor of the content. -/
def outcomeFromChain (anchor : Option Int) (committed : Bool) (blockTime : Option Int) (o : ReceiptOutcome) :
    Except String (String × Eligibility) := do
  let ms ← horizonToMs o.horizon
  return (o.label ++ "@" ++ o.horizon, classifyDates anchor committed blockTime (anchor.bind fun t => newDate (t + ms)))

def outcomesFromChain (anchor : Option Int) (committed : Bool) (blockTime : Option Int) :
    List ReceiptOutcome → Except String (List (String × Eligibility))
  | [] => .ok []
  | o :: outcomes => do
    let first ← outcomeFromChain anchor committed blockTime o
    let rest ← outcomesFromChain anchor committed blockTime outcomes
    return first :: rest

/-- `new Date(content.reportTime ?? 0)` -/
def anchorOf (v : Verifier) (content : Content) : Option Int :=
  match content.reportTime with
  | none => some 0
  | some text => v.dateParse text

/-- Each outcome's class from the chain's block time. -/
def eligibilityFromChain (v : Verifier) (receipt : Receipt) (blockTime : Option Int) :
    Except String (List (String × Eligibility)) :=
  match v.parse receipt.canonicalJson with
  | none => .error "SyntaxError"
  | some content => outcomesFromChain (anchorOf v content) receipt.commit.committed blockTime receipt.outcomes

end LaunchAuditor.Api.VerifyReceipt
