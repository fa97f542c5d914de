import LaunchAuditor.Api.Proof

/-! `apps/worker/src/report/crypto.ts` with the signed columns of `report/assemble.ts` and
`report/persist.ts`. The canonicalizer, the digest and the account of a key are parameters. -/

namespace LaunchAuditor.Report
open Chain Db Api Api.VerifyReceipt

/-- `canonicalize` and keccak256. -/
structure Canonical where
  canonicalize : ReportContent → String
  keccak : List UInt8 → Digest

def canonicalJson (c : Canonical) (content : ReportContent) : String := c.canonicalize content

def reportHash (c : Canonical) (canonical : String) : Hex := keccak256 c.keccak (stringToHex canonical)

def EIP712_DOMAIN_NAME : String := "LaunchAuditor"
def EIP712_DOMAIN_VERSION : String := "1"

structure ReportCommitmentMessage where
  reportHash : Hex
  chainId : Nat
  token : String
  /-- unix seconds -/
  reportTime : Int
  forecaster : String

def domain (chainId : Nat) : Eip712Domain := ⟨EIP712_DOMAIN_NAME, EIP712_DOMAIN_VERSION, chainId⟩

def message (m : ReportCommitmentMessage) : Eip712Message :=
  ⟨m.reportHash, m.chainId, m.token, m.reportTime, m.forecaster⟩

/-- `privateKeyToAccount` -/
structure Account where
  address : Hex
  signTypedData : TypedData → Hex

def signReportCommitment (account : Account) (m : ReportCommitmentMessage) : Hex × Hex :=
  (account.signTypedData ⟨domain m.chainId, message m⟩, account.address)

def recoverReportSigner (recover : TypedData → Hex → Except String String) (m : ReportCommitmentMessage)
    (signature : Hex) : Except String String :=
  recover ⟨domain m.chainId, message m⟩ signature

/-- The commitment of a content; its time is printed and parsed on the way. -/
def commitmentOf (c : Canonical) (content : ReportContent) : Option ReportCommitmentMessage :=
  (Js.dateParse (Js.toISOString content.reportTime)).map fun ms =>
    ⟨reportHash c (canonicalJson c content), content.chainId, addressText content.tokenAddress, ms / 1000,
      content.forecaster.text⟩

/-- The row of a report that was assembled with this key. A time without an ISO text throws. -/
def signedColumns (c : Canonical) (account : Account) (content : ReportContent) : Option SignedColumns :=
  if h : Js.isTime content.reportTime = true then
    (commitmentOf c content).map fun m =>
      let (signature, signer) := signReportCommitment account m
      { canonicalJson := canonicalJson c content
        eip712Signature := some signature
        signerAddress := some signer
        chainId := content.chainId
        tokenAddress := addressText content.tokenAddress
        reportTime := ⟨content.reportTime, h⟩
        forecaster := content.forecaster.text }
  else none

end LaunchAuditor.Report
