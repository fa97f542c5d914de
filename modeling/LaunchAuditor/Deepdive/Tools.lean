import LaunchAuditor.Deepdive.Agent
import LaunchAuditor.History
import LaunchAuditor.Outcomes.Series
import LaunchAuditor.Report.Assemble
import LaunchAuditor.Scanners
import LaunchAuditor.Watcher.Holders

/-! What the deep-dive is told and what it says: `contract-code.ts`, `packet.ts`, `evidence.ts`,
`tools.ts`, `context.ts` and `report.ts` of `apps/worker/src/deepdive`. -/

namespace LaunchAuditor.Deepdive
open Chain Db Outcomes Watcher History Scanners

def EIP1967_IMPLEMENTATION_SLOT : Word := 0x360894a13ba1a3210667c828492db98dca3e2076cc3735a920a3ca505d382bbc#256
def EIP1967_ADMIN_SLOT : Word := 0xb53127684a568b3173ae13b9f8a6016e243e63b6e8ee1178d6a717850b5d6103#256
def EIP1967_BEACON_SLOT : Word := 0xa3f0ad74e5423aebfd80d3ef4346578335a9a72aeaee59ff6cb3582b35133d50#256

/-- Without a block number the node reads its latest state. The code is in bytes. -/
structure CodeClient where
  getCode : Hex → Option Nat → Except RpcError (Option (List UInt8))
  getStorageAt : Hex → Word → Option Nat → Except RpcError (Option Hex)

structure ContractCode where
  address : Hex
  block : Option String
  /-- none when there is no code -/
  codeHash : Option Digest
  codeSize : Nat
  isContract : Bool
  isProxy : Bool
  implementation : Option Hex
  admin : Option Hex
  beacon : Option Hex
  deriving DecidableEq

def isZero (h : Hex) : Bool := h.all fun d => decide (d = .ofNibble 0)

/-- The last 20 bytes of a storage word, or none when they are zero. -/
def wordToAddress (word : Option Hex) : Option Hex :=
  match word with
  | none => none
  | some word =>
    if word = List.replicate 64 (.ofNibble 0) ∨ word.length < 64 then none
    else
      let addr := Hex.toLowerCase (word.drop (word.length - 40))
      if isZero addr then none else some addr

def resolveContractCode (keccak : List UInt8 → Digest) (client : CodeClient) (address : Hex) (blockNumber : Option Nat) :
    Except RpcError ContractCode := do
  let addr := address.toLowerCase
  let code ← client.getCode addr blockNumber
  let bytes := code.getD []
  let none_ : ContractCode := ⟨addr, blockNumber.map toString, none, 0, false, false, none, none, none⟩
  if bytes = [] then return none_
  else
    let impl ← client.getStorageAt addr EIP1967_IMPLEMENTATION_SLOT blockNumber
    let admin ← client.getStorageAt addr EIP1967_ADMIN_SLOT blockNumber
    let beacon ← client.getStorageAt addr EIP1967_BEACON_SLOT blockNumber
    let implementation := wordToAddress impl
    let admin := wordToAddress admin
    let beacon := wordToAddress beacon
    return { none_ with
      codeHash := some (keccak bytes), codeSize := bytes.length, isContract := true
      isProxy := implementation.isSome || admin.isSome || beacon.isSome, implementation, admin, beacon }

structure PacketClient extends CodeClient where
  getChainId : Except RpcError Nat
  /-- none asks for the latest -/
  getBlock : Option Nat → Except RpcError Report.Block

structure CandidatePool where
  kind : PoolKind
  poolAddress : Option Hex
  poolId : Option Hex
  feeHundredthsBip : Option Nat
  tickSpacing : Option Int
  hooks : Option Hex
  feeSuspect : Bool
  deriving DecidableEq

/-- The fields of the launch that a packet is built from. -/
structure DeepdiveTarget where
  chainId : Nat
  tokenAddress : Hex
  quoteAddress : Option Hex
  creatorAddress : Hex
  launchBlock : Nat
  launchTxHash : Word
  launchAt : Option Int
  source : String
  pools : List CandidatePool

structure PacketLaunch where
  block : String
  txHash : Word
  at_ : Option String
  deriving DecidableEq

structure TargetPacket where
  chainId : Nat
  /-- what the node reports -/
  rpcChainId : Nat
  chainIdMatches : Bool
  tokenAddress : Hex
  quoteAddress : Option Hex
  creatorAddress : Hex
  source : String
  reportBlock : BlockPin
  launch : PacketLaunch
  code : ContractCode
  implementationCode : Option ContractCode
  pools : List CandidatePool
  builtAtUtc : String
  deriving DecidableEq

/-- The code behind a proxy, at the block of the proxy's. -/
def implementationCodeOf (keccak : List UInt8 → Digest) (client : CodeClient) (code : ContractCode) (blockNumber : Nat) :
    Except RpcError (Option ContractCode) :=
  match if code.isProxy then code.implementation else none with
  | some implementation => (resolveContractCode keccak client implementation (some blockNumber)).map some
  | none => .ok none

def buildTargetPacket (keccak : List UInt8 → Digest) (client : PacketClient) (target : DeepdiveTarget)
    (reportBlock : Option Nat) (now : Int) : Except RpcError TargetPacket := do
  let rpcChainId ← client.getChainId
  let head ← client.getBlock reportBlock
  let blockNumber := reportBlock.getD head.number
  let code ← resolveContractCode keccak client.toCodeClient target.tokenAddress (some blockNumber)
  let implementationCode ← implementationCodeOf keccak client.toCodeClient code blockNumber
  return {
    chainId := target.chainId, rpcChainId, chainIdMatches := decide (rpcChainId = target.chainId)
    tokenAddress := target.tokenAddress.toLowerCase
    quoteAddress := target.quoteAddress.map Hex.toLowerCase
    creatorAddress := target.creatorAddress.toLowerCase
    source := target.source
    reportBlock := ⟨blockNumber, head.hash, head.timestamp * 1000⟩
    launch := ⟨toString target.launchBlock, target.launchTxHash, target.launchAt.map Js.toISOString⟩
    code, implementationCode
    pools := target.pools
    builtAtUtc := Js.toISOString now }

/-- A string of `/^0x[0-9a-fA-F]{40}$/` -/
structure HexAddr where
  digits : Hex
  length : digits.length = 40
  deriving DecidableEq

def HexAddr.address (a : HexAddr) : Address := BitVec.ofNat 160 (Hex.toNat a.digits)

/-- A safe integer that is not negative, or a string of `/^\d+$/`. -/
inductive BlockNum
  | number (n : Nat) (safe : n ≤ 9007199254740991)
  | text (digits : List (Fin 10)) (nonempty : digits ≠ [])
  deriving DecidableEq

def BlockNum.toBig : BlockNum → Nat
  | .number n _ => n
  | .text digits _ => digits.foldl (fun n d => 10 * n + d) 0

/-- `String(p.block)` -/
def BlockNum.toText : BlockNum → String
  | .number n _ => toString n
  | .text digits _ => String.ofList (digits.map fun d => Char.ofNat (48 + d))

/-- A tool with its input. `poolId` is a 32-byte value, or none for the empty string. -/
inductive ToolCall
  | addressTokenActivity (address : HexAddr) (token : Option HexAddr) (fromBlock toBlock : BlockNum)
  | tokenTransfers (token : HexAddr) (fromBlock toBlock : BlockNum)
  | clusterExpand (creator : HexAddr)
  | priceSeries (poolId : Option Word) (fromBlock toBlock : BlockNum)
  | holderSnapshot (token : HexAddr) (block : BlockNum)
  | contractCode (address : HexAddr) (block : Option BlockNum)
  | scanhoodScan (token : HexAddr)
  | scanhoodQuote (token : HexAddr) (sizeUsdg : ℚ)
  deriving DecidableEq

def ToolCall.name : ToolCall → String
  | .addressTokenActivity .. => "address_token_activity"
  | .tokenTransfers .. => "token_transfers"
  | .clusterExpand .. => "cluster_expand"
  | .priceSeries .. => "price_series"
  | .holderSnapshot .. => "holder_snapshot"
  | .contractCode .. => "contract_code"
  | .scanhoodScan .. => "scanhood_scan"
  | .scanhoodQuote .. => "scanhood_quote"

structure ScanHoodQuote where
  amountIn : Option String
  amountOut : Option String
  venue : Option String
  error : Option String
  deriving DecidableEq

/-- A row of the two transfer tools. -/
structure TransferRow where
  token : Address
  sender : Address
  recipient : Address
  value : Nat
  block : Nat
  txHash : Word
  deriving DecidableEq

inductive ToolValue
  | transfers (count : Nat) (transfers : List TransferRow) (truncated : Bool)
  | cluster (creator : Hex) (members : List ClusterMemberResult)
  | series (points : List PricePoint) (count : Nat) (coverage : Coverage)
  | holders (stats : HolderStats)
  | code (c : ContractCode)
  | scan (s : ScanHoodMapped)
  | quote (q : ScanHoodQuote)

/-- `query` is the input of the call, echoed. -/
structure EvidenceRow where
  tool : String
  query : ToolCall
  value : ToolValue
  source : String
  block : Option String

structure Limitation where
  tool : String
  query : ToolCall
  reason : String
  deriving DecidableEq

structure ToolOutput where
  ok : Bool
  evidence : List EvidenceRow
  limitations : List Limitation

def ok (row : EvidenceRow) : ToolOutput := ⟨true, [row], []⟩

def rows (list : List EvidenceRow) : ToolOutput := ⟨true, list, []⟩

/-- Not a finding, not a pass. -/
def limited (query : ToolCall) (reason : String) : ToolOutput := ⟨false, [], [⟨query.name, query, reason⟩]⟩

/-- `fetchScanHoodScan` and `fetchScanHoodQuote` never throw. -/
structure ScanHoodResult (α : Type) where
  ok : Bool
  data : Option α

/-- What is answered during one call. The scans of the log client are numbered. -/
structure Reads where
  client : ResolveClient
  totalSupply : Address → Nat → Except RpcError Nat
  /-- `prisma.clusterMember.findMany` -/
  clusterMembers : Except RpcError (List Address)
  code : CodeClient
  scan : ScanHoodResult ScanHoodScan
  quote : ScanHoodResult ScanHoodQuote

structure DeepdiveContext where
  keccak : List UInt8 → Digest
  launch : Launch
  cfg : ChainConfig
  maxRange : Nat

namespace DeepdiveContext
variable (ctx : DeepdiveContext)

def liquiditySource : Address := ctx.launch.poolAddress.getD ctx.cfg.v4PoolManager

/-- The addresses compare as their lower-case texts do. -/
def poolRef : PoolRef where
  poolKind := ctx.launch.poolKind.getD .v4
  poolManager := ctx.cfg.v4PoolManager
  poolAddress := ctx.launch.poolAddress
  poolId := ctx.launch.poolId
  tokenIsCurrency0 := match ctx.launch.quoteAddress with
    | some quote => decide (ctx.launch.tokenAddress.toNat < quote.toNat)
    | none => true

def history (r : Reads) : RpcLogsAddressHistory := ⟨r.client.getLogs 0, r.client.getLogs 1, ctx.maxRange⟩

/-- A party without a topic is the zero address. The token of every row is the launch's. -/
def relabelled (l : RpcLog) : TokenTransfer where
  token := ctx.launch.tokenAddress
  sender := ((l.topics[1]?).map topicToAddress).getD ZERO_ADDRESS
  recipient := ((l.topics[2]?).map topicToAddress).getD ZERO_ADDRESS
  value := transferValue l.data
  block := l.blockNumber
  logIndex := l.logIndex
  txHash := l.transactionHash

/-- Not retried. -/
def tokenTransfers (r : Reads) (token : Address) (fromBlock toBlock : Nat) : Except RpcError (List TokenTransfer) := do
  let logs ← getLogsChunked (r.client.getLogs 0 0) ⟨[token], [some [TRANSFER_TOPIC0]], fromBlock, toBlock⟩ ctx.maxRange
  return Keyed.inOrder byOrder (logs.map ctx.relabelled)

def clusterParams (request : ClusterRule → GetLogs) (creator : Address) : BuildClusterParams where
  request
  token := ctx.launch.tokenAddress
  creator
  liquiditySource := ctx.liquiditySource
  launchBlock := ctx.launch.launchBlock
  windowBlocks := Report.blocksIn10m ctx.cfg
  maxRange := ctx.maxRange
  firstFunder := UNAVAILABLE_FIRST_INBOUND

/-- The scans of rules 2 and 3. -/
def ruleRequest (r : Reads) : ClusterRule → GetLogs
  | .LAUNCH_BLOCK_BUY => r.client.getLogs 0 0
  | _ => r.client.getLogs 1 0

def clusterExpand (r : Reads) (creator : Address) : Except RpcError ClusterResult :=
  buildCreatorCluster (ctx.clusterParams (ruleRequest r) creator)

def priceSeries (client : ResolveClient) (poolId : Option Word) (fromBlock toBlock : Nat) :
    Except RpcError (Series PricePoint) :=
  buildPriceSeries client 0 { ctx.poolRef with poolId } fromBlock toBlock ctx.maxRange

def holderParams (request : GetLogs) (totalSupply : Except RpcError Nat) (members : List Address) (token : Address)
    (block : Nat) : HolderParams where
  request
  totalSupply
  token
  fromBlock := ctx.launch.launchBlock
  toBlock := block
  maxRange := ctx.maxRange
  creator := ctx.launch.creatorAddress
  cluster := members
  liquiditySource := ctx.liquiditySource

def holderSnapshot (r : Reads) (token : Address) (block : Nat) : Except RpcError HolderStats :=
  r.clusterMembers.map fun members =>
    computeHolderStats (ctx.holderParams (r.client.getLogs 0 0) (r.totalSupply token block) members token block)

end DeepdiveContext

def scanhoodScan (r : Reads) : Option ScanHoodMapped := if r.scan.ok then some (mapScanHood r.scan.data) else none

def scanhoodQuote (r : Reads) : Option ScanHoodQuote := if r.quote.ok then r.quote.data else none

def MAX_ROWS : Nat := 200

def transferRow (t : TokenTransfer) : TransferRow := ⟨t.token, t.sender, t.recipient, t.value, t.block, t.txHash⟩

/-- The value of the two transfer tools. -/
def shownTransfers (ts : List TokenTransfer) : ToolValue :=
  .transfers ts.length ((ts.take MAX_ROWS).map transferRow) (decide (ts.length > MAX_ROWS))

def shownSeries (s : Series PricePoint) : ToolValue := .series (s.points.take MAX_ROWS) s.points.length s.coverage

/-- `execute` of the tool, before its guard. -/
def produce (ctx : DeepdiveContext) (r : Reads) (call : ToolCall) : Except RpcError ToolOutput :=
  let row (source : String) (block : Option String) (value : ToolValue) : EvidenceRow :=
    ⟨call.name, call, value, source, block⟩
  match call with
  | .addressTokenActivity address token fromBlock toBlock => do
    let ts ← (ctx.history r).tokenActivity address.address ⟨token.map HexAddr.address, fromBlock.toBig, toBlock.toBig⟩
    return ok (row "rpc-logs" (some toBlock.toText) (shownTransfers ts))
  | .tokenTransfers token fromBlock toBlock => do
    let ts ← ctx.tokenTransfers r token.address fromBlock.toBig toBlock.toBig
    return ok (row "rpc-logs" (some toBlock.toText) (shownTransfers ts))
  | .clusterExpand creator => do
    let c ← ctx.clusterExpand r creator.address
    return ok (row "rpc-logs" none (.cluster creator.digits.toLowerCase c.members))
  | .priceSeries poolId fromBlock toBlock => do
    let s ← ctx.priceSeries r.client poolId fromBlock.toBig toBlock.toBig
    return rows [row "rpc-logs" (some toBlock.toText) (shownSeries s)]
  | .holderSnapshot token block => do
    let stats ← ctx.holderSnapshot r token.address block.toBig
    return ok (row "rpc-logs" (some block.toText) (.holders stats))
  | .contractCode address block => do
    let c ← resolveContractCode ctx.keccak r.code address.digits (block.map BlockNum.toBig)
    return ok (row "rpc" c.block (.code c))
  | .scanhoodScan _ =>
    match scanhoodScan r with
    | none => .ok (limited call "ScanHood returned no data for this token")
    | some s => .ok (ok (row "scanhood" none (.scan s)))
  | .scanhoodQuote _ _ =>
    match scanhoodQuote r with
    | none => .ok (limited call "ScanHood returned no quote")
    | some q => .ok (ok (row "scanhood" none (.quote q)))

/-- The guard: what is thrown becomes a limitation. -/
def execute (ctx : DeepdiveContext) (r : Reads) (call : ToolCall) : ToolOutput :=
  match produce ctx r call with
  | .ok out => out
  | .error e => limited call e.message

/-- What `runDeepdiveAgent` collects through `onResult`. -/
structure Collected where
  evidence : List EvidenceRow
  limitations : List Limitation

structure AssembleDeepdiveReportInput where
  chainId : Nat
  tokenAddress : Address
  launchId : Option String
  trigger : ReportTrigger
  packet : TargetPacket
  result : DeepDiveResult
  limitations : List Limitation
  /-- the address of the agent key, when there is one -/
  agent : Option Address

def reportedCoverage (input : AssembleDeepdiveReportInput) : List String :=
  input.limitations.map (fun l => s!"{l.tool}: {l.reason}") ++
    (if input.packet.chainIdMatches then []
      else [s!"chain id mismatch: rpc {input.packet.rpcChainId} vs target {input.packet.chainId}"]) ++
    input.result.warnings

def deepdiveContent (input : AssembleDeepdiveReportInput) : ReportContent :=
  let o := input.result.output
  { chainId := input.chainId
    tokenAddress := input.tokenAddress
    launchId := input.launchId
    reportTime := input.packet.reportBlock.timestamp
    trigger := input.trigger
    blockPin := input.packet.reportBlock
    forecaster := .llm_deepdive_v0
    forecasterVersion := input.result.modelSlug
    probabilities := [(⟨.INSIDER_EXIT, "24h"⟩, o.pInsiderExit24h), (⟨.DRAWDOWN_80, "7d"⟩, o.pDrawdown807d),
      (⟨.SELL_IMPAIRED, "24h"⟩, o.pSellImpaired24h)]
    coverage := reportedCoverage input
    confidence := some o.confidence
    evidence := some (o.evidence.map fun e => (e.claim, e.txOrUrl)) }

/-- `assembleDeepdiveReport`, or with a key `assembleDeepdiveReportSigned`. -/
def assembleDeepdiveReport (input : AssembleDeepdiveReportInput) : Report.ReportDraft :=
  Report.signedDraft input.agent input.chainId input.tokenAddress (deepdiveContent input)

end LaunchAuditor.Deepdive
