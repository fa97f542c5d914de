import LaunchAuditor.Deepdive.Tools

namespace LaunchAuditor.Proofs.Investigation
open Chain Db Outcomes Watcher History Scanners Deepdive

/-- The chain, and the cluster of the launch in the tables. -/
structure World where
  node : LogNode
  supply : Address → Nat → Nat
  members : List Address
  code : Hex → Nat → Option (List UInt8)
  storage : Hex → Word → Nat → Option Hex

/-- Reads of code at a block, which may fail. -/
structure PinnedCode (w : World) (client : CodeClient) : Prop where
  code : ∀ address block bytes, client.getCode address (some block) = .ok bytes → bytes = w.code address block
  storage : ∀ address slot block word, client.getStorageAt address slot (some block) = .ok word →
    word = w.storage address slot block

/-- The Transfer logs of one token in a window. -/
def transferFilter (token : Address) (fromBlock toBlock : Nat) : LogFilter :=
  ⟨[token], [some [TRANSFER_TOPIC0]], fromBlock, toBlock⟩

/-- A transfer as its log has it; a party without a topic is the zero address. -/
def transferOf (l : RpcLog) : TokenTransfer where
  token := l.address
  sender := ((l.topics[1]?).map topicToAddress).getD ZERO_ADDRESS
  recipient := ((l.topics[2]?).map topicToAddress).getD ZERO_ADDRESS
  value := transferValue l.data
  block := l.blockNumber
  logIndex := l.logIndex
  txHash := l.transactionHash

def ruleFilter (ctx : DeepdiveContext) (source : Address) (toBlock : Nat) : LogFilter :=
  ⟨[ctx.launch.tokenAddress], [some [TRANSFER_TOPIC0], some [addressToTopic source]], ctx.launch.launchBlock, toBlock⟩

/-- The tokens' recipients of a rule, without the pool and the creator, each with its first transfer. -/
def ruleMembers (w : World) (ctx : DeepdiveContext) (creator : Address) (rule : ClusterRule) (source : Address)
    (toBlock : Nat) : List ClusterMemberResult :=
  (ctx.clusterParams (fun _ => w.node.request) creator).addRecipients rule []
    (w.node.answer (ruleFilter ctx source toBlock))

def creatorMember (creator : Address) : ClusterMemberResult := ⟨creator, .CREATOR, none, RULE_CONFIDENCE .CREATOR⟩

/-- The last block of the rule of direct transfers. -/
def lastTransferBlock (ctx : DeepdiveContext) : Nat := ctx.launch.launchBlock + Report.blocksIn10m ctx.cfg

/-- The members that the two rules bring in, when both are answered. -/
def boughtAtLaunch (w : World) (ctx : DeepdiveContext) (creator : Address) : List ClusterMemberResult :=
  ruleMembers w ctx creator .LAUNCH_BLOCK_BUY ctx.liquiditySource ctx.launch.launchBlock

def sentByCreator (w : World) (ctx : DeepdiveContext) (creator : Address) : List ClusterMemberResult :=
  ruleMembers w ctx creator .DIRECT_TRANSFER creator (lastTransferBlock ctx)

/-- The client of a node that never fails. -/
def answering (w : World) (client : ResolveClient) : ResolveClient := { client with getLogs := fun _ _ => w.node.request }

def trueStats (w : World) (ctx : DeepdiveContext) (token : Address) (block : Nat) : HolderStats :=
  computeHolderStats (ctx.holderParams w.node.request (.ok (w.supply token block)) w.members token block)

/-- A contract with this code and these words in its slots. -/
def contractFrom (ctx : DeepdiveContext) (address : Hex) (block : Option Nat) (code : Option (List UInt8))
    (implementation admin beacon : Option Hex) : ContractCode :=
  match code.getD [] with
  | [] => ⟨address.toLowerCase, block.map toString, none, 0, false, false, none, none, none⟩
  | bytes =>
    ⟨address.toLowerCase, block.map toString, some (ctx.keccak bytes), bytes.length, true,
      (wordToAddress implementation).isSome || (wordToAddress admin).isSome || (wordToAddress beacon).isSome,
      wordToAddress implementation, wordToAddress admin, wordToAddress beacon⟩

def contractAt (w : World) (ctx : DeepdiveContext) (address : Hex) (block : Nat) : ContractCode :=
  let slot (s : Word) := w.storage address.toLowerCase s block
  contractFrom ctx address (some block) (w.code address.toLowerCase block) (slot EIP1967_IMPLEMENTATION_SLOT)
    (slot EIP1967_ADMIN_SLOT) (slot EIP1967_BEACON_SLOT)

/-- The scan fails in one of its windows, or has no range for them. -/
def ScanFailed (ctx : DeepdiveContext) (request : GetLogs) (f : LogFilter) (e : RpcError) : Prop :=
  (ctx.maxRange = 0 ∧ e = ⟨"Error", "maxRange must be >= 1"⟩) ∨
    ∃ first last, f.fromBlock ≤ first ∧ last ≤ f.toBlock ∧
      request { f with fromBlock := first, toBlock := last } = .error e

/-- Where the rows of a tool are from. -/
def rowSource : ToolCall → String
  | .contractCode .. => "rpc"
  | .scanhoodScan _ | .scanhoodQuote .. => "scanhood"
  | _ => "rpc-logs"

/-- What a row of a call shows. The transfers of a token are labelled with the token of the launch. After a failure a
cluster lacks what one rule would have brought in, and all the figures of the holders are missing. -/
def Shows (w : World) (ctx : DeepdiveContext) (r : Reads) (block : Option String) (value : ToolValue) :
    ToolCall → Prop
  | .addressTokenActivity address token fromBlock toBlock =>
    block = some toBlock.toText ∧
      value = shownTransfers
        (activityOf w.node address.address ⟨token.map HexAddr.address, fromBlock.toBig, toBlock.toBig⟩)
  | .tokenTransfers token fromBlock toBlock =>
    block = some toBlock.toText ∧
      value = shownTransfers ((w.node.answer (transferFilter token.address fromBlock.toBig toBlock.toBig)).map
        fun l => { transferOf l with token := ctx.launch.tokenAddress })
  | .clusterExpand creator =>
    block = none ∧ ∃ buys sent, value = .cluster creator.digits.toLowerCase (creatorMember creator.address :: buys ++ sent) ∧
      (buys = boughtAtLaunch w ctx creator.address ∨ buys = [] ∧
        ∃ e, ScanFailed ctx (r.client.getLogs 0 0) (ruleFilter ctx ctx.liquiditySource ctx.launch.launchBlock) e) ∧
      (sent = sentByCreator w ctx creator.address ∨ sent = [] ∧
        ∃ e, ScanFailed ctx (r.client.getLogs 1 0) (ruleFilter ctx creator.address (lastTransferBlock ctx)) e)
  | .priceSeries poolId fromBlock toBlock =>
    block = some toBlock.toText ∧ ∃ s, value = shownSeries s ∧
      ctx.priceSeries (answering w r.client) poolId fromBlock.toBig toBlock.toBig = .ok s
  | .holderSnapshot token b =>
    block = some b.toText ∧ (value = .holders (trueStats w ctx token.address b.toBig) ∨
      value = .holders HolderStats.empty ∧ ∃ e, r.totalSupply token.address b.toBig = .error e ∨
        ScanFailed ctx (r.client.getLogs 0 0) (transferFilter token.address ctx.launch.launchBlock b.toBig) e)
  | .contractCode address (some b) =>
    block = some (toString b.toBig) ∧ value = .code (contractAt w ctx address.digits b.toBig)
  | .contractCode address none =>
    block = none ∧ ∃ b implementationBlock adminBlock beaconBlock,
      let slot (s : Word) (block : Nat) := w.storage address.digits.toLowerCase s block
      value = .code (contractFrom ctx address.digits none (w.code address.digits.toLowerCase b)
        (slot EIP1967_IMPLEMENTATION_SLOT implementationBlock) (slot EIP1967_ADMIN_SLOT adminBlock)
        (slot EIP1967_BEACON_SLOT beaconBlock))
  | .scanhoodScan _ => block = none ∧ r.scan.ok = true ∧ value = .scan (mapScanHood r.scan.data)
  | .scanhoodQuote _ _ => block = none ∧ r.quote.ok = true ∧ ∃ q, r.quote.data = some q ∧ value = .quote q

/-- A read of the call ends it with this error: it fails, or brings a log that cannot be decoded. -/
def Fails (w : World) (ctx : DeepdiveContext) (r : Reads) (e : RpcError) : ToolCall → Prop
  | .addressTokenActivity address token fromBlock toBlock =>
    let window : HistoryWindow := ⟨token.map HexAddr.address, fromBlock.toBig, toBlock.toBig⟩
    ∃ attempt, ScanFailed ctx (r.client.getLogs 0 attempt) (window.filter (inboundTopics address.address)) e ∨
      ScanFailed ctx (r.client.getLogs 1 attempt) (window.filter (outboundTopics address.address)) e
  | .tokenTransfers token fromBlock toBlock =>
    ScanFailed ctx (r.client.getLogs 0 0) (transferFilter token.address fromBlock.toBig toBlock.toBig) e
  | .priceSeries poolId fromBlock toBlock =>
    ∃ f, tradeFilter { ctx.poolRef with poolId } fromBlock.toBig toBlock.toBig = .ok f ∧
      ((∃ attempt, ScanFailed ctx (r.client.getLogs 0 attempt) f e) ∨
        ∃ log ∈ w.node.answer f, pricePoint { ctx.poolRef with poolId } log = .error e)
  | .holderSnapshot _ _ => r.clusterMembers = .error e
  | .contractCode address block =>
    r.code.getCode address.digits.toLowerCase (block.map BlockNum.toBig) = .error e ∨
      ∃ slot ∈ [EIP1967_IMPLEMENTATION_SLOT, EIP1967_ADMIN_SLOT, EIP1967_BEACON_SLOT],
        r.code.getStorageAt address.digits.toLowerCase slot (block.map BlockNum.toBig) = .error e
  | .clusterExpand _ | .scanhoodScan _ | .scanhoodQuote _ _ => False

/-- Why a call has no row. -/
def Lacks (w : World) (ctx : DeepdiveContext) (r : Reads) (reason : String) : ToolCall → Prop
  | .scanhoodScan _ => r.scan.ok = false ∧ reason = "ScanHood returned no data for this token"
  | .scanhoodQuote _ _ => (r.quote.ok = false ∨ r.quote.data = none) ∧ reason = "ScanHood returned no quote"
  | call => ∃ e, Fails w ctx r e call ∧ reason = e.message

section Calls
variable {w : World} {ctx : DeepdiveContext} {r : Reads}

/-- What is resolved is put together from one read of the code and, where there is some, one of each slot. -/
theorem resolveContractCode_ok {client : CodeClient} {address : Hex} {block : Option Nat} {c : ContractCode}
    (hc : resolveContractCode ctx.keccak client address block = .ok c) :
    ∃ code, client.getCode address.toLowerCase block = .ok code ∧
      ((∀ implementation admin beacon, c = contractFrom ctx address block code implementation admin beacon) ∨
        ∃ implementation admin beacon,
          client.getStorageAt address.toLowerCase EIP1967_IMPLEMENTATION_SLOT block = .ok implementation ∧
          client.getStorageAt address.toLowerCase EIP1967_ADMIN_SLOT block = .ok admin ∧
          client.getStorageAt address.toLowerCase EIP1967_BEACON_SLOT block = .ok beacon ∧
          c = contractFrom ctx address block code implementation admin beacon) := by
  unfold resolveContractCode at hc
  obtain ⟨code, hcode, hc⟩ := bind_ok hc
  refine ⟨code, hcode, ?_⟩
  unfold contractFrom
  cases hbytes : code.getD [] with
  | nil =>
    rw [hbytes, if_pos rfl] at hc
    exact Or.inl fun _ _ _ => (Except.ok.inj hc).symm
  | cons b bytes =>
    rw [hbytes, if_neg (List.cons_ne_nil b bytes)] at hc
    obtain ⟨implementation, himpl, hc⟩ := bind_ok hc
    obtain ⟨admin, hadmin, hc⟩ := bind_ok hc
    obtain ⟨beacon, hbeacon, hc⟩ := bind_ok hc
    exact Or.inr ⟨implementation, admin, beacon, himpl, hadmin, hbeacon, (Except.ok.inj hc).symm⟩

theorem contractCode_pinned {client : CodeClient} (h : PinnedCode w client) {address : Hex} {block : Nat}
    {c : ContractCode} (hc : resolveContractCode ctx.keccak client address (some block) = .ok c) :
    c = contractAt w ctx address block := by
  obtain ⟨code, hcode, hc⟩ := resolveContractCode_ok hc
  obtain rfl := h.code _ _ _ hcode
  rcases hc with hc | ⟨implementation, admin, beacon, himpl, hadmin, hbeacon, hc⟩
  · exact hc _ _ _
  · obtain rfl := h.storage _ _ _ _ himpl
    obtain rfl := h.storage _ _ _ _ hadmin
    obtain rfl := h.storage _ _ _ _ hbeacon
    exact hc

end Calls

section Cluster
variable (p : BuildClusterParams)

variable {w : World} {ctx : DeepdiveContext} {r : Reads}

end Cluster
def answered (ctx : DeepdiveContext) (call : ToolCall × Reads) : Bool := (execute ctx call.2 call.1).ok

/-- The row of a call. -/
structure RowOf (w : World) (ctx : DeepdiveContext) (call : ToolCall × Reads) (row : EvidenceRow) : Prop where
  query : row.query = call.1
  tool : row.tool = call.1.name
  source : row.source = rowSource call.1
  shows : Shows w ctx call.2 row.block row.value call.1

/-- The limitation of a call. -/
structure GapOf (w : World) (ctx : DeepdiveContext) (call : ToolCall × Reads) (l : Limitation) : Prop where
  query : l.query = call.1
  tool : l.tool = call.1.name
  lacks : Lacks w ctx call.2 l.reason call.1

/-- Every call has its row or its limitation, in the order of the calls. -/
structure Collects (w : World) (ctx : DeepdiveContext) (calls : List (ToolCall × Reads)) (c : Collected) : Prop where
  rows : List.Forall₂ (RowOf w ctx) (calls.filter (answered ctx)) c.evidence
  limits : List.Forall₂ (GapOf w ctx) (calls.filter fun call => !answered ctx call) c.limitations

/-- The coverage of the report, besides, names every call without a row, and a node of another chain. -/
structure Accounted (w : World) (ctx : DeepdiveContext) (calls : List (ToolCall × Reads)) (c : Collected) : Prop
    extends Collects w ctx calls c where
  missing : ∀ input : AssembleDeepdiveReportInput, input.limitations = c.limitations →
    ∀ call ∈ calls, answered ctx call = false → ∃ reason : String, Lacks w ctx call.2 reason call.1 ∧
      s!"{call.1.name}: {reason}" ∈ (assembleDeepdiveReport input).content.coverage
  mismatch : ∀ input : AssembleDeepdiveReportInput, input.packet.chainIdMatches = false →
    s!"chain id mismatch: rpc {input.packet.rpcChainId} vs target {input.packet.chainId}" ∈
      (assembleDeepdiveReport input).content.coverage

section Packet
variable {w : World} {rpcChainId : Nat} {blocks : Nat → Report.Block} {client : PacketClient} {ctx : DeepdiveContext}

/-- A client of the chain with this id and these blocks; the latest block may be any of them. -/
structure HonestPacket (w : World) (rpcChainId : Nat) (blocks : Nat → Report.Block) (client : PacketClient) : Prop
    extends PinnedCode w client.toCodeClient where
  chainId : ∀ id, client.getChainId = .ok id → id = rpcChainId
  pinned : ∀ number block, client.getBlock (some number) = .ok block → block = blocks number
  latest : ∀ block, client.getBlock none = .ok block → block = blocks block.number

/-- The packet of a target at a block, built at some time. -/
def packetAt (w : World) (rpcChainId : Nat) (blocks : Nat → Report.Block) (ctx : DeepdiveContext) (target : DeepdiveTarget)
    (block : Nat) (now : Int) : TargetPacket :=
  let code := contractAt w ctx target.tokenAddress block
  { chainId := target.chainId, rpcChainId, chainIdMatches := decide (rpcChainId = target.chainId)
    tokenAddress := target.tokenAddress.toLowerCase
    quoteAddress := target.quoteAddress.map Hex.toLowerCase
    creatorAddress := target.creatorAddress.toLowerCase
    source := target.source
    reportBlock := ⟨block, (blocks block).hash, (blocks block).timestamp * 1000⟩
    launch := ⟨toString target.launchBlock, target.launchTxHash, target.launchAt.map Js.toISOString⟩
    code
    implementationCode := (if code.isProxy then code.implementation else none).map fun a => contractAt w ctx a block
    pools := target.pools
    builtAtUtc := Js.toISOString now }

/-- The block a packet is pinned to, whether it was asked for or is the latest. -/
theorem pinnedBlock (h : HonestPacket w rpcChainId blocks client) {reportBlock : Option Nat} {head : Report.Block}
    (hh : client.getBlock reportBlock = .ok head) : head = blocks (reportBlock.getD head.number) := by
  cases reportBlock with
  | none => exact h.latest head hh
  | some number => exact h.pinned number head hh

theorem implementationCode_honest (h : PinnedCode w client.toCodeClient) {code : ContractCode} {block : Nat}
    {implementationCode : Option ContractCode}
    (hc : implementationCodeOf ctx.keccak client.toCodeClient code block = .ok implementationCode) :
    implementationCode = (if code.isProxy then code.implementation else none).map fun a => contractAt w ctx a block := by
  unfold implementationCodeOf at hc
  split at hc
  · rename_i implementation hsome
    rw [hsome]
    cases hr : resolveContractCode ctx.keccak client.toCodeClient implementation (some block) with
    | error e =>
      rw [hr] at hc
      cases hc
    | ok c =>
      rw [hr] at hc
      have hread : c = contractAt w ctx implementation block := contractCode_pinned h hr
      rw [← Except.ok.inj hc, hread]
      rfl
  · rename_i hnone
    rw [hnone]
    exact (Except.ok.inj hc).symm

/-- A packet is that of its block and of the time it is built. -/
theorem packet_honest (h : HonestPacket w rpcChainId blocks client) {target : DeepdiveTarget} {now : Int}
    {reportBlock : Option Nat} {p : TargetPacket}
    (hp : buildTargetPacket ctx.keccak client target reportBlock now = .ok p) :
    p = packetAt w rpcChainId blocks ctx target p.reportBlock.number now ∧
      ∀ number, reportBlock = some number → p.reportBlock.number = number := by
  obtain ⟨id, hid, hp⟩ := bind_ok hp
  obtain ⟨head, hhead, hp⟩ := bind_ok hp
  obtain ⟨code, hcode, hp⟩ := bind_ok hp
  obtain ⟨implementationCode, himpl, hp⟩ := bind_ok hp
  obtain rfl := Except.ok.inj hp
  obtain rfl := h.chainId _ hid
  have hread : code = contractAt w ctx target.tokenAddress (reportBlock.getD head.number) :=
    contractCode_pinned h.toPinnedCode hcode
  subst hread
  have hblock := pinnedBlock h hhead
  refine ⟨?_, ?_⟩
  · rw [implementationCode_honest h.toPinnedCode himpl, packetAt]
    dsimp only
    rw [← hblock]
  · intro number hn
    rw [hn]
    rfl

end Packet

/-- Whoever asks for the block of a packet, of whichever honest node, builds the packet again, but for the time. -/
theorem packet_reproducible (w : World) (rpcChainId : Nat) (blocks : Nat → Report.Block) (ctx : DeepdiveContext)
    {client client' : PacketClient} (h : HonestPacket w rpcChainId blocks client)
    (h' : HonestPacket w rpcChainId blocks client') {target : DeepdiveTarget} {reportBlock : Option Nat} {now now' : Int}
    {p p' : TargetPacket} (hp : buildTargetPacket ctx.keccak client target reportBlock now = .ok p)
    (hp' : buildTargetPacket ctx.keccak client' target (some p.reportBlock.number) now' = .ok p') :
    p' = { p with builtAtUtc := Js.toISOString now' } := by
  obtain ⟨heq, -⟩ := packet_honest h hp
  obtain ⟨heq', hnumber⟩ := packet_honest h' hp'
  rw [heq', hnumber _ rfl, heq]
  rfl

section Sample

def SENDER : Address := 7#160

def sampleWorld : World where
  node :=
    { logs := [⟨9#160, [TRANSFER_TOPIC0, addressToTopic SENDER, addressToTopic 8#160], [5], 40, 1, 0⟩,
        ⟨9#160, [TRANSFER_TOPIC0, addressToTopic 8#160, addressToTopic SENDER], [2], 41, 2, 3⟩]
      ordered := by decide }
  supply := fun _ _ => 100
  members := [SENDER]
  code := fun _ _ => some [96, 128]
  storage := fun _ _ _ => none

theorem length_zeroes : (List.replicate 32 (0 : UInt8)).length = 32 := rfl

def sampleContext : DeepdiveContext where
  keccak := fun _ => ⟨List.replicate 32 0, length_zeroes⟩
  launch :=
    { id := "launch", chainId := 4663, source := "direct", sourceConfidence := none, lpLockedByConstruction := false
      tokenAddress := 9#160, quoteAddress := some 6#160, poolKind := none, poolAddress := none, poolId := none
      poolFee := none, poolTickSpacing := none, poolHooks := none, poolFeeSuspect := false, creatorAddress := SENDER
      launchBlock := 40, launchTxHash := 1, launchAt := none, detectedVia := none, tokenAgeAtPoolSec := none
      lane := .index, quotaExceeded := false, retrospective := false }
  cfg := sampleConfig
  maxRange := 10

def senderText : HexAddr := ⟨List.replicate 39 (.ofNibble 0) ++ [.ofNibble 7], rfl⟩

/-- A node at some head, which answers everything. -/
def samplePacketClient (head : Nat) : PacketClient where
  getCode := fun address block => .ok (sampleWorld.code address (block.getD head))
  getStorageAt := fun address slot block => .ok (sampleWorld.storage address slot (block.getD head))
  getChainId := .ok 4663
  getBlock := fun number => .ok ⟨number.getD head, 17, 1700000000⟩

theorem samplePacketClient_honest (head : Nat) :
    HonestPacket sampleWorld 4663 (fun n => ⟨n, 17, 1700000000⟩) (samplePacketClient head) where
  code := fun _ _ _ h => (Except.ok.inj h).symm
  storage := fun _ _ _ _ h => (Except.ok.inj h).symm
  chainId := fun _ h => (Except.ok.inj h).symm
  pinned := fun _ _ h => (Except.ok.inj h).symm
  latest := by
    intro block h
    obtain rfl := Except.ok.inj h
    rfl

def sampleTarget : DeepdiveTarget where
  chainId := 4663
  tokenAddress := senderText.digits
  quoteAddress := some senderText.digits
  creatorAddress := senderText.digits
  launchBlock := 40
  launchTxHash := 1
  launchAt := some 1700000000000
  source := "direct"
  pools := []

def samplePacket (now : Int) : TargetPacket :=
  packetAt sampleWorld 4663 (fun n => ⟨n, 17, 1700000000⟩) sampleContext sampleTarget 50 now

/-- What a node ten blocks later rebuilds. -/
def rebuiltPacket : Option TargetPacket :=
  (buildTargetPacket sampleContext.keccak (samplePacketClient 60) sampleTarget (some 50) 1700000001000).toOption

theorem packet_reproducible_later : rebuiltPacket = some (samplePacket 1700000001000) := by
  have hfirst : buildTargetPacket sampleContext.keccak (samplePacketClient 50) sampleTarget none 1700000000000 =
      .ok (samplePacket 1700000000000) := rfl
  cases hlater : buildTargetPacket sampleContext.keccak (samplePacketClient 60) sampleTarget (some 50) 1700000001000 with
  | error e => cases hlater
  | ok p =>
    have hsame := packet_reproducible sampleWorld 4663 (fun n => ⟨n, 17, 1700000000⟩) sampleContext
      (samplePacketClient_honest 50) (samplePacketClient_honest 60) hfirst hlater
    rw [rebuiltPacket, hlater, hsame]
    rfl

end Sample

end LaunchAuditor.Proofs.Investigation
