import LaunchAuditor.Watcher.Erc20
import LaunchAuditor.Watcher.Retry

/-! `apps/worker/src/history`: the transfers of an address, by their logs. -/

namespace LaunchAuditor.History
open Chain Watcher

structure TokenTransfer where
  token : Address
  sender : Address
  recipient : Address
  value : Nat
  block : Nat
  logIndex : Nat
  txHash : Word
  deriving DecidableEq

structure HistoryWindow where
  token : Option Address
  fromBlock : Nat
  toBlock : Nat
  deriving DecidableEq

/-- What `byOrder` compares. -/
def byOrder (t : TokenTransfer) : Nat ×ₗ Nat := toLex (t.block, t.logIndex)

/-- A log without both parties is none. -/
def toTransfer (l : RpcLog) : Option TokenTransfer :=
  match l.topics[1]?, l.topics[2]? with
  | some sender, some recipient =>
    some ⟨l.address, topicToAddress sender, topicToAddress recipient, transferValue l.data, l.blockNumber, l.logIndex,
      l.transactionHash⟩
  | _, _ => none

def inboundTopics (address : Address) : List (Option (List Word)) :=
  [some [TRANSFER_TOPIC0], none, some [addressToTopic address]]

def outboundTopics (address : Address) : List (Option (List Word)) :=
  [some [TRANSFER_TOPIC0], some [addressToTopic address]]

def HistoryWindow.filter (w : HistoryWindow) (topics : List (Option (List Word))) : LogFilter :=
  ⟨w.token.toList, topics, w.fromBlock, w.toBlock⟩

/-- `RpcLogsAddressHistory`. The client is asked by the number of the attempt, which comes last. -/
structure RpcLogsAddressHistory where
  inbound : Nat → GetLogs
  outbound : Nat → GetLogs
  maxRange : Nat

namespace RpcLogsAddressHistory
variable (h : RpcLogsAddressHistory)

def query (client : Nat → GetLogs) (topics : List (Option (List Word))) (w : HistoryWindow) :
    Except RpcError (List TokenTransfer) := do
  let logs ← withRetry (fun attempt => getLogsChunked (client attempt) (w.filter topics) h.maxRange) 4 0
  return Keyed.inOrder byOrder (logs.filterMap toTransfer)

def inboundTransfers (address : Address) (w : HistoryWindow) : Except RpcError (List TokenTransfer) :=
  h.query h.inbound (inboundTopics address) w

def outboundTransfers (address : Address) (w : HistoryWindow) : Except RpcError (List TokenTransfer) :=
  h.query h.outbound (outboundTopics address) w

/-- When both queries fail, the error is the first one's here. -/
def tokenActivity (address : Address) (w : HistoryWindow) : Except RpcError (List TokenTransfer) := do
  let inb ← h.inboundTransfers address w
  let outb ← h.outboundTransfers address w
  return Keyed.inOrder byOrder (Keyed.uniq byOrder (inb ++ outb))

/-- `w` without its token -/
def firstErc20Funder (address : Address) (fromBlock toBlock : Nat) : Except RpcError (Option Address) := do
  let inb ← h.inboundTransfers address ⟨none, fromBlock, toBlock⟩
  return (inb.find? fun t => decide (t.sender ≠ ZERO_ADDRESS)).map TokenTransfer.sender

/-- `toFirstInboundLookup` -/
def toFirstInboundLookup (fromBlock toBlock : Nat) (address : Address) : Except RpcError (Option Address) :=
  h.firstErc20Funder address fromBlock toBlock

end RpcLogsAddressHistory

/-- The Transfer logs of the chain in a window, of one token or of all. -/
def transferLogs (n : LogNode) (w : HistoryWindow) : List RpcLog := n.answer (w.filter [some [TRANSFER_TOPIC0]])

/-- The address is the sender, or the recipient, by the topic of the log. -/
def isParty (position : Nat) (address : Address) (l : RpcLog) : Bool :=
  decide (l.topics[position]? = some (addressToTopic address))

/-- The transfers into or out of the address, each once, in the order of the chain. -/
def activityOf (n : LogNode) (address : Address) (w : HistoryWindow) : List TokenTransfer :=
  ((transferLogs n w).filter fun l => isParty 1 address l || isParty 2 address l).filterMap toTransfer

section Queries
variable {n : LogNode} {h : RpcLogsAddressHistory} {client : Nat → GetLogs} {topics : List (Option (List Word))}
  {w : HistoryWindow} {address : Address} {ts : List TokenTransfer}

/-- A client that may fail, at any attempt, but does not make logs up. -/
def Below (n : LogNode) (client : Nat → GetLogs) : Prop :=
  ∀ attempt f logs, client attempt f = .ok logs → n.request f = .ok logs

end Queries

end LaunchAuditor.History
