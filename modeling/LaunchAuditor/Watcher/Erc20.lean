import LaunchAuditor.Chain.Logs
import LaunchAuditor.Lib.Ledger

/-! `apps/worker/src/watcher/erc20.ts`, and the Transfer history of a token on its chain. -/

namespace LaunchAuditor.Watcher
open Chain

/-- Transfer(address indexed from, address indexed to, uint256 value) -/
def TRANSFER_TOPIC0 : Word := 0xddf252ad1be2c89b69c2b068fc378daa952ba7f163c4a11628f55a4df523b3ef#256

def ZERO_ADDRESS : Address := 0#160

def addressToTopic (addr : Address) : Word := addr.setWidth 256

def topicToAddress (topic : Word) : Address := topic.setWidth 160

/-- `BigInt(data)`, 0 when there is none -/
def transferValue (data : List Word) : Nat := data.foldl (fun n w => n * 2 ^ 256 + w.toNat) 0

@[simp] theorem topicToAddress_addressToTopic (addr : Address) : topicToAddress (addressToTopic addr) = addr := by
  unfold topicToAddress addressToTopic
  rw [BitVec.setWidth_setWidth_of_le addr (by decide), BitVec.setWidth_eq]

theorem addressToTopic_injective {a b : Address} (h : addressToTopic a = addressToTopic b) : a = b := by
  rw [← topicToAddress_addressToTopic a, h, topicToAddress_addressToTopic]

/-- One Transfer as the token emits it. -/
structure TransferEvent where
  blockNumber : Nat
  logIndex : Nat
  transactionHash : Word
  from_ : Address
  to_ : Address
  value : Word
  deriving DecidableEq

namespace TransferEvent

def transfer (e : TransferEvent) : Ledger.Transfer Address := ⟨e.from_, e.to_, e.value.toNat⟩

def toLog (token : Address) (e : TransferEvent) : RpcLog where
  address := token
  topics := [TRANSFER_TOPIC0, addressToTopic e.from_, addressToTopic e.to_]
  data := [e.value]
  blockNumber := e.blockNumber
  transactionHash := e.transactionHash
  logIndex := e.logIndex

def key (e : TransferEvent) : Nat ×ₗ Nat := toLex (e.blockNumber, e.logIndex)

def inBlocks (fromBlock toBlock : Nat) (e : TransferEvent) : Bool :=
  decide (fromBlock ≤ e.blockNumber) && decide (e.blockNumber ≤ toBlock)

end TransferEvent

/-- The history of a conserving token: in the order of the chain, and no address spends
what it does not have. -/
structure TransferHistory where
  events : List TransferEvent
  ordered : events.Pairwise fun a b => a.key < b.key
  solvent : Ledger.Solvent ZERO_ADDRESS (events.map TransferEvent.transfer)

namespace TransferHistory

/-- The node that serves the token's logs. -/
def node (h : TransferHistory) (token : Address) : LogNode where
  logs := h.events.map (TransferEvent.toLog token)
  ordered := List.pairwise_map.mpr h.ordered

def before (h : TransferHistory) (block : Nat) : List TransferEvent :=
  h.events.filter fun e => decide (e.blockNumber < block)

def window (h : TransferHistory) (fromBlock toBlock : Nat) : List TransferEvent :=
  h.events.filter (TransferEvent.inBlocks fromBlock toBlock)

theorem blocks_ordered (h : TransferHistory) : h.events.Pairwise fun a b => a.blockNumber ≤ b.blockNumber := by
  refine h.ordered.imp ?_
  intro a b hab
  rcases Prod.Lex.lt_iff.mp hab with hlt | ⟨heq, _⟩
  · exact Nat.le_of_lt hlt
  · exact Nat.le_of_eq heq

/-- The window continues what came before it. -/
theorem before_window_prefix (h : TransferHistory) (fromBlock toBlock : Nat) :
    h.before fromBlock ++ h.window fromBlock toBlock <+: h.events := by
  rw [before, window, Keyed.filter_append_filter]
  · apply Keyed.filter_prefix
    refine h.blocks_ordered.imp ?_
    intro a b hab hb
    simp only [TransferEvent.inBlocks, Bool.or_eq_true, Bool.and_eq_true, decide_eq_true_eq] at hb ⊢
    omega
  · refine h.blocks_ordered.imp ?_
    intro a b hab ha
    simp only [TransferEvent.inBlocks, Bool.and_eq_true, decide_eq_true_eq] at ha
    simp only [decide_eq_false_iff_not]
    omega
  · intro a _ ha
    simp only [TransferEvent.inBlocks, Bool.and_eq_true, decide_eq_true_eq] at ha
    simp only [decide_eq_false_iff_not]
    omega

end TransferHistory

end LaunchAuditor.Watcher
