import LaunchAuditor.Chain.Logs
import Mathlib.Data.Rat.Floor

/-! The decoders of `packages/chain/src/uniswap-events.ts` that the outcomes rest on. Prices are
exact rationals; only the bigint division rounds. -/

namespace LaunchAuditor.Chain

namespace TRADE_EVENT_TOPIC0

def v4Swap : Word := 0x40e9cecb9f5f1f1c5b9c97dec2917b7ee92e57ba5563708daca94dd84ad7112f#256
def v4ModifyLiquidity : Word := 0xf208f4912782fd25c7f114ca3723a2d5dd6f3bcc3ac8db5af63baa85f711d5ec#256
def v3Swap : Word := 0xc42079f94a6350d7e6235f29174924f928cc2ac818eb64fed8004e115fbcca67#256
def v2Sync : Word := 0x1c411e9a96e071241c2f21f7726b17ae89e3cab4c78be50e062b03a9fffbbad1#256

end TRADE_EVENT_TOPIC0

structure SwapObservation where
  block : Nat
  txHash : Word
  sqrtPriceX96 : Nat
  liquidity : Nat
  amount0 : Int
  amount1 : Int

structure LiquidityDelta where
  block : Nat
  txHash : Word
  delta : Int

structure SyncObservation where
  block : Nat
  txHash : Word
  reserve0 : Nat
  reserve1 : Nat

/-- `decodeEventLog` of an event with so many topics and words of data; it throws when the log has fewer. -/
def decodeEventLog (log : RpcLog) (topics words : Nat) : Except RpcError Unit :=
  if log.topics.length < topics then .error ⟨"DecodeLogTopicsMismatch", "Expected more topics for the event."⟩
  else if log.data.length < words then .error ⟨"DecodeLogDataMismatch", "Data size is too small for the event."⟩
  else .ok ()

/-- The n-th word of the data, 0 past its end. -/
def RpcLog.word (log : RpcLog) (n : Nat) : Word := log.data[n]?.getD 0#256

/-- The n-th topic, 0 past their end. -/
def RpcLog.topic (log : RpcLog) (n : Nat) : Word := log.topics[n]?.getD 0#256

/-- A swap event whose data starts with the amounts, the price and the liquidity. -/
def decodeSwap (topic0 : Word) (words : Nat) (log : RpcLog) : Except RpcError (Option SwapObservation) :=
  if log.topics[0]? = some topic0 then do
    decodeEventLog log 3 words
    return some ⟨log.blockNumber, log.transactionHash, (log.word 2).toNat, (log.word 3).toNat, (log.word 0).toInt,
      (log.word 1).toInt⟩
  else .ok none

def decodeV4Swap : RpcLog → Except RpcError (Option SwapObservation) := decodeSwap TRADE_EVENT_TOPIC0.v4Swap 6

def decodeV3Swap : RpcLog → Except RpcError (Option SwapObservation) := decodeSwap TRADE_EVENT_TOPIC0.v3Swap 5

def decodeV4ModifyLiquidity (log : RpcLog) : Except RpcError (Option LiquidityDelta) :=
  if log.topics[0]? = some TRADE_EVENT_TOPIC0.v4ModifyLiquidity then do
    decodeEventLog log 3 4
    return some ⟨log.blockNumber, log.transactionHash, (log.word 2).toInt⟩
  else .ok none

def decodeV2Sync (log : RpcLog) : Except RpcError (Option SyncObservation) :=
  if log.topics[0]? = some TRADE_EVENT_TOPIC0.v2Sync then do
    decodeEventLog log 1 2
    return some ⟨log.blockNumber, log.transactionHash, (log.word 0).toNat, (log.word 1).toNat⟩
  else .ok none

/-- A swap with all its topics and words is decoded. -/
theorem decodeSwap_eq {topic0 : Word} {words : Nat} {l : RpcLog} (ht : l.topics[0]? = some topic0)
    (htopics : 3 ≤ l.topics.length) (hdata : words ≤ l.data.length) :
    decodeSwap topic0 words l = .ok (some ⟨l.blockNumber, l.transactionHash, (l.word 2).toNat, (l.word 3).toNat,
      (l.word 0).toInt, (l.word 1).toInt⟩) := by
  rw [decodeSwap, if_pos ht, decodeEventLog, if_neg (by omega), if_neg (by omega)]
  rfl

/-- Price of currency0 in currency1, decimals not applied. -/
def sqrtPriceX96ToPrice0in1 (sqrtPriceX96 : Nat) : ℚ :=
  if sqrtPriceX96 ≤ 0 then 0
  else ((sqrtPriceX96 * sqrtPriceX96 * 10 ^ 18 / (2 ^ 96 * 2 ^ 96) : ℕ) : ℚ) / 10 ^ 18

def tokenPriceInQuote (sqrtPriceX96 : Nat) (tokenIsCurrency0 : Bool) : ℚ :=
  let p0in1 := sqrtPriceX96ToPrice0in1 sqrtPriceX96
  if tokenIsCurrency0 then p0in1 else if p0in1 > 0 then 1 / p0in1 else 0

end LaunchAuditor.Chain
