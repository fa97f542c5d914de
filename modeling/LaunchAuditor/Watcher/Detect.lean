import LaunchAuditor.Chain.Config
import LaunchAuditor.Chain.UniswapEvents
import LaunchAuditor.Outcomes.Context
import LaunchAuditor.Watcher.Erc20

/-! `apps/worker/src/watcher/detect.ts`, and the pool-creation events of `packages/chain/src/uniswap.ts` -/

namespace LaunchAuditor.Watcher
open Chain Outcomes

namespace POOL_EVENT_TOPIC0

def v2PairCreated : Word := 0x0d3648bd0f6ba80134a33ba9275ac585d9d315f0ad8355cddefde31afa28d0e9#256
def v3PoolCreated : Word := 0x783cca1c0412dd0d695e784568c96da2e9c22ff989357a2e8b1d9b2b4e6b7118#256
def v4Initialize : Word := 0xdd466e674ea557f56295e2d0218a125ea4b4f0f6f3307b95f85e6110838d6438#256

end POOL_EVENT_TOPIC0

structure PoolCreation where
  poolKind : PoolKind
  detectedVia : String
  token0 : Address
  token1 : Address
  poolAddress : Option Address
  poolId : Option Word
  fee : Option Nat
  tickSpacing : Option Int
  hooks : Option Address
  deriving DecidableEq

/-- None when the event is not one of the three; an event cut short throws. -/
def decodePoolCreation (log : RpcLog) : Except RpcError (Option PoolCreation) :=
  match log.topics[0]? with
  | none => .ok none
  | some topic0 =>
    if topic0 = POOL_EVENT_TOPIC0.v4Initialize then do
      decodeEventLog log 4 5
      return some {
        poolKind := .v4, detectedVia := "v4:Initialize"
        token0 := topicToAddress (log.topic 2), token1 := topicToAddress (log.topic 3)
        poolAddress := none, poolId := some (log.topic 1)
        fee := some (log.word 0).toNat, tickSpacing := some (log.word 1).toInt
        hooks := some (topicToAddress (log.word 2)) }
    else if topic0 = POOL_EVENT_TOPIC0.v3PoolCreated then do
      decodeEventLog log 4 2
      return some {
        poolKind := .v3, detectedVia := "v3:PoolCreated"
        token0 := topicToAddress (log.topic 1), token1 := topicToAddress (log.topic 2)
        poolAddress := some (topicToAddress (log.word 1)), poolId := none
        fee := some (log.topic 3).toNat, tickSpacing := some (log.word 0).toInt, hooks := none }
    else if topic0 = POOL_EVENT_TOPIC0.v2PairCreated then do
      decodeEventLog log 3 2
      return some {
        poolKind := .v2, detectedVia := "v2:PairCreated"
        token0 := topicToAddress (log.topic 1), token1 := topicToAddress (log.topic 2)
        poolAddress := some (topicToAddress (log.word 0)), poolId := none
        fee := none, tickSpacing := none, hooks := none }
    else .ok none

structure DetectedPool where
  poolCreation : PoolCreation
  log : RpcLog
  deriving DecidableEq

def DetectedPool.blockNumber (dp : DetectedPool) : Nat := dp.log.blockNumber

def DetectedPool.txHash (dp : DetectedPool) : Word := dp.log.transactionHash

/-- What `detectPools` asks for, `poolCreationSources` included. -/
def poolFilter (cfg : ChainConfig) (fromBlock toBlock : Nat) : LogFilter where
  address := cfg.v2Factory :: cfg.v3Factories ++ [cfg.v4PoolManager]
  topics :=
    [some [POOL_EVENT_TOPIC0.v2PairCreated, POOL_EVENT_TOPIC0.v3PoolCreated, POOL_EVENT_TOPIC0.v4Initialize]]
  fromBlock
  toBlock

def decodePools : List RpcLog → Except RpcError (List DetectedPool)
  | [] => .ok []
  | log :: logs => do
    let poolCreation ← decodePoolCreation log
    let rest ← decodePools logs
    return (poolCreation.map fun pc => ⟨pc, log⟩).toList ++ rest

def detectPools (request : GetLogs) (cfg : ChainConfig) (fromBlock toBlock maxRange : Nat) :
    Except RpcError (List DetectedPool) := do
  let logs ← getLogsChunked request (poolFilter cfg fromBlock toBlock) maxRange
  decodePools logs

theorem decodePools_mem {logs : List RpcLog} {pools : List DetectedPool} (h : decodePools logs = .ok pools) :
    ∀ dp, dp ∈ pools ↔ dp.log ∈ logs ∧ decodePoolCreation dp.log = .ok (some dp.poolCreation) := by
  induction logs generalizing pools with
  | nil =>
    obtain rfl := Except.ok.inj h
    simp
  | cons log logs ih =>
    rw [decodePools] at h
    obtain ⟨poolCreation, hpc, h⟩ := bind_ok h
    obtain ⟨rest, hrest, h⟩ := bind_ok h
    obtain rfl := Except.ok.inj h
    intro dp
    rw [List.mem_append, ih hrest, List.mem_cons]
    constructor
    · rintro (hdp | ⟨hlog, hdecoded⟩)
      · obtain ⟨pc, hsome, rfl⟩ := Option.map_eq_some_iff.mp (Option.mem_toList.mp hdp)
        exact ⟨Or.inl rfl, by rw [hpc, hsome]⟩
      · exact ⟨Or.inr hlog, hdecoded⟩
    · rintro ⟨hlog | hlog, hdecoded⟩
      · left
        rw [hlog, hpc] at hdecoded
        rw [Except.ok.inj hdecoded, Option.mem_toList]
        exact congrArg some (show DetectedPool.mk dp.poolCreation log = dp by rw [← hlog])
      · exact Or.inr ⟨hlog, hdecoded⟩

theorem decodePools_decoded {logs : List RpcLog} {pools : List DetectedPool} (h : decodePools logs = .ok pools)
    {log : RpcLog} (hlog : log ∈ logs) : ∃ poolCreation, decodePoolCreation log = .ok poolCreation := by
  induction logs generalizing pools with
  | nil => cases hlog
  | cons first logs ih =>
    rw [decodePools] at h
    obtain ⟨poolCreation, hpc, h⟩ := bind_ok h
    obtain ⟨rest, hrest, _⟩ := bind_ok h
    rcases List.mem_cons.mp hlog with rfl | hlog
    · exact ⟨poolCreation, hpc⟩
    · exact ih hrest hlog

/-- A log the filter selects is one of the three events, so it is decoded or it throws. -/
theorem decodePoolCreation_selected {cfg : ChainConfig} {fromBlock toBlock : Nat} {log : RpcLog}
    (h : (poolFilter cfg fromBlock toBlock).selects log = true) : decodePoolCreation log ≠ .ok none := by
  have htopics : topicsMatch (poolFilter cfg fromBlock toBlock).topics log.topics = true :=
    (Bool.and_eq_true_iff.mp h).2
  unfold decodePoolCreation
  cases ht : log.topics with
  | nil =>
    rw [ht] at htopics
    cases htopics
  | cons topic0 topics =>
    rw [ht] at htopics
    simp only [poolFilter, topicsMatch, Bool.and_true, Bool.or_eq_true, List.isEmpty_cons, Bool.false_eq_true,
      false_or, List.contains_iff_mem, List.mem_cons, List.not_mem_nil, or_false] at htopics
    have hdecode : ∀ (words topics : Nat) (pc : PoolCreation),
        (do decodeEventLog log topics words; return some pc) ≠ (.ok none : Except RpcError (Option PoolCreation)) := by
      intro words topics pc
      cases decodeEventLog log topics words with
      | error e => simp [bind, Except.bind]
      | ok _ => simp [bind, Except.bind, pure, Except.pure]
    simp only [List.getElem?_cons_zero]
    by_cases h4 : topic0 = POOL_EVENT_TOPIC0.v4Initialize
    · rw [if_pos h4]
      apply hdecode
    · by_cases h3 : topic0 = POOL_EVENT_TOPIC0.v3PoolCreated
      · rw [if_neg h4, if_pos h3]
        apply hdecode
      · by_cases h2 : topic0 = POOL_EVENT_TOPIC0.v2PairCreated
        · rw [if_neg h4, if_neg h3, if_pos h2]
          apply hdecode
        · tauto

/-- A scan that is answered brings every creation of the range and nothing else. -/
theorem detectPools_mem {n : LogNode} {request : GetLogs} (hbelow : ∀ f logs, request f = .ok logs → n.request f = .ok logs)
    {cfg : ChainConfig} {fromBlock toBlock maxRange : Nat} {pools : List DetectedPool}
    (h : detectPools request cfg fromBlock toBlock maxRange = .ok pools) (log : RpcLog) :
    (∃ dp ∈ pools, dp.log = log) ↔ log ∈ n.logs ∧ (poolFilter cfg fromBlock toBlock).selects log = true ∧
      fromBlock ≤ log.blockNumber ∧ log.blockNumber ≤ toBlock := by
  unfold detectPools at h
  cases hlogs : getLogsChunked request (poolFilter cfg fromBlock toBlock) maxRange with
  | error e =>
    rw [hlogs] at h
    cases h
  | ok logs =>
    rw [hlogs] at h
    change decodePools logs = .ok pools at h
    have hmem : log ∈ logs ↔ log ∈ n.logs ∧ (poolFilter cfg fromBlock toBlock).selects log = true ∧
        fromBlock ≤ log.blockNumber ∧ log.blockNumber ≤ toBlock := by
      rw [getLogsChunked_below n hbelow hlogs]
      exact n.mem_answer
    rw [← hmem]
    constructor
    · rintro ⟨dp, hdp, rfl⟩
      exact ((decodePools_mem h dp).mp hdp).1
    · intro hlog
      obtain ⟨poolCreation, hpc⟩ := decodePools_decoded h hlog
      cases hsome : poolCreation with
      | none =>
        rw [hsome] at hpc
        exact absurd hpc (decodePoolCreation_selected (hmem.mp hlog).2.1)
      | some pc =>
        rw [hsome] at hpc
        exact ⟨⟨pc, log⟩, (decodePools_mem h _).mpr ⟨hlog, hpc⟩, rfl⟩

end LaunchAuditor.Watcher
