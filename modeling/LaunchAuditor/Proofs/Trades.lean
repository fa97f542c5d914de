import LaunchAuditor.Proofs.Measurement

namespace LaunchAuditor.Proofs.Trades
open Chain Watcher Outcomes

inductive PoolAction
  | swap
  /-- liquidity is added or removed -/
  | liquidity
  /-- a donation; of a v2 pair the `sync` after it -/
  | donation
  /-- approvals, transfers of shares, collected fees -/
  | other
  deriving DecidableEq

section Events
variable {Action : Type}

/-- One action of a pool with the logs it leaves. -/
structure PoolEvent (Action : Type) where
  action : Action
  block : Nat
  logs : List RpcLog

def PoolEvent.within (fromBlock toBlock : Nat) (e : PoolEvent Action) : Prop := fromBlock ≤ e.block ∧ e.block ≤ toBlock

/-- The event a series is built from. -/
def tradeTopic : PoolKind → Word
  | .v4 => TRADE_EVENT_TOPIC0.v4Swap
  | .v3 => TRADE_EVENT_TOPIC0.v3Swap
  | .v2 => TRADE_EVENT_TOPIC0.v2Sync

/-- The pool's logs: those of its contract, or those the manager keeps under its id. -/
def owns (pool : PoolRef) (l : RpcLog) : Bool :=
  match pool.poolKind with
  | .v4 => l.address == pool.poolManager && pool.poolId.any fun id => l.topics[1]? == some id
  | _ => pool.poolAddress.any fun a => l.address == a

/-- The events of a pool, in order, have left its logs on a chain. -/
structure Logged (pool : PoolRef) (node : LogNode) (events : List (PoolEvent Action)) : Prop where
  blocks : ∀ e ∈ events, ∀ l ∈ e.logs, l.blockNumber = e.block
  logged : node.logs.filter (owns pool) = events.flatMap PoolEvent.logs

/-- The logs of a pool between two blocks are those of its events there. -/
theorem Logged.mem_iff {pool : PoolRef} {node : LogNode} {events : List (PoolEvent Action)} (h : Logged pool node events)
    {l : RpcLog} {fromBlock toBlock : Nat} :
    (l ∈ node.logs ∧ owns pool l = true ∧ fromBlock ≤ l.blockNumber ∧ l.blockNumber ≤ toBlock) ↔
      ∃ e ∈ events, l ∈ e.logs ∧ e.within fromBlock toBlock := by
  have hmem : l ∈ node.logs ∧ owns pool l = true ↔ ∃ e ∈ events, l ∈ e.logs := by
    rw [← List.mem_filter, h.logged, List.mem_flatMap]
  constructor
  · rintro ⟨hl, ho, hfrom, hto⟩
    obtain ⟨e, he, hle⟩ := hmem.mp ⟨hl, ho⟩
    have hb := h.blocks e he l hle
    exact ⟨e, he, hle, hb ▸ hfrom, hb ▸ hto⟩
  · rintro ⟨e, he, hle, hfrom, hto⟩
    obtain ⟨hl, ho⟩ := hmem.mpr ⟨e, he, hle⟩
    have hb := h.blocks e he l hle
    exact ⟨hl, ho, hb ▸ hfrom, hb ▸ hto⟩

/-- The chain that has the logs of some events and no others. -/
def eventNode (events : List (PoolEvent Action))
    (ordered : (events.flatMap PoolEvent.logs).Pairwise fun a b => logKey a < logKey b) : LogNode :=
  ⟨events.flatMap PoolEvent.logs, ordered⟩

end Events

def Quiet (pool : PoolRef) (l : RpcLog) : Prop := l.topics[0]? ≠ some (tradeTopic pool.poolKind)

/-- A `Swap` of v3 or v4 with the price it leaves. -/
structure SwapLog (pool : PoolRef) (l : RpcLog) : Prop where
  topic : l.topics[0]? = some (tradeTopic pool.poolKind)
  topics : 3 ≤ l.topics.length
  data : 6 ≤ l.data.length ∨ pool.poolKind = .v3 ∧ 5 ≤ l.data.length
  priced : (l.word 2).toNat ≠ 0

/-- A `Sync` with the reserves it leaves. -/
structure SyncLog (l : RpcLog) (reserve0 reserve1 : Nat) : Prop where
  topic : l.topics[0]? = some TRADE_EVENT_TOPIC0.v2Sync
  data : 2 ≤ l.data.length
  reserve0 : (l.word 0).toNat = reserve0
  reserve1 : (l.word 1).toNat = reserve1

/-- What an action logs. -/
inductive Emitted (pool : PoolRef) : PoolAction → List RpcLog → Prop
  /-- a swap of v3 and v4 logs the price, which is positive -/
  | swap {before after : List RpcLog} {log : RpcLog} (kind : pool.poolKind ≠ .v2) (logged : SwapLog pool log)
      (quiet : ∀ l ∈ before ++ after, Quiet pool l) : Emitted pool .swap (before ++ log :: after)
  /-- their liquidity changes and donations have events of their own -/
  | unpriced {action : PoolAction} {logs : List RpcLog} (kind : pool.poolKind ≠ .v2) (untraded : action ≠ .swap)
      (quiet : ∀ l ∈ logs, Quiet pool l) : Emitted pool action logs
  /-- v2 logs the reserves after every change; a swap leaves both positive -/
  | sync {action : PoolAction} {before after : List RpcLog} {log : RpcLog} {reserve0 reserve1 : Nat}
      (kind : pool.poolKind = .v2) (logged : SyncLog log reserve0 reserve1)
      (swap : action = .swap → 0 < reserve0 ∧ 0 < reserve1) (quiet : ∀ l ∈ before ++ after, Quiet pool l) :
      Emitted pool action (before ++ log :: after)
  | other {logs : List RpcLog} (quiet : ∀ l ∈ logs, Quiet pool l) : Emitted pool .other logs

/-- The events of a pool in the logs of a chain, each with what its action logs. -/
structure History (pool : PoolRef) (node : LogNode) (events : List (PoolEvent PoolAction)) : Prop extends
    Logged pool node events where
  emitted : ∀ e ∈ events, Emitted pool e.action e.logs

/-- A swap lies in the window. -/
def Traded (ctx : ResolverContext) (events : List (PoolEvent PoolAction)) : Prop :=
  ∃ e ∈ events, e.action = .swap ∧ e.within (aliveFrom ctx) ctx.horizonBlock

/-- In the window of a v2 pair something other than a swap left both reserves positive. -/
def Synced (ctx : ResolverContext) (events : List (PoolEvent PoolAction)) : Prop :=
  ctx.pool.poolKind = .v2 ∧ ∃ e ∈ events, e.action ≠ .swap ∧ e.within (aliveFrom ctx) ctx.horizonBlock ∧
    ∃ l ∈ e.logs, ∃ reserve0 reserve1, SyncLog l reserve0 reserve1 ∧ 0 < reserve0 ∧ 0 < reserve1

variable {ctx : ResolverContext} {node : LogNode} {events : List (PoolEvent PoolAction)} {l : RpcLog}

theorem decodeV2Sync_ok {reserve0 reserve1 : Nat} (h : SyncLog l reserve0 reserve1) :
    decodeV2Sync l = .ok (some ⟨l.blockNumber, l.transactionHash, reserve0, reserve1⟩) := by
  have htopics : ¬ l.topics.length < 1 := by
    intro hlt
    have hnil : l.topics = [] := List.length_eq_zero_iff.mp (by omega)
    have htopic := h.topic
    simp [hnil] at htopic
  rw [decodeV2Sync, if_pos h.topic, decodeEventLog, if_neg htopics, if_neg (Nat.not_lt.mpr h.data), ← h.reserve0,
    ← h.reserve1]
  rfl

def pointOf (pool : PoolRef) (l : RpcLog) : PricePoint :=
  ⟨l.blockNumber, tokenPriceInQuote (l.word 2).toNat pool.tokenIsCurrency0, l.transactionHash⟩

theorem pricePoint_swap {pool : PoolRef} (hkind : pool.poolKind ≠ .v2) (h : SwapLog pool l) :
    pricePoint pool l = .ok (some (pointOf pool l)) := by
  have htopic := h.topic
  have hdata := h.data
  unfold pricePoint
  cases hk : pool.poolKind with
  | v2 => exact absurd hk hkind
  | v3 =>
    rw [hk] at htopic hdata
    have hdecode := @decodeSwap_eq TRADE_EVENT_TOPIC0.v3Swap 5 l htopic h.topics (by omega)
    simp [decodeV3Swap, hdecode, Except.map, h.priced, pointOf]
  | v4 =>
    rw [hk] at htopic hdata
    have hsix : 6 ≤ l.data.length := hdata.resolve_right fun h3 => nomatch h3.1
    have hdecode := @decodeSwap_eq TRADE_EVENT_TOPIC0.v4Swap 6 l htopic h.topics hsix
    simp [decodeV4Swap, hdecode, Except.map, h.priced, pointOf]

theorem pricePoint_sync {pool : PoolRef} (hk : pool.poolKind = .v2) {reserve0 reserve1 : Nat}
    (h : SyncLog l reserve0 reserve1) :
    ∃ point, pricePoint pool l = .ok point ∧ (point.isSome = true ↔ 0 < reserve0 ∧ 0 < reserve1) := by
  unfold pricePoint
  rw [hk, decodeV2Sync_ok h]
  by_cases hpos : reserve0 = 0 ∨ reserve1 = 0
  · refine ⟨none, by simp [Except.map, hpos], ?_⟩
    simp only [Option.isSome_none, Bool.false_eq_true, false_iff]
    omega
  · refine ⟨some _, by simp [Except.map, hpos]; rfl, ?_⟩
    simp only [Option.isSome_some, true_iff]
    omega

/-- A log of a trade event comes from a swap or leaves the reserves of a pair. -/
theorem Emitted.trade {pool : PoolRef} {action : PoolAction} {logs : List RpcLog} (h : Emitted pool action logs)
    (hl : l ∈ logs) (ht : ¬ Quiet pool l) :
    (pool.poolKind ≠ .v2 ∧ action = .swap ∧ SwapLog pool l) ∨
      pool.poolKind = .v2 ∧ ∃ reserve0 reserve1, SyncLog l reserve0 reserve1 ∧
        (action = .swap → 0 < reserve0 ∧ 0 < reserve1) := by
  have hmid : ∀ {before after : List RpcLog} {log : RpcLog}, l ∈ before ++ log :: after →
      (∀ x ∈ before ++ after, Quiet pool x) → l = log := by
    intro before after log hl hquiet
    rcases List.mem_append.mp hl with hb | hb
    · exact absurd (hquiet l (List.mem_append_left _ hb)) ht
    · rcases List.mem_cons.mp hb with he | ha
      · exact he
      · exact absurd (hquiet l (List.mem_append_right _ ha)) ht
  cases h with
  | swap hk hlog hquiet => exact .inl ⟨hk, rfl, hmid hl hquiet ▸ hlog⟩
  | unpriced _ _ hquiet => exact absurd (hquiet l hl) ht
  | sync hk hlog hswap hquiet => exact .inr ⟨hk, _, _, hmid hl hquiet ▸ hlog, hswap⟩
  | other hquiet => exact absurd (hquiet l hl) ht

/-- A swap has a log that makes a point. -/
theorem Emitted.point {pool : PoolRef} {logs : List RpcLog} (h : Emitted pool .swap logs) :
    ∃ l ∈ logs, ¬ Quiet pool l ∧ ∃ point, pricePoint pool l = .ok (some point) := by
  cases h with
  | swap hk hlog _ =>
    exact ⟨_, List.mem_append_right _ List.mem_cons_self, fun hq => hq hlog.topic, _, pricePoint_swap hk hlog⟩
  | unpriced _ hne _ => exact absurd rfl hne
  | sync hk hlog hswap _ =>
    refine ⟨_, List.mem_append_right _ List.mem_cons_self, fun hq => hq (by rw [hk]; exact hlog.topic), ?_⟩
    obtain ⟨point, hpoint, hsome⟩ := pricePoint_sync hk hlog
    obtain ⟨p, rfl⟩ := Option.isSome_iff_exists.mp (hsome.mpr (hswap rfl))
    exact ⟨p, hpoint⟩

/-- A log of the window that the series is built from. -/
def Scanned (ctx : ResolverContext) (node : LogNode) (l : RpcLog) : Prop :=
  l ∈ node.logs ∧ owns ctx.pool l = true ∧ ¬ Quiet ctx.pool l ∧
    aliveFrom ctx ≤ l.blockNumber ∧ l.blockNumber ≤ ctx.horizonBlock

theorem scanned_iff (h : History ctx.pool node events) :
    Scanned ctx node l ↔ ¬ Quiet ctx.pool l ∧ ∃ e ∈ events, l ∈ e.logs ∧ e.within (aliveFrom ctx) ctx.horizonBlock := by
  rw [← h.mem_iff, Scanned]
  tauto

/-- Every log scanned can be decoded. -/
theorem pricePoint_scanned (h : History ctx.pool node events) (hl : Scanned ctx node l) :
    ∃ point, pricePoint ctx.pool l = .ok point := by
  obtain ⟨hq, e, he, hle, -⟩ := (scanned_iff h).mp hl
  rcases (h.emitted e he).trade hle hq with ⟨hk, -, hlog⟩ | ⟨hk, r0, r1, hlog, -⟩
  · exact ⟨_, pricePoint_swap hk hlog⟩
  · obtain ⟨point, hp, -⟩ := pricePoint_sync hk hlog
    exact ⟨point, hp⟩

theorem points_iff (h : History ctx.pool node events) :
    (∃ l, Scanned ctx node l ∧ ∃ point, pricePoint ctx.pool l = .ok (some point)) ↔
      Traded ctx events ∨ Synced ctx events := by
  constructor
  · rintro ⟨l, hl, point, hp⟩
    obtain ⟨hq, e, he, hle, hw⟩ := (scanned_iff h).mp hl
    rcases (h.emitted e he).trade hle hq with ⟨-, ha, -⟩ | ⟨hk, r0, r1, hlog, hswap⟩
    · exact .inl ⟨e, he, ha, hw⟩
    · by_cases ha : e.action = .swap
      · exact .inl ⟨e, he, ha, hw⟩
      · obtain ⟨point', hp', hsome⟩ := pricePoint_sync hk hlog
        obtain rfl := Except.ok.inj (hp.symm.trans hp')
        exact .inr ⟨hk, e, he, ha, hw, l, hle, r0, r1, hlog, hsome.mp rfl⟩
  · rintro (⟨e, he, ha, hw⟩ | ⟨hk, e, he, -, hw, l, hle, r0, r1, hlog, hpos⟩)
    · obtain ⟨l, hle, hq, hp⟩ := (ha ▸ h.emitted e he : Emitted ctx.pool .swap e.logs).point
      exact ⟨l, (scanned_iff h).mpr ⟨hq, e, he, hle, hw⟩, hp⟩
    · obtain ⟨point, hp, hsome⟩ := pricePoint_sync hk hlog
      obtain ⟨p, rfl⟩ := Option.isSome_iff_exists.mp (hsome.mpr hpos)
      have hq : ¬ Quiet ctx.pool l := fun hq => hq (by rw [hk]; exact hlog.topic)
      exact ⟨l, (scanned_iff h).mpr ⟨hq, e, he, hle, hw⟩, p, hp⟩

/-- A pool with a contract of its own has its logs there. -/
theorem owns_address {pool : PoolRef} (hk : pool.poolKind ≠ .v4) (l : RpcLog) :
    owns pool l = pool.poolAddress.any fun a => l.address == a := by
  unfold owns
  cases hkind : pool.poolKind with
  | v4 => exact absurd hkind hk
  | v3 => rfl
  | v2 => rfl

theorem tradeFilter_address {pool : PoolRef} (hk : pool.poolKind ≠ .v4) (fromBlock toBlock : Nat) :
    tradeFilter pool fromBlock toBlock = match pool.poolAddress with
      | none => .error (pool.poolKind.text ++ " pool has no poolAddress")
      | some a => .ok ⟨[a], [some [tradeTopic pool.poolKind]], fromBlock, toBlock⟩ := by
  unfold tradeFilter PoolRef.eventFilter
  cases hkind : pool.poolKind with
  | v4 => exact absurd hkind hk
  | v3 => rfl
  | v2 => rfl

/-- A pool without a place to ask has no logs of its own. -/
theorem owns_of_tradeFilter_error {pool : PoolRef} {fromBlock toBlock : Nat} {gap : String}
    (h : tradeFilter pool fromBlock toBlock = .error gap) (l : RpcLog) : owns pool l = false := by
  by_cases hk : pool.poolKind = .v4
  · unfold tradeFilter PoolRef.eventFilter at h
    unfold owns
    rw [hk] at h ⊢
    cases hid : pool.poolId with
    | none => simp
    | some id =>
      rw [hid] at h
      cases h
  · rw [tradeFilter_address hk] at h
    rw [owns_address hk]
    cases ha : pool.poolAddress with
    | none => rfl
    | some a =>
      rw [ha] at h
      cases h

/-- The filter selects the trade events of the pool. -/
theorem selects_tradeFilter {pool : PoolRef} {fromBlock toBlock : Nat} {f : LogFilter}
    (h : tradeFilter pool fromBlock toBlock = .ok f) (l : RpcLog) :
    (f.selects l = true ↔ owns pool l = true ∧ ¬ Quiet pool l) ∧ f.fromBlock = fromBlock ∧ f.toBlock = toBlock := by
  by_cases hk : pool.poolKind = .v4
  · unfold tradeFilter PoolRef.eventFilter at h
    unfold owns Quiet tradeTopic LogFilter.selects
    rw [hk] at h ⊢
    cases hid : pool.poolId with
    | none =>
      rw [hid] at h
      cases h
    | some id =>
      rw [hid] at h
      obtain rfl := Except.ok.inj h
      refine ⟨?_, rfl, rfl⟩
      rcases l.topics with _ | ⟨t0, _ | ⟨t1, topics⟩⟩
      · simp [topicsMatch]
      · simp [topicsMatch]
      · simp [topicsMatch]
        tauto
  · rw [tradeFilter_address hk] at h
    rw [owns_address hk]
    cases ha : pool.poolAddress with
    | none =>
      rw [ha] at h
      cases h
    | some a =>
      rw [ha] at h
      obtain rfl := Except.ok.inj h
      refine ⟨?_, rfl, rfl⟩
      unfold Quiet LogFilter.selects
      rcases l.topics with _ | ⟨t0, topics⟩
      · simp [topicsMatch]
      · simp [topicsMatch]

/-- The points of the window, when every call is answered from the chain. -/
theorem series_points (h : History ctx.pool node events) (hclient : ∀ scan attempt, ctx.client.getLogs scan attempt = node.request)
    (hrange : 0 < ctx.maxRange) :
    ∃ series, buildPriceSeries ctx.client 0 ctx.pool (aliveFrom ctx) ctx.horizonBlock ctx.maxRange = .ok series ∧
      (series.points ≠ [] ↔ ∃ l, Scanned ctx node l ∧ ∃ point, pricePoint ctx.pool l = .ok (some point)) := by
  unfold buildPriceSeries
  dsimp only
  rw [if_neg (Nat.not_lt.mpr (aliveFrom_le ctx))]
  cases hf : tradeFilter ctx.pool (aliveFrom ctx) ctx.horizonBlock with
  | error gap =>
    refine ⟨_, rfl, ?_⟩
    simp only [ne_eq, not_true_eq_false, false_iff]
    rintro ⟨l, ⟨-, ho, -⟩, -⟩
    rw [owns_of_tradeFilter_error hf l] at ho
    cases ho
  | ok f =>
    have hlogs : chunkedLogs ctx.client 0 f ctx.maxRange = .ok (node.answer f) := by
      refine withRetry_of_ok (by omega) ?_
      rw [hclient]
      exact getLogsChunked_request node f hrange
    have hanswer : ∀ l, l ∈ node.answer f ↔ Scanned ctx node l := by
      intro l
      obtain ⟨hsel, hfrom, hto⟩ := selects_tradeFilter hf l
      rw [node.mem_answer, hsel, hfrom, hto, Scanned, and_assoc]
    have hdecoded : ∀ l ∈ node.answer f, ∃ point, pricePoint ctx.pool l = .ok point :=
      fun l hl => pricePoint_scanned h ((hanswer l).mp hl)
    obtain ⟨points, hpoints, hmem⟩ := decodeAll_ok hdecoded
    dsimp only
    rw [hlogs]
    simp only [bind, Except.bind, hpoints]
    refine ⟨_, rfl, ?_⟩
    dsimp only
    constructor
    · intro hne
      obtain ⟨point, hp⟩ := List.exists_mem_of_ne_nil _ hne
      rw [Keyed.mem_inOrder, hmem] at hp
      obtain ⟨l, hl, hp⟩ := hp
      exact ⟨l, (hanswer l).mp hl, point, hp⟩
    · rintro ⟨l, hl, point, hp⟩
      exact List.ne_nil_of_mem ((Keyed.mem_inOrder _).mpr ((hmem point).mpr ⟨l, (hanswer l).mpr hl, hp⟩))

theorem survival_true_iff (h : History ctx.pool node events)
    (hclient : ∀ scan attempt, ctx.client.getLogs scan attempt = node.request) (hrange : 0 < ctx.maxRange) :
    (resolveSurvival ctx).resolution.value = some true ↔ Traded ctx events ∨ Synced ctx events := by
  obtain ⟨series, hseries, hpoints⟩ := series_points h hclient hrange
  rw [← points_iff h, ← hpoints]
  unfold resolveSurvival
  rw [hseries]
  dsimp only
  split
  · rename_i hgap
    simp [unresolvable, hgap.1]
  · simp [resolved]

/-- Trades and nothing else make a token alive, but for a v2 pair whose reserves were moved otherwise. -/
theorem survival_means_traded_iff (ctx : ResolverContext) (node : LogNode) (events : List (PoolEvent PoolAction))
    (h : History ctx.pool node events) (hclient : ∀ scan attempt, ctx.client.getLogs scan attempt = node.request)
    (hrange : 0 < ctx.maxRange) :
    ((resolveSurvival ctx).resolution.value = some true ↔ Traded ctx events) ↔
      ¬ (Synced ctx events ∧ ¬ Traded ctx events) := by
  rw [survival_true_iff h hclient hrange]
  tauto

section Sample

/-- The first liquidity of a v2 pair and nothing after it. -/
def pairEvents : List (PoolEvent PoolAction) :=
  [⟨.liquidity, 20,
    [⟨3#160, [TRADE_EVENT_TOPIC0.v2Sync], [5000#256, 7000#256], 20, 71#256, 0⟩,
     -- `Mint`
     ⟨3#160, [0x4c209b5fc8ad50758f13e2e1088ba56a560dff690a1c6fef26394f4c03821c4f#256, 8#256], [5000#256, 7000#256],
       20, 71#256, 1⟩]⟩]

def pairNode : LogNode := eventNode pairEvents (by decide +kernel)

def pairSetting : Measurement.Setting :=
  let s := Measurement.sampleSetting .TRADING_ALIVE (.ok 1)
  { s with
    launch := { s.launch with poolKind := some .v2, poolAddress := some 3#160 }
    client := { s.client with getLogs := fun _ _ => pairNode.request } }

theorem pair_history : History pairSetting.ctx.pool pairNode pairEvents := by
  refine ⟨⟨?_, by decide +kernel⟩, ?_⟩
  · intro e he
    obtain rfl := List.mem_singleton.mp he
    intro l hl
    rcases List.mem_cons.mp hl with rfl | hl
    · rfl
    · obtain rfl := List.mem_singleton.mp hl
      rfl
  · intro e he
    obtain rfl := List.mem_singleton.mp he
    change Emitted pairSetting.ctx.pool .liquidity ([] ++ _ :: [_])
    refine .sync rfl ⟨rfl, by decide, rfl, rfl⟩ (fun h => nomatch h) ?_
    intro l hl
    obtain rfl := List.mem_singleton.mp hl
    intro h
    exact absurd (Option.some.inj h) (by decide +kernel)

theorem not_traded_pair : ¬ Traded pairSetting.ctx pairEvents := by
  rintro ⟨e, he, ha, -⟩
  obtain rfl := List.mem_singleton.mp he
  cases ha

/-- Liquidity is added once, and the token is alive. -/
theorem liquidity_is_alive :
    ¬ ∀ (ctx : ResolverContext) (node : LogNode) (events : List (PoolEvent PoolAction)), History ctx.pool node events →
      (∀ scan attempt, ctx.client.getLogs scan attempt = node.request) → 0 < ctx.maxRange →
      ((resolveSurvival ctx).resolution.value = some true ↔ Traded ctx events) := by
  intro h
  have hiff := h pairSetting.ctx pairNode pairEvents pair_history (fun _ _ => rfl) (by decide)
  exact not_traded_pair (hiff.mp (by decide +kernel))

theorem survival_means_traded_pair :
    ((resolveSurvival pairSetting.ctx).resolution.value = some true ↔ Traded pairSetting.ctx pairEvents) ↔
      ¬ (Synced pairSetting.ctx pairEvents ∧ ¬ Traded pairSetting.ctx pairEvents) :=
  survival_means_traded_iff pairSetting.ctx pairNode pairEvents pair_history (fun _ _ => rfl) (by decide)

end Sample

end LaunchAuditor.Proofs.Trades
