import LaunchAuditor.Outcomes.Resolvers
import LaunchAuditor.Proofs.InsiderOrder
import LaunchAuditor.Proofs.Trades

namespace LaunchAuditor.Proofs.Impairment
open Chain Watcher Outcomes LogRetrieval
open Trades (PoolEvent eventNode)

inductive PoolAction
  | swap
  | addition
  | removal
  /-- donations, collected fees, approvals, transfers of shares -/
  | other
  deriving DecidableEq

/-- A `ModifyLiquidity` with a negative change. -/
def Removes (l : RpcLog) : Prop :=
  l.topics[0]? = some TRADE_EVENT_TOPIC0.v4ModifyLiquidity ∧ (l.word 2).toInt < 0

instance (l : RpcLog) : Decidable (Removes l) := instDecidableAnd

/-- A v4 pool logs a negative change of liquidity for a removal and for nothing else. -/
structure History (pool : PoolRef) (node : LogNode) (events : List (PoolEvent PoolAction)) : Prop extends
    Trades.Logged pool node events where
  removals : pool.poolKind = .v4 → ∀ e ∈ events, (e.action = .removal ↔ ∃ l ∈ e.logs, Removes l)

def InWindow (ctx : ResolverContext) (e : PoolEvent PoolAction) : Prop := e.within ctx.launchBlock ctx.horizonBlock

/-- The window has a removal. -/
def Removed (ctx : ResolverContext) (events : List (PoolEvent PoolAction)) : Prop :=
  ∃ e ∈ events, e.action = .removal ∧ InWindow ctx e

/-- The quote side of a `Sync`, as a double. -/
def quoteReserve (pool : PoolRef) (l : RpcLog) : ℚ := Js.double (l.word (if pool.tokenIsCurrency0 then 1 else 0)).toNat

def IsSync (l : RpcLog) : Prop := l.topics[0]? = some TRADE_EVENT_TOPIC0.v2Sync

/-- The window has a `Sync` with a fifth, or less, of the quote asset that one before it has, as doubles divide. -/
def Dropped (ctx : ResolverContext) (events : List (PoolEvent PoolAction)) : Prop :=
  ∃ e ∈ events, ∃ e' ∈ events, InWindow ctx e ∧ InWindow ctx e' ∧ e.block ≤ e'.block ∧
    ∃ l ∈ e.logs, ∃ l' ∈ e'.logs, IsSync l ∧ IsSync l' ∧ 0 < quoteReserve ctx.pool l ∧
      Js.double (quoteReserve ctx.pool l' / quoteReserve ctx.pool l) ≤ LIQ_FLOOR

section Decoding
variable {α : Type} {decode : RpcLog → Except RpcError (Option α)}

theorem mem_of_decodeAll {logs : List RpcLog} {points : List α} (h : decodeAll decode logs = .ok points) {p : α}
    (hp : p ∈ points) : ∃ l ∈ logs, decode l = .ok (some p) := by
  induction logs generalizing points with
  | nil =>
    obtain rfl := Except.ok.inj h
    cases hp
  | cons l logs ih =>
    rw [decodeAll] at h
    obtain ⟨point, hpoint, h⟩ := bind_ok h
    obtain ⟨rest, hrest, h⟩ := bind_ok h
    obtain rfl := Except.ok.inj h
    rcases List.mem_append.mp hp with hp | hp
    · rw [Option.mem_toList] at hp
      exact ⟨l, List.mem_cons_self, hp ▸ hpoint⟩
    · obtain ⟨l', hl', hd⟩ := ih hrest hp
      exact ⟨l', List.mem_cons_of_mem _ hl', hd⟩

theorem decodeV4ModifyLiquidity_some {l : RpcLog} {d : LiquidityDelta} (h : decodeV4ModifyLiquidity l = .ok (some d)) :
    l.topics[0]? = some TRADE_EVENT_TOPIC0.v4ModifyLiquidity ∧ d.delta = (l.word 2).toInt := by
  unfold decodeV4ModifyLiquidity at h
  split at h
  · rename_i htopic
    obtain ⟨_, _, h⟩ := bind_ok h
    obtain rfl := Option.some.inj (Except.ok.inj h)
    exact ⟨htopic, rfl⟩
  · cases h

theorem decodeV2Sync_some {l : RpcLog} {s : SyncObservation} (h : decodeV2Sync l = .ok (some s)) :
    IsSync l ∧ s.block = l.blockNumber ∧ s.reserve0 = (l.word 0).toNat ∧ s.reserve1 = (l.word 1).toNat := by
  unfold decodeV2Sync at h
  split at h
  · rename_i htopic
    obtain ⟨_, _, h⟩ := bind_ok h
    obtain rfl := Option.some.inj (Except.ok.inj h)
    exact ⟨htopic, rfl, rfl, rfl⟩
  · cases h

end Decoding

theorem mem_cumulate {cum : Int} {ds : List LiquidityDelta} {p : LiquidityPoint} (h : p ∈ cumulate cum ds) :
    ∃ d ∈ ds, p.delta = Js.double d.delta := by
  induction ds generalizing cum with
  | nil => cases h
  | cons d ds ih =>
    rcases List.mem_cons.mp h with rfl | h
    · exact ⟨d, List.mem_cons_self, rfl⟩
    · obtain ⟨d', hd', he⟩ := ih h
      exact ⟨d', List.mem_cons_of_mem _ hd', he⟩

def syncQuote (tokenIsCurrency0 : Bool) (s : SyncObservation) : Nat := if tokenIsCurrency0 then s.reserve1 else s.reserve0

/-- A point for each `Sync`, in the same order. -/
theorem reserves_map (tokenIsCurrency0 : Bool) (prevQuote : ℚ) (ss : List SyncObservation) :
    (reserves tokenIsCurrency0 prevQuote ss).map (fun p => (p.block, p.liquidity)) =
      ss.map fun s => (s.block, Js.double (syncQuote tokenIsCurrency0 s)) := by
  induction ss generalizing prevQuote with
  | nil => rfl
  | cons s ss ih =>
    rw [reserves, List.map_cons, List.map_cons, ih]
    cases tokenIsCurrency0 with
    | true => rfl
    | false => rfl

theorem mem_reserves {tokenIsCurrency0 : Bool} {prevQuote : ℚ} {ss : List SyncObservation} {p : LiquidityPoint}
    (h : p ∈ reserves tokenIsCurrency0 prevQuote ss) :
    ∃ s ∈ ss, p.block = s.block ∧ p.liquidity = Js.double (syncQuote tokenIsCurrency0 s) := by
  have hmem : (p.block, p.liquidity) ∈ (reserves tokenIsCurrency0 prevQuote ss).map fun p => (p.block, p.liquidity) :=
    List.mem_map_of_mem h
  rw [reserves_map] at hmem
  obtain ⟨s, hs, he⟩ := List.mem_map.mp hmem
  exact ⟨s, hs, (Prod.mk.inj he).1.symm, (Prod.mk.inj he).2.symm⟩

theorem reserves_ordered {tokenIsCurrency0 : Bool} {prevQuote : ℚ} {ss : List SyncObservation}
    (h : ss.Pairwise fun a b => a.block ≤ b.block) :
    (reserves tokenIsCurrency0 prevQuote ss).Pairwise fun a b => a.block ≤ b.block := by
  have hmap : ((reserves tokenIsCurrency0 prevQuote ss).map fun p => (p.block, p.liquidity)).Pairwise
      fun a b => a.1 ≤ b.1 := by
    rw [reserves_map, List.pairwise_map]
    exact h
  rw [List.pairwise_map] at hmap
  exact hmap

theorem peakLiquidity_cases (points : List LiquidityPoint) :
    peakLiquidity points = 0 ∨ ∃ p ∈ points, p.liquidity = peakLiquidity points := by
  induction points using List.reverseRecOn with
  | nil => exact Or.inl rfl
  | append_singleton points p ih =>
    have hstep : peakLiquidity (points ++ [p]) =
        if p.liquidity > peakLiquidity points then p.liquidity else peakLiquidity points := by
      simp [peakLiquidity]
    rw [hstep]
    split
    · exact Or.inr ⟨p, by simp, rfl⟩
    · rcases ih with h | ⟨q, hq, he⟩
      · exact Or.inl h
      · exact Or.inr ⟨q, List.mem_append_left _ hq, he⟩

section Series
variable {client : ResolveClient} {scan fromBlock toBlock maxRange : Nat} {pool : PoolRef}

/-- Points come from the changes of a v4 pool or the reserves of a v2 pair. -/
theorem buildLiquiditySeries_cases {s : Series LiquidityPoint}
    (h : buildLiquiditySeries client scan pool fromBlock toBlock maxRange = .ok s) (hne : s.points ≠ []) :
    (pool.poolKind = .v4 ∧ ∃ poolId, pool.poolId = some poolId ∧ ∃ logs deltas,
        chunkedLogs client scan
          ⟨[pool.poolManager], [some [TRADE_EVENT_TOPIC0.v4ModifyLiquidity], some [poolId]], fromBlock, toBlock⟩
          maxRange = .ok logs ∧
        decodeAll decodeV4ModifyLiquidity logs = .ok deltas ∧
        s.points = cumulate 0 (Keyed.inOrder LiquidityDelta.block deltas)) ∨
      (pool.poolKind = .v2 ∧ ∃ poolAddress, pool.poolAddress = some poolAddress ∧ ∃ logs syncs,
        chunkedLogs client scan ⟨[poolAddress], [some [TRADE_EVENT_TOPIC0.v2Sync]], fromBlock, toBlock⟩ maxRange = .ok logs ∧
        decodeAll decodeV2Sync logs = .ok syncs ∧
        s.points = reserves pool.tokenIsCurrency0 0 (Keyed.inOrder SyncObservation.block syncs)) := by
  unfold buildLiquiditySeries at h
  dsimp only at h
  split at h
  · obtain rfl := Except.ok.inj h
    exact absurd rfl hne
  · cases hk : pool.poolKind with
    | v4 =>
      rw [hk] at h
      cases hid : pool.poolId with
      | none =>
        rw [hid] at h
        obtain rfl := Except.ok.inj h
        exact absurd rfl hne
      | some poolId =>
        rw [hid] at h
        obtain ⟨logs, hlogs, h⟩ := bind_ok h
        obtain ⟨deltas, hdeltas, h⟩ := bind_ok h
        obtain rfl := Except.ok.inj h
        exact Or.inl ⟨rfl, poolId, rfl, logs, deltas, hlogs, hdeltas, rfl⟩
    | v2 =>
      rw [hk] at h
      cases ha : pool.poolAddress with
      | none =>
        rw [ha] at h
        obtain rfl := Except.ok.inj h
        exact absurd rfl hne
      | some poolAddress =>
        rw [ha] at h
        obtain ⟨logs, hlogs, h⟩ := bind_ok h
        obtain ⟨syncs, hsyncs, h⟩ := bind_ok h
        obtain rfl := Except.ok.inj h
        exact Or.inr ⟨rfl, poolAddress, rfl, logs, syncs, hlogs, hsyncs, rfl⟩
    | v3 =>
      rw [hk] at h
      obtain rfl := Except.ok.inj h
      exact absurd rfl hne

theorem chunkedLogs_answers {node : LogNode} (hclient : ∀ attempt, Answers node (client.getLogs scan attempt))
    {f : LogFilter} {logs : List RpcLog} (h : chunkedLogs client scan f maxRange = .ok logs) (l : RpcLog) :
    l ∈ logs ↔ l ∈ node.answer f := by
  obtain ⟨attempt, hattempt⟩ := withRetry_ok h
  exact getLogsChunked_answers (hclient attempt) hattempt l

end Series

/-- What the resolver has found when it says true. -/
theorem resolveLiqImpaired_true {ctx : ResolverContext} {m : Measured} (hok : resolveLiqImpaired ctx = .ok m)
    (htrue : m.resolution.value = some true) : ∃ series current,
    buildLiquiditySeries ctx.client 0 ctx.pool ctx.launchBlock ctx.horizonBlock ctx.maxRange = .ok series ∧
      (series.points.filter fun p => decide (p.block ≤ ctx.horizonBlock)).getLast? = some current ∧
      0 < peakLiquidity series.points ∧ Js.double (current.liquidity / peakLiquidity series.points) ≤ LIQ_FLOOR ∧
      (ctx.pool.poolKind = .v2 ∨ ∃ p ∈ series.points, p.delta < 0) := by
  unfold resolveLiqImpaired at hok
  split at hok
  · obtain rfl := Except.ok.inj hok
    cases htrue
  · obtain ⟨series, hseries, hok⟩ := bind_ok hok
    dsimp only at hok
    split at hok
    · obtain rfl := Except.ok.inj hok
      cases htrue
    · split at hok
      · obtain rfl := Except.ok.inj hok
        cases htrue
      · rename_i current hcurrent
        split at hok
        · obtain rfl := Except.ok.inj hok
          cases htrue
        · rename_i hpeak
          obtain rfl := Except.ok.inj hok
          have himpaired := Option.some.inj htrue
          rw [Bool.and_eq_true, Bool.or_eq_true, decide_eq_true_iff, decide_eq_true_iff, decide_eq_true_iff] at himpaired
          obtain ⟨hratio, hcause⟩ := himpaired
          refine ⟨series, current, hseries, hcurrent, not_le.mp hpeak, hratio, ?_⟩
          refine hcause.imp id ?_
          intro hne
          obtain ⟨p, hp⟩ := List.exists_mem_of_ne_nil _ hne
          obtain ⟨hp, hdelta⟩ := List.mem_filter.mp hp
          exact ⟨p, hp, of_decide_eq_true hdelta⟩

section Causes
variable {ctx : ResolverContext} {node : LogNode} {events : List (PoolEvent PoolAction)}

/-- A log of the pool in the window is of an event in the window. -/
theorem History.event (h : History ctx.pool node events) {l : RpcLog} (hl : l ∈ node.logs)
    (howns : Trades.owns ctx.pool l = true) (hfrom : ctx.launchBlock ≤ l.blockNumber)
    (hto : l.blockNumber ≤ ctx.horizonBlock) :
    ∃ e ∈ events, l ∈ e.logs ∧ e.block = l.blockNumber ∧ InWindow ctx e := by
  obtain ⟨e, he, hle, hw⟩ := h.mem_iff.mp ⟨hl, howns, hfrom, hto⟩
  exact ⟨e, he, hle, (h.blocks e he l hle).symm, hw⟩

/-- The `Sync` behind a point of a v2 pair. -/
theorem sync_event (h : History ctx.pool node events) (hkind : ctx.pool.poolKind = .v2) {poolAddress : Address}
    (haddress : ctx.pool.poolAddress = some poolAddress) {logs : List RpcLog} {syncs : List SyncObservation}
    (hlogs : ∀ l, l ∈ logs ↔ l ∈ node.answer
      ⟨[poolAddress], [some [TRADE_EVENT_TOPIC0.v2Sync]], ctx.launchBlock, ctx.horizonBlock⟩)
    (hsyncs : decodeAll decodeV2Sync logs = .ok syncs) {p : LiquidityPoint}
    (hp : p ∈ reserves ctx.pool.tokenIsCurrency0 0 (Keyed.inOrder SyncObservation.block syncs)) :
    ∃ e ∈ events, InWindow ctx e ∧ e.block = p.block ∧
      ∃ l ∈ e.logs, IsSync l ∧ p.liquidity = quoteReserve ctx.pool l := by
  obtain ⟨s, hs, hblock, hquote⟩ := mem_reserves hp
  obtain ⟨l, hl, hdecode⟩ := mem_of_decodeAll hsyncs ((Keyed.mem_inOrder _).mp hs)
  obtain ⟨hsync, hsblock, hr0, hr1⟩ := decodeV2Sync_some hdecode
  obtain ⟨hnode, hsel, hfrom, hto⟩ := node.mem_answer.mp ((hlogs l).mp hl)
  have howns : Trades.owns ctx.pool l = true := by
    simp only [LogFilter.selects, Bool.and_eq_true] at hsel
    have hlog : l.address = poolAddress := by simpa using hsel.1
    simp [Trades.owns, hkind, haddress, hlog]
  obtain ⟨e, he, hle, heblock, hw⟩ := h.event hnode howns hfrom hto
  refine ⟨e, he, hw, by omega, l, hle, hsync, ?_⟩
  rw [hquote, syncQuote, quoteReserve, hr0, hr1]
  split
  · rfl
  · rfl

theorem removed_of_v4 (h : History ctx.pool node events) (hkind : ctx.pool.poolKind = .v4) {poolId : Word}
    (hid : ctx.pool.poolId = some poolId) {logs : List RpcLog} {deltas : List LiquidityDelta}
    (hlogs : ∀ l, l ∈ logs ↔ l ∈ node.answer ⟨[ctx.pool.poolManager],
      [some [TRADE_EVENT_TOPIC0.v4ModifyLiquidity], some [poolId]], ctx.launchBlock, ctx.horizonBlock⟩)
    (hdeltas : decodeAll decodeV4ModifyLiquidity logs = .ok deltas) {p : LiquidityPoint}
    (hp : p ∈ cumulate 0 (Keyed.inOrder LiquidityDelta.block deltas)) (hneg : p.delta < 0) : Removed ctx events := by
  obtain ⟨d, hd, hdelta⟩ := mem_cumulate hp
  obtain ⟨l, hl, hdecode⟩ := mem_of_decodeAll hdeltas ((Keyed.mem_inOrder _).mp hd)
  obtain ⟨htopic, hword⟩ := decodeV4ModifyLiquidity_some hdecode
  obtain ⟨hnode, hsel, hfrom, hto⟩ := node.mem_answer.mp ((hlogs l).mp hl)
  have howns : Trades.owns ctx.pool l = true := by
    simp only [LogFilter.selects, Bool.and_eq_true] at hsel
    obtain ⟨t, ht, htopic1⟩ := topicsMatch_slot hsel.2 (show _ = some (some [poolId]) from rfl : _[1]? = _) (by simp)
    obtain rfl := List.mem_singleton.mp ht
    have haddress : l.address = ctx.pool.poolManager := by simpa using hsel.1
    simp [Trades.owns, hkind, hid, haddress, htopic1]
  obtain ⟨e, he, hle, _, hw⟩ := h.event hnode howns hfrom hto
  have hremoved : (l.word 2).toInt < 0 := by
    rw [hdelta, hword] at hneg
    by_contra hkept
    exact absurd (Js.double_nonneg (Int.cast_nonneg (not_lt.mp hkept))) hneg.not_ge
  exact ⟨e, he, (h.removals hkind e he).mpr ⟨l, hle, htopic, hremoved⟩, hw⟩

/-- The last point up to the horizon comes after the highest one. -/
theorem dropped_of_v2 (h : History ctx.pool node events) (hkind : ctx.pool.poolKind = .v2) {poolAddress : Address}
    (haddress : ctx.pool.poolAddress = some poolAddress) {logs : List RpcLog} {syncs : List SyncObservation}
    (hlogs : ∀ l, l ∈ logs ↔ l ∈ node.answer
      ⟨[poolAddress], [some [TRADE_EVENT_TOPIC0.v2Sync]], ctx.launchBlock, ctx.horizonBlock⟩)
    (hsyncs : decodeAll decodeV2Sync logs = .ok syncs) {points : List LiquidityPoint}
    (hpoints : points = reserves ctx.pool.tokenIsCurrency0 0 (Keyed.inOrder SyncObservation.block syncs))
    {current : LiquidityPoint}
    (hcurrent : (points.filter fun p => decide (p.block ≤ ctx.horizonBlock)).getLast? = some current)
    (hpeak : 0 < peakLiquidity points) (hfifth : Js.double (current.liquidity / peakLiquidity points) ≤ LIQ_FLOOR) :
    Dropped ctx events := by
  obtain ⟨top, htop, hhigh⟩ := (peakLiquidity_cases points).resolve_left hpeak.ne'
  have hordered : points.Pairwise fun a b => a.block ≤ b.block :=
    hpoints ▸ reserves_ordered (Keyed.inOrder_pairwise SyncObservation.block syncs)
  obtain ⟨before, hsplit⟩ := List.getLast?_eq_some_iff.mp hcurrent
  have hlast : current ∈ points := List.mem_of_mem_filter (hsplit ▸ List.mem_append_right _ List.mem_cons_self)
  obtain ⟨e, he, hw, hblock, l, hl, hsync, hquote⟩ := sync_event h hkind haddress hlogs hsyncs (hpoints ▸ htop)
  obtain ⟨e', he', hw', hblock', l', hl', hsync', hquote'⟩ := sync_event h hkind haddress hlogs hsyncs (hpoints ▸ hlast)
  have hle : top.block ≤ current.block := by
    have hkept : top ∈ points.filter fun p => decide (p.block ≤ ctx.horizonBlock) :=
      List.mem_filter.mpr ⟨htop, decide_eq_true (by rw [← hblock]; exact hw.2)⟩
    have hsorted := hordered.filter fun p => decide (p.block ≤ ctx.horizonBlock)
    rw [hsplit] at hkept hsorted
    rcases List.mem_append.mp hkept with hb | hb
    · exact (List.pairwise_append.mp hsorted).2.2 top hb current List.mem_cons_self
    · rw [List.mem_singleton.mp hb]
  rw [← hhigh] at hpeak hfifth
  rw [hquote] at hpeak hfifth
  rw [hquote'] at hfifth
  exact ⟨e, he, e', he', hw, hw', by omega, l, hl, l', hl', hsync, hsync', hpeak, hfifth⟩

theorem impaired_cases (h : History ctx.pool node events)
    (hclient : ∀ attempt, Answers node (ctx.client.getLogs 0 attempt)) {m : Measured}
    (hok : resolveLiqImpaired ctx = .ok m) (htrue : m.resolution.value = some true) :
    (ctx.pool.poolKind = .v4 ∧ Removed ctx events) ∨ (ctx.pool.poolKind = .v2 ∧ Dropped ctx events) := by
  obtain ⟨series, current, hseries, hcurrent, hpeak, hfifth, hcause⟩ := resolveLiqImpaired_true hok htrue
  have hne : series.points ≠ [] := by
    intro hnil
    rw [hnil] at hcurrent
    cases hcurrent
  rcases buildLiquiditySeries_cases hseries hne with
    ⟨hkind, poolId, hid, logs, deltas, hlogs, hdeltas, hpoints⟩ |
    ⟨hkind, poolAddress, haddress, logs, syncs, hlogs, hsyncs, hpoints⟩
  · rcases hcause with hv2 | ⟨p, hp, hneg⟩
    · rw [hkind] at hv2
      cases hv2
    · exact Or.inl ⟨hkind, removed_of_v4 h hkind hid (chunkedLogs_answers hclient hlogs) hdeltas (hpoints ▸ hp) hneg⟩
  · exact Or.inr ⟨hkind, dropped_of_v2 h hkind haddress (chunkedLogs_answers hclient hlogs) hsyncs hpoints hcurrent hpeak hfifth⟩

/-- An impaired v4 pool had a removal in its window, which swaps and additions are not; an impaired v2 pair
had its quote side drop to a fifth, whatever moved it. -/
theorem impaired_means (ctx : ResolverContext) (node : LogNode) (events : List (PoolEvent PoolAction))
    (h : History ctx.pool node events) (hclient : ∀ attempt, Answers node (ctx.client.getLogs 0 attempt)) (m : Measured)
    (hok : resolveLiqImpaired ctx = .ok m) :
    (m.resolution.value = some true →
      (ctx.pool.poolKind = .v4 ∧ Removed ctx events) ∨ (ctx.pool.poolKind = .v2 ∧ Dropped ctx events)) ∧
    ((∀ e ∈ events, e.action = .swap ∨ e.action = .addition) → ctx.pool.poolKind ≠ .v2 ∨ ¬ Dropped ctx events →
      m.resolution.value ≠ some true) := by
  refine ⟨impaired_cases h hclient hok, ?_⟩
  intro honly hnone htrue
  rcases impaired_cases h hclient hok htrue with ⟨_, e, he, ha, _⟩ | ⟨hkind, hdrop⟩
  · rcases honly e he with hs | hs
    · rw [hs] at ha
      cases ha
    · rw [hs] at ha
      cases ha
  · exact hnone.elim (fun hv => hv hkind) (fun hd => hd hdrop)

end Causes

section Sample

/-- Liquidity of 1500 is added in two parts, and most of it is removed. -/
def poolEvents : List (PoolEvent PoolAction) :=
  let modified (block index : Nat) (delta : Int) : RpcLog :=
    ⟨2, [TRADE_EVENT_TOPIC0.v4ModifyLiquidity, 77, 5], [0, 0, BitVec.ofInt 256 delta, 0], block, 0, index⟩
  [⟨.addition, 10, [modified 10 0 1000]⟩, ⟨.addition, 12, [modified 12 4 500]⟩, ⟨.swap, 13, []⟩,
    ⟨.removal, 15, [modified 15 1 (-1300)]⟩]

def poolNode : LogNode := eventNode poolEvents (by decide +kernel)

def poolContext : ResolverContext := InsiderOrder.contextOf poolNode.request 2000 []

theorem pool_history : History poolContext.pool poolNode poolEvents :=
  ⟨⟨by decide +kernel, by decide +kernel⟩, fun _ => by decide +kernel⟩

/-- The reserves of a v2 pair at its first liquidity and after a sale into it. -/
def pairEvents : List (PoolEvent PoolAction) :=
  [⟨.addition, 12, [⟨3, [TRADE_EVENT_TOPIC0.v2Sync], [5000, 7000], 12, 0, 0⟩]⟩,
    ⟨.swap, 15, [⟨3, [TRADE_EVENT_TOPIC0.v2Sync], [50200, 700], 15, 0, 6⟩]⟩]

def pairNode : LogNode := eventNode pairEvents (by decide +kernel)

def pairContext : ResolverContext :=
  { InsiderOrder.contextOf pairNode.request 2000 [] with pool := ⟨.v2, 2, some 3, none, true⟩ }

theorem pair_history : History pairContext.pool pairNode pairEvents :=
  ⟨⟨by decide +kernel, by decide +kernel⟩, fun h => nomatch h⟩

theorem impaired_means_removed : ∃ m, resolveLiqImpaired poolContext = .ok m ∧ m.resolution.value = some true ∧
    ((poolContext.pool.poolKind = .v4 ∧ Removed poolContext poolEvents) ∨
      (poolContext.pool.poolKind = .v2 ∧ Dropped poolContext poolEvents)) := by
  have hvalue : (resolveLiqImpaired poolContext).toOption.map (fun m => m.resolution.value) = some (some true) := by
    decide +kernel
  cases hok : resolveLiqImpaired poolContext with
  | error e =>
    rw [hok] at hvalue
    cases hvalue
  | ok m =>
    rw [hok] at hvalue
    have htrue : m.resolution.value = some true := Option.some.inj hvalue
    exact ⟨m, rfl, htrue, (impaired_means poolContext poolNode poolEvents pool_history
      (fun _ => InsiderOrder.answers_request poolNode) m hok).1 htrue⟩

/-- A sale alone impairs a v2 pair. -/
theorem swap_impairs : ¬ ∀ (ctx : ResolverContext) (node : LogNode) (events : List (PoolEvent PoolAction)),
    History ctx.pool node events → (∀ attempt, Answers node (ctx.client.getLogs 0 attempt)) →
    ∀ m, resolveLiqImpaired ctx = .ok m → m.resolution.value = some true → Removed ctx events := by
  intro h
  have hvalue : (resolveLiqImpaired pairContext).toOption.map (fun m => m.resolution.value) = some (some true) := by
    decide +kernel
  cases hok : resolveLiqImpaired pairContext with
  | error e =>
    rw [hok] at hvalue
    cases hvalue
  | ok m =>
    rw [hok] at hvalue
    obtain ⟨e, he, ha, -⟩ := h pairContext pairNode pairEvents pair_history
      (fun _ => InsiderOrder.answers_request pairNode) m hok (Option.some.inj hvalue)
    revert ha
    revert e
    decide +kernel

end Sample

end LaunchAuditor.Proofs.Impairment
