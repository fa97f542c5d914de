import LaunchAuditor.Outcomes.Context
import LaunchAuditor.Chain.UniswapEvents
import LaunchAuditor.Watcher.Retry

/-! `apps/worker/src/outcomes/series.ts` -/

namespace LaunchAuditor.Outcomes
open Chain Watcher

/-- What a resolution has asked for, and whether it was answered: a scan counts after its retries. -/
inductive Call
  | logs (fromBlock toBlock : Nat) (ok : Bool)
  | quote (ok : Bool)
  | decimals (ok : Bool)
  deriving DecidableEq

def Call.ok : Call → Bool
  | .logs _ _ ok => ok
  | .quote ok => ok
  | .decimals ok => ok

/-- A verdict with the calls it was made from. -/
structure Measured where
  resolution : Resolution
  calls : List Call
  deriving DecidableEq

def chunkedLogs (client : ResolveClient) (scan : Nat) (f : LogFilter) (maxRange : Nat) : Except RpcError (List RpcLog) :=
  withRetry (fun attempt => getLogsChunked (client.getLogs scan attempt) f maxRange) 2 0

structure PricePoint where
  block : Nat
  price : ℚ
  txHash : Word
  deriving DecidableEq

structure Series (α : Type) where
  points : List α
  coverage : Coverage
  calls : List Call

def MAX_SERIES_LOGS : Nat := 40000

/-- The point of a log, none when it is passed over. -/
def pricePoint (pool : PoolRef) (log : RpcLog) : Except RpcError (Option PricePoint) :=
  let ofSwap (s : Option SwapObservation) : Option PricePoint := do
    let s ← s
    if s.sqrtPriceX96 = 0 then none
    else some ⟨s.block, tokenPriceInQuote s.sqrtPriceX96 pool.tokenIsCurrency0, s.txHash⟩
  match pool.poolKind with
  | .v4 => (decodeV4Swap log).map ofSwap
  | .v3 => (decodeV3Swap log).map ofSwap
  | .v2 => (decodeV2Sync log).map fun s => do
    let s ← s
    if s.reserve0 ≤ 0 ∨ s.reserve1 ≤ 0 then none
    else
      let r0 : ℚ := s.reserve0
      let r1 : ℚ := s.reserve1
      some ⟨s.block, if pool.tokenIsCurrency0 then r1 / r0 else r0 / r1, s.txHash⟩

/-- The loop over the logs, which an undecodable one ends. -/
def decodeAll {α : Type} (decode : RpcLog → Except RpcError (Option α)) : List RpcLog → Except RpcError (List α)
  | [] => .ok []
  | log :: logs => do
    let point ← decode log
    let points ← decodeAll decode logs
    return point.toList ++ points

/-- Where a pool's events are, or why they cannot be asked for. -/
def PoolRef.eventFilter (pool : PoolRef) (v4Topic v3Topic v2Topic : Word) (fromBlock toBlock : Nat) :
    Except String LogFilter :=
  match pool.poolKind with
  | .v4 =>
    match pool.poolId with
    | none => .error "v4 pool has no poolId"
    | some poolId => .ok ⟨[pool.poolManager], [some [v4Topic], some [poolId]], fromBlock, toBlock⟩
  | kind =>
    match pool.poolAddress with
    | none => .error (kind.text ++ " pool has no poolAddress")
    | some poolAddress => .ok ⟨[poolAddress], [some [if kind = .v3 then v3Topic else v2Topic]], fromBlock, toBlock⟩

def tradeFilter (pool : PoolRef) (fromBlock toBlock : Nat) : Except String LogFilter :=
  pool.eventFilter TRADE_EVENT_TOPIC0.v4Swap TRADE_EVENT_TOPIC0.v3Swap TRADE_EVENT_TOPIC0.v2Sync fromBlock toBlock

/-- Trade prices over [fromBlock, toBlock], oldest first. `scan` is the place of the call in the resolution. -/
def buildPriceSeries (client : ResolveClient) (scan : Nat) (pool : PoolRef) (fromBlock toBlock maxRange : Nat) :
    Except RpcError (Series PricePoint) :=
  let coverage := newCoverage fromBlock toBlock maxRange
  if toBlock < fromBlock then
    .ok ⟨[], { coverage with gaps := ["empty window (toBlock < fromBlock)"] }, []⟩
  else
    match tradeFilter pool fromBlock toBlock with
    | .error gap => .ok ⟨[], { coverage with gaps := [gap] }, []⟩
    | .ok f => do
      let logs ← chunkedLogs client scan f maxRange
      let gaps :=
        if logs.length ≥ MAX_SERIES_LOGS then
          [s!"log cap hit ({logs.length} >= {MAX_SERIES_LOGS}); series truncated"]
        else []
      let points ← decodeAll (pricePoint pool) logs
      return ⟨Keyed.inOrder PricePoint.block points, { coverage with gaps }, [.logs fromBlock toBlock true]⟩

/-- Its numbers are doubles. -/
structure LiquidityPoint where
  block : Nat
  /-- cumulative liquidity (v4) or quote-side reserve (v2) -/
  liquidity : ℚ
  txHash : Word
  delta : ℚ
  deriving DecidableEq

/-- The running sum of the changes. -/
def cumulate : Int → List LiquidityDelta → List LiquidityPoint
  | _, [] => []
  | cum, d :: ds =>
    ⟨d.block, Js.double (cum + d.delta : Int), d.txHash, Js.double d.delta⟩ :: cumulate (cum + d.delta) ds

/-- The quote-side reserves with their changes. -/
def reserves (tokenIsCurrency0 : Bool) : ℚ → List SyncObservation → List LiquidityPoint
  | _, [] => []
  | prevQuote, s :: ss =>
    let quoteReserve := Js.double (if tokenIsCurrency0 then s.reserve1 else s.reserve0)
    ⟨s.block, quoteReserve, s.txHash, Js.double (quoteReserve - prevQuote)⟩ :: reserves tokenIsCurrency0 quoteReserve ss

/-- Liquidity depth over [fromBlock, toBlock]. -/
def buildLiquiditySeries (client : ResolveClient) (scan : Nat) (pool : PoolRef) (fromBlock toBlock maxRange : Nat) :
    Except RpcError (Series LiquidityPoint) :=
  let coverage := newCoverage fromBlock toBlock maxRange
  let gap (text : String) : Series LiquidityPoint := ⟨[], { coverage with gaps := [text] }, []⟩
  let series (points : List LiquidityPoint) (none_ : String) : Series LiquidityPoint :=
    ⟨points, { coverage with gaps := if points = [] then [none_] else [] }, [.logs fromBlock toBlock true]⟩
  if toBlock < fromBlock then .ok (gap "empty window (toBlock < fromBlock)")
  else
    match pool.poolKind with
    | .v4 =>
      match pool.poolId with
      | none => .ok (gap "v4 pool has no poolId")
      | some poolId => do
        let logs ← chunkedLogs client scan
          ⟨[pool.poolManager], [some [TRADE_EVENT_TOPIC0.v4ModifyLiquidity], some [poolId]], fromBlock, toBlock⟩ maxRange
        let deltas ← decodeAll decodeV4ModifyLiquidity logs
        return series (cumulate 0 (Keyed.inOrder LiquidityDelta.block deltas)) "no ModifyLiquidity events for poolId"
    | .v2 =>
      match pool.poolAddress with
      | none => .ok (gap "v2 pool has no poolAddress")
      | some poolAddress => do
        let logs ← chunkedLogs client scan ⟨[poolAddress], [some [TRADE_EVENT_TOPIC0.v2Sync]], fromBlock, toBlock⟩ maxRange
        let syncs ← decodeAll decodeV2Sync logs
        return series (reserves pool.tokenIsCurrency0 0 (Keyed.inOrder SyncObservation.block syncs)) "no Sync events for pool"
    | .v3 => .ok (gap "v3 liquidity series not implemented")

section Decoding
variable {α : Type} {decode : RpcLog → Except RpcError (Option α)}

/-- Logs that can all be decoded give the points of those that are not passed over. -/
theorem decodeAll_ok {logs : List RpcLog} (h : ∀ l ∈ logs, ∃ point, decode l = .ok point) :
    ∃ points, decodeAll decode logs = .ok points ∧
      ∀ point, point ∈ points ↔ ∃ l ∈ logs, decode l = .ok (some point) := by
  induction logs with
  | nil => exact ⟨[], rfl, by simp⟩
  | cons l logs ih =>
    obtain ⟨points, hpoints, hmem⟩ := ih fun x hx => h x (List.mem_cons_of_mem _ hx)
    obtain ⟨point, hpoint⟩ := h l List.mem_cons_self
    refine ⟨point.toList ++ points, ?_, ?_⟩
    · rw [decodeAll, hpoint, hpoints]
      rfl
    · intro x
      simp [hmem, hpoint]

end Decoding

section Series
variable {client : ResolveClient} {scan fromBlock toBlock maxRange : Nat} {pool : PoolRef}

/-- Points come only from a scan of a recorded pool that was answered, over a window that is not empty. -/
theorem buildPriceSeries_cases {s : Series PricePoint}
    (h : buildPriceSeries client scan pool fromBlock toBlock maxRange = .ok s) :
    (s.points = [] ∧ s.calls = [] ∧ (toBlock < fromBlock ∨ ∃ gap, tradeFilter pool fromBlock toBlock = .error gap)) ∨
      (s.calls = [.logs fromBlock toBlock true] ∧ fromBlock ≤ toBlock ∧
        ∃ f, tradeFilter pool fromBlock toBlock = .ok f) := by
  unfold buildPriceSeries at h
  dsimp only at h
  split at h
  · rename_i hempty
    obtain rfl := Except.ok.inj h
    exact Or.inl ⟨rfl, rfl, Or.inl hempty⟩
  · rename_i hwindow
    cases hf : tradeFilter pool fromBlock toBlock with
    | error gap =>
      rw [hf] at h
      obtain rfl := Except.ok.inj h
      exact Or.inl ⟨rfl, rfl, Or.inr ⟨gap, rfl⟩⟩
    | ok f =>
      rw [hf] at h
      obtain ⟨logs, _, h⟩ := bind_ok h
      obtain ⟨points, _, h⟩ := bind_ok h
      obtain rfl := Except.ok.inj h
      exact Or.inr ⟨rfl, Nat.le_of_not_lt hwindow, f, rfl⟩

theorem buildPriceSeries_calls {s : Series PricePoint}
    (h : buildPriceSeries client scan pool fromBlock toBlock maxRange = .ok s) : ∀ c ∈ s.calls, c.ok = true := by
  rcases buildPriceSeries_cases h with ⟨_, hc, _⟩ | ⟨hc, _⟩
  · rw [hc]
    simp
  · rw [hc]
    simp [Call.ok]

end Series

end LaunchAuditor.Outcomes
