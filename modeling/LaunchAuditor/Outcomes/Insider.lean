import LaunchAuditor.Outcomes.Context
import LaunchAuditor.Watcher.Retry
import LaunchAuditor.Watcher.Erc20

/-! `apps/worker/src/outcomes/resolve-insider.ts` -/

namespace LaunchAuditor.Outcomes
open Chain Watcher

def MAX_INSIDER_LOGS : Nat := 30000

/-- One transfer of the replay. -/
structure Ev where
  block : Nat
  logIndex : Nat
  from_ : Address
  to_ : Address
  value : Nat
  deriving DecidableEq

namespace Ev

def key (e : Ev) : Nat ×ₗ Nat := toLex (e.block, e.logIndex)

/-- A log without both addresses is passed over. -/
def ofLog (log : RpcLog) : Option Ev :=
  match log.topics[1]?, log.topics[2]? with
  | some from_, some to_ =>
    some ⟨log.blockNumber, log.logIndex, topicToAddress from_, topicToAddress to_, transferValue log.data⟩
  | _, _ => none

end Ev

/-- `getLogsByTopicValues` of the token's transfers whose sender (1) or recipient (2) is in the cluster. -/
def clusterTransfers (ctx : ResolverContext) (valuePosition : Nat) : Except RpcError (List RpcLog) :=
  let cluster := Js.setOf ctx.clusterWallets
  withRetry (fun attempt =>
    getLogsByTopicValues (ctx.client.getLogs valuePosition attempt) ⟨[ctx.token], [], ctx.launchBlock, ctx.horizonBlock⟩
      TRANSFER_TOPIC0 valuePosition (cluster.map addressToTopic) ctx.maxRange MAX_TOPIC_VALUES) 4 0

/-- The events of both queries, once each, in the order of the chain. -/
def replayEvents (outLogs inLogs : List RpcLog) : List Ev :=
  Keyed.inOrder Ev.key ((Keyed.uniq logKey (outLogs ++ inLogs)).filterMap Ev.ofLog)

structure Replay where
  agg : Int
  peak : Int
  soldToPool : Nat
  boughtFromPool : Nat
  sellTxs : List String
  deriving DecidableEq

def replayStep (cluster poolSinks : List Address) (r : Replay) (e : Ev) : Replay :=
  let agg := r.agg - (if e.from_ ∈ cluster then (e.value : Int) else 0) + (if e.to_ ∈ cluster then (e.value : Int) else 0)
  let sold := e.from_ ∈ cluster ∧ e.to_ ∈ poolSinks
  let bought := e.to_ ∈ cluster ∧ e.from_ ∈ poolSinks
  { agg
    peak := if agg > r.peak then agg else r.peak
    soldToPool := if sold then r.soldToPool + e.value else r.soldToPool
    boughtFromPool := if bought then r.boughtFromPool + e.value else r.boughtFromPool
    sellTxs :=
      if sold ∧ r.sellTxs.length < 20 then r.sellTxs ++ [s!"block {e.block} log {e.logIndex}"] else r.sellTxs }

def replay (cluster poolSinks : List Address) (events : List Ev) : Replay :=
  events.foldl (replayStep cluster poolSinks) ⟨0, 0, 0, 0, []⟩

def PoolRef.sinks (pool : PoolRef) : List Address := pool.poolManager :: pool.poolAddress.toList

/-- Where the launch's tokens leave on a buy. -/
def PoolRef.launchPool (pool : PoolRef) : Option Address :=
  match pool.poolKind with
  | .v4 => some pool.poolManager
  | _ => pool.poolAddress

/-- `Number((netSold * 10_000n) / peak) / 10_000`, the bigint division towards zero. -/
def ratioOfPeak (netSold peak : Int) : ℚ := ((netSold * 10000).tdiv peak : ℤ) / 10000

def insiderVerdict (ctx : ResolverContext) (coverage : Coverage) (events : List Ev) : Resolution :=
  let cluster := Js.setOf ctx.clusterWallets
  let r := replay cluster ctx.pool.sinks events
  if r.peak = 0 then
    resolved false
      [("clusterSize", .num cluster.length), ("peakHoldings", .digits 0),
        ("note", .text "cluster never held tokens in the window")] (some coverage)
  else
    let netSold : Int := r.soldToPool - r.boughtFromPool
    resolved (decide (netSold * 2 ≥ r.peak))
      [("clusterSize", .num cluster.length), ("peakHoldings", .digits r.peak),
        ("soldToPool", .digits r.soldToPool), ("boughtFromPool", .digits r.boughtFromPool),
        ("netSoldToPool", .digits netSold), ("ratioOfPeak", .num (ratioOfPeak netSold r.peak)),
        ("sells", .texts r.sellTxs), ("transfersReplayed", .num events.length)] (some coverage)

def capHit (outLogs inLogs : List RpcLog) : Bool :=
  decide (outLogs.length ≥ MAX_INSIDER_LOGS) || decide (inLogs.length ≥ MAX_INSIDER_LOGS)

def insiderCoverage (ctx : ResolverContext) (outLogs inLogs : List RpcLog) : Coverage :=
  let coverage := newCoverage ctx.launchBlock ctx.horizonBlock ctx.maxRange
  { coverage with
    callCount := 2 * coverage.callCount * ceilDiv (Js.setOf ctx.clusterWallets).length 4
    gaps :=
      if capHit outLogs inLogs then
        [s!"transfer log cap hit (out={outLogs.length}, in={inLogs.length}); cannot trust a partial balance replay"]
      else [] }

def resolveInsiderExit (ctx : ResolverContext) : Except RpcError Resolution :=
  if Js.setOf ctx.clusterWallets = [] then
    .ok (unresolvable "no cluster wallets recorded for this launch" none [])
  else do
    let outLogs ← clusterTransfers ctx 1
    let inLogs ← clusterTransfers ctx 2
    let coverage := insiderCoverage ctx outLogs inLogs
    if capHit outLogs inLogs then
      return unresolvable "too many cluster transfers to replay reliably" (some coverage) []
    else
      return insiderVerdict ctx { coverage with notes := ["sells counted only when the recipient is the pool address"] }
        (replayEvents outLogs inLogs)

/-- A transfer as the ledger has it. -/
def Ev.transfer (e : Ev) : Ledger.Transfer Address := ⟨e.from_, e.to_, e.value⟩

section Replay
variable (cluster poolSinks : List Address)

theorem replay_snoc (events : List Ev) (e : Ev) :
    replay cluster poolSinks (events ++ [e]) = replayStep cluster poolSinks (replay cluster poolSinks events) e := by
  simp [replay]

theorem replayStep_agg (r : Replay) (e : Ev) :
    (replayStep cluster poolSinks r e).agg = r.agg + Ledger.flow cluster.toFinset e.transfer := by
  simp only [replayStep, Ledger.flow, Ev.transfer, List.mem_toFinset]
  omega

theorem replayStep_peak (r : Replay) (e : Ev) :
    (replayStep cluster poolSinks r e).peak = max r.peak (replayStep cluster poolSinks r e).agg := by
  change (if (replayStep cluster poolSinks r e).agg > r.peak then (replayStep cluster poolSinks r e).agg else r.peak) = _
  by_cases h : (replayStep cluster poolSinks r e).agg > r.peak
  · rw [if_pos h, max_eq_right (le_of_lt h)]
  · rw [if_neg h, max_eq_left (not_lt.mp h)]

theorem replay_agg (events : List Ev) :
    (replay cluster poolSinks events).agg = (events.map fun e => Ledger.flow cluster.toFinset e.transfer).sum := by
  induction events using List.reverseRecOn with
  | nil => rfl
  | append_singleton events e ih =>
    rw [replay_snoc, replayStep_agg, ih]
    simp

/-- The peak is the highest value of the running total, 0 at the start included. -/
theorem replay_peak (events : List Ev) :
    IsGreatest (Ledger.totals (events.map fun e => Ledger.flow cluster.toFinset e.transfer))
      (replay cluster poolSinks events).peak := by
  induction events using List.reverseRecOn with
  | nil => simp [replay]
  | append_singleton events e ih =>
    rw [replay_snoc, replayStep_peak, replayStep_agg, replay_agg, List.map_append]
    exact Ledger.isGreatest_totals_snoc ih _

theorem replay_peak_nonneg (events : List Ev) : 0 ≤ (replay cluster poolSinks events).peak :=
  (replay_peak cluster poolSinks events).2 (Ledger.zero_mem_totals _)

variable {cluster poolSinks}

/-- What went to the pools less what came from them, when nothing else moves the aggregate. -/
theorem replay_net {events : List Ev}
    (h : ∀ e ∈ events, (e.from_ ∈ cluster ∧ e.to_ ∈ poolSinks ∧ e.to_ ∉ cluster) ∨
      (e.to_ ∈ cluster ∧ e.from_ ∈ poolSinks ∧ e.from_ ∉ cluster)) :
    ((replay cluster poolSinks events).soldToPool : Int) - (replay cluster poolSinks events).boughtFromPool =
      -(replay cluster poolSinks events).agg := by
  induction events using List.reverseRecOn with
  | nil => rfl
  | append_singleton events e ih =>
    have hbefore := ih fun x hx => h x (List.mem_append_left _ hx)
    rw [replay_snoc]
    simp only [replayStep]
    rcases h e (by simp) with ⟨hfrom, hsink, hto⟩ | ⟨hto, hsink, hfrom⟩
    · simp only [hfrom, hsink, hto, and_self, false_and, if_true, if_false]
      omega
    · simp only [hfrom, hsink, hto, and_self, false_and, if_true, if_false]
      omega

theorem launchPool_mem_sinks {pool : PoolRef} {a : Address} (h : pool.launchPool = some a) : a ∈ pool.sinks := by
  unfold PoolRef.launchPool at h
  unfold PoolRef.sinks
  cases hk : pool.poolKind with
  | v4 =>
    rw [hk] at h
    simp [Option.some.inj h]
  | v2 =>
    rw [hk] at h
    simp_all
  | v3 =>
    rw [hk] at h
    simp_all

end Replay

end LaunchAuditor.Outcomes
