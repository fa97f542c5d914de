import LaunchAuditor.Watcher.Detect
import LaunchAuditor.Db.Launches

/-! `apps/worker/src/watcher/poller.ts` and `cursor.ts`, over any way to ingest a pool. -/

namespace LaunchAuditor.Watcher
open Chain Db

structure WatcherEnv where
  chainId : Nat
  headLagBlocks : Nat
  maxSpanBlocks : Nat
  quotaPerCreator24h : Nat

/-- `setCursor`: the row after the write, and whether it throws. -/
def setCursor (w : WriteEnd) (row : Option Nat) (lastBlock : Nat) : Except RpcError Unit × Option Nat :=
  w.apply (fun _ => some lastBlock) row

/-- What happens to the calls of one poll, but for ingestion. -/
structure PollCalls where
  /-- the read of the cursor by `runPoller`, for the range to abandon -/
  abandonCursor : Option RpcError
  getBlockNumber : Except RpcError Nat
  getCursor : Option RpcError
  setFirstCursor : WriteEnd
  setNextCursor : WriteEnd
  getLogs : GetLogs

/-- A store is what ingestion works on. -/
structure PollIo (σ : Type) extends PollCalls where
  /-- the n-th pool of the poll -/
  ingest : Nat → DetectedPool → σ → Except RpcError (Option String) × σ

structure PollOptions where
  startAtHeadIfEmpty : Bool
  maxSpan : Option Nat
  abandonFailuresThroughBlock : Option Nat

structure PollResult where
  from_ : Nat
  to_ : Nat
  poolsSeen : Nat
  launchesIndexed : Nat
  failed : Nat
  cursorAdvanced : Bool
  deriving DecidableEq

/-- A pool that a poll has come to, and how its ingestion ended. -/
structure Handled where
  pool : DetectedPool
  result : Except RpcError (Option String)
  abandoned : Bool

namespace Handled

def failed (h : Handled) : Bool :=
  match h.result with
  | .ok _ => false
  | .error _ => true

/-- The cursor is held before its block. -/
def held (h : Handled) : Bool := h.failed && !h.abandoned

end Handled

section Poll
variable {σ : Type}

/-- The loop over the detected pools. -/
def ingestPools (ingest : Nat → DetectedPool → σ → Except RpcError (Option String) × σ) (abandonThrough : Option Nat) :
    Nat → List DetectedPool → σ → List Handled × σ
  | _, [], s => ([], s)
  | n, dp :: pools, s =>
    let (result, s) := ingest n dp s
    let abandon :=
      match result with
      | .ok _ => false
      | .error _ => abandonThrough.any fun through => decide (dp.blockNumber ≤ through)
    let (rest, s) := ingestPools ingest abandonThrough (n + 1) pools s
    (⟨dp, result, abandon⟩ :: rest, s)

def earliestHeldFailure (handled : List Handled) : Option Nat :=
  ((handled.filter Handled.held).map fun h => h.pool.blockNumber).min?

/-- A poll that has ended, or thrown. -/
structure PollEnd (σ : Type) where
  result : Except RpcError PollResult
  cursor : Option Nat
  store : σ
  handled : List Handled

def launchesIndexed (handled : List Handled) : Nat :=
  handled.countP fun h =>
    match h.result with
    | .ok (some _) => true
    | _ => false

/-- The scan after the cursor, and what follows from it. -/
def pollSpan (cfg : ChainConfig) (maxRange : Nat) (opts : PollOptions) (io : PollIo σ) (row : Option Nat)
    (cursor safeHead : Nat) (s : σ) : PollEnd σ :=
  if cursor ≥ safeHead then ⟨.ok ⟨cursor, cursor, 0, 0, 0, false⟩, row, s, []⟩
  else
    let from_ := cursor + 1
    let to_ :=
      match opts.maxSpan with
      | some maxSpan => if maxSpan ≠ 0 ∧ from_ + maxSpan - 1 < safeHead then from_ + maxSpan - 1 else safeHead
      | none => safeHead
    match detectPools io.getLogs cfg from_ to_ maxRange with
    | .error e => ⟨.error e, row, s, []⟩
    | .ok detected =>
      let (handled, s) := ingestPools io.ingest opts.abandonFailuresThroughBlock 0 detected s
      let nextCursor := ((earliestHeldFailure handled).map fun block => block - 1).getD to_
      let (written, row) := setCursor io.setNextCursor row nextCursor
      ⟨written.map fun _ =>
          ⟨from_, nextCursor, detected.length, launchesIndexed handled, handled.countP Handled.failed,
            decide (nextCursor > cursor)⟩,
        row, s, handled⟩

def pollOnce (cfg : ChainConfig) (env : WatcherEnv) (maxRange : Nat) (opts : PollOptions) (io : PollIo σ)
    (row : Option Nat) (s : σ) : PollEnd σ :=
  match io.getBlockNumber with
  | .error e => ⟨.error e, row, s, []⟩
  | .ok head =>
    let safeHead := if head > env.headLagBlocks then head - env.headLagBlocks else 0
    match io.getCursor with
    | some e => ⟨.error e, row, s, []⟩
    | none =>
      match row with
      | some cursor => pollSpan cfg maxRange opts io row cursor safeHead s
      | none =>
        let cursor := if opts.startAtHeadIfEmpty then safeHead else 0
        let (written, row) := setCursor io.setFirstCursor row cursor
        match written with
        | .error e => ⟨.error e, row, s, []⟩
        | .ok _ => pollSpan cfg maxRange opts io row cursor safeHead s

def STUCK_POLLS_BEFORE_SKIP : Nat := 6

/-- The poller between two polls, with what its polls have come to. -/
structure Poller (σ : Type) where
  cursor : Option Nat
  stuckPolls : Nat
  store : σ
  /-- the cursor it started from, once there is one -/
  started : Option Nat
  polls : List (List Handled)

def Poller.start (cursor : Option Nat) (store : σ) : Poller σ := ⟨cursor, 0, store, cursor, []⟩

/-- The range to abandon, read when the cursor has been stuck for long enough. -/
def Poller.abandonThrough (env : WatcherEnv) (p : Poller σ) (io : PollIo σ) : Except RpcError (Option Nat) :=
  if p.stuckPolls ≥ STUCK_POLLS_BEFORE_SKIP then
    match io.abandonCursor with
    | some e => .error e
    | none => .ok (p.cursor.map fun cursor => cursor + env.maxSpanBlocks)
  else .ok none

def stuckAfter (stuckPolls : Nat) (result : Except RpcError PollResult) : Nat :=
  match result with
  | .error _ => stuckPolls
  | .ok r => if r.cursorAdvanced then 0 else if r.failed > 0 then stuckPolls + 1 else stuckPolls

/-- One turn of the loop of `runPoller`. -/
def Poller.poll (cfg : ChainConfig) (env : WatcherEnv) (maxRange : Nat) (p : Poller σ) (io : PollIo σ) : Poller σ :=
  match p.abandonThrough env io with
  | .error _ => p
  | .ok abandon =>
    let r := pollOnce cfg env maxRange ⟨true, some env.maxSpanBlocks, abandon⟩ io p.cursor p.store
    { cursor := r.cursor
      stuckPolls := stuckAfter p.stuckPolls r.result
      store := r.store
      started := p.started.or r.cursor
      polls := p.polls ++ [r.handled] }

/-- A new process: the counter is not stored. -/
def Poller.restart (p : Poller σ) : Poller σ := { p with stuckPolls := 0 }

end Poll

end LaunchAuditor.Watcher
