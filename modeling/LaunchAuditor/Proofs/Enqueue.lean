import LaunchAuditor.Proofs.PollerSafety
import LaunchAuditor.Watcher.Ingest

namespace LaunchAuditor.Proofs.Enqueue
open Chain Outcomes Db Watcher

section Polls
variable {σ : Type} {cfg : ChainConfig} {env : WatcherEnv} {maxRange : Nat}

/-- What every ingestion of a poll keeps, the poll keeps. -/
theorem ingestPools_keeps (Inv : σ → Prop) {ingest : Nat → DetectedPool → σ → Except RpcError (Option String) × σ}
    (h : ∀ k dp s, Inv s → Inv (ingest k dp s).2) (abandonThrough : Option Nat) (k : Nat) (pools : List DetectedPool)
    {s : σ} (hs : Inv s) : Inv (ingestPools ingest abandonThrough k pools s).2 := by
  induction pools generalizing k s with
  | nil => exact hs
  | cons dp pools ih => exact ih (k + 1) (h k dp s hs)

theorem pollSpan_keeps (Inv : σ → Prop) {opts : PollOptions} {io : PollIo σ} {row : Option Nat} {cursor safeHead : Nat}
    (h : ∀ k dp s, Inv s → Inv (io.ingest k dp s).2) {s : σ} (hs : Inv s) :
    Inv (pollSpan cfg maxRange opts io row cursor safeHead s).store := by
  unfold pollSpan
  split
  · exact hs
  · dsimp only
    cases detectPools io.getLogs cfg (cursor + 1) _ maxRange with
    | error e => exact hs
    | ok detected => exact ingestPools_keeps Inv h opts.abandonFailuresThroughBlock 0 detected hs

theorem pollOnce_keeps (Inv : σ → Prop) {opts : PollOptions} {io : PollIo σ} {row : Option Nat}
    (h : ∀ k dp s, Inv s → Inv (io.ingest k dp s).2) {s : σ} (hs : Inv s) :
    Inv (pollOnce cfg env maxRange opts io row s).store := by
  unfold pollOnce
  cases io.getBlockNumber with
  | error e => exact hs
  | ok head =>
    cases io.getCursor with
    | some e => exact hs
    | none =>
      cases row with
      | some cursor => exact pollSpan_keeps Inv h hs
      | none =>
        dsimp only
        split
        · exact hs
        · exact pollSpan_keeps Inv h hs

theorem poll_keeps (Inv : σ → Prop) {io : PollIo σ} (h : ∀ k dp s, Inv s → Inv (io.ingest k dp s).2) {p : Poller σ}
    (hp : Inv p.store) : Inv (p.poll cfg env maxRange io).store := by
  unfold Poller.poll
  cases p.abandonThrough env io with
  | error e => exact hp
  | ok abandon => exact pollOnce_keeps Inv h hp

end Polls

/-- A poll with what happens to its calls and to those of its ingestions, or a new process. -/
inductive Event
  | poll (calls : PollCalls) (ingests : Nat → IngestIo)
  | restart

variable (cfg : ChainConfig) (env : WatcherEnv) (maxRange : Nat)

def ingesting (calls : PollCalls) (ingests : Nat → IngestIo) : PollIo WorkerDb where
  toPollCalls := calls
  ingest k := ingestPool cfg ⟨env.quotaPerCreator24h, false, false⟩ (ingests k)

def step (p : Poller WorkerDb) : Event → Poller WorkerDb
  | .poll calls ingests => p.poll cfg env maxRange (ingesting cfg env calls ingests)
  | .restart => p.restart

/-- A launch that was indexed since the start and that the cursor has passed has its job. -/
def Enqueued (initial : WorkerDb) (p : Poller WorkerDb) : Prop :=
  ∀ cursor, p.cursor = some cursor → ∀ l ∈ p.store.launches, l ∉ initial.launches → l.launchBlock ≤ cursor →
    l.id ∈ p.store.t10Jobs

/-- When the row is written this is acknowledged, and the job is added. -/
def Whole (io : IngestIo) : Prop :=
  io.createLaunch.applied = true → io.createLaunch.acknowledged = true ∧ io.addJob.applied = true

def WholePolls (_ : Poller WorkerDb) : Event → Prop
  | .poll _ ingests => ∀ k, Whole (ingests k)
  | .restart => True

/-- Every new row has its job, wherever the cursor is. -/
def AllQueued (initial db : WorkerDb) : Prop := ∀ l ∈ db.launches, l ∉ initial.launches → l.id ∈ db.t10Jobs

variable {cfg env maxRange} {initial db : WorkerDb}

/-- A job that was added stays. -/
theorem mem_insertJob {launchId id : String} (h : id = launchId ∨ id ∈ db.t10Jobs) :
    id ∈ (insertJob launchId db).t10Jobs := by
  unfold insertJob
  dsimp only
  split
  · rename_i hold
    rcases h with rfl | h
    · exact hold
    · exact h
  · rcases h with rfl | h
    · simp
    · exact List.mem_append_left _ h

theorem addJob_queued {w : WriteEnd} (hw : w.applied = true) (launchId : String)
    (h : ∀ l ∈ db.launches, l ∉ initial.launches → l.id = launchId ∨ l.id ∈ db.t10Jobs) :
    AllQueued initial (addJob w launchId db).2 := by
  have hinsert : AllQueued initial (insertJob launchId db) := fun l hl hnew => mem_insertJob (h l hl hnew)
  cases w with
  | refused e => cases hw
  | done => exact hinsert
  | unacknowledged e => exact hinsert

/-- The row is refused, and nothing has changed, or the write of it ends in its own way. -/
theorem createLaunch_cases (w : WriteEnd) (row : LaunchRow) (db : WorkerDb) :
    (∃ e, createLaunch w row db = (.error e, db)) ∨ createLaunch w row db = w.apply (insertLaunch row) db := by
  unfold createLaunch
  split
  · exact Or.inl ⟨_, rfl⟩
  · exact Or.inr rfl

theorem ingestPool_queued {deps : IngestDeps} {io : IngestIo} (hio : Whole io) (dp : DetectedPool)
    (h : AllQueued initial db) : AllQueued initial (ingestPool cfg deps io dp db).2 := by
  unfold ingestPool
  cases prepareLaunch cfg deps io dp db with
  | error e => exact h
  | ok prepared =>
    cases prepared with
    | none => exact h
    | some row =>
      dsimp only
      rcases createLaunch_cases io.createLaunch row db with ⟨e, hcreate⟩ | hcreate
      · rw [hcreate]
        exact h
      · rw [hcreate]
        cases hw : io.createLaunch with
        | refused e => exact h
        | unacknowledged e =>
          have hack := (hio (by rw [hw]; rfl)).1
          rw [hw] at hack
          cases hack
        | done =>
          have hadd : io.addJob.applied = true := (hio (by rw [hw]; rfl)).2
          have hdb : AllQueued initial (addJob io.addJob row.launch.id (insertLaunch row db)).2 := by
            apply addJob_queued hadd
            intro l hl hnew
            rcases List.mem_append.mp hl with hl | hl
            · exact Or.inr (h l hl hnew)
            · rw [List.mem_singleton.mp hl]
              exact Or.inl rfl
          simp only [WriteEnd.apply]
          generalize addJob io.addJob row.launch.id (insertLaunch row db) = added at hdb
          obtain ⟨added, after⟩ := added
          cases added with
          | error e => exact hdb
          | ok _ => exact hdb

theorem step_queued (p : Poller WorkerDb) (e : Event) (hp : AllQueued initial p.store) (he : WholePolls p e) :
    AllQueued initial (step cfg env maxRange p e).store := by
  cases e with
  | restart => exact hp
  | poll calls ingests => exact poll_keeps (AllQueued initial) (fun k dp s hs => ingestPool_queued (he k) dp hs) hp

/-- No launch is left without its job by runs in which no row is written without its job. -/
theorem launches_enqueued (cfg : ChainConfig) (env : WatcherEnv) (maxRange : Nat) (cursor : Option Nat)
    (initial : WorkerDb) (events : List Event)
    (h : Steps.Always (step cfg env maxRange) WholePolls (Poller.start cursor initial) events) :
    Enqueued initial (Steps.run (step cfg env maxRange) (Poller.start cursor initial) events) := by
  have hstart : AllQueued initial (Poller.start cursor initial).store := fun l hl hnew => absurd hl hnew
  have hrun := Steps.invariant_run (fun p => AllQueued initial p.store) step_queued hstart h
  exact fun _ _ l hl hnew _ => hrun l hl hnew

def onePool : LogNode where
  logs := [PollerSafety.creationLog 11 77#256]
  ordered := by decide +kernel

def onePoolCalls : PollCalls where
  abandonCursor := none
  getBlockNumber := .ok 100
  getCursor := none
  setFirstCursor := .done
  setNextCursor := .done
  getLogs := onePool.request

/-- The launch is fresh, and everything answers. -/
def goodIngest : IngestIo where
  getCode := fun _ _ => .ok none
  findLaunch := none
  fetchLaunch := fun _ => .ok ⟨8#160, none, [], 1000⟩
  countLaunches := none
  receipt := .ok []
  totalSupply := .ok 1000000
  launchId := "l1"
  now := 1010000
  createLaunch := .done
  addJob := .done

def sampleEnv : WatcherEnv := ⟨4663, 60, 4000, 5⟩

def refusedAdd : IngestIo := { goodIngest with addJob := .refused ⟨"Error", "Connection is closed."⟩ }

/-- The queue refuses the job; the next poll finds the row and goes on. -/
theorem launch_without_job : ¬ Enqueued WorkerDb.empty (Steps.run (step sampleConfig sampleEnv 9999)
    (Poller.start (some 10) WorkerDb.empty)
    [.poll onePoolCalls fun _ => refusedAdd, .poll onePoolCalls fun _ => goodIngest]) := by
  intro h
  generalize hrun : Steps.run (step sampleConfig sampleEnv 9999) (Poller.start (some 10) WorkerDb.empty)
    [.poll onePoolCalls fun _ => refusedAdd, .poll onePoolCalls fun _ => goodIngest] = p at h
  have hcursor : p.cursor = some 40 := by
    rw [← hrun]
    decide +kernel
  have hlost : p.store.launches.any (fun l => decide (l.launchBlock ≤ 40 ∧ l.id ∉ p.store.t10Jobs)) = true := by
    rw [← hrun]
    decide +kernel
  obtain ⟨l, hl, hlost⟩ := List.any_eq_true.mp hlost
  rw [decide_eq_true_eq] at hlost
  exact hlost.2 (h 40 hcursor l hl (List.not_mem_nil) hlost.1)

/-- The block cannot be read at first; then the launch is indexed. -/
theorem launches_enqueued_retried : Enqueued WorkerDb.empty (Steps.run (step sampleConfig sampleEnv 9999)
    (Poller.start (some 10) WorkerDb.empty)
    [.poll onePoolCalls fun _ => { goodIngest with fetchLaunch := fun _ => .error ⟨"Error", "bad data"⟩ }, .restart,
      .poll onePoolCalls fun _ => goodIngest]) :=
  launches_enqueued sampleConfig sampleEnv 9999 (some 10) WorkerDb.empty _
    ⟨fun _ _ => ⟨rfl, rfl⟩, trivial, fun _ _ => ⟨rfl, rfl⟩, trivial⟩

end LaunchAuditor.Proofs.Enqueue
