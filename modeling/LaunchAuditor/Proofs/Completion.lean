import LaunchAuditor.Proofs.Enqueue
import LaunchAuditor.Proofs.Reporting

namespace LaunchAuditor.Proofs.Completion
open Chain Outcomes Scoring Db Watcher Report Pipeline Reporting

/-- No launch is marked without its reports. -/
def AllReported (db : WorkerDb) : Prop := ∀ l ∈ db.launches, Marked db l.id → Reported db l

/-- And a launch whose job has not done it all can be finished. -/
def Sound (cfg : ChainConfig) (env : T10Env) (db : WorkerDb) : Prop :=
  ∀ l ∈ db.launches, (Marked db l.id → Reported db l) ∧ Rerunnable cfg env db l

/-- A job that sets the mark finds the reports there already, or goes on to store them with their outcome rows. -/
def Finishes (cfg : ChainConfig) (env : T10Env) (db : WorkerDb) : Event → Prop
  | .t10 calls launchId => ∀ l, db.launch launchId = some l → Marks cfg env calls launchId db →
      Reported db l ∨ calls.transaction.acknowledged = true ∧ Completes cfg calls.build calls.persist l db
  | _ => True

variable {cfg : ChainConfig} {env : T10Env} {calls : T10Calls} {db db' : WorkerDb} {launchId : String}

theorem t10_allReported (h : Invariant db) (hall : AllReported db) :
    AllReported (runT10ForLaunch cfg env calls launchId db).2 ↔ Finishes cfg env db (.t10 calls launchId) := by
  cases hfound : db.launch launchId with
  | none =>
    rw [runT10_unknown cfg env calls hfound]
    exact iff_of_true hall fun l hl => absurd (hfound.symm.trans hl) (by simp)
  | some l =>
    obtain ⟨hl, rfl⟩ := launch_mem hfound
    have hframe : Frame l.id db (runT10ForLaunch cfg env calls l.id db).2 := runT10_frame h hl
    constructor
    · intro hafter l0 hl0 hmarks
      obtain rfl := Option.some.inj (hfound.symm.trans hl0)
      obtain ⟨hmarked, hreported⟩ := runT10_marks h hl hmarks
      obtain ⟨l', hl', hkept⟩ := hframe.launches.forward hl
      have hdone := hafter l' hl' (by rw [hkept.id]; exact hmarked)
      exact hreported.mp ((reported_kept hkept).mp hdone)
    · intro hfinishes l' hl' hmarked
      obtain ⟨l0, hl0, hkept⟩ := hframe.launches.backward hl'
      rw [hkept.id] at hmarked
      by_cases hid : l0.id = l.id
      · obtain rfl := List.inj_on_of_nodup_map h.1.ids hl0 hl hid
        by_cases hmarks : Marks cfg env calls l0.id db
        · have hreported := (runT10_marks h hl0 hmarks).2.mpr (hfinishes l0 hfound hmarks)
          exact (reported_kept hkept).mpr hreported
        · exact (hall l0 hl0 (runT10_unmarked h hl0 hmarks hmarked)).grows hframe.grows hkept
      · have hold : Marked db l0.id := by
          obtain ⟨f, hf, hset⟩ := hmarked
          exact ⟨f, (hframe.features l0.id hid).symm.trans hf, hset⟩
        exact (hall l0 hl0 hold).grows hframe.grows hkept

structure Advances (db db' : WorkerDb) : Prop where
  grows : Grows db db'
  marks : ∀ l' ∈ db'.launches, Marked db' l'.id → ∃ l ∈ db.launches, Kept l l' ∧ Marked db l.id

theorem AllReported.advances (hall : AllReported db) (h : Advances db db') : AllReported db' := by
  intro l' hl' hmarked
  obtain ⟨l, hl, hkept, hold⟩ := h.marks l' hl' hmarked
  exact (hall l hl hold).grows h.grows hkept

theorem Grows.advances (h : Grows db db') (hlaunches : db'.launches = db.launches)
    (hfeatures : db'.features = db.features) : Advances db db' := by
  refine ⟨h, ?_⟩
  intro l hl hmarked
  rw [hlaunches] at hl
  exact ⟨l, hl, Kept.refl l, (marked_congr hfeatures l.id).mp hmarked⟩

theorem persist_advances (h : Consistent db) (calls : PersistCalls) (drafts : List ReportDraft) :
    Advances db (persistLaunchReports calls drafts db).2 := by
  obtain ⟨hlaunches, hfeatures⟩ := persist_tables calls drafts db
  exact Grows.advances (persist_grows calls drafts h) hlaunches hfeatures

theorem insertLaunch_advances (h : Consistent db) {row : LaunchRow}
    (hnew : ∀ l ∈ db.launches, l.id ≠ row.launch.id) (hmark : row.feature.t10ComputedAt = none) :
    Advances db (insertLaunch row db) := by
  have hfeature : ∀ id, (insertLaunch row db).feature id =
      (db.feature id).or (if row.feature.launchId = id then some row.feature else none) := by
    intro id
    unfold WorkerDb.feature
    change List.find? _ (db.features ++ [row.feature]) = _
    rw [List.find?_append]
    congr 1
    by_cases hid : row.feature.launchId = id
    · simp [hid]
    · simp [hid]
  refine ⟨Grows.of_eq rfl rfl, ?_⟩
  rintro l hl ⟨f, hf, hset⟩
  rw [hfeature] at hf
  cases hold : db.feature l.id with
  | some g =>
    rw [hold] at hf
    have hid : l.id ∈ db.launches.map Launch.id := by
      rw [← h.features]
      have hg : g.launchId = l.id := by simpa using List.find?_some hold
      exact hg ▸ List.mem_map_of_mem (List.mem_of_find?_eq_some hold)
    rcases List.mem_append.mp hl with hl | hl
    · exact ⟨l, hl, Kept.refl l, g, hold, by rwa [Option.some.inj hf]⟩
    · obtain ⟨l0, hl0, he⟩ := List.mem_map.mp hid
      rw [List.mem_singleton.mp hl] at he
      exact absurd he (hnew l0 hl0)
  | none =>
    rw [hold, Option.none_or] at hf
    split at hf
    · rw [← Option.some.inj hf, hmark] at hset
      cases hset
    · cases hf

theorem ingestPool_advances (h : Consistent db) {deps : IngestDeps} {io : IngestIo} {dp : DetectedPool} :
    Advances db (ingestPool cfg deps io dp db).2 := by
  rcases ingestPool_cases with ⟨row, hrow, hnew, jobs, he⟩ | he
  · obtain ⟨pair, tx, rfl⟩ := prepareLaunch_row hrow
    have hinsert := insertLaunch_advances h (fun l hl => (hnew l hl).1) rfl
    rw [he]
    exact ⟨hinsert.grows.trans (Grows.of_eq rfl rfl), hinsert.marks⟩
  · rw [he]
    exact Grows.advances (Grows.of_eq rfl rfl) rfl rfl

theorem resolveOutcome_advances (db : WorkerDb) (id : String) (status : OutcomeRowStatus) (value : Option Bool) :
    Advances db (resolveOutcome id status value db) := by
  refine Grows.advances ⟨fun _ _ _ _ h => (hasReport_congr rfl).mpr h, ?_⟩ rfl rfl
  intro chainId token t hgrid key hkey
  obtain ⟨o, ho, he⟩ := hgrid key hkey
  refine ⟨_, List.mem_map_of_mem ho, ?_⟩
  split
  · exact he
  · exact he

theorem commitBatch_advances (db : WorkerDb) (id : String) (blockNumber : Option Nat) (batch : List ReportContent) :
    Advances db (commitBatch id blockNumber batch db) := by
  refine Grows.advances ⟨fun _ _ _ _ h => (hasReport_commitBatch id blockNumber batch).mpr h, ?_⟩ rfl rfl
  exact fun _ _ _ h => h

/-- One event, and the exact condition under which no launch is marked without its reports. -/
theorem step_allReported (db : WorkerDb) (e : Event) (h : Invariant db) (hall : AllReported db) :
    AllReported (step cfg env db e) ↔ Finishes cfg env db e := by
  cases e with
  | t10 calls launchId => exact t10_allReported h hall
  | ingest deps io log =>
    refine iff_of_true ?_ trivial
    unfold step
    dsimp only
    split
    · exact hall.advances (ingestPool_advances h.1)
    · exact hall
  | assess calls token =>
    refine iff_of_true ?_ trivial
    unfold step
    dsimp only
    rcases runAssess_cases h.1 env.report calls token with he | ⟨l, _, inputs, block, he⟩
    · rw [he]
      exact hall
    · rw [he]
      exact hall.advances (persist_advances h.1 calls.persist _)
  | deepdive calls launchId input =>
    refine iff_of_true ?_ trivial
    unfold step
    dsimp only
    split
    · exact hall
    · exact hall.advances (persist_advances h.1 calls _)
  | commit id blockNumber batch => exact iff_of_true (hall.advances (commitBatch_advances db id blockNumber batch)) trivial
  | resolve id status value => exact iff_of_true (hall.advances (resolveOutcome_advances db id status value)) trivial

/-- At every time, whatever fails, a launch can be finished; and the marked ones are reported in exactly those runs
in which every job that sets the mark goes on to store the reports. -/
theorem reported_when_marked (cfg : ChainConfig) (env : T10Env) (events : List Event) :
    (∀ js, js <+: events → Sound cfg env (Steps.run (step cfg env) WorkerDb.empty js)) ↔
      Steps.Always (step cfg env) (Finishes cfg env) WorkerDb.empty events := by
  have hstart : AllReported WorkerDb.empty := fun l hl => nomatch hl
  have hinv : ∀ db e, Invariant db → Invariant (step cfg env db e) := fun db e h => step_invariant db e h
  rw [← Steps.prefixes_iff Invariant AllReported hinv step_allReported empty_invariant hstart]
  constructor
  · intro h js hjs l hl
    exact (h js hjs l hl).1
  · intro h js hjs l hl
    exact ⟨h js hjs l hl, rerunnable (Steps.invariant_run_free Invariant hinv empty_invariant) hl⟩

def sampleEnv : T10Env where
  maxRange := 9999
  maxRange_pos := by decide
  qualifyUniqueBuyers := 15
  entrypoints := []
  report := ⟨⟨fun _ => 0, fun _ => 1⟩, some 1#160⟩

def indexed : Event := .ingest ⟨5, false, false⟩ Enqueue.goodIngest (PollerSafety.creationLog 11 77#256)

/-- A node that has not yet seen the block of the reports. -/
def headBehind : T10Calls :=
  { answered with build := ⟨none, none, fun _ => .error ⟨"BlockNotFoundError", "Block could not be found."⟩⟩ }

/-- The launch is marked, and nothing of it is reported. -/
theorem marked_without_reports : ¬ ∀ js, js <+: [indexed, .t10 headBehind "l1"] →
    Sound sampleConfig sampleEnv (Steps.run (step sampleConfig sampleEnv) WorkerDb.empty js) := by
  intro h
  have hend := h _ (List.prefix_refl _)
  generalize hrun : Steps.run (step sampleConfig sampleEnv) WorkerDb.empty [indexed, .t10 headBehind "l1"] = db at hend
  have hmarked : (db.launches.any fun l => (db.feature l.id).any fun f => f.t10ComputedAt.isSome) = true := by
    rw [← hrun]
    decide +kernel
  have hnone : db.reports = [] := by
    rw [← hrun]
    decide +kernel
  obtain ⟨l, hl, hmarked⟩ := List.any_eq_true.mp hmarked
  obtain ⟨f, hf, hset⟩ := (Option.any_eq_true _ _).mp hmarked
  obtain ⟨t, hreports, _⟩ := (hend l hl).1 ⟨f, hf, hset⟩
  obtain ⟨r, hr, _⟩ := hreports .heuristic_v1 (by decide)
  rw [hnone] at hr
  cases hr

end LaunchAuditor.Proofs.Completion
