import LaunchAuditor.Proofs.Pending

namespace LaunchAuditor.Proofs.Recording
open Commit Job Pending Steps

/-- The commit row is there and every report of the batch is linked to it. -/
structure AllPersisted (s : JobState) (commitId : String) (r : Recording) : Prop where
  row : ∃ row ∈ s.db.commits, row.id = commitId ∧ row.txHash = r.txHash
  links : ∀ id ∈ r.ids, (∃ row ∈ s.db.reports, row.id = id) ∧
    ∀ row ∈ s.db.reports, row.id = id → row.commitId = some commitId

/-- The database is untouched and the batch stays in the slot. -/
def NothingButHeld (s s' : JobState) (r : Recording) : Prop :=
  s'.db = s.db ∧ ∃ u, s'.unconfirmed = some u ∧ u.batch = r.batch

/-- All or nothing, from the state in which `recordBatch` is called. -/
def RecordedAtomically (s s' : JobState) (commitId : String) (r : Recording) : Prop :=
  AllPersisted s' commitId r ∨ NothingButHeld s s' r

/-- No commit row has a report that a later tick could select. -/
def NoHalfRecorded (s : JobState) : Prop :=
  ∀ commitId ids, Event.created commitId ids ∈ s.seen → ∀ id ∈ ids, Linked s.db id

/-- The held batch is there to be recorded: non-empty, its reports in no commit. -/
def SlotUnlinked (s : JobState) : Prop :=
  ∀ u, s.unconfirmed = some u → u.batch ≠ [] ∧ ∀ id ∈ idsOf u.batch, Unlinked s.db id

/-- A batch on its way to `recordBatch`. -/
structure Ready (s : JobState) (r : Recording) : Prop where
  some : r.batch ≠ []
  unlinked : ∀ id ∈ r.ids, Unlinked s.db id
  apart : ∀ u, s.unconfirmed = .some u → ∀ id ∈ r.ids, id ∉ idsOf u.batch

def StageReady (s : JobState) : Stage → Prop
  | .done _ => True
  | .record r => Ready s r

variable {keccak : List UInt8 → Digest} {env : WorkerEnv}

theorem send_ready {s s' : JobState} {held : List String} {io : CommitIo} {stage : Stage}
    (hc : SendCase keccak env s held io s' stage) (h : SlotUnlinked s)
    (hout : ∀ u, s.unconfirmed = some u → ∀ id, id ∉ held → id ∉ idsOf u.batch) :
    SlotUnlinked s' ∧ StageReady s' stage ∧ s'.db = s.db := by
  cases hc with
  | idle out => exact ⟨h, trivial, rfl⟩
  | replyLost out hs hsub => exact ⟨h, trivial, rfl⟩
  | reverted out hs hsub => exact ⟨h, trivial, rfl⟩
  | unconfirmed out hs hsub hw =>
    refine ⟨?_, trivial, rfl⟩
    intro u hu
    obtain rfl := Option.some.inj hu
    exact ⟨hs.some, fun id hid => (hs.fresh hid).1⟩
  | mined hs hsub ht =>
    refine ⟨h, ⟨hs.some, ?_, ?_⟩, rfl⟩
    · intro id hid
      exact (hs.fresh hid).1
    · intro u hu id hid
      exact hout u hu id (hs.fresh hid).2

theorem prepare_ready {s s' : JobState} {io : CommitIo} {stage : Stage}
    (hc : PrepareCase keccak env s io s' stage) (h : SlotUnlinked s) :
    SlotUnlinked s' ∧ StageReady s' stage ∧ s'.db = s.db := by
  have hempty : ∀ t : JobState, t.unconfirmed = none → SlotUnlinked t := by
    intro t ht u hu
    rw [ht] at hu
    cases hu
  cases hc with
  | empty hu hc =>
    apply send_ready hc h
    intro u hv
    rw [hu] at hv
    cases hv
  | @waiting u _ _ hu ha hc =>
    apply send_ready hc h
    intro v hv id hid
    obtain rfl := Option.some.inj (hu.symm.trans hv)
    exact hid
  | dropped hu ha hc =>
    apply send_ready hc (hempty _ rfl)
    intro v hv
    cases hv
  | @finalized u tree receipt hu ha ht =>
    refine ⟨hempty _ rfl, ⟨build_batch_ne ht, (h u hu).2, ?_⟩, rfl⟩
    intro v hv
    cases hv
  | empty_batch out hu ha hb => exact ⟨hempty _ rfl, trivial, rfl⟩

theorem Ready.exists_id {s : JobState} {r : Recording} (h : Ready s r) : ∃ id, id ∈ r.ids := by
  obtain ⟨p, ps, hp⟩ := List.exists_cons_of_ne_nil h.some
  exact ⟨p.id, by simp [Recording.ids, hp]⟩

/-- Unlinked reports of the batch rule out that everything was persisted. -/
theorem Ready.not_persisted {s : JobState} {r : Recording} (h : Ready s r) (s' : JobState)
    (hdb : s'.db.reports = s.db.reports) (commitId : String) : ¬ AllPersisted s' commitId r := by
  intro hall
  obtain ⟨id, hid⟩ := h.exists_id
  obtain ⟨row, hm, he, hc⟩ := h.unlinked id hid
  have hs := (hall.links id hid).2 row (hdb ▸ hm) he
  rw [hc] at hs
  cases hs

theorem Ready.not_held {s : JobState} {r : Recording} (h : Ready s r) (s' : JobState)
    (hu : s'.unconfirmed = s.unconfirmed) : ¬ NothingButHeld s s' r := by
  intro hn
  obtain ⟨-, u, hs, hb⟩ := hn
  obtain ⟨id, hid⟩ := h.exists_id
  exact h.apart u (hu ▸ hs) id hid (hb ▸ hid)

/-- Of the ways the two writes can end, only a linked row is all or nothing: a
failed insert forgets the batch, a failed link leaves the row without reports. -/
theorem record_atomic_iff {s s' : JobState} {r : Recording} {io : CommitIo} (hc : RecordCase env r s io s')
    (h : Ready s r) :
    RecordedAtomically s s' io.commitId r ↔ io.createCommit = .ok ∧ io.linkReports.applied = true := by
  cases hc with
  | nothing hc =>
    constructor
    · intro ha
      rcases ha with ha | ha
      · exact absurd ha (h.not_persisted _ rfl _)
      · exact absurd ha (h.not_held _ rfl)
    · intro ha
      rw [ha.1] at hc
      cases hc
  | rowOnly hc hl =>
    constructor
    · intro ha
      rcases ha with ha | ha
      · exact absurd ha (h.not_persisted (s.insertCommit (r.row env io) r.ids) rfl io.commitId)
      · exact absurd ha (h.not_held (s.insertCommit (r.row env io) r.ids) rfl)
    · intro ha
      rcases hl with hl | hl
      · exact absurd ha.1 hl
      · rw [ha.2] at hl
        cases hl
  | both hc hl =>
    refine ⟨fun _ => ⟨hc, hl⟩, fun _ => Or.inl ⟨?_, ?_⟩⟩
    · refine ⟨r.row env io, ?_, rfl, rfl⟩
      rw [linkReports_commits]
      exact List.mem_append_right _ (List.mem_singleton_self _)
    · intro id hid
      obtain ⟨row, hm, he, -⟩ := h.unlinked id hid
      refine ⟨?_, ?_⟩
      · have hk : ∃ row ∈ (s.insertCommit (r.row env io) r.ids).db.reports, row.id = id := ⟨row, hm, he⟩
        exact linkReports_known io.commitId r.batch hk
      · intro row hm he
        exact linkReports_linked _ io.commitId r.batch hm (he ▸ hid)

/-- Recording touches no report of the batch that is still held. -/
theorem record_slot {s s' : JobState} {r : Recording} {io : CommitIo} (hc : RecordCase env r s io s')
    (h : Ready s r) (hs : SlotUnlinked s) : SlotUnlinked s' := by
  cases hc with
  | nothing => exact hs
  | rowOnly => exact hs
  | both =>
    intro u hu
    refine ⟨(hs u hu).1, ?_⟩
    intro id hid
    have hun : Unlinked (s.insertCommit (r.row env io) r.ids).db id := (hs u hu).2 id hid
    refine hun.linkReports io.commitId ?_
    intro hin
    exact h.apart u hu id hin hid

theorem step_slot (s : JobState) (i : Step) (h : SlotUnlinked s) : SlotUnlinked (step keccak env s i) := by
  cases i with
  | arrive report validatorPassed =>
    intro u hu
    refine ⟨(h u hu).1, ?_⟩
    intro id hid
    exact ((h u hu).2 id hid).arrive report validatorPassed
  | tick io =>
    obtain ⟨hslot, hstage, -⟩ := prepare_ready (prepare_cases keccak env s io) h
    rcases runCommitBatch_cases keccak env s io with ⟨reason, -, hs⟩ | ⟨out, hp, hs⟩ | ⟨r, hp, hs⟩
    · simp only [step, hs]
      exact h
    · simp only [step, hs]
      exact hslot
    · rw [hp] at hstage
      exact record_slot hs hstage hslot

/-- The row insert succeeds and the links are applied. -/
def CleanWrites : Step → Prop
  | .tick io => io.createCommit = .ok ∧ io.linkReports.applied = true
  | .arrive .. => True

/-- The invariant behind `NoHalfRecorded`: the reports of a created row exist and
are linked. -/
def RowsLinked (s : JobState) : Prop :=
  ∀ commitId ids, Event.created commitId ids ∈ s.seen → ∀ id ∈ ids,
    (∃ row ∈ s.db.reports, row.id = id) ∧ Linked s.db id

def Event.isCreated : Event → Bool
  | .created .. => true
  | _ => false

theorem RowsLinked.note {s : JobState} (h : RowsLinked s) {e : Event} (he : Event.isCreated e = false) :
    RowsLinked (s.note e) := by
  intro commitId ids hm id hid
  rcases List.mem_append.mp hm with hm | hm
  · exact h commitId ids hm id hid
  · obtain rfl := List.mem_singleton.mp hm
    cases he

theorem send_rows {s s' : JobState} {held : List String} {io : CommitIo} {stage : Stage}
    (hc : SendCase keccak env s held io s' stage) (h : RowsLinked s) : RowsLinked s' := by
  cases hc with
  | idle => exact h
  | replyLost => exact h.note rfl
  | @unconfirmed batch txHash msg out =>
    have hn : RowsLinked (s.note (.submitted txHash (idsOf batch) io.sentAt)) := h.note rfl
    exact hn
  | reverted => exact (h.note rfl).note rfl
  | mined => exact (h.note rfl).note rfl

theorem lookupEvent_not_created (u : UnconfirmedBatch) (io : CommitIo) :
    Event.isCreated (u.lookupEvent io) = false := by
  unfold UnconfirmedBatch.lookupEvent
  split <;> rfl

theorem prepare_rows {s s' : JobState} {io : CommitIo} {stage : Stage}
    (hc : PrepareCase keccak env s io s' stage) (h : RowsLinked s) : RowsLinked s' := by
  cases hc with
  | empty hu hc => exact send_rows hc h
  | @waiting u _ _ hu ha hc => exact send_rows hc (h.note (lookupEvent_not_created u io))
  | @dropped u _ _ hu ha hc => exact send_rows hc (h.note (lookupEvent_not_created u io))
  | @finalized u tree receipt hu ha ht => exact h.note (lookupEvent_not_created u io)
  | @empty_batch u out hu ha hb => exact h.note (lookupEvent_not_created u io)

theorem record_rows {s s' : JobState} {r : Recording} {io : CommitIo} (hc : RecordCase env r s io s')
    (hclean : CleanWrites (.tick io)) (h : RowsLinked s) (hready : Ready s r) : RowsLinked s' := by
  obtain ⟨hcreate, hlink⟩ := hclean
  cases hc with
  | nothing hc =>
    rw [hcreate] at hc
    cases hc
  | rowOnly hc hl =>
    rcases hl with hl | hl
    · exact absurd hcreate hl
    · rw [hlink] at hl
      cases hl
  | both =>
    intro commitId ids hm id hid
    rcases List.mem_append.mp hm with hm | hm
    · obtain ⟨hk, hl⟩ := h commitId ids hm id hid
      have hk' : ∃ row ∈ (s.insertCommit (r.row env io) r.ids).db.reports, row.id = id := hk
      have hl' : Linked (s.insertCommit (r.row env io) r.ids).db id := hl
      exact ⟨linkReports_known io.commitId r.batch hk', hl'.linkReports io.commitId r.batch⟩
    · obtain ⟨-, rfl⟩ := Event.created.inj (List.mem_singleton.mp hm)
      obtain ⟨row, hrow, he, -⟩ := hready.unlinked id hid
      have hk : ∃ row ∈ (s.insertCommit (r.row env io) r.ids).db.reports, row.id = id := ⟨row, hrow, he⟩
      refine ⟨linkReports_known io.commitId r.batch hk, ?_⟩
      intro row hm he
      rw [linkReports_linked _ io.commitId r.batch hm (he ▸ hid)]
      exact Option.some_ne_none _

theorem step_rows (s : JobState) (i : Step) (h : SlotUnlinked s ∧ RowsLinked s) (hclean : CleanWrites i) :
    SlotUnlinked (step keccak env s i) ∧ RowsLinked (step keccak env s i) := by
  refine ⟨step_slot s i h.1, ?_⟩
  obtain ⟨hslot, hrows⟩ := h
  cases i with
  | arrive report validatorPassed =>
    intro commitId ids hm id hid
    obtain ⟨hk, hl⟩ := hrows commitId ids hm id hid
    exact ⟨arrive_known report validatorPassed hk, Linked.arrive hl hk report validatorPassed⟩
  | tick io =>
    have hprep := prepare_rows (prepare_cases keccak env s io) hrows
    obtain ⟨-, hstage, -⟩ := prepare_ready (prepare_cases keccak env s io) hslot
    rcases runCommitBatch_cases keccak env s io with ⟨reason, -, hs⟩ | ⟨out, hp, hs⟩ | ⟨r, hp, hs⟩
    · simp only [step, hs]
      exact hrows
    · simp only [step, hs]
      exact hprep
    · rw [hp] at hstage
      exact record_rows hs hclean hprep hstage

theorem start_slot (db : Db) : SlotUnlinked (start db) := by
  intro u hu
  cases hu

theorem start_rows (db : Db) : RowsLinked (start db) := by
  intro commitId ids hm
  cases hm

theorem reachable_atomic_iff (keccak : List UInt8 → Digest) (env : WorkerEnv) (db : Db) (steps : List Step)
    {io : CommitIo} {r : Recording} {cfg : Hex × Hex} (hcfg : requireCommitEnv env = .ok cfg)
    (hrec : (prepare keccak env (run (step keccak env) (start db) steps) io).2 = .record r) :
    RecordedAtomically (prepare keccak env (run (step keccak env) (start db) steps) io).1
        (runCommitBatch keccak env (run (step keccak env) (start db) steps) io).1 io.commitId r ↔
      io.createCommit = .ok ∧ io.linkReports.applied = true := by
  have hslot : SlotUnlinked (run (step keccak env) (start db) steps) :=
    invariant_run_free SlotUnlinked step_slot (start_slot db)
  obtain ⟨-, hstage, -⟩ := prepare_ready (prepare_cases keccak env _ io) hslot
  rw [hrec] at hstage
  rcases runCommitBatch_cases keccak env (run (step keccak env) (start db) steps) io with
    ⟨reason, he, -⟩ | ⟨out, hp, -⟩ | ⟨r', hp, hs⟩
  · rw [hcfg] at he
    cases he
  · rw [hrec] at hp
    cases hp
  · rw [hrec] at hp
    obtain rfl := Stage.record.inj hp
    exact record_atomic_iff hs hstage

/-- In every reachable state a recording is all or nothing exactly when the row
insert succeeds and the links are applied, and a run of such recordings leaves no
commit row with an unlinked report. -/
theorem recording_atomic (keccak : List UInt8 → Digest) (env : WorkerEnv) (db : Db) (steps : List Step) :
    (∀ io r cfg, requireCommitEnv env = .ok cfg →
      (prepare keccak env (run (step keccak env) (start db) steps) io).2 = .record r →
      (RecordedAtomically (prepare keccak env (run (step keccak env) (start db) steps) io).1
          (runCommitBatch keccak env (run (step keccak env) (start db) steps) io).1 io.commitId r ↔
        io.createCommit = .ok ∧ io.linkReports.applied = true)) ∧
    (Always (step keccak env) (fun _ i => CleanWrites i) (start db) steps →
      NoHalfRecorded (run (step keccak env) (start db) steps)) := by
  constructor
  · intro io r cfg hcfg hrec
    exact reachable_atomic_iff keccak env db steps hcfg hrec
  · intro hclean commitId ids hm id hid
    have hinv := invariant_run (fun s => SlotUnlinked s ∧ RowsLinked s) step_rows
      ⟨start_slot db, start_rows db⟩ hclean
    exact (hinv.2 commitId ids hm id hid).2

/-- A tick whose transaction is mined at once. -/
def minedTick (linkReports : DbOutcome) : CommitIo :=
  { force := true, lookup := .error "not found", lookupAt := 0, findPending := .ok (), now := 0
    submission := .sent [.ofNibble 9], sentAt := 0, polls := [.found minedReceipt], createCommit := .ok
    commitId := "c", committedAt := 0, linkReports }

def Stage.isRecord : Stage → Bool
  | .record _ => true
  | .done _ => false

theorem recording_atomic_sample :
    (∀ io r cfg, requireCommitEnv smallEnv = .ok cfg →
      (prepare constantDigest smallEnv
        (run (step constantDigest smallEnv) (start smallDb) [.tick (minedTick .ok)]) io).2 = .record r →
      (RecordedAtomically
          (prepare constantDigest smallEnv
            (run (step constantDigest smallEnv) (start smallDb) [.tick (minedTick .ok)]) io).1
          (runCommitBatch constantDigest smallEnv
            (run (step constantDigest smallEnv) (start smallDb) [.tick (minedTick .ok)]) io).1 io.commitId r ↔
        io.createCommit = .ok ∧ io.linkReports.applied = true)) ∧
    NoHalfRecorded (run (step constantDigest smallEnv) (start smallDb) [.tick (minedTick .ok)]) := by
  obtain ⟨hatomic, hruns⟩ := recording_atomic constantDigest smallEnv smallDb [.tick (minedTick .ok)]
  exact ⟨hatomic, hruns ⟨⟨rfl, rfl⟩, trivial⟩⟩

/-- The link transaction fails: the commit row stays, its report is unlinked, and
the next tick sends it again. -/
theorem recording_not_atomic :
    (¬ ∀ (keccak : List UInt8 → Digest) (env : WorkerEnv) (db : Db) (steps : List Step) io r cfg,
      requireCommitEnv env = .ok cfg →
      (prepare keccak env (run (step keccak env) (start db) steps) io).2 = .record r →
      RecordedAtomically (prepare keccak env (run (step keccak env) (start db) steps) io).1
        (runCommitBatch keccak env (run (step keccak env) (start db) steps) io).1 io.commitId r) ∧
    (run (step constantDigest smallEnv) (start smallDb)
        [.tick (minedTick (.failed "deadlock")), .tick (minedTick .ok)]).seen =
      [.submitted [.ofNibble 9] ["a"] 0, .receiptSeen [.ofNibble 9] .success, .created "c" ["a"],
       .submitted [.ofNibble 9] ["a"] 0, .receiptSeen [.ofNibble 9] .success, .created "c" ["a"]] := by
  constructor
  · intro h
    cases hp : (prepare constantDigest smallEnv (start smallDb) (minedTick (.failed "deadlock"))).2 with
    | done out =>
      have hrec : Stage.isRecord (prepare constantDigest smallEnv (start smallDb) (minedTick (.failed "deadlock"))).2 =
          true := by decide +kernel
      rw [hp] at hrec
      cases hrec
    | record r =>
      have ha := h constantDigest smallEnv smallDb [] (minedTick (.failed "deadlock")) r ([], []) rfl hp
      have hcfg : requireCommitEnv smallEnv = .ok ([], []) := rfl
      obtain ⟨-, hl⟩ := (reachable_atomic_iff constantDigest smallEnv smallDb [] hcfg hp).mp ha
      cases hl
  · decide +kernel

end LaunchAuditor.Proofs.Recording
