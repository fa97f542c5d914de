import LaunchAuditor.Commit.Job
import LaunchAuditor.Proofs.Merkle

namespace LaunchAuditor.Proofs.Pending
open Commit Job

variable {keccak : List UInt8 → Digest}

/-- A row of this id is there and belongs to no commit. -/
def Unlinked (db : Db) (id : String) : Prop := ∃ row ∈ db.reports, row.id = id ∧ row.commitId = none

/-- Every row of this id belongs to a commit, so no tick selects it. -/
def Linked (db : Db) (id : String) : Prop := ∀ row ∈ db.reports, row.id = id → row.commitId ≠ none

theorem Unlinked.not_linked {db : Db} {id : String} (h : Unlinked db id) : ¬ Linked db id := by
  intro hl
  obtain ⟨row, hm, he, hc⟩ := h
  exact hl row hm he hc

theorem mem_findPending {db : Db} {held : List String} {p : PendingReport} (h : p ∈ findPending db held) :
    Unlinked db p.id ∧ p.id ∉ held := by
  unfold findPending at h
  rw [List.mem_insertionSort] at h
  obtain ⟨row, hrow, rfl⟩ := List.mem_map.mp h
  obtain ⟨hm, hf⟩ := List.mem_filter.mp hrow
  simp only [Bool.and_eq_true, Bool.not_eq_true', List.contains_eq_mem, decide_eq_false_iff_not,
    Option.isNone_iff_eq_none] at hf
  exact ⟨⟨row, hm, rfl, hf.1.2⟩, hf.2⟩

theorem mem_selectBatch {env : WorkerEnv} {db : Db} {held : List String} {force : Bool} {now : Int}
    {batch : List PendingReport} (h : selectBatch env db held force now = .ok batch) {p : PendingReport}
    (hp : p ∈ batch) : Unlinked db p.id ∧ p.id ∉ held := by
  unfold selectBatch at h
  cases hf : findPending db held with
  | nil => simp [hf] at h
  | cons oldest others =>
    simp only [hf] at h
    split at h
    · obtain rfl := Except.ok.inj h
      apply mem_findPending
      rw [hf]
      exact List.mem_of_mem_take hp
    · cases h

/-- `buildMerkleTree` fails on no batch but the empty one. -/
theorem build_batch_ok (keccak : List UInt8 → Digest) {batch : List PendingReport} (hne : batch ≠ []) :
    ∃ tree, buildMerkleTree keccak (batch.map PendingReport.reportHash) = .ok tree := by
  have hne' : batch.map PendingReport.reportHash ≠ [] := by simpa using hne
  obtain ⟨tree, t, hok, -⟩ := Merkle.buildMerkleTree_spec keccak hne'
  exact ⟨tree, hok⟩

theorem build_batch_ne {batch : List PendingReport} {tree : MerkleTree}
    (h : buildMerkleTree keccak (batch.map PendingReport.reportHash) = .ok tree) : batch ≠ [] := by
  intro he
  simp [he, buildMerkleTree] at h

/-- The tick goes on to send `batch`. -/
structure Sends (env : WorkerEnv) (db : Db) (held : List String) (io : CommitIo)
    (batch : List PendingReport) : Prop where
  read : io.findPending = .ok ()
  selected : selectBatch env db held io.force io.now = .ok batch
  some : batch ≠ []

def idsOf (batch : List PendingReport) : List String := batch.map PendingReport.id

theorem Sends.fresh {env : WorkerEnv} {db : Db} {held : List String} {io : CommitIo}
    {batch : List PendingReport} (h : Sends env db held io batch) {id : String} (hid : id ∈ idsOf batch) :
    Unlinked db id ∧ id ∉ held := by
  obtain ⟨p, hp, rfl⟩ := List.mem_map.mp hid
  exact mem_selectBatch h.selected hp

/-- One row under the updates of a whole batch. -/
def linkRow (commitId : String) (batch : List PendingReport) (row : Report) : Report :=
  batch.foldl (fun row r =>
    if row.id = r.id then
      { row with commitId := some commitId, merkleLeafHash := some r.reportHash.toLowerCase }
    else row) row

theorem linkReports_reports (db : Db) (commitId : String) (batch : List PendingReport) :
    (db.linkReports commitId batch).reports = db.reports.map (linkRow commitId batch) := by
  induction batch generalizing db with
  | nil => exact (List.map_id' db.reports).symm
  | cons r batch ih =>
    change ((db.linkReport commitId r).linkReports commitId batch).reports = _
    rw [ih, Db.linkReport, List.map_map]
    rfl

theorem linkReports_commits (db : Db) (commitId : String) (batch : List PendingReport) :
    (db.linkReports commitId batch).commits = db.commits := by
  induction batch generalizing db with
  | nil => rfl
  | cons r batch ih => exact ih (db.linkReport commitId r)

theorem linkRow_toPending (commitId : String) (batch : List PendingReport) (row : Report) :
    (linkRow commitId batch row).toPending = row.toPending := by
  induction batch generalizing row with
  | nil => rfl
  | cons r batch ih =>
    refine (ih _).trans ?_
    dsimp only
    split <;> rfl

theorem linkRow_id (commitId : String) (batch : List PendingReport) (row : Report) :
    (linkRow commitId batch row).id = row.id :=
  congrArg PendingReport.id (linkRow_toPending commitId batch row)

theorem linkRow_reportHash (commitId : String) (batch : List PendingReport) (row : Report) :
    (linkRow commitId batch row).reportHash = row.reportHash :=
  congrArg PendingReport.reportHash (linkRow_toPending commitId batch row)

theorem linkRow_createdAt (commitId : String) (batch : List PendingReport) (row : Report) :
    (linkRow commitId batch row).createdAt = row.createdAt :=
  congrArg PendingReport.createdAt (linkRow_toPending commitId batch row)

theorem linkRow_validatorPassed (commitId : String) (batch : List PendingReport) (row : Report) :
    (linkRow commitId batch row).validatorPassed = row.validatorPassed := by
  induction batch generalizing row with
  | nil => rfl
  | cons r batch ih =>
    refine (ih _).trans ?_
    dsimp only
    split <;> rfl

theorem linkRow_commitId (commitId : String) (batch : List PendingReport) (row : Report) :
    (linkRow commitId batch row).commitId = if row.id ∈ idsOf batch then some commitId else row.commitId := by
  induction batch generalizing row with
  | nil => rfl
  | cons r batch ih =>
    refine (ih _).trans ?_
    by_cases hr : row.id = r.id
    · simp [hr, idsOf]
    · simp [hr, idsOf]

theorem linkReports_linked (db : Db) (commitId : String) (batch : List PendingReport) {row : Report}
    (hm : row ∈ (db.linkReports commitId batch).reports) (hid : row.id ∈ idsOf batch) :
    row.commitId = some commitId := by
  rw [linkReports_reports] at hm
  obtain ⟨old, _, rfl⟩ := List.mem_map.mp hm
  rw [linkRow_id] at hid
  rw [linkRow_commitId, if_pos hid]

/-- Linking keeps every row and never unlinks one. -/
theorem linkReports_known {db : Db} {id : String} (commitId : String) (batch : List PendingReport)
    (h : ∃ row ∈ db.reports, row.id = id) : ∃ row ∈ (db.linkReports commitId batch).reports, row.id = id := by
  obtain ⟨row, hm, rfl⟩ := h
  rw [linkReports_reports]
  exact ⟨_, List.mem_map_of_mem hm, linkRow_id commitId batch row⟩

theorem Linked.linkReports {db : Db} {id : String} (h : Linked db id) (commitId : String)
    (batch : List PendingReport) : Linked (db.linkReports commitId batch) id := by
  intro row hm hid
  rw [linkReports_reports] at hm
  obtain ⟨old, hold, rfl⟩ := List.mem_map.mp hm
  rw [linkRow_id] at hid
  rw [linkRow_commitId]
  split
  · exact Option.some_ne_none _
  · exact h old hold hid

theorem Unlinked.linkReports {db : Db} {id : String} (h : Unlinked db id) (commitId : String)
    {batch : List PendingReport} (hid : id ∉ idsOf batch) : Unlinked (db.linkReports commitId batch) id := by
  obtain ⟨row, hm, rfl, hc⟩ := h
  refine ⟨linkRow commitId batch row, ?_, linkRow_id commitId batch row, ?_⟩
  · rw [linkReports_reports]
    exact List.mem_map_of_mem hm
  · rw [linkRow_commitId, if_neg hid, hc]

theorem arrive_reports (db : Db) (p : PendingReport) (validatorPassed : Bool) :
    (db.arrive p validatorPassed).reports = db.reports ∨
      (∀ row ∈ db.reports, row.id ≠ p.id) ∧ ∃ row, row.id = p.id ∧
        (db.arrive p validatorPassed).reports = db.reports ++ [row] := by
  unfold Db.arrive
  split
  · exact Or.inl rfl
  · rename_i h
    refine Or.inr ⟨?_, _, rfl, rfl⟩
    intro row hm he
    exact h (List.any_eq_true.mpr ⟨row, hm, by simpa using he⟩)

theorem arrive_known {db : Db} {id : String} (p : PendingReport) (validatorPassed : Bool)
    (h : ∃ row ∈ db.reports, row.id = id) : ∃ row ∈ (db.arrive p validatorPassed).reports, row.id = id := by
  obtain ⟨row, hm, he⟩ := h
  rcases arrive_reports db p validatorPassed with hr | ⟨_, new, _, hr⟩
  · exact ⟨row, hr ▸ hm, he⟩
  · exact ⟨row, hr ▸ List.mem_append_left _ hm, he⟩

/-- An insert takes a new id, so it undoes no link. -/
theorem Linked.arrive {db : Db} {id : String} (h : Linked db id) (hk : ∃ row ∈ db.reports, row.id = id)
    (p : PendingReport) (validatorPassed : Bool) : Linked (db.arrive p validatorPassed) id := by
  intro row hm he
  rcases arrive_reports db p validatorPassed with hr | ⟨hfresh, new, hid, hr⟩
  · exact h row (hr ▸ hm) he
  · rw [hr] at hm
    rcases List.mem_append.mp hm with hm | hm
    · exact h row hm he
    · obtain rfl := List.mem_singleton.mp hm
      obtain ⟨old, hold, ho⟩ := hk
      exact absurd (ho.trans (he.symm.trans hid)) (hfresh old hold)

theorem Unlinked.arrive {db : Db} {id : String} (h : Unlinked db id) (p : PendingReport)
    (validatorPassed : Bool) : Unlinked (db.arrive p validatorPassed) id := by
  obtain ⟨row, hm, he, hc⟩ := h
  rcases arrive_reports db p validatorPassed with hr | ⟨_, new, _, hr⟩
  · exact ⟨row, hr ▸ hm, he, hc⟩
  · exact ⟨row, hr ▸ List.mem_append_left _ hm, he, hc⟩

/-- Everything `sendNext` can do. -/
inductive SendCase (keccak : List UInt8 → Digest) (env : WorkerEnv) (s : JobState) (held : List String)
    (io : CommitIo) : JobState → Stage → Prop
  | idle (out) : SendCase keccak env s held io s (.done out)
  | replyLost {batch txHash msg} (out) (hs : Sends env s.db held io batch)
      (hsub : io.submission = .replyLost txHash msg) :
      SendCase keccak env s held io (s.note (.submitted txHash (idsOf batch) io.sentAt)) (.done out)
  | unconfirmed {batch txHash msg} (out) (hs : Sends env s.db held io batch)
      (hsub : io.submission = .sent txHash) (hw : waitReceipt txHash io.polls none 240000 = .error msg) :
      SendCase keccak env s held io
        { s.note (.submitted txHash (idsOf batch) io.sentAt) with unconfirmed := some ⟨txHash, batch, io.sentAt⟩ }
        (.done out)
  | reverted {batch txHash} (out) (hs : Sends env s.db held io batch) (hsub : io.submission = .sent txHash) :
      SendCase keccak env s held io
        ((s.note (.submitted txHash (idsOf batch) io.sentAt)).note (.receiptSeen txHash .reverted)) (.done out)
  | mined {batch txHash tree receipt} (hs : Sends env s.db held io batch)
      (hsub : io.submission = .sent txHash)
      (ht : buildMerkleTree keccak (batch.map PendingReport.reportHash) = .ok tree) :
      SendCase keccak env s held io
        ((s.note (.submitted txHash (idsOf batch) io.sentAt)).note (.receiptSeen txHash .success))
        (.record ⟨batch, tree, txHash, receipt⟩)

theorem submitBatch_cases {env : WorkerEnv} {s : JobState} {held : List String} {io : CommitIo}
    {batch : List PendingReport} {tree : MerkleTree} (hs : Sends env s.db held io batch)
    (ht : buildMerkleTree keccak (batch.map PendingReport.reportHash) = .ok tree) :
    SendCase keccak env s held io (submitBatch s batch tree io).1 (submitBatch s batch tree io).2 := by
  unfold submitBatch
  cases hsub : io.submission with
  | rejected msg => exact .idle _
  | replyLost txHash msg => exact .replyLost _ hs hsub
  | sent txHash =>
    cases hw : waitReceipt txHash io.polls none 240000 with
    | error msg =>
      simp only [hw]
      exact .unconfirmed _ hs hsub hw
    | ok receipt =>
      cases hst : receipt.status with
      | success =>
        simp only [hw, hst]
        exact .mined hs hsub ht
      | reverted =>
        simp only [hw, hst]
        exact .reverted _ hs hsub

theorem sendNext_cases (keccak : List UInt8 → Digest) (env : WorkerEnv) (s : JobState) (held : List String) (io : CommitIo) :
    SendCase keccak env s held io (sendNext keccak env s held io).1 (sendNext keccak env s held io).2 := by
  unfold sendNext
  cases hread : io.findPending with
  | error msg => exact .idle _
  | ok u =>
    cases hsel : selectBatch env s.db held io.force io.now with
    | error reason => exact .idle _
    | ok batch =>
      cases ht : buildMerkleTree keccak (batch.map PendingReport.reportHash) with
      | error msg =>
        simp only [ht]
        exact .idle _
      | ok tree =>
        simp only [ht]
        exact submitBatch_cases ⟨hread, hsel, build_batch_ne ht⟩ ht

/-- Everything a tick can do before it records: the held batch is settled first. -/
inductive PrepareCase (keccak : List UInt8 → Digest) (env : WorkerEnv) (s : JobState) (io : CommitIo) :
    JobState → Stage → Prop
  | empty {s' stage} (hu : s.unconfirmed = none) (hc : SendCase keccak env s [] io s' stage) :
      PrepareCase keccak env s io s' stage
  | waiting {u s' stage} (hu : s.unconfirmed = some u) (ha : u.action io = .wait)
      (hc : SendCase keccak env (s.note (u.lookupEvent io)) (idsOf u.batch) io s' stage) :
      PrepareCase keccak env s io s' stage
  | dropped {u s' stage} (hu : s.unconfirmed = some u)
      (ha : u.action io = .dropReverted ∨ u.action io = .dropExpired)
      (hc : SendCase keccak env { s.note (u.lookupEvent io) with unconfirmed := none } [] io s' stage) :
      PrepareCase keccak env s io s' stage
  | finalized {u tree receipt} (hu : s.unconfirmed = some u) (ha : u.action io = .finalize)
      (ht : buildMerkleTree keccak (u.batch.map PendingReport.reportHash) = .ok tree) :
      PrepareCase keccak env s io { s.note (u.lookupEvent io) with unconfirmed := none }
        (.record ⟨u.batch, tree, u.txHash, receipt⟩)
  | empty_batch {u} (out) (hu : s.unconfirmed = some u) (ha : u.action io = .finalize) (hb : u.batch = []) :
      PrepareCase keccak env s io { s.note (u.lookupEvent io) with unconfirmed := none } (.done out)

theorem action_finalize {u : UnconfirmedBatch} {io : CommitIo} (h : u.action io = .finalize) :
    ∃ receipt, io.lookup = .ok receipt := by
  unfold UnconfirmedBatch.action at h
  cases hl : io.lookup with
  | ok receipt => exact ⟨receipt, rfl⟩
  | error msg =>
    simp only [hl, Except.toOption, Option.map_none, unconfirmedAction] at h
    split at h <;> cases h

theorem prepare_cases (keccak : List UInt8 → Digest) (env : WorkerEnv) (s : JobState) (io : CommitIo) :
    PrepareCase keccak env s io (prepare keccak env s io).1 (prepare keccak env s io).2 := by
  unfold prepare
  cases hu : s.unconfirmed with
  | none => exact .empty hu (sendNext_cases keccak env s [] io)
  | some u =>
    simp only
    cases ha : u.action io with
    | wait => exact .waiting hu ha (sendNext_cases keccak env _ _ io)
    | dropReverted => exact .dropped hu (Or.inl ha) (sendNext_cases keccak env _ _ io)
    | dropExpired => exact .dropped hu (Or.inr ha) (sendNext_cases keccak env _ _ io)
    | finalize =>
      obtain ⟨receipt, hl⟩ := action_finalize ha
      by_cases hb : u.batch = []
      · have he : buildMerkleTree keccak (u.batch.map PendingReport.reportHash) =
            .error "buildMerkleTree: no leaves" := by simp [hb, buildMerkleTree]
        simp only [he]
        exact .empty_batch _ hu ha hb
      · obtain ⟨tree, ht⟩ := build_batch_ok keccak hb
        simp only [ht, hl]
        exact .finalized hu ha ht

theorem send_db {env : WorkerEnv} {s s' : JobState} {held : List String} {io : CommitIo} {stage : Stage}
    (hc : SendCase keccak env s held io s' stage) : s'.db = s.db := by
  cases hc <;> rfl

theorem prepare_db {env : WorkerEnv} (s : JobState) (io : CommitIo) : (prepare keccak env s io).1.db = s.db := by
  have hcase := prepare_cases keccak env s io
  generalize prepare keccak env s io = out at hcase
  obtain ⟨s', stage⟩ := out
  cases hcase with
  | empty hu hc => exact send_db hc
  | waiting hu ha hc =>
    have h := send_db hc
    exact h
  | dropped hu ha hc =>
    have h := send_db hc
    exact h
  | finalized hu ha ht => rfl
  | empty_batch out hu ha hb => rfl

/-- What `recordBatch` leaves behind, by how far its two writes got. -/
inductive RecordCase (env : WorkerEnv) (r : Recording) (s : JobState) (io : CommitIo) : JobState → Prop
  | nothing (hc : io.createCommit.applied = false) : RecordCase env r s io s
  | rowOnly (hc : io.createCommit.applied = true)
      (hl : io.createCommit ≠ .ok ∨ io.linkReports.applied = false) :
      RecordCase env r s io (s.insertCommit (r.row env io) r.ids)
  | both (hc : io.createCommit = .ok) (hl : io.linkReports.applied = true) :
      RecordCase env r s io
        { s.insertCommit (r.row env io) r.ids with
          db := (s.insertCommit (r.row env io) r.ids).db.linkReports io.commitId r.batch }

theorem recordBatch_cases (env : WorkerEnv) (registry : Hex) (r : Recording) (s : JobState) (io : CommitIo) :
    RecordCase env r s io (recordBatch env registry r s io).1 := by
  unfold recordBatch
  cases hc : io.createCommit with
  | failed msg => exact .nothing (by simp [hc, DbOutcome.applied])
  | ackLost msg => exact .rowOnly (by simp [hc, DbOutcome.applied]) (by simp [hc])
  | ok =>
    cases hl : io.linkReports with
    | failed msg => exact .rowOnly (by simp [hc, DbOutcome.applied]) (by simp [hl, DbOutcome.applied])
    | ackLost msg => exact .both hc (by simp [hl, DbOutcome.applied])
    | ok => exact .both hc (by simp [hl, DbOutcome.applied])

/-- A tick does nothing, stops before recording, or records. -/
theorem runCommitBatch_cases (keccak : List UInt8 → Digest) (env : WorkerEnv) (s : JobState) (io : CommitIo) :
    (∃ reason, requireCommitEnv env = .error reason ∧ (runCommitBatch keccak env s io).1 = s) ∨
    (∃ out, (prepare keccak env s io).2 = .done out ∧
      (runCommitBatch keccak env s io).1 = (prepare keccak env s io).1) ∨
    ∃ r, (prepare keccak env s io).2 = .record r ∧
      RecordCase env r (prepare keccak env s io).1 io (runCommitBatch keccak env s io).1 := by
  unfold runCommitBatch
  cases hreq : requireCommitEnv env with
  | error reason => exact Or.inl ⟨reason, rfl, rfl⟩
  | ok cfg =>
    cases hp : prepare keccak env s io with
    | mk s' stage =>
      cases stage with
      | done out => exact Or.inr (Or.inl ⟨out, rfl, rfl⟩)
      | record r => exact Or.inr (Or.inr ⟨r, rfl, recordBatch_cases env cfg.2 r s' io⟩)

/-- A tick links one batch, or none. -/
theorem tick_reports (keccak : List UInt8 → Digest) (env : WorkerEnv) (s : JobState) (io : CommitIo) :
    ∃ commitId batch, (step keccak env s (.tick io)).db.reports = s.db.reports.map (linkRow commitId batch) := by
  have hnone : s.db.reports = s.db.reports.map (linkRow io.commitId []) := (List.map_id' s.db.reports).symm
  change ∃ commitId batch, (runCommitBatch keccak env s io).1.db.reports = _
  rcases runCommitBatch_cases keccak env s io with ⟨_, _, he⟩ | ⟨_, _, he⟩ | ⟨r, _, hc⟩
  · exact ⟨io.commitId, [], by rw [he]; exact hnone⟩
  · exact ⟨io.commitId, [], by rw [he, prepare_db]; exact hnone⟩
  · obtain ⟨s', hs'⟩ : ∃ s', (prepare keccak env s io).1 = s' := ⟨_, rfl⟩
    have hdb : s'.db = s.db := by rw [← hs', prepare_db]
    rw [hs'] at hc
    generalize (runCommitBatch keccak env s io).1 = after at hc
    cases hc with
    | nothing hc => exact ⟨io.commitId, [], by rw [hdb]; exact hnone⟩
    | rowOnly hc hl =>
      refine ⟨io.commitId, [], ?_⟩
      change s'.db.reports = _
      rw [hdb]
      exact hnone
    | both hc hl =>
      refine ⟨io.commitId, r.batch, ?_⟩
      rw [linkReports_reports]
      change s'.db.reports.map _ = _
      rw [hdb]

/-- One report that waits. -/
def smallDb : Db := ⟨[⟨"a", List.replicate 64 (.ofNibble 1), 0, true, none, none⟩], []⟩

def minedReceipt : TransactionReceipt := ⟨.success, [], 7⟩

end LaunchAuditor.Proofs.Pending
