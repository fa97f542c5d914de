import LaunchAuditor.Proofs.Pending

namespace LaunchAuditor.Proofs.AnchoredOnce
open Commit Job Pending Steps

/-- The transaction was seen reverted, or seen without a receipt at full age. -/
def Released (txHash : Hex) (sentAt : Int) (later : List Event) : Prop :=
  Event.receiptSeen txHash .reverted ∈ later ∨
    ∃ now, Event.noReceipt txHash now ∈ later ∧ UNCONFIRMED_MAX_AGE_MS ≤ now - sentAt

/-- Two submissions share a report only if the earlier one was released in between. -/
def NoDoubleAnchor (seen : List Event) : Prop :=
  ∀ txHash ids sentAt between txHash' ids' sentAt' later,
    After seen (.submitted txHash ids sentAt) (between ++ .submitted txHash' ids' sentAt' :: later) →
    ∀ id ∈ ids, id ∈ ids' → Released txHash sentAt between

theorem Released.mono {txHash : Hex} {sentAt : Int} {later : List Event} (h : Released txHash sentAt later)
    (e : Event) : Released txHash sentAt (later ++ [e]) := by
  rcases h with h | ⟨now, h, ha⟩
  · exact Or.inl (List.mem_append_left _ h)
  · exact Or.inr ⟨now, List.mem_append_left _ h, ha⟩

theorem Released.last {txHash : Hex} {sentAt : Int} {e : Event} (h : Released txHash sentAt [e])
    (later : List Event) : Released txHash sentAt (later ++ [e]) := by
  rcases h with h | ⟨now, h, ha⟩
  · exact Or.inl (List.mem_append_right _ h)
  · exact Or.inr ⟨now, List.mem_append_right _ h, ha⟩

/-- Every submission that is not yet released is accounted for, report by
report: linked to a commit, or in one of the batches that are kept track of. -/
structure Tracked (slots : List UnconfirmedBatch) (db : Db) (seen : List Event) : Prop where
  once : NoDoubleAnchor seen
  known : ∀ txHash ids sentAt, Event.submitted txHash ids sentAt ∈ seen → ∀ id ∈ ids,
    ∃ row ∈ db.reports, row.id = id
  covered : ∀ txHash ids sentAt later, After seen (.submitted txHash ids sentAt) later → ∀ id ∈ ids,
    Linked db id ∨ (∃ u ∈ slots, u.txHash = txHash ∧ u.sentAt = sentAt ∧ id ∈ idsOf u.batch) ∨
      Released txHash sentAt later

def Event.isSubmission : Event → Bool
  | .submitted .. => true
  | _ => false

theorem start_tracked (db : Db) : Tracked [] db [] := by
  refine ⟨?_, ?_, ?_⟩
  · intro txHash ids sentAt between txHash' ids' sentAt' later h
    exact absurd h (after_nil _ _)
  · intro txHash ids sentAt h
    cases h
  · intro txHash ids sentAt later h
    exact absurd h (after_nil _ _)

/-- An event that submits nothing adds no pair of submissions. -/
theorem NoDoubleAnchor.observe {seen : List Event} (h : NoDoubleAnchor seen) {e : Event}
    (he : Event.isSubmission e = false) : NoDoubleAnchor (seen ++ [e]) := by
  intro txHash ids sentAt between txHash' ids' sentAt' later hl
  rcases after_snoc.mp hl with ⟨rfl, -⟩ | ⟨later', heq, hl'⟩
  · cases he
  · rcases split_snoc heq.symm with ⟨-, rfl, -⟩ | ⟨l, rfl, rfl⟩
    · cases he
    · exact h txHash ids sentAt between txHash' ids' sentAt' l hl'

theorem Tracked.observe {slots : List UnconfirmedBatch} {db : Db} {seen : List Event}
    (h : Tracked slots db seen) {e : Event} (he : Event.isSubmission e = false) :
    Tracked slots db (seen ++ [e]) := by
  refine ⟨h.once.observe he, ?_, ?_⟩
  · intro txHash ids sentAt hm
    rcases List.mem_append.mp hm with hm | hm
    · exact h.known txHash ids sentAt hm
    · obtain rfl := List.mem_singleton.mp hm
      cases he
  · intro txHash ids sentAt later hl id hid
    rcases after_snoc.mp hl with ⟨rfl, -⟩ | ⟨later', rfl, hl'⟩
    · cases he
    · rcases h.covered txHash ids sentAt later' hl' id hid with hc | hc | hc
      · exact Or.inl hc
      · exact Or.inr (Or.inl hc)
      · exact Or.inr (Or.inr (hc.mono e))

/-- A batch may be forgotten once its transaction is seen released. -/
theorem Tracked.release {u : UnconfirmedBatch} {slots : List UnconfirmedBatch} {db : Db} {seen : List Event}
    (h : Tracked (u :: slots) db seen) {e : Event} (he : Event.isSubmission e = false)
    (hr : Released u.txHash u.sentAt [e]) : Tracked slots db (seen ++ [e]) := by
  have ho := h.observe he
  refine ⟨ho.once, ho.known, ?_⟩
  intro txHash ids sentAt later hl id hid
  rcases ho.covered txHash ids sentAt later hl id hid with hc | ⟨v, hv, rfl, rfl, hin⟩ | hc
  · exact Or.inl hc
  · rcases List.mem_cons.mp hv with rfl | hv
    · rcases after_snoc.mp hl with ⟨rfl, -⟩ | ⟨later', rfl, -⟩
      · cases he
      · exact Or.inr (Or.inr (hr.last later'))
    · exact Or.inr (Or.inl ⟨v, hv, rfl, rfl, hin⟩)
  · exact Or.inr (Or.inr hc)

/-- A batch of unlinked reports outside every tracked batch may be submitted. -/
theorem Tracked.submit {slots : List UnconfirmedBatch} {db : Db} {seen : List Event}
    (h : Tracked slots db seen) {txHash : Hex} {batch : List PendingReport} {sentAt : Int}
    (hun : ∀ id ∈ idsOf batch, Unlinked db id) (hout : ∀ id ∈ idsOf batch, ∀ u ∈ slots, id ∉ idsOf u.batch) :
    Tracked (⟨txHash, batch, sentAt⟩ :: slots) db (seen ++ [.submitted txHash (idsOf batch) sentAt]) := by
  -- a report of an earlier submission can be sent again only when that one was released
  have hreleased : ∀ tx ids at' later, After seen (.submitted tx ids at') later → ∀ id ∈ ids,
      id ∈ idsOf batch → Released tx at' later := by
    intro tx ids at' later hl id hid hb
    rcases h.covered tx ids at' later hl id hid with hc | ⟨u, hu, -, -, hin⟩ | hc
    · exact absurd hc (hun id hb).not_linked
    · exact absurd hin (hout id hb u hu)
    · exact hc
  refine ⟨?_, ?_, ?_⟩
  · intro tx ids at' between tx' ids' at'' later hl id hid hid'
    rcases after_snoc.mp hl with ⟨-, hnil⟩ | ⟨later', heq, hl'⟩
    · simp at hnil
    · rcases split_snoc heq.symm with ⟨rfl, he, -⟩ | ⟨l, rfl, rfl⟩
      · obtain ⟨-, rfl, -⟩ := Event.submitted.inj he
        exact hreleased tx ids at' between hl' id hid hid'
      · exact h.once tx ids at' between tx' ids' at'' l hl' id hid hid'
  · intro tx ids at' hm id hid
    rcases List.mem_append.mp hm with hm | hm
    · exact h.known tx ids at' hm id hid
    · obtain ⟨-, rfl, -⟩ := Event.submitted.inj (List.mem_singleton.mp hm)
      obtain ⟨row, hrow, he, -⟩ := hun id hid
      exact ⟨row, hrow, he⟩
  · intro tx ids at' later hl id hid
    rcases after_snoc.mp hl with ⟨he, rfl⟩ | ⟨later', rfl, hl'⟩
    · obtain ⟨rfl, rfl, rfl⟩ := Event.submitted.inj he
      exact Or.inr (Or.inl ⟨_, List.mem_cons_self, rfl, rfl, hid⟩)
    · rcases h.covered tx ids at' later' hl' id hid with hc | ⟨u, hu, hc⟩ | hc
      · exact Or.inl hc
      · exact Or.inr (Or.inl ⟨u, List.mem_cons_of_mem _ hu, hc⟩)
      · exact Or.inr (Or.inr (hc.mono _))

theorem Tracked.db {slots : List UnconfirmedBatch} {db db' : Db} {seen : List Event} (h : Tracked slots db seen)
    (hk : ∀ id, (∃ row ∈ db.reports, row.id = id) → ∃ row ∈ db'.reports, row.id = id)
    (hl : ∀ id, (∃ row ∈ db.reports, row.id = id) → Linked db id → Linked db' id) : Tracked slots db' seen := by
  refine ⟨h.once, ?_, ?_⟩
  · intro txHash ids sentAt hm id hid
    exact hk id (h.known txHash ids sentAt hm id hid)
  · intro txHash ids sentAt later ha id hid
    rcases h.covered txHash ids sentAt later ha id hid with hc | hc
    · exact Or.inl (hl id (h.known txHash ids sentAt ha.mem id hid) hc)
    · exact Or.inr hc

/-- The links of a batch take its place. -/
theorem Tracked.linked {u : UnconfirmedBatch} {slots : List UnconfirmedBatch} {db : Db} {seen : List Event}
    (h : Tracked (u :: slots) db seen) (hl : ∀ id ∈ idsOf u.batch, Linked db id) : Tracked slots db seen := by
  refine ⟨h.once, h.known, ?_⟩
  intro txHash ids sentAt later ha id hid
  rcases h.covered txHash ids sentAt later ha id hid with hc | ⟨v, hv, he, hs, hin⟩ | hc
  · exact Or.inl hc
  · rcases List.mem_cons.mp hv with rfl | hv
    · exact Or.inl (hl id hin)
    · exact Or.inr (Or.inl ⟨v, hv, he, hs, hin⟩)
  · exact Or.inr (Or.inr hc)

variable {keccak : List UInt8 → Digest} {env : WorkerEnv}

/-- Every database operation of the tick succeeds. -/
def DbAvailable : Step → Prop
  | .tick io => io.findPending = .ok () ∧ io.createCommit = .ok ∧ io.linkReports = .ok
  | .arrive .. => True

/-- The held batch stays held through this tick. -/
def KeepsHeld (s : JobState) (io : CommitIo) : Prop := ∃ u, s.unconfirmed = some u ∧ u.action io = .wait

/-- The reports this tick leaves out of its selection. -/
def heldIds (s : JobState) (io : CommitIo) : List String :=
  match s.unconfirmed with
  | none => []
  | some u => if u.action io = .wait then idsOf u.batch else []

/-- The tick calls `writeContract` for this batch. -/
structure Submits (env : WorkerEnv) (s : JobState) (io : CommitIo) (batch : List PendingReport) : Prop where
  config : ∃ cfg, requireCommitEnv env = .ok cfg
  unsettled : ∀ u, s.unconfirmed = some u → u.action io ≠ .finalize
  sends : Sends env s.db (heldIds s io) io batch

/-- A new batch gets no receipt while an earlier one is still held: there is one
slot for the two. -/
def OverwritesHeld (env : WorkerEnv) (s : JobState) (io : CommitIo) : Prop :=
  KeepsHeld s io ∧ (∃ batch, Submits env s io batch) ∧
    ∃ txHash msg, io.submission = .sent txHash ∧ waitReceipt txHash io.polls none 240000 = .error msg

/-- A batch is broadcast although `writeContract` throws, so nothing holds it. -/
def BroadcastUnseen (env : WorkerEnv) (s : JobState) (io : CommitIo) : Prop :=
  (∃ batch, Submits env s io batch) ∧ ∃ txHash msg, io.submission = .replyLost txHash msg

/-- The tick loses track of no batch that it or an earlier tick sent. -/
def KeepsTrack (env : WorkerEnv) (s : JobState) : Step → Prop
  | .tick io => ¬ OverwritesHeld env s io ∧ ¬ BroadcastUnseen env s io
  | .arrive .. => True

/-- `Tracked` when the tick is over, or the batch on its way to `recordBatch`. -/
def StageTracked (s : JobState) : Stage → Prop
  | .done _ => Tracked s.unconfirmed.toList s.db s.seen
  | .record r => ∃ sentAt, Tracked (⟨r.txHash, r.batch, sentAt⟩ :: s.unconfirmed.toList) s.db s.seen

theorem send_tracked {s s' : JobState} {held : List String} {io : CommitIo} {stage : Stage}
    (hc : SendCase keccak env s held io s' stage) (h : Tracked s.unconfirmed.toList s.db s.seen)
    (hout : ∀ id, id ∉ held → ∀ u ∈ s.unconfirmed.toList, id ∉ idsOf u.batch)
    (hreply : ∀ batch, Sends env s.db held io batch → ∀ txHash msg, io.submission ≠ .replyLost txHash msg)
    (hslot : ∀ batch, Sends env s.db held io batch → ∀ txHash msg, io.submission = .sent txHash →
      waitReceipt txHash io.polls none 240000 = .error msg → s.unconfirmed = none) :
    StageTracked s' stage := by
  have hsubmit : ∀ batch txHash, Sends env s.db held io batch →
      Tracked (⟨txHash, batch, io.sentAt⟩ :: s.unconfirmed.toList) s.db
        (s.seen ++ [.submitted txHash (idsOf batch) io.sentAt]) := by
    intro batch txHash hs
    exact h.submit (fun id hid => (hs.fresh hid).1) (fun id hid => hout id (hs.fresh hid).2)
  cases hc with
  | idle out => exact h
  | replyLost out hs hsub => exact absurd hsub (hreply _ hs _ _)
  | @unconfirmed batch txHash msg out hs hsub hw =>
    have hnone := hslot _ hs _ _ hsub hw
    have ht := hsubmit batch txHash hs
    rw [hnone] at ht
    exact ht
  | reverted out hs hsub => exact (hsubmit _ _ hs).release rfl (Or.inl (List.mem_singleton_self _))
  | mined hs hsub hb => exact ⟨io.sentAt, (hsubmit _ _ hs).observe rfl⟩

theorem lookupEvent_not_submission (u : UnconfirmedBatch) (io : CommitIo) :
    Event.isSubmission (u.lookupEvent io) = false := by
  unfold UnconfirmedBatch.lookupEvent
  split <;> rfl

/-- A batch is dropped only on a lookup that releases its transaction. -/
theorem dropped_released {u : UnconfirmedBatch} {io : CommitIo}
    (h : u.action io = .dropReverted ∨ u.action io = .dropExpired) :
    Released u.txHash u.sentAt [u.lookupEvent io] := by
  unfold UnconfirmedBatch.action at h
  unfold UnconfirmedBatch.lookupEvent
  cases hl : io.lookup with
  | error msg =>
    refine Or.inr ⟨io.lookupAt, List.mem_singleton_self _, ?_⟩
    simp only [hl, Except.toOption, Option.map_none, unconfirmedAction] at h
    split at h
    · assumption
    · rcases h with h | h <;> cases h
  | ok receipt =>
    refine Or.inl ?_
    cases hs : receipt.status with
    | reverted =>
      simp only [hs]
      exact List.mem_singleton_self _
    | success =>
      simp only [hl, Except.toOption, Option.map_some, hs, unconfirmedAction] at h
      rcases h with h | h <;> cases h

theorem Submits.of_sends {s : JobState} {io : CommitIo} {held : List String} {batch : List PendingReport}
    (hcfg : ∃ cfg, requireCommitEnv env = .ok cfg)
    (hu : ∀ u, s.unconfirmed = some u → u.action io ≠ .finalize) (hheld : heldIds s io = held)
    (hs : Sends env s.db held io batch) : Submits env s io batch := by
  subst hheld
  exact ⟨hcfg, hu, hs⟩

theorem prepare_tracked {s s' : JobState} {io : CommitIo} {stage : Stage}
    (hc : PrepareCase keccak env s io s' stage) (h : Tracked s.unconfirmed.toList s.db s.seen)
    (hcfg : ∃ cfg, requireCommitEnv env = .ok cfg) (hk : KeepsTrack env s (.tick io)) :
    StageTracked s' stage := by
  obtain ⟨hover, hunseen⟩ := hk
  cases hc with
  | empty hu hc =>
    have hsub : ∀ batch, Sends env s.db [] io batch → Submits env s io batch :=
      fun batch hs => .of_sends hcfg (by simp [hu]) (by simp [heldIds, hu]) hs
    apply send_tracked hc h
    · simp [hu]
    · intro batch hs txHash msg he
      exact hunseen ⟨⟨batch, hsub batch hs⟩, txHash, msg, he⟩
    · intro _ _ _ _ _ _
      exact hu
  | @waiting u _ _ hu ha hc =>
    have hsub : ∀ batch, Sends env s.db (idsOf u.batch) io batch → Submits env s io batch :=
      fun batch hs => .of_sends hcfg (by simp [hu, ha]) (by simp [heldIds, hu, ha]) hs
    apply send_tracked hc (h.observe (lookupEvent_not_submission u io))
    · intro id hid v hv
      have hv' : v ∈ s.unconfirmed.toList := hv
      simp only [hu, Option.toList_some, List.mem_singleton] at hv'
      exact hv' ▸ hid
    · intro batch hs txHash msg he
      exact hunseen ⟨⟨batch, hsub batch hs⟩, txHash, msg, he⟩
    · intro batch hs txHash msg he hw
      exact absurd ⟨⟨u, hu, ha⟩, ⟨batch, hsub batch hs⟩, txHash, msg, he, hw⟩ hover
  | @dropped u _ _ hu ha hc =>
    have hsub : ∀ batch, Sends env s.db [] io batch → Submits env s io batch := by
      intro batch hs
      rcases ha with ha | ha
      · exact .of_sends hcfg (by simp [hu, ha]) (by simp [heldIds, hu, ha]) hs
      · exact .of_sends hcfg (by simp [hu, ha]) (by simp [heldIds, hu, ha]) hs
    rw [hu] at h
    apply send_tracked hc (h.release (lookupEvent_not_submission u io) (dropped_released ha))
    · intro id _ v hv
      simp at hv
    · intro batch hs txHash msg he
      exact hunseen ⟨⟨batch, hsub batch hs⟩, txHash, msg, he⟩
    · intro _ _ _ _ _ _
      rfl
  | @finalized u tree receipt hu ha ht =>
    rw [hu] at h
    exact ⟨u.sentAt, h.observe (lookupEvent_not_submission u io)⟩
  | @empty_batch u out hu ha hb =>
    rw [hu] at h
    refine (h.observe (lookupEvent_not_submission u io)).linked ?_
    intro id hid
    simp [hb, idsOf] at hid

/-- With both writes done the recorded batch is linked and needs no slot. -/
theorem record_tracked {r : Recording} {s s' : JobState} {io : CommitIo} (hc : RecordCase env r s io s')
    (hdb : DbAvailable (.tick io)) (h : StageTracked s (.record r)) :
    Tracked s'.unconfirmed.toList s'.db s'.seen := by
  obtain ⟨-, hcreate, hlink⟩ := hdb
  obtain ⟨sentAt, h⟩ := h
  cases hc with
  | nothing hc => simp [hcreate, DbOutcome.applied] at hc
  | rowOnly hc hl => simp [hcreate, hlink, DbOutcome.applied] at hl
  | both hc hl =>
    have hnoted : Tracked (⟨r.txHash, r.batch, sentAt⟩ :: s.unconfirmed.toList) s.db
        (s.seen ++ [.created (r.row env io).id r.ids]) := h.observe rfl
    have hdb' : Tracked (⟨r.txHash, r.batch, sentAt⟩ :: s.unconfirmed.toList)
        ((s.insertCommit (r.row env io) r.ids).db.linkReports io.commitId r.batch)
        (s.seen ++ [.created (r.row env io).id r.ids]) := by
      apply hnoted.db
      · intro id hk
        have hk' : ∃ row ∈ (s.insertCommit (r.row env io) r.ids).db.reports, row.id = id := hk
        exact linkReports_known io.commitId r.batch hk'
      · intro id _ hl
        have hl' : Linked (s.insertCommit (r.row env io) r.ids).db id := hl
        exact hl'.linkReports io.commitId r.batch
    apply hdb'.linked
    intro id hid row hm he
    rw [linkReports_linked _ io.commitId r.batch hm (he ▸ hid)]
    exact Option.some_ne_none _

theorem step_tracked (s : JobState) (i : Step) (h : Tracked s.unconfirmed.toList s.db s.seen)
    (hok : DbAvailable i ∧ KeepsTrack env s i) :
    Tracked (step keccak env s i).unconfirmed.toList (step keccak env s i).db (step keccak env s i).seen := by
  obtain ⟨hdb, hk⟩ := hok
  cases i with
  | arrive report validatorPassed =>
    apply h.db
    · intro id hid
      exact arrive_known report validatorPassed hid
    · intro id hid hl
      exact Linked.arrive hl hid report validatorPassed
  | tick io =>
    have hcase := prepare_cases keccak env s io
    cases hreq : requireCommitEnv env with
    | error reason =>
      simp only [step, runCommitBatch, hreq]
      exact h
    | ok cfg =>
      have hstage := prepare_tracked hcase h ⟨cfg, hreq⟩ hk
      rcases runCommitBatch_cases keccak env s io with ⟨_, he, _⟩ | ⟨out, hp, hs⟩ | ⟨r, hp, hs⟩
      · rw [hreq] at he
        cases he
      · rw [hp] at hstage
        simp only [step, hs]
        exact hstage
      · rw [hp] at hstage
        exact record_tracked hs hdb hstage

/-- Over any run with the database up, a report is anchored again only after its
earlier transaction was released, as long as no tick loses track of a batch. -/
theorem anchored_once (keccak : List UInt8 → Digest) (env : WorkerEnv) (db : Db) (steps : List Step)
    (hdb : Always (step keccak env) (fun _ i => DbAvailable i) (start db) steps)
    (hk : Always (step keccak env) (KeepsTrack env) (start db) steps) :
    NoDoubleAnchor (run (step keccak env) (start db) steps).seen :=
  (invariant_run (fun s => Tracked s.unconfirmed.toList s.db s.seen) step_tracked (start_tracked db)
    (hdb.and hk)).once

def sampleReport (id : String) (digit : Nat) (createdAt : Int) : PendingReport :=
  ⟨id, List.replicate 64 (.ofNibble digit), createdAt⟩

/-- A forced tick at `now`: its transaction is sent and `polls` is what the wait sees. -/
def sampleTick (now : Int) (lookup : Except String TransactionReceipt) (txHash : Hex) (polls : List Poll)
    (commitId : String) : Step :=
  .tick { force := true, lookup, lookupAt := now, findPending := .ok (), now, submission := .sent txHash
          sentAt := now + 1000, polls, createCommit := .ok, commitId, committedAt := now + 2000
          linkReports := .ok }

def txA : Hex := [.ofNibble 1]
def txB : Hex := [.ofNibble 2]
def txC : Hex := [.ofNibble 3]

/-- The first batch is held, the second is recorded, the first is recorded late. -/
def lateReceiptRun : List Step :=
  [sampleTick 0 (.error "not found") txA [] "c0",
   .arrive (sampleReport "b" 2 100) true,
   sampleTick 300000 (.error "not found") txB [.found minedReceipt] "c1",
   sampleTick 600000 (.ok minedReceipt) txC [.found minedReceipt] "c2"]

theorem anchored_once_late_receipt :
    NoDoubleAnchor (run (step constantDigest smallEnv) (start smallDb) lateReceiptRun).seen := by
  apply anchored_once constantDigest smallEnv smallDb lateReceiptRun
  · exact ⟨⟨rfl, rfl, rfl⟩, trivial, ⟨rfl, rfl, rfl⟩, ⟨rfl, rfl, rfl⟩, trivial⟩
  · refine ⟨⟨?_, ?_⟩, trivial, ⟨?_, ?_⟩, ⟨?_, ?_⟩, trivial⟩
    · intro h
      obtain ⟨⟨u, hu, -⟩, -⟩ := h
      cases hu
    · intro h
      obtain ⟨-, txHash, msg, h⟩ := h
      cases h
    · intro h
      obtain ⟨-, -, txHash, msg, -, h⟩ := h
      cases h
    · intro h
      obtain ⟨-, txHash, msg, h⟩ := h
      cases h
    · intro h
      obtain ⟨-, -, txHash, msg, -, h⟩ := h
      cases h
    · intro h
      obtain ⟨-, txHash, msg, h⟩ := h
      cases h

/-- Two receipts in a row stay away: the second hold replaces the first. -/
def overwrittenRun : List Step :=
  [sampleTick 0 (.error "not found") txA [] "c0",
   .arrive (sampleReport "b" 2 100) true,
   sampleTick 300000 (.error "not found") txB [] "c1",
   sampleTick 600000 (.error "not found") txC [.found minedReceipt] "c2"]

theorem overwrittenRun_seen :
    (run (step constantDigest smallEnv) (start smallDb) overwrittenRun).seen =
      [.submitted txA ["a"] 1000, .noReceipt txA 300000, .submitted txB ["b"] 301000,
       .noReceipt txB 600000, .submitted txC ["a"] 601000, .receiptSeen txC .success,
       .created "c2" ["a"]] := by
  decide +kernel

/-- Report "a" goes out in a second transaction ten minutes after the first, which
was neither seen reverted nor given up for its age. -/
theorem anchored_twice :
    ¬ ∀ (keccak : List UInt8 → Digest) (env : WorkerEnv) (db : Db) (steps : List Step),
      Always (step keccak env) (fun _ i => DbAvailable i) (start db) steps →
      NoDoubleAnchor (run (step keccak env) (start db) steps).seen := by
  intro h
  have hrun := h constantDigest smallEnv smallDb overwrittenRun
    ⟨⟨rfl, rfl, rfl⟩, trivial, ⟨rfl, rfl, rfl⟩, ⟨rfl, rfl, rfl⟩, trivial⟩
  rw [overwrittenRun_seen] at hrun
  have hr := hrun txA ["a"] 1000
    [.noReceipt txA 300000, .submitted txB ["b"] 301000, .noReceipt txB 600000] txC ["a"] 601000 _
    ⟨[], rfl⟩ "a" (by decide) (by decide)
  rcases hr with hr | ⟨now, hr, hage⟩
  · simp at hr
  · have hne : txA ≠ txB := by decide
    have hnow : now = 300000 := by simpa [hne] using hr
    subst hnow
    simp [UNCONFIRMED_MAX_AGE_MS] at hage

end LaunchAuditor.Proofs.AnchoredOnce
