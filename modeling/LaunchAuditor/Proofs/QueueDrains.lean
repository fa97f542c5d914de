import LaunchAuditor.Proofs.AnchoredOnce

namespace LaunchAuditor.Proofs.QueueDrains
open Commit Job Steps Pending AnchoredOnce

variable {keccak : List UInt8 → Digest} {env : WorkerEnv} {id : String} {createdAt : Int}

/-- The report is there, has passed, and belongs to no commit. -/
def Waits (id : String) (createdAt : Int) (s : JobState) : Prop :=
  ∃ row ∈ s.db.reports, row.id = id ∧ row.createdAt = createdAt ∧ row.validatorPassed = true ∧ row.commitId = none

def Done (id : String) (s : JobState) : Prop := Linked s.db id ∧ ∃ row ∈ s.db.reports, row.id = id

/-- Another pending report that may be taken first. Reports of the same instant come in any order. -/
def ahead (id : String) (createdAt : Int) (r : Report) : Bool :=
  r.validatorPassed && r.commitId.isNone && decide (r.id ≠ id ∧ r.createdAt ≤ createdAt)

def aheadOf (id : String) (createdAt : Int) (s : JobState) : Nat := s.db.reports.countP (ahead id createdAt)

/-- How many such reports a step brings. -/
def brings (id : String) (createdAt : Int) : Step → Nat
  | .tick _ => 0
  | .arrive p validatorPassed => if validatorPassed ∧ p.id ≠ id ∧ p.createdAt ≤ createdAt then 1 else 0

/-- The transaction is sent, and seen to succeed. -/
def mined (io : CommitIo) : Bool :=
  match io.submission with
  | .sent txHash =>
    match waitReceipt txHash io.polls none 240000 with
    | .ok receipt => decide (receipt.status = .success)
    | .error _ => false
  | _ => false

/-- Nothing keeps the tick from recording a batch with the report in it: the job is configured, no held batch
is being finalized, the report is in none, it is due, and the reads, the transaction and the writes go through. -/
structure Unobstructed (env : WorkerEnv) (id : String) (createdAt : Int) (s : JobState) (io : CommitIo) : Prop where
  config : (requireCommitEnv env).toOption.isSome
  settled : (s.unconfirmed.map fun u => u.action io) ≠ some .finalize
  free : id ∉ heldIds s io
  read : io.findPending = .ok ()
  due : io.force = true ∨ createdAt + env.commitIntervalSec * 1000 ≤ io.now
  mined : mined io = true
  created : io.createCommit = .ok
  linked : io.linkReports.applied = true

def served (env : WorkerEnv) (id : String) (createdAt : Int) (s : JobState) : Step → Prop
  | .tick io => Unobstructed env id createdAt s io
  | .arrive .. => False

instance (id : String) (createdAt : Int) (s : JobState) (io : CommitIo) : Decidable (Unobstructed env id createdAt s io) :=
  have : Decidable (io.findPending = .ok ()) :=
    match io.findPending with
    | .ok () => isTrue rfl
    | .error _ => isFalse fun h => nomatch h
  decidable_of_iff ((requireCommitEnv env).toOption.isSome ∧ (s.unconfirmed.map fun u => u.action io) ≠ some .finalize ∧
      id ∉ heldIds s io ∧ io.findPending = .ok () ∧
      (io.force = true ∨ createdAt + env.commitIntervalSec * 1000 ≤ io.now) ∧ mined io = true ∧
      io.createCommit = .ok ∧ io.linkReports.applied = true)
    ⟨fun ⟨h1, h2, h3, h4, h5, h6, h7, h8⟩ => ⟨h1, h2, h3, h4, h5, h6, h7, h8⟩,
      fun ⟨h1, h2, h3, h4, h5, h6, h7, h8⟩ => ⟨h1, h2, h3, h4, h5, h6, h7, h8⟩⟩

instance (id : String) (createdAt : Int) (s : JobState) : (i : Step) → Decidable (served env id createdAt s i)
  | .tick io => inferInstanceAs (Decidable (Unobstructed env id createdAt s io))
  | .arrive .. => isFalse fun h => h

/-- What is ahead after a batch is linked was ahead before, and is in the batch no more. -/
theorem ahead_linkRow (id : String) (createdAt : Int) (commitId : String) (batch : List PendingReport) (row : Report) :
    ahead id createdAt (linkRow commitId batch row) =
      (ahead id createdAt row && !decide (row.id ∈ idsOf batch)) := by
  rw [ahead, ahead, linkRow_createdAt, linkRow_validatorPassed, linkRow_id, linkRow_commitId]
  by_cases hm : row.id ∈ idsOf batch
  · simp [hm]
  · simp [hm]

/-- The batch takes the report out of the queue, or leaves it as it was. -/
theorem waits_linked (commitId : String) (batch : List PendingReport) {s s' : JobState} (h : Waits id createdAt s)
    (hr : s'.db.reports = s.db.reports.map (linkRow commitId batch)) :
    (id ∈ idsOf batch → Done id s') ∧ (id ∉ idsOf batch → Waits id createdAt s') := by
  obtain ⟨row, hrow, hid, hcreated, hpassed, hnone⟩ := h
  have hmem : linkRow commitId batch row ∈ s'.db.reports := by
    rw [hr]
    exact List.mem_map_of_mem hrow
  constructor
  · intro hin
    refine ⟨?_, _, hmem, (linkRow_id _ _ _).trans hid⟩
    intro other hother ho
    rw [hr] at hother
    obtain ⟨old, _, rfl⟩ := List.mem_map.mp hother
    rw [linkRow_id] at ho
    rw [linkRow_commitId, if_pos (ho ▸ hin)]
    exact Option.some_ne_none _
  · intro hout
    refine ⟨_, hmem, (linkRow_id _ _ _).trans hid, (linkRow_createdAt _ _ _).trans hcreated,
      (linkRow_validatorPassed _ _ _).trans hpassed, ?_⟩
    rw [linkRow_commitId, if_neg (hid ▸ hout), hnone]

theorem done_step (s : JobState) (i : Step) (h : Done id s) : Done id (step keccak env s i) := by
  obtain ⟨hlinked, hknown⟩ := h
  cases i with
  | tick io =>
    obtain ⟨commitId, batch, hr⟩ := tick_reports keccak env s io
    constructor
    · intro row hrow hid
      rw [hr] at hrow
      obtain ⟨old, hold, rfl⟩ := List.mem_map.mp hrow
      rw [linkRow_id] at hid
      rw [linkRow_commitId]
      split
      · exact Option.some_ne_none _
      · exact hlinked old hold hid
    · obtain ⟨row, hrow, hid⟩ := hknown
      rw [hr]
      exact ⟨_, List.mem_map_of_mem hrow, (linkRow_id _ _ _).trans hid⟩
  | arrive p validatorPassed => exact ⟨hlinked.arrive hknown p validatorPassed, arrive_known p validatorPassed hknown⟩

/-- The oldest pending report is at least as old as the one that waits. -/
theorem waits_pending {s : JobState} {held : List String} (h : Waits id createdAt s) (hfree : id ∉ held) :
    ∃ p ∈ findPending s.db held, p.id = id ∧ p.createdAt = createdAt := by
  obtain ⟨row, hrow, hid, hcreated, hpassed, hnone⟩ := h
  refine ⟨row.toPending, ?_, hid, hcreated⟩
  unfold findPending
  rw [List.mem_insertionSort]
  apply List.mem_map_of_mem
  rw [List.mem_filter]
  simp [hrow, hpassed, hnone, hid, hfree]

theorem findPending_sorted (db : Db) (held : List String) :
    (findPending db held).Pairwise fun a b => a.createdAt ≤ b.createdAt :=
  List.pairwise_insertionSort _ _

theorem selectBatch_due {db : Db} {held : List String} {io : CommitIo} {p : PendingReport}
    (hp : p ∈ findPending db held) (hdue : io.force = true ∨ p.createdAt + env.commitIntervalSec * 1000 ≤ io.now) :
    selectBatch env db held io.force io.now = .ok ((findPending db held).take env.commitMaxLeaves) := by
  have hsorted := findPending_sorted db held
  unfold selectBatch
  cases hf : findPending db held with
  | nil => simp [hf] at hp
  | cons oldest others =>
    rw [hf] at hp hsorted
    have hold : oldest.createdAt ≤ p.createdAt := by
      rcases List.mem_cons.mp hp with rfl | hp
      · exact le_refl _
      · exact (List.pairwise_cons.mp hsorted).1 p hp
    simp only
    rw [if_pos]
    rcases hdue with hforce | hdue
    · simp [hforce]
    · have hage : (env.commitIntervalSec : ℚ) ≤ (io.now - oldest.createdAt) / 1000 := by
        have h : (oldest.createdAt : ℚ) + env.commitIntervalSec * 1000 ≤ io.now := by
          exact_mod_cast le_trans (by omega) hdue
        linarith
      simp [hage]

theorem mined_sent {io : CommitIo} (h : mined io = true) : ∃ txHash receipt, io.submission = .sent txHash ∧
    waitReceipt txHash io.polls none 240000 = .ok receipt ∧ receipt.status = .success := by
  unfold mined at h
  split at h
  · next txHash hsub =>
    split at h
    · next receipt hw => exact ⟨txHash, receipt, hsub, hw, of_decide_eq_true h⟩
    · cases h
  · cases h

/-- What is selected is sent, seen mined and linked. -/
theorem sendNext_mined (keccak : List UInt8 → Digest) {s : JobState} {held : List String} {io : CommitIo} {batch : List PendingReport}
    (hread : io.findPending = .ok ()) (hsel : selectBatch env s.db held io.force io.now = .ok batch)
    (hne : batch ≠ []) (hm : mined io = true) :
    ∃ s' r, sendNext keccak env s held io = (s', .record r) ∧ s'.db = s.db ∧ r.batch = batch := by
  obtain ⟨txHash, receipt, hsub, hw, hst⟩ := mined_sent hm
  obtain ⟨tree, ht⟩ := build_batch_ok keccak hne
  refine ⟨(s.note (.submitted txHash (idsOf batch) io.sentAt)).note (.receiptSeen txHash .success),
    ⟨batch, tree, txHash, receipt⟩, ?_, rfl, rfl⟩
  simp [sendNext, hread, hsel, ht, submitBatch, hsub, hw, hst, idsOf]

theorem prepare_mined (keccak : List UInt8 → Digest) {s : JobState} {io : CommitIo} {batch : List PendingReport}
    (hsettled : (s.unconfirmed.map fun u => u.action io) ≠ some .finalize) (hread : io.findPending = .ok ())
    (hsel : selectBatch env s.db (heldIds s io) io.force io.now = .ok batch) (hne : batch ≠ [])
    (hm : mined io = true) :
    ∃ s' r, prepare keccak env s io = (s', .record r) ∧ s'.db = s.db ∧ r.batch = batch := by
  unfold prepare
  cases hu : s.unconfirmed with
  | none =>
    simp only [heldIds, hu] at hsel
    exact sendNext_mined keccak hread hsel hne hm
  | some u =>
    simp only [heldIds, hu] at hsel
    simp only [hu, Option.map_some, ne_eq, Option.some.injEq] at hsettled
    cases ha : u.action io with
    | finalize => exact absurd ha hsettled
    | wait =>
      rw [if_pos ha] at hsel
      obtain ⟨s', r, hs, hdb, hr⟩ := sendNext_mined keccak (s := s.note (u.lookupEvent io)) hread hsel hne hm
      refine ⟨s', r, ?_, hdb, hr⟩
      simp only [ha]
      exact hs
    | dropReverted =>
      rw [if_neg (by simp [ha])] at hsel
      obtain ⟨s', r, hs, hdb, hr⟩ := sendNext_mined keccak
        (s := { s.note (u.lookupEvent io) with unconfirmed := none }) hread hsel hne hm
      refine ⟨s', r, ?_, hdb, hr⟩
      simp only [ha]
      exact hs
    | dropExpired =>
      rw [if_neg (by simp [ha])] at hsel
      obtain ⟨s', r, hs, hdb, hr⟩ := sendNext_mined keccak
        (s := { s.note (u.lookupEvent io) with unconfirmed := none }) hread hsel hne hm
      refine ⟨s', r, ?_, hdb, hr⟩
      simp only [ha]
      exact hs

/-- The tick links the oldest reports it may take. -/
theorem unobstructed_links (keccak : List UInt8 → Digest) {s : JobState} {io : CommitIo} (hmax : 0 < env.commitMaxLeaves)
    (hw : Waits id createdAt s) (h : Unobstructed env id createdAt s io) :
    (step keccak env s (.tick io)).db.reports =
      s.db.reports.map (linkRow io.commitId ((findPending s.db (heldIds s io)).take env.commitMaxLeaves)) := by
  obtain ⟨p, hp, hid, hcreated⟩ := waits_pending hw h.free
  have hsel := selectBatch_due hp (hcreated ▸ h.due : io.force = true ∨ p.createdAt + env.commitIntervalSec * 1000 ≤ io.now)
  have hne : (findPending s.db (heldIds s io)).take env.commitMaxLeaves ≠ [] := by
    rw [ne_eq, List.take_eq_nil_iff, not_or]
    exact ⟨hmax.ne', List.ne_nil_of_mem hp⟩
  obtain ⟨s', r, hprep, hdb, hbatch⟩ := prepare_mined keccak h.settled h.read hsel hne h.mined
  obtain ⟨cfg, hcfg⟩ : ∃ cfg, requireCommitEnv env = .ok cfg := by
    have hc := h.config
    cases hreq : requireCommitEnv env with
    | error reason => simp [hreq, Except.toOption] at hc
    | ok cfg => exact ⟨cfg, rfl⟩
  have hrec : (recordBatch env cfg.2 r s' io).1.db.reports = s'.db.reports.map (linkRow io.commitId r.batch) := by
    cases hl : io.linkReports with
    | failed msg =>
      have happlied := h.linked
      simp [hl, DbOutcome.applied] at happlied
    | ok =>
      simp only [recordBatch, h.created, hl, DbOutcome.applied, if_true]
      exact linkReports_reports _ _ _
    | ackLost msg =>
      simp only [recordBatch, h.created, hl, DbOutcome.applied, if_true]
      exact linkReports_reports _ _ _
  change (runCommitBatch keccak env s io).1.db.reports = _
  unfold runCommitBatch
  rw [hcfg, hprep]
  exact (hbatch ▸ hdb ▸ hrec)

/-- A batch that leaves the report out is full, and all of it was ahead. -/
theorem batch_ahead {s : JobState} {held : List String} {width : Nat} (hw : Waits id createdAt s) (hfree : id ∉ held)
    (hout : id ∉ idsOf ((findPending s.db held).take width)) :
    ((findPending s.db held).take width).length = width ∧
      ∀ p ∈ (findPending s.db held).take width, p.id ≠ id ∧ p.createdAt ≤ createdAt := by
  obtain ⟨q, hq, hqid, hqcreated⟩ := waits_pending hw hfree
  have hsplit := List.take_append_drop width (findPending s.db held)
  have hqout : q ∉ (findPending s.db held).take width :=
    fun hin => hout (hqid ▸ List.mem_map_of_mem hin)
  have hqdrop : q ∈ (findPending s.db held).drop width := by
    rw [← hsplit] at hq
    exact (List.mem_append.mp hq).resolve_left hqout
  constructor
  · have hlong : width < (findPending s.db held).length := by
      by_contra hshort
      rw [List.drop_eq_nil_of_le (by omega)] at hqdrop
      cases hqdrop
    rw [List.length_take]
    omega
  · intro p hp
    have hsorted := findPending_sorted s.db held
    rw [← hsplit, List.pairwise_append] at hsorted
    refine ⟨fun he => hout (he ▸ List.mem_map_of_mem hp), ?_⟩
    exact hqcreated ▸ hsorted.2.2 p hp q hqdrop

/-- Linking that batch takes its length off what is ahead. -/
theorem aheadOf_linked {s s' : JobState} {commitId : String} {held : List String} {width : Nat}
    (hr : s'.db.reports = s.db.reports.map (linkRow commitId ((findPending s.db held).take width)))
    (hahead : ∀ p ∈ (findPending s.db held).take width, p.id ≠ id ∧ p.createdAt ≤ createdAt) :
    aheadOf id createdAt s' + ((findPending s.db held).take width).length ≤ aheadOf id createdAt s := by
  generalize hbatch : (findPending s.db held).take width = batch at hr hahead
  let taken : PendingReport → Bool := fun p => decide (p.id ≠ id ∧ p.createdAt ≤ createdAt ∧ p.id ∈ idsOf batch)
  have hall : batch.countP taken = batch.length := by
    rw [List.countP_eq_length]
    intro p hp
    obtain ⟨hne, hle⟩ := hahead p hp
    have hin : p.id ∈ idsOf batch := List.mem_map_of_mem hp
    simp [taken, hne, hle, hin]
  have hsub : batch.Subperm ((s.db.reports.filter fun r => r.validatorPassed && r.commitId.isNone &&
      !held.contains r.id).map Report.toPending) := by
    rw [← hbatch]
    exact (List.take_sublist _ _).subperm.trans (List.perm_insertionSort _ _).subperm
  have hcount : batch.length ≤
      s.db.reports.countP fun r => ahead id createdAt r && decide (r.id ∈ idsOf batch) := by
    rw [← hall]
    refine (hsub.countP_le taken).trans ?_
    rw [List.countP_map, List.countP_filter]
    apply List.countP_mono_left
    intro row _ hrow
    simp only [taken, Function.comp, Report.toPending, Bool.and_eq_true, decide_eq_true_eq] at hrow
    obtain ⟨⟨hne, hle, hin⟩, ⟨hpassed, hnone⟩, -⟩ := hrow
    simp [ahead, hpassed, hnone, hne, hle, hin]
  have hleft : aheadOf id createdAt s' =
      s.db.reports.countP fun r => ahead id createdAt r && !decide (r.id ∈ idsOf batch) := by
    unfold aheadOf
    rw [hr, List.countP_map]
    congr 1
    funext row
    exact ahead_linkRow id createdAt commitId batch row
  have hsplit := List.countP_eq_countP_filter_add s.db.reports (ahead id createdAt)
    (fun r => decide (r.id ∈ idsOf batch))
  rw [List.countP_filter, List.countP_filter] at hsplit
  unfold aheadOf at hleft ⊢
  omega

/-- No tick adds to what is ahead. -/
theorem aheadOf_tick (keccak : List UInt8 → Digest) (env : WorkerEnv) (id : String) (createdAt : Int) (s : JobState) (io : CommitIo) :
    aheadOf id createdAt (step keccak env s (.tick io)) ≤ aheadOf id createdAt s := by
  obtain ⟨commitId, batch, hr⟩ := tick_reports keccak env s io
  unfold aheadOf
  rw [hr, List.countP_map]
  apply List.countP_mono_left
  intro row _ hrow
  simp only [Function.comp, ahead_linkRow, Bool.and_eq_true] at hrow
  exact hrow.1

theorem aheadOf_arrive (s : JobState) (p : PendingReport) (validatorPassed : Bool) :
    aheadOf id createdAt (step keccak env s (.arrive p validatorPassed)) ≤
      aheadOf id createdAt s + brings id createdAt (.arrive p validatorPassed) := by
  change (s.db.arrive p validatorPassed).reports.countP (ahead id createdAt) ≤ _
  unfold Db.arrive
  split
  · exact Nat.le_add_right _ _
  · rw [List.countP_append]
    apply Nat.add_le_add_left
    by_cases hp : validatorPassed = true ∧ p.id ≠ id ∧ p.createdAt ≤ createdAt
    · simp [ahead, brings, hp]
    · have hout : ahead id createdAt ⟨p.id, p.reportHash, p.createdAt, validatorPassed, none, none⟩ = false := by
        simpa [ahead] using hp
      simp [hout]

/-- What one step does to a report that waits. -/
theorem waits_step (keccak : List UInt8 → Digest) (s : JobState) (i : Step) (hw : Waits id createdAt s) :
    Done id (step keccak env s i) ∨ Waits id createdAt (step keccak env s i) ∧
      aheadOf id createdAt (step keccak env s i) + (if served env id createdAt s i then env.commitMaxLeaves else 0) ≤
        aheadOf id createdAt s + brings id createdAt i := by
  cases i with
  | arrive p validatorPassed =>
    refine Or.inr ⟨?_, ?_⟩
    · obtain ⟨row, hrow, hrest⟩ := hw
      refine ⟨row, ?_, hrest⟩
      rcases arrive_reports s.db p validatorPassed with hr | ⟨-, new, -, hr⟩
      · exact hr ▸ hrow
      · exact hr ▸ List.mem_append_left _ hrow
    · rw [if_neg (by exact fun h => h)]
      exact aheadOf_arrive s p validatorPassed
  | tick io =>
    by_cases hserved : Unobstructed env id createdAt s io ∧ 0 < env.commitMaxLeaves
    · have hr := unobstructed_links keccak hserved.2 hw hserved.1
      obtain ⟨hin, hout⟩ := waits_linked _ _ hw hr
      by_cases hid : id ∈ idsOf ((findPending s.db (heldIds s io)).take env.commitMaxLeaves)
      · exact Or.inl (hin hid)
      · refine Or.inr ⟨hout hid, ?_⟩
        obtain ⟨hfull, hahead⟩ := batch_ahead hw hserved.1.free hid
        have hle := aheadOf_linked hr hahead
        rw [hfull] at hle
        rw [if_pos (show served env id createdAt s (.tick io) from hserved.1)]
        exact hle
    · obtain ⟨commitId, batch, hr⟩ := tick_reports keccak env s io
      obtain ⟨hin, hout⟩ := waits_linked commitId batch hw hr
      by_cases hid : id ∈ idsOf batch
      · exact Or.inl (hin hid)
      refine Or.inr ⟨hout hid, ?_⟩
      have hle := aheadOf_tick keccak env id createdAt s io
      have hzero : (if served env id createdAt s (.tick io) then env.commitMaxLeaves else 0) = 0 := by
        split
        · next h => exact Nat.eq_zero_of_not_pos fun hpos => hserved ⟨h, hpos⟩
        · rfl
      rw [hzero]
      exact hle

/-- Whatever else happens in between, a report is linked to a commit once the ticks that nothing obstructed could
have carried everything ahead of it, what was there and what came later. -/
theorem queue_drains (keccak : List UInt8 → Digest) (env : WorkerEnv) (s : JobState) (id : String) (createdAt : Int)
    (steps : List Step) (hw : Waits id createdAt s)
    (hserved : aheadOf id createdAt s + (steps.map (brings id createdAt)).sum <
      countSteps (step keccak env) (served env id createdAt) s steps * env.commitMaxLeaves) :
    Linked (run (step keccak env) s steps).db id := by
  have h : Done id (run (step keccak env) s steps) ∨ _ :=
    drains (Waits id createdAt) (Done id) (aheadOf id createdAt) (brings id createdAt) env.commitMaxLeaves done_step
      (waits_step keccak) hw
  rcases h with hdone | ⟨-, hle⟩
  · exact hdone.1
  · omega

/-- Report "b" waits behind "a", and an older one comes in between. -/
def behindState : JobState :=
  start ⟨[⟨"a", List.replicate 64 (.ofNibble 1), 0, true, none, none⟩,
    ⟨"b", List.replicate 64 (.ofNibble 2), 100, true, none, none⟩], []⟩

def behindRun : List Step :=
  [sampleTick 0 (.error "not found") txA [.found minedReceipt] "c0",
   .arrive (sampleReport "c" 3 50) true,
   sampleTick 300000 (.error "not found") txB [.found ⟨.reverted, [], 8⟩] "c1",
   sampleTick 600000 (.error "not found") txB [.found minedReceipt] "c2",
   sampleTick 900000 (.error "not found") txC [.found minedReceipt] "c3"]

theorem queue_drains_behind : Linked (run (step constantDigest smallEnv) behindState behindRun).db "b" := by
  apply queue_drains constantDigest smallEnv behindState "b" 100 behindRun
  · exact ⟨_, List.mem_cons_of_mem _ List.mem_cons_self, rfl, rfl, rfl, rfl⟩
  · decide +kernel

end LaunchAuditor.Proofs.QueueDrains
