import LaunchAuditor.Lib.Steps
import LaunchAuditor.RpcBudget.Throttle

namespace LaunchAuditor.Proofs.Scheduling
open RpcBudget Steps

variable {π : Type}

def enqueuedJob : Noted π → Option (Job π)
  | .enqueued job => some job
  | _ => none

def startedJob : Noted π → Option (Job π)
  | .started job => some job
  | _ => none

def settledJob : Noted π → Option (Job π)
  | .settled job _ => some job
  | _ => none

def enqueuedJobs (seen : List (Noted π)) : List (Job π) := seen.filterMap enqueuedJob
def startedJobs (seen : List (Noted π)) : List (Job π) := seen.filterMap startedJob
def settledJobs (seen : List (Noted π)) : List (Job π) := seen.filterMap settledJob

@[simp] theorem enqueuedJobs_snoc (seen : List (Noted π)) (e : Noted π) :
    enqueuedJobs (seen ++ [e]) = enqueuedJobs seen ++ (enqueuedJob e).toList := by
  cases e <;> simp [enqueuedJobs, enqueuedJob]

@[simp] theorem startedJobs_snoc (seen : List (Noted π)) (e : Noted π) :
    startedJobs (seen ++ [e]) = startedJobs seen ++ (startedJob e).toList := by
  cases e <;> simp [startedJobs, startedJob]

@[simp] theorem settledJobs_snoc (seen : List (Noted π)) (e : Noted π) :
    settledJobs (seen ++ [e]) = settledJobs seen ++ (settledJob e).toList := by
  cases e <;> simp [settledJobs, settledJob]

/-- Started and not settled. -/
def flying (s : SchedulerState π) : List (Job π) := s.awaiting ++ s.calling.toList

def queuedJobs (s : SchedulerState π) : List (Job π) := s.queue.items.map Entry.value

def allJobs (s : SchedulerState π) : List (Job π) := queuedJobs s ++ (flying s ++ settledJobs s.seen)

variable [LinearOrder π]

/-- A job starts ahead of all others scheduled before and not started yet: it has the
lowest priority number and, of that priority, the earliest `schedule` call. -/
def Orderly (earlier : List (Noted π)) : Noted π → Prop
  | .started job => ∀ k ∈ enqueuedJobs earlier, k ∉ startedJobs earlier →
      k = job ∨ StableQueue.Before Job.priority Job.id job k
  | _ => True

/-- The counters say what the trace says. -/
structure Counted (s : SchedulerState π) : Prop where
  enqueued : s.counts.enqueued = (enqueuedJobs s.seen).length
  started : s.counts.started = (startedJobs s.seen).length
  settled : s.counts.completed + s.counts.failed = (settledJobs s.seen).length
  flying : s.inFlight = (flying s).length

/-- Every job that was scheduled is in one place. -/
structure Accounts (s : SchedulerState π) : Prop where
  ordered : s.queue.Ordered
  entries : ∀ e ∈ s.queue.items, e.value = ⟨e.seq, e.priority⟩
  distinct : ((allJobs s).map Job.id).Nodup
  known : ∀ j ∈ allJobs s, j.id < s.queue.seq
  enqueued : (enqueuedJobs s.seen).Perm (allJobs s)
  started : (startedJobs s.seen).Perm (flying s ++ settledJobs s.seen)
  counted : Counted s
  inOrder : Throughout Orderly s.seen

variable {s : SchedulerState π}

theorem Accounts.schedule (h : Accounts s) (priority : π) : Accounts (s.schedule priority) := by
  have hqueue := PriorityQueue.push_perm s.queue priority (⟨s.queue.seq, priority⟩ : Job π)
  have hseen : (s.schedule priority).seen = s.seen ++ [.enqueued ⟨s.queue.seq, priority⟩] := rfl
  have hsettled : settledJobs (s.schedule priority).seen = settledJobs s.seen := by
    simp [hseen, settledJob]
  have hstarted : startedJobs (s.schedule priority).seen = startedJobs s.seen := by
    simp [hseen, startedJob]
  have hall : (allJobs (s.schedule priority)).Perm (⟨s.queue.seq, priority⟩ :: allJobs s) := by
    rw [allJobs, hsettled]
    exact (hqueue.map Entry.value).append_right _
  refine ⟨h.ordered.push _ _, ?_, ?_, ?_, ?_, ?_, ?_, ?_⟩
  · intro e he
    rcases List.mem_cons.mp (hqueue.mem_iff.mp he) with rfl | he
    · rfl
    · exact h.entries e he
  · refine (hall.map Job.id).nodup_iff.mpr (List.nodup_cons.mpr ⟨?_, h.distinct⟩)
    intro hm
    obtain ⟨j, hj, he⟩ := List.mem_map.mp hm
    exact absurd he (Nat.ne_of_lt (h.known j hj))
  · intro j hj
    change j.id < s.queue.seq + 1
    rcases List.mem_cons.mp (hall.mem_iff.mp hj) with rfl | hj
    · exact Nat.lt_succ_self _
    · exact Nat.lt_succ_of_lt (h.known j hj)
  · rw [hseen, enqueuedJobs_snoc]
    exact ((List.perm_append_singleton _ _).trans (h.enqueued.cons _)).trans hall.symm
  · rw [hstarted, hsettled]
    exact h.started
  · have hcount := h.counted
    constructor
    · rw [hseen, enqueuedJobs_snoc, List.length_append]
      exact congrArg (· + 1) hcount.enqueued
    · rw [hstarted]
      exact hcount.started
    · rw [hsettled]
      exact hcount.settled
    · exact hcount.flying
  · exact throughout_snoc.mpr ⟨h.inOrder, trivial⟩

/-- What is scheduled and not started is queued. -/
theorem Accounts.queued (h : Accounts s) {k : Job π} (hk : k ∈ enqueuedJobs s.seen) (hn : k ∉ startedJobs s.seen) :
    k ∈ queuedJobs s := by
  rcases List.mem_append.mp (h.enqueued.mem_iff.mp hk) with hq | hq
  · exact hq
  · exact absurd (h.started.mem_iff.mpr hq) hn

theorem Accounts.startJob (h : Accounts s) {e : Entry π (Job π)} {items : List (Entry π (Job π))}
    (he : s.queue.items = e :: items) (hc : s.calling = none) :
    Accounts (s.startJob e.value { s.queue with items }) := by
  have hseen : (s.startJob e.value { s.queue with items }).seen = s.seen ++ [.started e.value] := rfl
  have hflying : flying (s.startJob e.value { s.queue with items }) = flying s ++ [e.value] := by
    simp [flying, SchedulerState.startJob, SchedulerState.note, hc]
  have hsettled : settledJobs (s.startJob e.value { s.queue with items }).seen = settledJobs s.seen := by
    simp [hseen, settledJob]
  have henqueued : enqueuedJobs (s.startJob e.value { s.queue with items }).seen = enqueuedJobs s.seen := by
    simp [hseen, enqueuedJob]
  have hall : (allJobs (s.startJob e.value { s.queue with items })).Perm (allJobs s) := by
    have hqueued : queuedJobs s = e.value :: items.map Entry.value := by simp [queuedJobs, he]
    rw [allJobs, hflying, hsettled, allJobs, hqueued, List.append_assoc, List.cons_append, ← List.append_assoc]
    refine List.perm_middle.trans ?_
    rw [List.append_assoc]
    rfl
  refine ⟨h.ordered.tail he, ?_, ?_, ?_, ?_, ?_, ?_, ?_⟩
  · intro x hx
    exact h.entries x (he ▸ List.mem_cons_of_mem _ hx)
  · exact (hall.map Job.id).nodup_iff.mpr h.distinct
  · intro j hj
    exact h.known j (hall.mem_iff.mp hj)
  · rw [henqueued]
    exact h.enqueued.trans hall.symm
  · rw [hseen, startedJobs_snoc, ← hseen, hflying, hsettled, List.append_assoc]
    refine (List.perm_append_singleton _ _).trans ?_
    exact (h.started.cons _).trans List.perm_middle.symm
  · have hcount := h.counted
    constructor
    · rw [henqueued]
      exact hcount.enqueued
    · rw [hseen, startedJobs_snoc, List.length_append]
      exact congrArg (· + 1) hcount.started
    · rw [hsettled]
      exact hcount.settled
    · rw [hflying, List.length_append]
      exact congrArg (· + 1) hcount.flying
  · refine throughout_snoc.mpr ⟨h.inOrder, ?_⟩
    intro k hk hn
    obtain ⟨x, hx, rfl⟩ := List.mem_map.mp (h.queued hk hn)
    have hsorted := h.ordered.sorted
    rw [he] at hsorted
    rcases StableQueue.head_before hsorted (he ▸ hx) with rfl | hb
    · exact Or.inl rfl
    · refine Or.inr ?_
      rw [h.entries x hx, h.entries e (he ▸ List.mem_cons_self)]
      exact hb

/-- The bucket, the timer and the control stack are no part of it. -/
theorem Accounts.control (h : Accounts s) (bucket : TokenBucket) (timer : Option Int) (pumping : Bool)
    (loops : Nat) : Accounts { s with bucket, timer, pumping, loops } := by
  have hcount := h.counted
  exact ⟨h.ordered, h.entries, h.distinct, h.known, h.enqueued, h.started,
    ⟨hcount.enqueued, hcount.started, hcount.settled, hcount.flying⟩, h.inOrder⟩

/-- The jobs in flight may change places. -/
theorem Accounts.moved (h : Accounts s) {calling : Option (Job π)} {awaiting : List (Job π)}
    (hf : awaiting ++ calling.toList = flying s) : Accounts { s with calling, awaiting } := by
  have hall : allJobs { s with calling, awaiting } = allJobs s := by
    rw [allJobs, flying, hf]
    rfl
  have hcount := h.counted
  refine ⟨h.ordered, h.entries, ?_, ?_, ?_, ?_, ⟨hcount.enqueued, hcount.started, hcount.settled, ?_⟩, h.inOrder⟩
  · rw [hall]
    exact h.distinct
  · rw [hall]
    exact h.known
  · rw [hall]
    exact h.enqueued
  · rw [flying, hf]
    exact h.started
  · rw [flying, hf]
    exact hcount.flying

/-- A job in flight is settled; the others stay. -/
theorem Accounts.settle (h : Accounts s) {job : Job π} {calling : Option (Job π)} {awaiting : List (Job π)}
    (hf : (flying s).Perm (job :: (awaiting ++ calling.toList))) (ok : Bool) :
    Accounts ({ s with calling, awaiting }.settle job ok) := by
  have hseen : ({ s with calling, awaiting }.settle job ok).seen = s.seen ++ [.settled job ok] := rfl
  have hsettled : settledJobs ({ s with calling, awaiting }.settle job ok).seen = settledJobs s.seen ++ [job] := by
    simp [hseen, settledJob]
  have hstarted : startedJobs ({ s with calling, awaiting }.settle job ok).seen = startedJobs s.seen := by
    simp [hseen, startedJob]
  have henqueued : enqueuedJobs ({ s with calling, awaiting }.settle job ok).seen = enqueuedJobs s.seen := by
    simp [hseen, enqueuedJob]
  have hmoved : (awaiting ++ calling.toList ++ (settledJobs s.seen ++ [job])).Perm
      (flying s ++ settledJobs s.seen) := by
    rw [← List.append_assoc]
    refine (List.perm_append_singleton _ _).trans ?_
    exact (hf.append_right (settledJobs s.seen)).symm
  have hall : (allJobs ({ s with calling, awaiting }.settle job ok)).Perm (allJobs s) := by
    rw [allJobs, hsettled]
    exact hmoved.append_left _
  refine ⟨h.ordered, h.entries, ?_, ?_, ?_, ?_, ?_, ?_⟩
  · exact (hall.map Job.id).nodup_iff.mpr h.distinct
  · intro j hj
    exact h.known j (hall.mem_iff.mp hj)
  · rw [henqueued]
    exact h.enqueued.trans hall.symm
  · rw [hstarted, hsettled]
    exact h.started.trans hmoved.symm
  · have hcount := h.counted
    constructor
    · rw [henqueued, ← hcount.enqueued]
      cases ok <;> rfl
    · rw [hstarted, ← hcount.started]
      cases ok <;> rfl
    · rw [hsettled, List.length_append, ← hcount.settled]
      cases ok
      · exact (Nat.add_assoc ..).symm
      · exact Nat.add_right_comm ..
    · have hlen := hf.length_eq
      rw [← hcount.flying, List.length_cons] at hlen
      change s.inFlight - 1 = (awaiting ++ calling.toList).length
      omega
  · exact throughout_snoc.mpr ⟨h.inOrder, trivial⟩

/-- The loop that runs last finds nothing to do, or has armed the timer. -/
structure Awake (s : SchedulerState π) : Prop where
  within : s.calling.isSome → 0 < s.loops
  bounded : s.inFlight ≤ s.maxInFlight
  wakes : s.loops = 0 → 0 < s.queue.size → s.inFlight = s.maxInFlight ∨ s.timer.isSome ∨ s.pumping = true

structure Inv (s : SchedulerState π) : Prop where
  accounts : Accounts s
  awake : Awake s

/-- What one pass of the loop can do. -/
inductive Passed (s : SchedulerState π) : SchedulerState π → Prop
  | left {bucket : TokenBucket} {timer : Option Int}
      (why : s.queue.size = 0 ∨ s.maxInFlight ≤ s.inFlight ∨ timer.isSome) :
      Passed s { s with bucket, timer, loops := s.loops - 1 }
  | started {bucket : TokenBucket} {e : Entry π (Job π)} {items : List (Entry π (Job π))}
      (head : s.queue.items = e :: items) (room : s.inFlight < s.maxInFlight) :
      Passed s ({ s with bucket }.startJob e.value { s.queue with items })

theorem pass_cases (s : SchedulerState π) (now later : ℚ) : Passed s (s.pass now later) := by
  unfold SchedulerState.pass
  by_cases hw : s.queue.size > 0 ∧ s.inFlight < s.maxInFlight
  · rw [if_pos hw]
    rcases s.bucket.tryTake 1 now with ⟨taken, bucket⟩
    cases taken with
    | false => exact .left (Or.inr (Or.inr (by cases s.timer <;> rfl)))
    | true =>
      cases hi : s.queue.items with
      | nil => simp [PriorityQueue.size, hi] at hw
      | cons e items =>
        simp only [PriorityQueue.shift, hi]
        exact .started hi hw.2
  · rw [if_neg hw]
    refine @Passed.left _ _ s s.bucket s.timer ?_
    rcases Nat.eq_zero_or_pos s.queue.size with h0 | hpos
    · exact Or.inl h0
    · exact Or.inr (Or.inl (Nat.le_of_not_lt fun hlt => hw ⟨hpos, hlt⟩))

theorem Inv.pass (h : Inv s) (hl : 0 < s.loops) (hc : s.calling = none) (now later : ℚ) :
    Inv (s.pass now later) := by
  have hp := pass_cases s now later
  generalize s.pass now later = next at hp ⊢
  have hb := h.awake.bounded
  cases hp with
  | left why =>
    refine ⟨h.accounts.control _ _ s.pumping _, ⟨?_, hb, ?_⟩⟩
    · simp [hc]
    · intro _ hq
      rcases why with h0 | hfull | htimer
      · exact absurd h0 (Nat.ne_of_gt hq)
      · exact Or.inl (Nat.le_antisymm hb hfull)
      · exact Or.inr (Or.inl htimer)
  | @started bucket e items head room =>
    have ha : Accounts { s with bucket } := h.accounts.control bucket s.timer s.pumping s.loops
    refine ⟨ha.startJob head hc, ⟨fun _ => hl, room, ?_⟩⟩
    intro h0
    exact absurd h0 (Nat.ne_of_gt hl)

theorem Inv.schedule (h : Inv s) (priority : π) : Inv (s.schedule priority) :=
  ⟨h.accounts.schedule priority, ⟨h.awake.within, h.awake.bounded, fun _ _ => Or.inr (Or.inr rfl)⟩⟩

/-- The loop is entered: it has yet to look for work. -/
theorem Inv.enter (h : Inv s) (timer : Option Int) (pumping : Bool) :
    Inv { s with timer, pumping, loops := 1 } := by
  refine ⟨h.accounts.control s.bucket timer pumping 1, ⟨fun _ => Nat.one_pos, h.awake.bounded, ?_⟩⟩
  intro h0
  cases h0

theorem Inv.settle (h : Inv s) {job : Job π} {calling : Option (Job π)} {awaiting : List (Job π)}
    (hf : (flying s).Perm (job :: (awaiting ++ calling.toList))) (ok : Bool) :
    Inv ({ s with calling, awaiting }.settle job ok) := by
  refine ⟨h.accounts.settle hf ok, ⟨fun _ => Nat.succ_pos _, ?_, ?_⟩⟩
  · exact (Nat.sub_le _ _).trans h.awake.bounded
  · intro h0
    cases h0

theorem Inv.step (h : Inv s) (e : SchedulerEvent π) : Inv (s.step e) := by
  cases e with
  | schedule priority =>
    simp only [SchedulerState.step]
    split
    · exact h.schedule priority
    · exact h
  | microtask =>
    simp only [SchedulerState.step]
    split
    · exact h.enter s.timer false
    · exact h
  | timerFires =>
    simp only [SchedulerState.step]
    split
    · exact h.enter none s.pumping
    · exact h
  | pass now later =>
    simp only [SchedulerState.step]
    split
    · rename_i hw
      exact h.pass hw.1 (Option.isNone_iff_eq_none.mp hw.2) now later
    · exact h
  | runReturns =>
    simp only [SchedulerState.step]
    cases hc : s.calling with
    | none => exact h
    | some job =>
      have hl : 0 < s.loops := h.awake.within (by simp [hc])
      refine ⟨h.accounts.moved (by simp [flying, hc]), ⟨fun _ => hl, h.awake.bounded, ?_⟩⟩
      intro h0
      exact absurd h0 (Nat.ne_of_gt hl)
  | runThrows =>
    simp only [SchedulerState.step]
    cases hc : s.calling with
    | none => exact h
    | some job =>
      refine @Inv.settle _ _ s h job none s.awaiting ?_ false
      rw [flying, hc]
      simp
  | settles job ok =>
    simp only [SchedulerState.step]
    split
    · rename_i hw
      refine @Inv.settle _ _ s h job s.calling (s.awaiting.erase job) ?_ ok
      exact (List.perm_cons_erase hw.2).append_right _
    · exact h

/-- What holds of a scheduler after any number of events. -/
structure SchedulerOk (opts : SchedulerOptions) (s : SchedulerState π) : Prop where
  /-- the counter counts the jobs in flight, and they are at most `maxInFlight` -/
  inFlight : s.inFlight = (flying s).length
  bounded : s.inFlight ≤ opts.maxInFlight.getD 12
  enqueued : s.counts.enqueued = s.counts.started + s.queue.size
  started : s.counts.started = s.counts.completed + s.counts.failed + s.inFlight
  runOnce : ((startedJobs s.seen).map Job.id).Nodup
  settledOnce : ((settledJobs s.seen).map Job.id).Nodup
  inOrder : Throughout Orderly s.seen
  /-- no wake-up is lost -/
  wakes : s.loops = 0 → 0 < s.queue.size →
    s.inFlight = opts.maxInFlight.getD 12 ∨ s.timer.isSome ∨ s.pumping = true

theorem Inv.ok {opts : SchedulerOptions} (h : Inv s) (hm : s.maxInFlight = opts.maxInFlight.getD 12) :
    SchedulerOk opts s := by
  have hcount := h.accounts.counted
  have hids := h.accounts.distinct
  rw [allJobs, List.map_append] at hids
  have hgone : ((flying s ++ settledJobs s.seen).map Job.id).Nodup := (List.nodup_append.mp hids).2.1
  have hlen := h.accounts.started.length_eq
  rw [List.length_append] at hlen
  constructor
  · exact hcount.flying
  · rw [← hm]
    exact h.awake.bounded
  · have htotal := h.accounts.enqueued.length_eq
    rw [allJobs, List.length_append, List.length_append, queuedJobs, List.length_map] at htotal
    rw [hcount.enqueued, hcount.started, PriorityQueue.size]
    omega
  · rw [hcount.started, hcount.settled, hcount.flying]
    omega
  · exact (h.accounts.started.map Job.id).nodup_iff.mpr hgone
  · rw [List.map_append] at hgone
    exact (List.nodup_append.mp hgone).2.1
  · exact h.accounts.inOrder
  · rw [← hm]
    exact h.awake.wakes

theorem step_maxInFlight (s : SchedulerState π) (e : SchedulerEvent π) : (s.step e).maxInFlight = s.maxInFlight := by
  cases e with
  | pass now later =>
    simp only [SchedulerState.step]
    split
    · have hp := pass_cases s now later
      generalize s.pass now later = next at hp ⊢
      cases hp <;> rfl
    · rfl
  | runReturns | runThrows =>
    simp only [SchedulerState.step]
    split <;> rfl
  | schedule priority | microtask | timerFires | settles job ok =>
    simp only [SchedulerState.step]
    split <;> rfl

theorem Inv.init {opts : SchedulerOptions} {now : ℚ} {scheduler : RequestScheduler π}
    (hs : RequestScheduler.create opts now = .ok scheduler) :
    Inv (.init scheduler) ∧ scheduler.maxInFlight = opts.maxInFlight.getD 12 := by
  simp only [RequestScheduler.create] at hs
  split at hs
  · cases hs
  · rename_i bucket _
    obtain rfl := Except.ok.inj hs
    have hall : allJobs (.init { bucket, queue := .empty, maxInFlight := opts.maxInFlight.getD 12, inFlight := 0
                                 timer := none, pumping := false, counts := ⟨0, 0, 0, 0, fun _ => 0⟩ } :
        SchedulerState π) = [] := rfl
    refine ⟨⟨⟨PriorityQueue.ordered_empty, ?_, ?_, ?_, ?_, ?_, ⟨rfl, rfl, rfl, rfl⟩, throughout_nil⟩,
      ⟨?_, Nat.zero_le _, ?_⟩⟩, rfl⟩
    · intro e he
      cases he
    · rw [hall]
      exact List.nodup_nil
    · rw [hall]
      intro j hj
      cases hj
    · rw [hall]
      exact .nil
    · exact .nil
    · intro hc
      cases hc
    · intro _ hq
      cases hq

/-- The scheduler, after any events in any order. -/
theorem scheduler_ok (opts : SchedulerOptions) (now : ℚ) {scheduler : RequestScheduler π}
    (hs : RequestScheduler.create opts now = .ok scheduler) (events : List (SchedulerEvent π)) :
    SchedulerOk opts (run SchedulerState.step (.init scheduler) events) := by
  obtain ⟨hinit, hlimit⟩ := Inv.init hs
  have hboth := @invariant_run_free _ _ SchedulerState.step
    (fun s => Inv s ∧ s.maxInFlight = opts.maxInFlight.getD 12)
    (fun s e h => ⟨h.1.step e, (step_maxInFlight s e).trans h.2⟩) _ events ⟨hinit, hlimit⟩
  exact hboth.1.ok hboth.2

section Sample

/-- Three jobs are scheduled, two may be in flight; one of them throws at once. -/
def busyHour : List (SchedulerEvent Nat) :=
  [.schedule 4, .schedule 0, .schedule 4, .microtask, .pass 0 0, .runReturns, .pass 0 0, .runThrows, .pass 0 0,
   .schedule 1, .runReturns, .pass 0 0, .pass 0 0, .settles ⟨1, 0⟩ true, .pass 0 0, .timerFires, .pass 5000 5000]

theorem scheduler_ok_busy : ∃ scheduler : RequestScheduler Nat,
    RequestScheduler.create ⟨60, some 3, some 2⟩ 0 = .ok scheduler ∧
      SchedulerOk ⟨60, some 3, some 2⟩ (run SchedulerState.step (.init scheduler) busyHour) ∧
        ((run SchedulerState.step (.init scheduler) busyHour).calling = some ⟨3, 1⟩) := by
  have hs : RequestScheduler.create (π := Nat) ⟨60, some 3, some 2⟩ 0 = .ok
      { bucket := ⟨3, 1, 3, 0⟩, queue := .empty, maxInFlight := 2, inFlight := 0, timer := none
        pumping := false, counts := ⟨0, 0, 0, 0, fun _ => 0⟩ } := by
    have hbucket : TokenBucket.create 3 1 0 = .ok ⟨3, 1, 3, 0⟩ := by
      rw [TokenBucket.create, if_neg (by decide +kernel), if_neg (by decide +kernel)]
    simp [RequestScheduler.create, hbucket]
  exact ⟨_, hs, scheduler_ok _ _ hs busyHour, by decide +kernel⟩

end Sample

end LaunchAuditor.Proofs.Scheduling
