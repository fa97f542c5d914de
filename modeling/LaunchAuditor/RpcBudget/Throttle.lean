import Mathlib.Data.Rat.Floor
import LaunchAuditor.Lib.StableQueue
import Mathlib.Algebra.Order.Ring.Rat

/-! `token-bucket.ts`, `priority-queue.ts` and `scheduler.ts` of `packages/rpc-budget/src`. Every clock reading
is an argument. The scheduler takes one event at a time: `loop` is entered from a microtask, a timer, a settled
job or a job that throws at once, so its activations on the call stack are part of the state. -/

namespace LaunchAuditor.RpcBudget

structure TokenBucket where
  capacity : ℚ
  refillPerSec : ℚ
  tokens : ℚ
  last : ℚ
  deriving DecidableEq

namespace TokenBucket

def create (capacity refillPerSec now : ℚ) : Except String TokenBucket :=
  if capacity ≤ 0 then .error "TokenBucket: capacity must be > 0"
  else if refillPerSec ≤ 0 then .error "TokenBucket: refillPerSec must be > 0"
  else .ok ⟨capacity, refillPerSec, capacity, now⟩

def refill (b : TokenBucket) (now : ℚ) : TokenBucket :=
  let elapsed := (now - b.last) / 1000
  if elapsed ≤ 0 then b
  else { b with tokens := min b.capacity (b.tokens + elapsed * b.refillPerSec), last := now }

/-- `this.tokens + 1e-9 >= n` -/
def covers (b : TokenBucket) (n : ℚ) : Bool := b.tokens + 1 / 1000000000 ≥ n

def tryTake (b : TokenBucket) (n now : ℚ) : Bool × TokenBucket :=
  let b := b.refill now
  if b.covers n then (true, { b with tokens := b.tokens - n }) else (false, b)

def msUntilAvailable (b : TokenBucket) (n now : ℚ) : Int × TokenBucket :=
  let b := b.refill now
  if b.covers n then (0, b) else (⌈(n - b.tokens) / b.refillPerSec * 1000⌉, b)

def available (b : TokenBucket) (now : ℚ) : ℚ × TokenBucket :=
  let b := b.refill now
  (b.tokens, b)

end TokenBucket

end LaunchAuditor.RpcBudget

namespace LaunchAuditor.RpcBudget

structure Entry (π τ : Type) where
  priority : π
  seq : Nat
  value : τ

structure PriorityQueue (π τ : Type) where
  items : List (Entry π τ)
  seq : Nat

namespace PriorityQueue
variable {π τ : Type}

def empty : PriorityQueue π τ := ⟨[], 0⟩

def push [LinearOrder π] (q : PriorityQueue π τ) (priority : π) (value : τ) : PriorityQueue π τ :=
  ⟨StableQueue.insert Entry.priority ⟨priority, q.seq, value⟩ q.items, q.seq + 1⟩

def shift (q : PriorityQueue π τ) : Option (τ × PriorityQueue π τ) :=
  match q.items with
  | [] => none
  | e :: items => some (e.value, { q with items })

def size (q : PriorityQueue π τ) : Nat := q.items.length

/-- Lowest priority number first, earliest `push` within one priority. -/
structure Ordered [LinearOrder π] (q : PriorityQueue π τ) : Prop where
  sorted : q.items.Pairwise (StableQueue.Before Entry.priority Entry.seq)
  fresh : ∀ e ∈ q.items, e.seq < q.seq

variable [LinearOrder π]

theorem ordered_empty : Ordered (empty : PriorityQueue π τ) := ⟨.nil, by simp [empty]⟩

theorem push_perm (q : PriorityQueue π τ) (priority : π) (value : τ) :
    (q.push priority value).items.Perm (⟨priority, q.seq, value⟩ :: q.items) :=
  StableQueue.insert_perm _ _

theorem Ordered.push {q : PriorityQueue π τ} (h : q.Ordered) (priority : π) (value : τ) :
    (q.push priority value).Ordered := by
  refine ⟨StableQueue.insert_pairwise h.sorted h.fresh, ?_⟩
  intro e he
  rcases List.mem_cons.mp ((push_perm q priority value).mem_iff.mp he) with rfl | he
  · exact Nat.lt_succ_self _
  · exact Nat.lt_succ_of_lt (h.fresh e he)

theorem Ordered.tail {q : PriorityQueue π τ} (h : q.Ordered) {e : Entry π τ} {items : List (Entry π τ)}
    (he : q.items = e :: items) : Ordered { q with items } := by
  have hs := h.sorted
  rw [he] at hs
  refine ⟨(List.pairwise_cons.mp hs).2, ?_⟩
  intro x hx
  exact h.fresh x (he ▸ List.mem_cons_of_mem _ hx)

end PriorityQueue

end LaunchAuditor.RpcBudget

namespace LaunchAuditor.RpcBudget

structure SchedulerOptions where
  rpm : ℚ
  burst : Option ℚ
  maxInFlight : Option Nat

/-- `id` is the number of the `schedule` call. -/
structure Job (π : Type) where
  id : Nat
  priority : π
  deriving DecidableEq

structure Counts (π : Type) where
  enqueued : Nat
  started : Nat
  completed : Nat
  failed : Nat
  byPriority : π → Nat

structure RequestScheduler (π : Type) where
  bucket : TokenBucket
  queue : PriorityQueue π (Job π)
  maxInFlight : Nat
  inFlight : Nat
  /-- the wait of the armed timer, in milliseconds -/
  timer : Option Int
  pumping : Bool
  counts : Counts π

inductive Noted (π : Type)
  | enqueued (job : Job π)
  | started (job : Job π)
  | settled (job : Job π) (ok : Bool)

/-- The scheduler with what runs on the call stack and what awaits its promise. -/
structure SchedulerState (π : Type) extends RequestScheduler π where
  /-- activations of `loop` on the stack -/
  loops : Nat
  /-- the job whose `run` the innermost of them has called and that has not returned -/
  calling : Option (Job π)
  awaiting : List (Job π)
  seen : List (Noted π)

/-- What can happen next. Clock readings come with the pass of the loop that takes them. -/
inductive SchedulerEvent (π : Type)
  /-- by any code that runs, a job's own `run` included -/
  | schedule (priority : π)
  | microtask
  | timerFires
  /-- one pass of the `while`; `now` is read by `tryTake`, `later` by `msUntilAvailable` -/
  | pass (now later : ℚ)
  /-- `run` has returned its promise -/
  | runReturns
  /-- `run` throws before it returns one -/
  | runThrows
  /-- the promise of a job is settled -/
  | settles (job : Job π) (ok : Bool)

variable {π : Type}

def RequestScheduler.create (opts : SchedulerOptions) (now : ℚ) : Except String (RequestScheduler π) :=
  let burst := opts.burst.getD (max (⌈opts.rpm / 30⌉ : ℚ) 3)
  match TokenBucket.create burst (opts.rpm / 60) now with
  | .error message => .error message
  | .ok bucket => .ok
    { bucket, queue := .empty, maxInFlight := opts.maxInFlight.getD 12, inFlight := 0, timer := none
      pumping := false, counts := ⟨0, 0, 0, 0, fun _ => 0⟩ }

/-- Nothing has been scheduled yet. -/
def SchedulerState.init (s : RequestScheduler π) : SchedulerState π := ⟨s, 0, none, [], []⟩

namespace SchedulerState

def note (s : SchedulerState π) (e : Noted π) : SchedulerState π := { s with seen := s.seen ++ [e] }

/-- Outside of `loop`, or inside a call it makes. -/
def runsCode (s : SchedulerState π) : Bool := s.loops = 0 || s.calling.isSome

section Order
variable [LinearOrder π]

/-- `schedule` with the `pump` at its end. -/
def schedule (s : SchedulerState π) (priority : π) : SchedulerState π :=
  let job : Job π := ⟨s.queue.seq, priority⟩
  { s with queue := s.queue.push priority job, pumping := true
           counts := { s.counts with enqueued := s.counts.enqueued + 1 } }.note (.enqueued job)

/-- The start of a job up to the call of its `run`. -/
def startJob (s : SchedulerState π) (job : Job π) (queue : PriorityQueue π (Job π)) : SchedulerState π :=
  { s with queue, inFlight := s.inFlight + 1, calling := some job
           counts := { s.counts with
             started := s.counts.started + 1
             byPriority := fun p => s.counts.byPriority p + if p = job.priority then 1 else 0 } }.note (.started job)

/-- One pass of the loop: it ends, it waits for a token, or it starts a job. -/
def pass (s : SchedulerState π) (now later : ℚ) : SchedulerState π :=
  if s.queue.size > 0 ∧ s.inFlight < s.maxInFlight then
    match s.bucket.tryTake 1 now with
    | (false, bucket) =>
      let (ms, bucket) := bucket.msUntilAvailable 1 later
      { s with bucket, timer := s.timer <|> some (max ms 5), loops := s.loops - 1 }
    | (true, bucket) =>
      match s.queue.shift with
      | none => { s with bucket, loops := s.loops - 1 }
      | some (job, queue) => { s with bucket }.startJob job queue
  else { s with loops := s.loops - 1 }

end Order

/-- The end of `execute`, whose `finally` enters the loop. -/
def settle (s : SchedulerState π) (job : Job π) (ok : Bool) : SchedulerState π :=
  { s with inFlight := s.inFlight - 1, loops := s.loops + 1
           counts := if ok then { s.counts with completed := s.counts.completed + 1 }
             else { s.counts with failed := s.counts.failed + 1 } }.note (.settled job ok)

/-- Events that cannot happen where the machine is change nothing. -/
def step [LinearOrder π] (s : SchedulerState π) : SchedulerEvent π → SchedulerState π
  | .schedule priority => if s.runsCode then s.schedule priority else s
  | .microtask => if s.loops = 0 ∧ s.pumping then { s with pumping := false, loops := 1 } else s
  | .timerFires => if s.loops = 0 ∧ s.timer.isSome then { s with timer := none, loops := 1 } else s
  | .pass now later => if s.loops > 0 ∧ s.calling.isNone then s.pass now later else s
  | .runReturns =>
    match s.calling with
    | some job => { s with calling := none, awaiting := s.awaiting ++ [job] }
    | none => s
  | .runThrows =>
    match s.calling with
    | some job => { s with calling := none }.settle job false
    | none => s
  | .settles job ok =>
    if s.loops = 0 ∧ job ∈ s.awaiting then { s with awaiting := s.awaiting.erase job }.settle job ok else s

end SchedulerState

end LaunchAuditor.RpcBudget
