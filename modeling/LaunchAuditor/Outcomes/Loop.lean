import LaunchAuditor.Db.Reports
import LaunchAuditor.Js.Date
import LaunchAuditor.Lib.Steps
import LaunchAuditor.Outcomes.Context
import LaunchAuditor.Watcher.Retry
import Mathlib.Data.List.Sort

/-! `apps/worker/src/outcomes/loop.ts`. A sweep runs its workers one settled `await` at a
time, in any order, and every read, call and write may fail. It takes any list of due rows;
the query that picks them comes last. -/

namespace LaunchAuditor.Outcomes.Loop
open Chain Db Js Scoring

/-- A row of `outcomes` with its columns for evidence. -/
structure OutcomeRecord extends Outcome where
  evidence : Option Evidence
  coverage : Option Coverage
  measuredAt : Option Int
  deriving DecidableEq

abbrev OutcomeTable := List OutcomeRecord

structure SweepResult where
  picked : Nat
  resolved : Nat
  na : Nat
  unresolvable : Nat
  retryLater : Nat
  failed : Nat
  deriving DecidableEq

def DEFAULT_RETRY_BACKOFF_MS : Int := 30 * 60000

def DEFAULT_GIVE_UP_AFTER_MS : Int := 24 * 3600000

structure Deferral where
  giveUp : Bool
  firstDeferredAt : String
  deriving DecidableEq

/-- `firstDeferredAt && !Number.isNaN(Date.parse(firstDeferredAt))` -/
def isClock (firstDeferredAt : Option String) : Bool :=
  firstDeferredAt.any fun s => s ≠ "" && (dateParse s).isSome

/-- Keep retrying a transient failure, or give up; a date that cannot be read compares as `NaN`. -/
def deferOrGiveUp (firstDeferredAt : Option String) (now giveUpAfterMs : Int) : Deferral :=
  let first := if isClock firstDeferredAt then firstDeferredAt.getD "" else toISOString now
  ⟨(dateParse first).any fun t => giveUpAfterMs ≤ now - t, first⟩

/-- What is thrown; `deadline` marks a `DeadlineError`. -/
structure Thrown where
  deadline : Bool
  message : String
  deriving DecidableEq

/-- The pattern of the messages that are treated as transient. -/
def RETRYABLE (message : String) : Bool :=
  ["network", "timeout", "etimedout", "econnreset", "econnrefused", "socket hang up", "fetch failed", "429",
      "too many requests", "request limit", "network is busy", "-32005", "-32097", "capacity", "throttl",
      "sweep error"].any (containsText message) || RpcBudget.rateLimit message.toLower.toList

/-- A text of an evidence record. -/
def textOf (evidence : Option Evidence) (key : String) : Option String :=
  (evidence.getD []).findSome? fun kv =>
    match kv with
    | (k, .text s) => if k = key then some s else none
    | _ => none

def numOf (evidence : Option Evidence) (key : String) : Option ℚ :=
  (evidence.getD []).findSome? fun kv =>
    match kv with
    | (k, .num n) => if k = key then some n else none
    | _ => none

/-- The data of an `update`. -/
inductive OutcomeWrite
  | deferred (firstDeferredAt : String) (deferrals : ℚ) (lastError : String)
  | gaveUp (firstDeferredAt : String) (deferrals : ℚ) (msg : String)
  | verdict (res : Resolution)
  | backoff
  deriving DecidableEq

def OutcomeStatus.row : OutcomeStatus → OutcomeRowStatus
  | .RESOLVED => .RESOLVED
  | .NA => .NA
  | .UNRESOLVABLE => .UNRESOLVABLE

/-- The updated row; `now` is read with the data. -/
def OutcomeWrite.apply (now : Int) (row : OutcomeRecord) : OutcomeWrite → OutcomeRecord
  | .deferred first deferrals msg =>
    { row with
      measuredAt := some now
      evidence := some [("firstDeferredAt", .text first), ("deferrals", .num deferrals),
        ("lastError", .text (String.ofList (msg.toList.take 300)))] }
  | .gaveUp first deferrals msg =>
    { row with
      status := .UNRESOLVABLE
      value := none
      evidence := some [("reason", .text s!"gave up after {numberText deferrals} transient failures since {first}: {msg}"),
        ("firstDeferredAt", .text first), ("deferrals", .num deferrals)]
      measuredAt := some now }
  | .verdict res =>
    { row with
      status := OutcomeStatus.row res.status
      value := res.value
      evidence := some (((res.reason.filter (· ≠ "")).map fun r => ("reason", EvidenceValue.text r)).toList ++ res.evidence)
      coverage := res.coverage
      measuredAt := some now }
  | .backoff => { row with measuredAt := some now }

/-- `update({ where: { id }, data })` -/
def updateRow (id : String) (now : Int) (write : OutcomeWrite) (table : OutcomeTable) : OutcomeTable :=
  table.map fun row => if row.id = id then write.apply now row else row

/-- Where `resolveRow` waits. -/
inductive RowPhase
  | resolving
  /-- in `deferRow`, called from the body or from the handler of the `try` -/
  | deferring (write : OutcomeWrite) (caught : Bool) (at' : Int)
  | storing (res : Resolution) (at' : Int)
  /-- the guarded update after a failure -/
  | backingOff (at' : Int)
  /-- `recordFailure`, which never throws -/
  | recording

inductive Worker
  /-- at the head of its loop -/
  | idle
  | busy (row : OutcomeRecord) (phase : RowPhase)
  | finished
  /-- its promise is rejected, and with it that of the sweep -/
  | rejected

structure Sweep where
  due : List OutcomeRecord
  cursor : Nat
  workers : List Worker
  out : SweepResult
  giveUpAfterMs : Int

/-- A number as `Number(process.env.OUTCOMES_CONCURRENCY)` may give it. -/
inductive Concurrency
  | nan
  | value (n : ℚ)
  | infinity
  deriving DecidableEq

/-- The length of `Array.from({ length: Math.min(Math.max(1, concurrency ?? 1), rows) })`; it is 0 for NaN. -/
def workerCount (concurrency : Option Concurrency) (rows : Nat) : Nat :=
  match concurrency.getD (.value 1) with
  | .nan => 0
  | .value n => (min (max 1 n) rows).floor.toNat
  | .infinity => rows

/-- The sweep once its rows are read. -/
def Sweep.start (due : List OutcomeRecord) (concurrency : Option Concurrency) (giveUpAfterMs : Int) : Sweep :=
  { due, cursor := 0, workers := List.replicate (workerCount concurrency due.length) .idle
    out := ⟨due.length, 0, 0, 0, 0, 0⟩, giveUpAfterMs }

/-- A sweep whose query has thrown. -/
def Sweep.unread (giveUpAfterMs : Int) : Sweep :=
  { due := [], cursor := 0, workers := [.rejected], out := ⟨0, 0, 0, 0, 0, 0⟩, giveUpAfterMs }

inductive WriteOutcome
  | ok
  | failed (err : Thrown)
  /-- the write is applied although the caller sees it fail -/
  | ackLost (err : Thrown)
  deriving DecidableEq

/-- How the awaited call of one worker ends: a resolver with a verdict or an error, a write. -/
structure Settled where
  worker : Nat
  resolution : Except Thrown Resolution
  write : WriteOutcome
  now : Int

def Sweep.set (s : Sweep) (worker : Nat) (w : Worker) : Sweep := { s with workers := s.workers.set worker w }

/-- The synchronous part of `deferRow`: the count, then the call of `update`. -/
def Sweep.deferRow (s : Sweep) (worker : Nat) (row : OutcomeRecord) (msg : String) (caught : Bool) (now : Int) : Sweep :=
  let d := deferOrGiveUp (textOf row.evidence "firstDeferredAt") now s.giveUpAfterMs
  let deferrals := (numOf row.evidence "deferrals").getD 0 + 1
  if d.giveUp then
    { s with out := { s.out with unresolvable := s.out.unresolvable + 1 } }.set worker
      (.busy row (.deferring (.gaveUp d.firstDeferredAt deferrals msg) caught now))
  else
    { s with out := { s.out with retryLater := s.out.retryLater + 1 } }.set worker
      (.busy row (.deferring (.deferred d.firstDeferredAt deferrals msg) caught now))

/-- The `catch` of `resolveRow`. -/
def Sweep.handle (s : Sweep) (worker : Nat) (row : OutcomeRecord) (err : Thrown) (now : Int) : Sweep :=
  if err.deadline || RETRYABLE err.message then s.deferRow worker row err.message true now
  else { s with out := { s.out with failed := s.out.failed + 1 } }.set worker (.busy row (.backingOff now))

/-- An unresolvable verdict with a reason that is transient. -/
def transientVerdict (res : Resolution) : Bool :=
  res.status = .UNRESOLVABLE && res.reason.any fun r => r ≠ "" && RETRYABLE r

def deferralMessage (res : Resolution) : String :=
  let reason := res.reason.getD ""
  match (textOf (some res.evidence) "rpcError").filter (· ≠ "") with
  | some raw => s!"{reason} — {raw}"
  | none => reason

def SweepResult.count (out : SweepResult) : OutcomeStatus → SweepResult
  | .RESOLVED => { out with resolved := out.resolved + 1 }
  | .NA => { out with na := out.na + 1 }
  | .UNRESOLVABLE => { out with unresolvable := out.unresolvable + 1 }

/-- A worker goes on: from the head of its loop, or with the call it waits for. -/
def Sweep.exec (s : Sweep) (table : OutcomeTable) (e : Settled) : Sweep × OutcomeTable :=
  match s.workers[e.worker]? with
  | some .idle =>
    match s.due[s.cursor]? with
    | some row => ({ s with cursor := s.cursor + 1 }.set e.worker (.busy row .resolving), table)
    | none => (s.set e.worker .finished, table)
  | some (.busy row .resolving) =>
    match e.resolution with
    | .ok res =>
      if transientVerdict res then (s.deferRow e.worker row (deferralMessage res) false e.now, table)
      else (s.set e.worker (.busy row (.storing res e.now)), table)
    | .error err => (s.handle e.worker row err e.now, table)
  | some (.busy row (.deferring write caught at')) =>
    let written := updateRow row.id at' write table
    let thrown (err : Thrown) := if caught then s.set e.worker .rejected else s.handle e.worker row err e.now
    match e.write with
    | .ok => (s.set e.worker .idle, written)
    | .failed err => (thrown err, table)
    | .ackLost err => (thrown err, written)
  | some (.busy row (.storing res at')) =>
    let written := updateRow row.id at' (.verdict res) table
    match e.write with
    | .ok => ({ s with out := s.out.count res.status }.set e.worker .idle, written)
    | .failed err => (s.handle e.worker row err e.now, table)
    | .ackLost err => (s.handle e.worker row err e.now, written)
  | some (.busy row (.backingOff at')) =>
    let table := if e.write matches .failed _ then table else updateRow row.id at' .backoff table
    (s.set e.worker (.busy row .recording), table)
  | some (.busy _ .recording) => (s.set e.worker .idle, table)
  | _ => (s, table)

def Worker.returned : Worker → Bool
  | .finished => true
  | _ => false

def Worker.threw : Worker → Bool
  | .rejected => true
  | _ => false

def Worker.done (w : Worker) : Bool := w.returned || w.threw

/-- The promise of the sweep is settled: at once by a rejected worker, else by the last one. -/
def Sweep.settled (s : Sweep) : Bool := s.workers.any Worker.threw || s.workers.all Worker.returned

/-- The sweep returns its counts. -/
def Sweep.returns (s : Sweep) : Option SweepResult := if s.workers.all Worker.returned then some s.out else none

/-- The table with the sweeps begun so far; workers of a rejected sweep run on. -/
structure World where
  table : OutcomeTable
  sweeps : List Sweep

inductive Step
  /-- `due` is none when the query throws -/
  | sweep (due : Option (List OutcomeRecord)) (concurrency : Option Concurrency) (giveUpAfterMs : Int)
  | exec (sweep : Nat) (settled : Settled)

/-- Rows that the query of a sweep can give: pending ones, no row twice. -/
def dueRows (table : OutcomeTable) (due : List OutcomeRecord) : Bool :=
  due.all (fun r => r ∈ table && r.status = .PENDING) && (due.map fun r => r.id).Nodup

/-- A sweep begins when the one before it is settled. -/
def World.accepts (w : World) (due : Option (List OutcomeRecord)) : Bool :=
  w.sweeps.all Sweep.settled && due.all (dueRows w.table)

def World.step (w : World) : Step → World
  | .sweep due concurrency giveUpAfterMs =>
    if w.accepts due then
      match due with
      | some due => { w with sweeps := w.sweeps ++ [.start due concurrency giveUpAfterMs] }
      | none => { w with sweeps := w.sweeps ++ [.unread giveUpAfterMs] }
    else w
  | .exec i e =>
    match w.sweeps[i]? with
    | some s =>
      let r := s.exec w.table e
      { table := r.2, sweeps := w.sweeps.set i r.1 }
    | none => w

def ALL_OUTCOME_LABELS : List OutcomeLabel :=
  [.INSIDER_EXIT, .SELL_IMPAIRED, .LIQ_IMPAIRED, .DRAWDOWN_80, .TRADING_ALIVE]

section Interleave

variable {α : Type}

/-- The inner loop of `interleave`: it ends early when the list is full. Whether it took anything comes second. -/
def takeRound (limit i : Nat) : List (List α) → (out : List α) → (took : Bool) → List α × Bool
  | [], out, took => (out, took)
  | g :: groups, out, took =>
    match g[i]? with
    | some a =>
      if (out ++ [a]).length ≥ limit then (out ++ [a], true) else takeRound limit i groups (out ++ [a]) true
    | none => takeRound limit i groups out took

theorem takeRound_length (limit i : Nat) (groups : List (List α)) (out : List α) (took : Bool) :
    out.length ≤ (takeRound limit i groups out took).1.length := by
  induction groups generalizing out took with
  | nil => exact Nat.le_refl _
  | cons g groups ih =>
    rw [takeRound]
    cases g[i]? with
    | none => exact ih out took
    | some a =>
      have hpush : out.length ≤ (out ++ [a]).length := by simp
      dsimp only
      split
      · exact hpush
      · exact Nat.le_trans hpush (ih (out ++ [a]) true)

/-- A round that took a row has made the list longer. -/
theorem takeRound_grows {limit i : Nat} {groups : List (List α)} {out : List α}
    (h : (takeRound limit i groups out false).2 = true) :
    out.length < (takeRound limit i groups out false).1.length := by
  induction groups generalizing out with
  | nil => cases h
  | cons g groups ih =>
    rw [takeRound] at h ⊢
    cases hg : g[i]? with
    | none =>
      rw [hg] at h
      exact ih h
    | some a =>
      have hpush : out.length < (out ++ [a]).length := by simp
      dsimp only
      split
      · exact hpush
      · exact Nat.lt_of_lt_of_le hpush (takeRound_length limit i groups (out ++ [a]) true)

/-- The outer loop. -/
def interleaveFrom (groups : List (List α)) (limit i : Nat) (out : List α) : List α :=
  if out.length < limit then
    if (takeRound limit i groups out false).2 = true then
      interleaveFrom groups limit (i + 1) (takeRound limit i groups out false).1
    else (takeRound limit i groups out false).1
  else out
termination_by limit - out.length
decreasing_by
  rename_i htook
  have := takeRound_grows htook
  omega

def interleave (groups : List (List α)) (limit : Nat) : List α := interleaveFrom groups limit 0 []

section Rounds
variable {groups : List (List α)} {limit i : Nat} {out : List α}

theorem interleaveFrom_full (h : ¬ out.length < limit) : interleaveFrom groups limit i out = out := by
  rw [interleaveFrom, if_neg h]

theorem interleaveFrom_again (h : out.length < limit) (htook : (takeRound limit i groups out false).2 = true) :
    interleaveFrom groups limit i out = interleaveFrom groups limit (i + 1) (takeRound limit i groups out false).1 := by
  rw [interleaveFrom, if_pos h, if_pos htook]

theorem interleaveFrom_idle (h : out.length < limit) (hidle : ¬ (takeRound limit i groups out false).2 = true) :
    interleaveFrom groups limit i out = (takeRound limit i groups out false).1 := by
  rw [interleaveFrom, if_pos h, if_neg hidle]

end Rounds

end Interleave

inductive SweepOrder
  | horizon
  | spread
  | fair
  deriving DecidableEq

/-- What the query reads of a `SweepFilter`; a list of labels may be empty or left out alike. -/
structure SweepFilter where
  qualifiedOnly : Bool
  onlyLabels : List OutcomeLabel
  excludeLabels : List OutcomeLabel
  order : SweepOrder
  retryBackoffMs : Option Int
  laneQualifiedOnly : Bool

/-- The tables as one query finds them. -/
structure DueTables where
  outcomes : OutcomeTable
  launches : List Launch

def launchQualified (launches : List Launch) (row : OutcomeRecord) : Bool :=
  row.launchId.any fun id => launches.any fun l => l.id = id && l.lane = .qualified

def laneWhere (filter : SweepFilter) (launches : List Launch) (row : OutcomeRecord) : Bool :=
  if filter.laneQualifiedOnly then launchQualified launches row
  else if filter.qualifiedOnly then
    row.label = .DRAWDOWN_80 || row.label = .TRADING_ALIVE || launchQualified launches row
  else true

/-- `where` without its label. A deferral stamps `measuredAt` on a row that stays pending. -/
def dueWhere (filter : SweepFilter) (now : Int) (launches : List Launch) (row : OutcomeRecord) : Bool :=
  let retryCutoff := now - filter.retryBackoffMs.getD DEFAULT_RETRY_BACKOFF_MS
  row.status = .PENDING && row.horizonAt.any (fun h => h ≤ now) && row.measuredAt.all (fun m => m < retryCutoff) &&
    laneWhere filter launches row

/-- The label of `where`: the spread of `excludeLabels` comes second and replaces that of `onlyLabels`. -/
def labelWhere (filter : SweepFilter) (label : OutcomeLabel) : Bool :=
  if filter.excludeLabels ≠ [] then label ∉ filter.excludeLabels
  else if filter.onlyLabels ≠ [] then label ∈ filter.onlyLabels
  else true

def oldestFirst (a b : OutcomeRecord) : Prop := a.horizonAt.getD 0 ≤ b.horizonAt.getD 0

instance (a b : OutcomeRecord) : Decidable (oldestFirst a b) := inferInstanceAs (Decidable (_ ≤ _))

/-- The due rows of one label, the oldest horizon first and ties in stored order. -/
def backlog (filter : SweepFilter) (now : Int) (db : DueTables) (label : OutcomeLabel) : List OutcomeRecord :=
  (db.outcomes.filter fun row => dueWhere filter now db.launches row && row.label = label).insertionSort oldestFirst

def fairLabels (filter : SweepFilter) : List OutcomeLabel :=
  (if filter.onlyLabels ≠ [] then filter.onlyLabels else ALL_OUTCOME_LABELS).filter (· ∉ filter.excludeLabels)

/-- The backlog of each label, as the query of that label finds it. -/
def backlogs (filter : SweepFilter) (now : Int) (db : Nat → DueTables) : List (List OutcomeRecord) :=
  (fairLabels filter).mapIdx fun k label => backlog filter now (db k) label

variable {ι : Type} [LinearOrder ι] (collate : String ↪ ι)

/-- The rows due; texts are ordered by the collation of the database. -/
def selectDue (filter : SweepFilter) (now : Int) (db : Nat → DueTables) (limit : Nat) : List OutcomeRecord :=
  let matching := (db 0).outcomes.filter fun row => dueWhere filter now (db 0).launches row && labelWhere filter row.label
  match filter.order with
  | .fair => interleave ((backlogs filter now db).map (List.take limit)) limit
  | .spread => (matching.insertionSort fun a b => collate a.id ≤ collate b.id).take limit
  | .horizon => (matching.insertionSort oldestFirst).take limit

end LaunchAuditor.Outcomes.Loop
