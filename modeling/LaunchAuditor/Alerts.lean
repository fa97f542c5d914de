import LaunchAuditor.Lib.OrderedMap
import LaunchAuditor.Metabolism.StateMachine
import LaunchAuditor.Telegram.Poster

/-! `apps/worker/src/alerts.ts` -/

namespace LaunchAuditor
open Metabolism Telegram

inductive AlertKey
  | starved
  | ids_trip
  | commit_lag
  | watcher_stalled
  deriving DecidableEq, Repr

structure AlertCheck where
  key : AlertKey
  bad : Bool
  detail : String
  deriving DecidableEq

/-- What the readers find in the tables; one that fails fails the evaluation. -/
structure AlertReaders where
  latestLifecycle : Except String (Option (LifecycleState × Bool))
  latestPhantomEpoch : Except String Bool
  latestCommitAt : Except String (Option Int)
  latestWatcherUpdate : Except String (Option Int)

structure EvaluateAlertsOptions where
  now : Int
  commitLagSec : Option ℚ
  watcherStalledSec : Option ℚ

def age (now : Int) (at_ : Option Int) : Option ℚ := at_.map fun at_ => ((now - at_ : Int) : ℚ) / 1000

/-- Too long since something. A table without a row is not late. -/
def lagCheck (key : AlertKey) (ageSec : Option ℚ) (thresholdSec : ℚ) (never event : String) : AlertCheck where
  key
  bad := ageSec.any fun ageSec => decide (ageSec > thresholdSec)
  detail :=
    match ageSec with
    | none => never
    | some ageSec =>
      s!"{Js.mathRound (ageSec / 60)}min since {event} (threshold {Js.numberText (thresholdSec / 60)}min)"

def evaluateAlerts (opts : EvaluateAlertsOptions) (readers : AlertReaders) : Except String (List AlertCheck) := do
  let lifecycle ← readers.latestLifecycle
  let phantom ← readers.latestPhantomEpoch
  let commitAt ← readers.latestCommitAt
  let watcherAt ← readers.latestWatcherUpdate
  let starved := lifecycle.any fun row => decide (row.1 = .starved)
  let idsTrip := (lifecycle.any fun row => row.2) || phantom
  return [⟨.starved, starved,
      if starved then "metabolism state is STARVED — balance at/under reserve, nothing to serve" else "ok"⟩,
    ⟨.ids_trip, idsTrip, if idsTrip then "idsMismatch or a phantom-spend epoch flagged on the latest row" else "ok"⟩,
    lagCheck .commit_lag (age opts.now commitAt) (opts.commitLagSec.getD 600) "no commit batch has ever formed"
      "the last commit batch",
    lagCheck .watcher_stalled (age opts.now watcherAt) (opts.watcherStalledSec.getD 300) "no watcher cursor yet"
      "the watcher last advanced"]

def LABELS : AlertKey → String
  | .starved => "STARVED"
  | .ids_trip => "IDS trip"
  | .commit_lag => "commit lag"
  | .watcher_stalled => "watcher stalled"

/-- A message, and how its sending ended. -/
structure Alert where
  key : AlertKey
  bad : Bool
  text : String
  ended : SendEnd
  deriving DecidableEq

def Alert.delivered (a : Alert) : Bool := decide (a.ended ≠ .refused)

structure AlertState where
  lastBad : List (AlertKey × Bool)
  /-- what was sent, in order -/
  alerts : List Alert

/-- One check, and how the sending of its message ends if there is one. Only the console hears of a failure. -/
def applyAlertTransition (s : AlertState) (c : AlertCheck) (ended : SendEnd) : AlertState :=
  let was := (s.lastBad.lookup c.key).getD false
  { lastBad := OrderedMap.set c.key c.bad s.lastBad
    alerts :=
      if c.bad ∧ ¬ was then s.alerts ++ [⟨c.key, c.bad, s!"🚨 {LABELS c.key}: {c.detail}", ended⟩]
      else if ¬ c.bad ∧ was then s.alerts ++ [⟨c.key, c.bad, s!"✅ recovered — {LABELS c.key}: {c.detail}", ended⟩]
      else s.alerts }

def applyAlertTransitions (s : AlertState) (checks : List (AlertCheck × SendEnd)) : AlertState :=
  checks.foldl (fun s c => applyAlertTransition s c.1 c.2) s

/-- One turn of `runAlertLoop`: an evaluation that fails changes nothing. -/
def alertTick (s : AlertState) : Except String (List (AlertCheck × SendEnd)) → AlertState
  | .ok checks => applyAlertTransitions s checks
  | .error _ => s

end LaunchAuditor
