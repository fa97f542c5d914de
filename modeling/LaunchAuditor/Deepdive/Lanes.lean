import LaunchAuditor.Deepdive.BudgetedRun
import LaunchAuditor.Lib.Steps

/-! `sweepDeepdiveEligible` and `startDeepdiveWorker` of `apps/worker/src/deepdive/run.ts`
in one worker: two lanes that take one run at a time each, over one ledger. -/

namespace LaunchAuditor.Deepdive
open Db Metabolism

inductive Lane
  | onDemand
  | sweep
  deriving DecidableEq, Repr

def Lane.other : Lane → Lane
  | .onDemand => .sweep
  | .sweep => .onDemand

/-- How far a lane's run has come. Past the gate it holds the budget the gate has seen. -/
inductive Phase
  | idle
  /-- `now` is taken -/
  | opened (input : RunDeepdiveInput) (now : Int)
  | loaded (input : RunDeepdiveInput) (budget : LoadedBudget)
  | inFlight (input : RunDeepdiveInput) (budget : LoadedBudget)

/-- What the agent is called with as `maxCostUsd`. -/
def maxCostUsd (cfg : RunConfig) (budget : LoadedBudget) : ℚ :=
  min (gateOf cfg budget).maxRunCostUsd cfg.env.deepdiveCapPerRunUsd

def Phase.authorisedUsd (cfg : RunConfig) : Phase → ℚ
  | .inFlight _ budget => maxCostUsd cfg budget
  | _ => 0

structure Lanes where
  now : Int
  ledger : SpendTable
  phase : Lane → Phase
  /-- the daily cap used by the gate that let a run through last -/
  capUsd : Option ℚ

inductive LaneEvent
  | clock (now : Int)
  | start (lane : Lane) (input : RunDeepdiveInput)
  /-- `loadBudget`: the ledger is read as it is, the other tables and the chain answer what they like -/
  | load (lane : Lane) (epochs : List MetabolismEpoch) (log : List LifecyclePersistRecord) (tie : Nat)
      (trailing : Except String ℚ)
  | gate (lane : Lane)
  /-- the rest of the run, down to its spend row if it gets there -/
  | finish (lane : Lane) (io : RunIo)
  /-- the run returns or throws before its gate -/
  | quit (lane : Lane)

namespace Lanes

def set (w : Lanes) (lane : Lane) (phase : Phase) : Lanes :=
  { w with phase := fun l => if l = lane then phase else w.phase l }

def step (cfg : RunConfig) (w : Lanes) : LaneEvent → Lanes
  | .clock now => { w with now := max w.now now }
  | .start lane input =>
    match w.phase lane with
    | .idle => w.set lane (.opened input w.now)
    | _ => w
  | .load lane epochs log tie trailing =>
    match w.phase lane with
    | .opened input now => w.set lane (.loaded input (defaultLoadBudget cfg.env ⟨w.ledger, epochs, log⟩ tie trailing now))
    | _ => w
  | .gate lane =>
    match w.phase lane with
    | .loaded input budget =>
      if (gateOf cfg budget).allowed then
        { w.set lane (.inFlight input budget) with capUsd := some budget.dailyCapUsd }
      else w.set lane .idle
    | _ => w
  | .finish lane io =>
    match w.phase lane with
    | .inFlight input budget =>
      { w.set lane .idle with ledger := (runDeepdive cfg input { io with budget := .ok budget } w.ledger).1 }
    | _ => w
  | .quit lane =>
    match w.phase lane with
    | .opened .. | .loaded .. => w.set lane .idle
    | _ => w

/-- The spend recorded on the present UTC day. -/
def recordedTodayUsd (w : Lanes) : ℚ := totalSpendUsd (some (startOfUtcDay w.now)) none w.ledger

/-- The maxima the runs in flight are authorised for. -/
def inFlightUsd (cfg : RunConfig) (w : Lanes) : ℚ :=
  (w.phase .onDemand).authorisedUsd cfg + (w.phase .sweep).authorisedUsd cfg

theorem inFlight_split (cfg : RunConfig) (w : Lanes) (lane : Lane) :
    w.inFlightUsd cfg = (w.phase lane).authorisedUsd cfg + (w.phase lane.other).authorisedUsd cfg := by
  cases lane with
  | onDemand => rfl
  | sweep => exact add_comm ..

theorem set_inFlight (cfg : RunConfig) (w : Lanes) (lane : Lane) (phase : Phase) :
    (w.set lane phase).inFlightUsd cfg =
      w.inFlightUsd cfg - (w.phase lane).authorisedUsd cfg + phase.authorisedUsd cfg := by
  rw [inFlight_split cfg w lane, inFlight_split cfg (w.set lane phase) lane]
  have hown : (w.set lane phase).phase lane = phase := if_pos rfl
  have hother : (w.set lane phase).phase lane.other = w.phase lane.other :=
    if_neg (by cases lane <;> simp [Lane.other])
  rw [hown, hother]
  ring

end Lanes

/-- A run that comes to the model has passed the gate of its budget. -/
theorem beforeModel_gate {cfg : RunConfig} {input : RunDeepdiveInput} {io : RunIo} {budget : LoadedBudget}
    {gate : DeepdiveRunGate} (hbudget : io.budget = .ok budget) (h : beforeModel cfg input io = .ok gate) :
    gate = gateOf cfg budget ∧ (gateOf cfg budget).allowed = true := by
  unfold beforeModel at h
  split at h
  · cases h
  · split at h
    · cases h
    · cases h
    · split at h
      · cases h
      · cases h
      · rw [hbudget] at h
        dsimp only at h
        split at h
        · cases h
        · rename_i hallowed
          split at h
          · cases h
          · cases h
          · exact ⟨(Except.ok.inj h).symm, by simpa using hallowed⟩

theorem runDeepdive_refused {cfg : RunConfig} {input : RunDeepdiveInput} {io : RunIo} {budget : LoadedBudget}
    {ledger : SpendTable} (hbudget : io.budget = .ok budget) (hrefused : (gateOf cfg budget).allowed = false) :
    (runDeepdive cfg input io ledger).1 = ledger := by
  unfold runDeepdive
  cases hb : beforeModel cfg input io with
  | error answer => rfl
  | ok gate =>
    have hallowed := (beforeModel_gate hbudget hb).2
    rw [hrefused] at hallowed
    cases hallowed

/-- One lane on its own, from its start to its end, is `runDeepdive` with the budget it loads. -/
theorem lane_alone (cfg : RunConfig) (w : Lanes) (lane : Lane) (input : RunDeepdiveInput)
    (epochs : List MetabolismEpoch) (log : List LifecyclePersistRecord) (tie : Nat) (trailing : Except String ℚ)
    (io : RunIo) (hidle : w.phase lane = .idle) :
    (Steps.run (Lanes.step cfg) w
      [.start lane input, .load lane epochs log tie trailing, .gate lane, .finish lane io]).ledger =
    (runDeepdive cfg input
      { io with budget := .ok (defaultLoadBudget cfg.env ⟨w.ledger, epochs, log⟩ tie trailing w.now) } w.ledger).1 := by
  generalize hbudget : defaultLoadBudget cfg.env ⟨w.ledger, epochs, log⟩ tie trailing w.now = budget
  simp only [Steps.run_cons, Steps.run_nil, Lanes.step, hidle, Lanes.set, if_true, hbudget]
  cases hgate : (gateOf cfg budget).allowed with
  | true => simp
  | false =>
    have hsame := @runDeepdive_refused cfg input { io with budget := .ok budget } budget w.ledger rfl hgate
    simp [hsame]

end LaunchAuditor.Deepdive
