import LaunchAuditor.Proofs.Tick
import LaunchAuditor.Lib.Steps

namespace LaunchAuditor.Proofs.Phantom
open Db Metabolism Runner Tick Steps

/-- The window that ended where this one starts: as the last epochs on record bound
it, or as it was graded in this run. -/
def Preceding (seen : List Event) (win : EpochWindow) (since until' : Int) : Prop :=
  win.lagWindow = some (since, until') ∨
    ∃ prev total spend ep, Event.graded prev total spend ep ∈ seen ∧ prev.epochAt = win.windowStart ∧
      since = prev.windowStart ∧ until' = prev.epochAt

/-- The instant lies in this window or in the one before. -/
def Recent (seen : List Event) (win : EpochWindow) (atMs : Int) : Prop :=
  (win.windowStart < atMs ∧ atMs ≤ win.epochAt) ∨
    ∃ since until', Preceding seen win since until' ∧ since < atMs ∧ atMs ≤ until'

/-- Phantom spend is reported with no recent row on record. -/
def verdictSound (seen : List Event) : Event → Prop
  | .graded win _ spend ep => ep.phantom = true → ∀ r ∈ spend, ¬ Recent seen win r.atMs
  | _ => True

def NoFalsePhantom (seen : List Event) : Prop := Throughout verdictSound seen

/-- The step grades the window. -/
structure Grades (w : World) (i : Step) (p : Process) (t : Tick) (win : EpochWindow) (est : WindowEstimate) :
    Prop where
  step : ∃ now newId, i = .exec .ok now newId
  proc : w.proc = some p
  phase : w.phase = .lag t win est

/-- How far the provider's total is above the one of the last epoch. -/
def riseUsd (t : Tick) (win : EpochWindow) : ℚ :=
  r6 (max 0 (t.input.read.providerSpendUsd - win.providerSpendPrevUsd))

/-- The row carries no epoch id yet and lies between the bounds of the lag query. -/
def openInLag (win : EpochWindow) (r : MetabolismSpend) : Bool :=
  win.lagWindow.any fun b => inWindow b.1 b.2 r

/-- A rise with recent rows on record is explained by a row of the window that its
query found, or by a row of the window before that no epoch has stamped. -/
def RowsInSight (w : World) (p : Process) (t : Tick) (win : EpochWindow) (est : WindowEstimate) : Prop :=
  p.cfg.phantomToleranceUsd < riseUsd t win → (∃ r ∈ w.spend, Recent w.seen win r.atMs) →
    est.count ≠ 0 ∨ ∃ r ∈ w.spend, openInLag win r = true

def StepOk (w : World) (i : Step) : Prop :=
  ∀ p t win est, Grades w i p t win est → RowsInSight w p t win est

theorem lagRequestCount_eq_zero (win : EpochWindow) (spend : SpendTable) :
    win.lagRequestCount spend = 0 ↔ ∀ r ∈ spend, openInLag win r = false := by
  unfold EpochWindow.lagRequestCount openInLag
  cases win.lagWindow with
  | none => simp
  | some b => simp [windowEstimate, List.filter_eq_nil_iff]

/-- When a window is phantom, in terms of what the queries saw. -/
theorem phantom_iff (cfg : RunnerConfig) (t : Tick) (win : EpochWindow) (est : WindowEstimate) (spend : SpendTable) :
    (reconcileEpoch (epochInput cfg t win est (win.lagRequestCount spend))).phantom = true ↔
      est.count = 0 ∧ (∀ r ∈ spend, openInLag win r = false) ∧ cfg.phantomToleranceUsd < riseUsd t win := by
  rw [reconcileEpoch_phantom, ← lagRequestCount_eq_zero]
  unfold EpochInput.isPhantom
  simp only [Bool.and_eq_true, decide_eq_true_eq, and_assoc]
  rfl

theorem verdictSound_iff {w : World} {p : Process} {t : Tick} {win : EpochWindow} {est : WindowEstimate}
    {total : ℚ} {ep : EpochResult}
    (hep : ep = reconcileEpoch (epochInput p.cfg t win est (win.lagRequestCount w.spend))) :
    verdictSound w.seen (.graded win total w.spend ep) ↔ RowsInSight w p t win est := by
  simp only [verdictSound, hep, phantom_iff, RowsInSight]
  constructor
  · intro h hrise hr
    obtain ⟨r, hr, hrecent⟩ := hr
    by_contra hno
    simp only [not_or, not_not, not_exists, not_and, Bool.not_eq_true] at hno
    exact h ⟨hno.1, hno.2, hrise⟩ r hr hrecent
  · intro h hp r hr hrecent
    rcases h hp.2.2 ⟨r, hr, hrecent⟩ with hc | ⟨r', hr', ho⟩
    · exact hc hp.1
    · rw [hp.2.1 r' hr'] at ho
      cases ho

/-- An event that is no verdict. -/
theorem throughout_other {seen : List Event} {e : Event} (h : ∀ win total spend ep, e ≠ .graded win total spend ep) :
    Throughout verdictSound (seen ++ [e]) ↔ Throughout verdictSound seen := by
  rw [throughout_snoc]
  have hv : verdictSound seen e := by
    cases e with
    | graded win total spend ep => exact absurd rfl (h win total spend ep)
    | _ => trivial
  exact ⟨fun h => h.1, fun h => ⟨h, hv⟩⟩

section Steps
variable {w : World}

/-- A grading appends its verdict. -/
theorem Grades.seen {i : Step} {p : Process} {t : Tick} {win : EpochWindow} {est : WindowEstimate}
    (h : Grades w i p t win est) :
    (w.step i).seen = w.seen ++ [.graded win t.input.read.providerSpendUsd w.spend
      (reconcileEpoch (epochInput p.cfg t win est (win.lagRequestCount w.spend)))] := by
  obtain ⟨now, newId, rfl⟩ := h.step
  simp only [World.step, h.proc, World.exec, h.phase]
  rfl

theorem Grades.iff {i : Step} {p : Process} {t : Tick} {win : EpochWindow} {est : WindowEstimate}
    (h : Grades w i p t win est) :
    NoFalsePhantom (w.step i).seen ↔ NoFalsePhantom w.seen ∧ StepOk w i := by
  unfold NoFalsePhantom
  rw [h.seen, throughout_snoc, verdictSound_iff rfl]
  have hok : RowsInSight w p t win est ↔ StepOk w i := by
    constructor
    · intro hr p' t' win' est' h'
      obtain rfl := Option.some.inj (h.proc.symm.trans h'.proc)
      obtain ⟨rfl, rfl, rfl⟩ := Phase.lag.inj (h.phase.symm.trans h'.phase)
      exact hr
    · intro hs
      exact hs p t win est h
  rw [hok]

/-- A step that grades nothing adds no verdict. -/
theorem exec_other {p : Process} {outcome : PersistOutcome} {now : Int} {newId : String}
    (hno : ∀ t win est, ¬ (w.phase = .lag t win est ∧ outcome = .ok)) :
    NoFalsePhantom (w.exec p outcome now newId).seen ↔ NoFalsePhantom w.seen := by
  unfold NoFalsePhantom
  have he := exec_effect w p outcome now newId
  generalize w.exec p outcome now newId = next at he ⊢
  cases he with
  | went before seen proc after fewer => rw [seen]
  | graded phase done verdict seen proc next => exact absurd ⟨phase, done⟩ (hno _ _ _)
  | recorded before owed seen proc after fewer =>
    rw [seen]
    exact throughout_other (by simp)
  | @decided w' t g before seen proc owed =>
    rw [decide_seen, seen]
    split
    · exact throughout_other (by simp)
    · rfl
  | @acted action rest phase =>
    rcases @act_seen w p outcome now action rest with hs | ⟨_, hs⟩ | ⟨s, _, hs⟩
    · rw [hs]
    · rw [hs]
      exact throughout_other (by simp)
    · rw [hs]
      exact throughout_other (by simp)

theorem step_iff (w : World) (i : Step) : NoFalsePhantom (w.step i).seen ↔ NoFalsePhantom w.seen ∧ StepOk w i := by
  by_cases hg : ∃ p t win est, Grades w i p t win est
  · obtain ⟨p, t, win, est, h⟩ := hg
    exact h.iff
  · have hok : StepOk w i := fun p t win est h => absurd ⟨p, t, win, est, h⟩ hg
    have hsame : NoFalsePhantom (w.step i).seen ↔ NoFalsePhantom w.seen := by
      cases i with
      | insertSpend row => rfl
      | tick input =>
        rw [(tick_frame w input).1]
      | exec outcome now newId =>
        cases hw : w.proc with
        | none => simp [World.step, hw]
        | some p =>
          simp only [World.step, hw]
          apply exec_other
          intro t win est h
          exact hg ⟨p, t, win, est, ⟨now, newId, by rw [h.2]⟩, hw, h.1⟩
      | start cfg tie => exact throughout_other (by simp)
      | reauth => exact throughout_other (by simp)
    exact hsame.trans ⟨fun h => ⟨h, hok⟩, fun h => h.1⟩

end Steps

/-- No phantom spend is reported over recent rows exactly when at every verdict a
rise finds one of them still in sight of the two queries. -/
theorem no_false_phantom_iff (store : OAuthBlob) (log : List LoggedRow) (spend : SpendTable)
    (epochs : List MetabolismEpoch) (is : List Step) :
    NoFalsePhantom (run World.step (World.init store log spend epochs) is).seen ↔
      Always World.step StepOk (World.init store log spend epochs) is := by
  have h := throughout_run_iff World.seen step_iff (World.init store log spend epochs) is
  exact h.trans ⟨fun h => h.2, fun h => ⟨throughout_nil, h⟩⟩

/-- How the provider bills: a charge a row, in its total from some reading on. -/
structure Billing where
  base : ℚ
  charge : String → ℚ
  /-- the rows, by id, whose charge is in the total of the reading -/
  landed : Nat → String → Bool

def readings (seen : List Event) : List (EpochWindow × ℚ) :=
  seen.filterMap fun e => match e with
    | .graded win total _ _ => some (win, total)
    | _ => none

/-- Every charge shows up in the window of its row or in the next one, and stays. -/
def Billing.Explains (b : Billing) (spend : SpendTable) (k : Nat) (win : EpochWindow) (total : ℚ) : Prop :=
  total = b.base + ((spend.filter fun r => b.landed k r.id).map fun r => b.charge r.id).sum ∧
    ∀ r ∈ spend, (r.atMs ≤ win.windowStart → b.landed k r.id = true) ∧
      (b.landed k r.id = true → r.atMs ≤ win.epochAt ∧ b.landed (k + 1) r.id = true)

def TimelyCharges (w : World) : Prop :=
  ∃ b : Billing, (∀ id, 0 ≤ b.charge id) ∧
    ∀ x ∈ (readings w.seen).zipIdx, b.Explains w.spend x.2 x.1.1 x.1.2

section Sample

/-- The charge of the row shows up one window late. -/
def laggedRun : List Step :=
  [.start managed 0, .insertSpend (tenCents "spend-1" 30000)] ++ wholeTick (polled 5 (some "orbio-1")) 60000 "epoch-1" 7 ++
    wholeTick (polled (51 / 10) (some "orbio-1")) 120000 "epoch-2" 11

def secondWindow : EpochWindow :=
  { epochAt := 120001, providerSpendPrevUsd := 5, windowStart := 60001, lagWindow := some (0, 60001) }

def secondVerdict : EpochResult :=
  reconcileEpoch
    { providerSpendNowUsd := 51 / 10, providerSpendPrevUsd := 5, localEstimateUsd := 0, requestCount := 0
      anomalyPct := 50, phantomToleranceUsd := 5 / 1000, lagRequestCount := some 0, minGradeUsd := none }

/-- The first tick stamps the row, so the lag query of the second counts nothing. -/
theorem lag_unseen :
    TimelyCharges (run World.step serving laggedRun) ∧
      ¬ NoFalsePhantom (run World.step serving laggedRun).seen := by
  constructor
  · refine ⟨⟨5, fun _ => 1 / 10, fun k _ => 1 ≤ k⟩, ?_, ?_⟩
    · intro id
      norm_num
    · unfold Billing.Explains
      decide +kernel
  · intro h
    have hs : (run World.step serving laggedRun).seen =
        (run World.step serving laggedRun).seen.take 4 ++
          .graded secondWindow (51 / 10) [{ tenCents "spend-1" 30000 with epochId := some "epoch-1" }] secondVerdict ::
            (run World.step serving laggedRun).seen.drop 5 := by decide +kernel
    have hp : secondVerdict.phantom = true := by decide +kernel
    refine h _ _ _ hs hp _ List.mem_cons_self (Or.inr ⟨0, 60001, Or.inl rfl, ?_, ?_⟩)
    · decide
    · decide

end Sample

end LaunchAuditor.Proofs.Phantom
