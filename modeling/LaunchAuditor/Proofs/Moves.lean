import LaunchAuditor.Proofs.Tick
import LaunchAuditor.Proofs.Windows

namespace LaunchAuditor.Proofs.Moves
open Db Metabolism Runner Windows

def openEpoch : Phase → Option String
  | .stamp _ _ epochId | .stampRows _ _ epochId _ _ => some epochId
  | _ => none

/-- The rows that the tick still has to stamp for its epoch. -/
def pending : Phase → MetabolismSpend → Bool
  | .stamp _ g _ => inWindow g.window.windowStart g.window.epochAt
  | .stampRows _ _ _ _ rows => fun r => (rows.map Prod.fst).contains r.id
  | _ => fun _ => false

/-- Those its next operation stamps. -/
def takes : Phase → MetabolismSpend → Bool
  | .stamp _ g _ =>
    if g.ep.reconciliationFactor.isNone then inWindow g.window.windowStart g.window.epochAt else fun _ => false
  | .stampRows _ _ _ _ (row :: _) => fun r => r.id == row.1
  | _ => fun _ => false

/-- Before the tick looks for the last epochs. -/
def early : Phase → Bool
  | .activating .. | .readLedger .. | .findEpochs .. => true
  | _ => false

/-- The epoch of the tick, if it got to one, is done with. -/
def resting : Phase → Bool
  | .idle | .acting .. => true
  | _ => false

inductive Moved (w : World) (outcome : PersistOutcome) (now : Int) (newId : String) : World → Prop
  | early {w' : World} (before : early w.phase = true) (after : early w'.phase = true) (spend : w'.spend = w.spend)
      (epochs : w'.epochs = w.epochs) : Moved w outcome now newId w'
  /-- It is over before there was an epoch, or it acts on its decision. -/
  | ended {w' : World} (before : openEpoch w.phase = none) (cut : outcome = .ok → resting w.phase = true)
      (after : resting w'.phase = true) (spend : w'.spend = w.spend) (epochs : w'.epochs = w.epochs) :
      Moved w outcome now newId w'
  | found {w' : World} {t : Tick} {win : EpochWindow} (before : w.phase = .findEpochs t)
      (starts : StartsAtLast w.epochs win) (date : win.epochAt = now) (after : w'.phase = .window t win)
      (spend : w'.spend = w.spend) (epochs : w'.epochs = w.epochs) (store : w'.store = w.store) :
      Moved w outcome now newId w'
  | queried {w' : World} {t : Tick} {win : EpochWindow} (before : w.phase = .window t win)
      (after : w'.phase = .lag t win (windowEstimate win.windowStart win.epochAt w.spend))
      (spend : w'.spend = w.spend) (epochs : w'.epochs = w.epochs) (store : w'.store = w.store) :
      Moved w outcome now newId w'
  | graded {w' : World} {t : Tick} {win : EpochWindow} {est : WindowEstimate} {g : Graded}
      (before : w.phase = .lag t win est) (after : w'.phase = .createEpoch t g) (window : g.window = win)
      (count : g.ep.requestCount = est.count) (estimate : g.ep.localEstimateUsd = r6 (max 0 est.estimatedUsd))
      (spend : w'.spend = w.spend) (epochs : w'.epochs = w.epochs) (store : w'.store = w.store) :
      Moved w outcome now newId w'
  | created {w' : World} {t : Tick} {g : Graded} (before : w.phase = .createEpoch t g) (made : outcome ≠ .failed)
      (after : (outcome = .ok ∧ w'.phase = .stamp t g newId) ∨ (outcome = .ackLost ∧ w'.phase = .idle))
      (spend : w'.spend = w.spend) (epochs : w'.epochs = w.epochs ++ [epochRow t g newId])
      (store : w'.store = w.store) : Moved w outcome now newId w'
  | listed {w' : World} {t : Tick} {g : Graded} {epochId : String} {factor : ℚ} (before : w.phase = .stamp t g epochId)
      (after : w'.phase = .stampRows t g epochId factor (windowIds g.window.windowStart g.window.epochAt w.spend))
      (spend : w'.spend = w.spend) (epochs : w'.epochs = w.epochs) (store : w'.store = w.store) :
      Moved w outcome now newId w'
  | stampedOne {w' : World} {t : Tick} {g : Graded} {epochId : String} {factor : ℚ} {row : String × Option ℚ}
      {rows : List (String × Option ℚ)} (before : w.phase = .stampRows t g epochId factor (row :: rows))
      (after : w'.phase = .stampRows t g epochId factor rows)
      (spend : ∃ f, Stamping epochId (takes w.phase) f ∧ w'.spend = w.spend.map f) (epochs : w'.epochs = w.epochs)
      (store : w'.store = w.store) : Moved w outcome now newId w'
  /-- The last stamp, or one without an answer. -/
  | stamped {w' : World} {epochId : String} (before : openEpoch w.phase = some epochId) (made : outcome ≠ .failed)
      (all : outcome = .ok → ∀ r ∈ w.spend, pending w.phase r = true → takes w.phase r = true)
      (after : resting w'.phase = true) (spend : ∃ f, Stamping epochId (takes w.phase) f ∧ w'.spend = w.spend.map f)
      (epochs : w'.epochs = w.epochs) (store : w'.store = w.store) : Moved w outcome now newId w'
  /-- It leaves its epoch without a stamp. -/
  | left {w' : World} {epochId : String} (before : openEpoch w.phase = some epochId)
      (none : outcome = .ok → ∀ r ∈ w.spend, pending w.phase r = false)
      (unmade : outcome = .ackLost → ∀ r ∈ w.spend, takes w.phase r = false) (after : resting w'.phase = true)
      (spend : w'.spend = w.spend) (epochs : w'.epochs = w.epochs) (store : w'.store = w.store) :
      Moved w outcome now newId w'

section Moves
variable {w : World} {p : Process} {outcome : PersistOutcome} {now : Int} {newId : String}

theorem Moved.aborted (hopen : openEpoch w.phase = none) (hcut : outcome = .ok → resting w.phase = true) :
    Moved w outcome now newId w.abort := .ended hopen hcut rfl rfl rfl

/-- A query that fails ends a tick that has no epoch yet. -/
theorem Moved.query {next : World} (hopen : openEpoch w.phase = none) (hnext : Moved w .ok now newId next) :
    Moved w outcome now newId (if outcome ≠ .ok then w.abort else next) := by
  by_cases ho : outcome = .ok
  · subst ho
    rw [if_neg (not_not.mpr rfl)]
    exact hnext
  · rw [if_pos ho]
    exact .aborted hopen (fun hok => absurd hok ho)

theorem decide_books (w : World) (p : Process) (t : Tick) (g : Graded) (now : Int) :
    resting (w.decide p t g now).phase = true ∧ (w.decide p t g now).spend = w.spend ∧
      (w.decide p t g now).epochs = w.epochs ∧ (w.decide p t g now).store = w.store := by
  unfold World.decide
  cases h : (decision p t g now).revokes <;> simp [h, World.note, resting]

theorem act_books (w : World) (p : Process) (action : Action) (rest : List Action) (outcome : PersistOutcome)
    (now : Int) :
    resting (w.act p action rest outcome now).phase = true ∧ (w.act p action rest outcome now).spend = w.spend ∧
      (w.act p action rest outcome now).epochs = w.epochs := by
  have hphase : resting (w.act p action rest outcome now).phase = true := by
    rcases @Tick.act_phase w p outcome now action rest with hp | hp
    · rw [hp]
      rfl
    · rw [hp]
      rfl
  refine ⟨hphase, ?_⟩
  cases action with
  | append row enter halts => cases outcome <;> exact ⟨rfl, rfl⟩
  | mint baseline key => cases outcome <;> exact ⟨rfl, rfl⟩
  | revokeKey => exact ⟨rfl, rfl⟩
  | clearKey => cases outcome <;> exact ⟨rfl, rfl⟩

theorem moved_early {input : TickInput} (h : (∃ reason, w.phase = .activating input reason) ∨ w.phase = .readLedger input) :
    Moved w outcome now newId (w.exec p outcome now newId) := by
  rcases h with ⟨reason, h⟩ | h
  · simp only [World.exec, h]
    have hopen : openEpoch w.phase = none := by rw [h]; rfl
    cases outcome with
    | ok => exact .early (by rw [h]; rfl) rfl rfl rfl
    | failed => exact .aborted hopen (by simp)
    | ackLost => exact .ended hopen (by simp) rfl rfl rfl
  · simp only [World.exec, h]
    apply Moved.query (by rw [h]; rfl)
    exact .early (by rw [h]; rfl) rfl rfl rfl

theorem moved_findEpochs {t : Tick} (h : w.phase = .findEpochs t) :
    Moved w outcome now newId (w.exec p outcome now newId) := by
  simp only [World.exec, h]
  apply Moved.query (by rw [h]; rfl)
  exact .found h (epochWindow_starts p.cfg t w.epochs now) rfl rfl rfl rfl rfl

theorem moved_window {t : Tick} {win : EpochWindow} (h : w.phase = .window t win) :
    Moved w outcome now newId (w.exec p outcome now newId) := by
  simp only [World.exec, h]
  apply Moved.query (by rw [h]; rfl)
  exact .queried h rfl rfl rfl rfl

theorem moved_lag {t : Tick} {win : EpochWindow} {est : WindowEstimate} (h : w.phase = .lag t win est) :
    Moved w outcome now newId (w.exec p outcome now newId) := by
  simp only [World.exec, h]
  apply Moved.query (by rw [h]; rfl)
  obtain ⟨hcount, hestimate, -⟩ := reconcileEpoch_figures (epochInput p.cfg t win est (win.lagRequestCount w.spend))
  exact .graded h rfl rfl hcount hestimate rfl rfl rfl

theorem moved_createEpoch {t : Tick} {g : Graded} (h : w.phase = .createEpoch t g) :
    Moved w outcome now newId (w.exec p outcome now newId) := by
  simp only [World.exec, h]
  cases outcome with
  | ok => exact .created h (by simp) (Or.inl ⟨rfl, rfl⟩) rfl rfl rfl
  | failed => exact .aborted (by rw [h]; rfl) (by simp)
  | ackLost => exact .created h (by simp) (Or.inr ⟨rfl, rfl⟩) rfl rfl rfl

theorem moved_stamp {t : Tick} {g : Graded} {epochId : String} (h : w.phase = .stamp t g epochId) :
    Moved w outcome now newId (w.exec p outcome now newId) := by
  have hopen : openEpoch w.phase = some epochId := by rw [h]; rfl
  simp only [World.exec, h]
  cases hf : g.ep.reconciliationFactor with
  | none =>
    have htakes : takes w.phase = inWindow g.window.windowStart g.window.epochAt := by
      simp [h, takes, hf]
    have hall : ∀ r ∈ w.spend, pending w.phase r = true → takes w.phase r = true := by
      intro r _ hp
      rw [htakes]
      simpa [h, pending] using hp
    have hspend : ∃ f, Stamping epochId (takes w.phase) f ∧
        stampWindow g.window.windowStart g.window.epochAt epochId w.spend = w.spend.map f := by
      rw [htakes]
      exact stampWindow_stamping _ _ _ _
    cases outcome with
    | ok =>
      obtain ⟨hrest, hs, he, hstore⟩ := decide_books
        { w with spend := stampWindow g.window.windowStart g.window.epochAt epochId w.spend
                 phase := .stamp t g epochId } p t g now
      refine .stamped hopen (by simp) (fun _ => hall) hrest ?_ he hstore
      dsimp only
      rw [hs]
      exact hspend
    | failed => exact .left hopen (by simp) (by simp) rfl rfl rfl rfl
    | ackLost => exact .stamped hopen (by simp) (by simp) rfl hspend rfl rfl
  | some factor =>
    have hnone : ∀ r ∈ w.spend, takes w.phase r = false := by
      intro r _
      simp [h, takes, hf]
    by_cases ho : outcome = .ok
    · simp only [ho, ne_eq, not_true_eq_false, if_false]
      cases hw : windowIds g.window.windowStart g.window.epochAt w.spend with
      | nil =>
        obtain ⟨hrest, hs, he, hstore⟩ := decide_books w p t g now
        refine .left hopen ?_ (by simp) hrest hs he hstore
        intro _ r hr
        have hfilter : w.spend.filter (inWindow g.window.windowStart g.window.epochAt) = [] :=
          List.map_eq_nil_iff.mp hw
        simpa [h, pending] using List.filter_eq_nil_iff.mp hfilter r hr
      | cons row rows => exact .listed h (by rw [hw]) rfl rfl rfl
    · simp only [ho, ne_eq, not_false_eq_true, if_true]
      exact .left hopen (fun hok => absurd hok ho) (fun _ => hnone) rfl rfl rfl rfl

theorem moved_stampRows {t : Tick} {g : Graded} {epochId : String} {factor : ℚ} {rows : List (String × Option ℚ)}
    (h : w.phase = .stampRows t g epochId factor rows) : Moved w outcome now newId (w.exec p outcome now newId) := by
  have hopen : openEpoch w.phase = some epochId := by rw [h]; rfl
  simp only [World.exec, h]
  cases rows with
  | nil =>
    obtain ⟨hrest, hs, he, hstore⟩ := decide_books w p t g now
    refine .left hopen ?_ ?_ hrest hs he hstore
    · intro _ r _
      simp [h, pending]
    · intro _ r _
      simp [h, takes]
  | cons row rows =>
    have hspend : ∃ f, Stamping epochId (takes w.phase) f ∧
        stampRow row.1 row.2 epochId factor w.spend = w.spend.map f := by
      rw [h]
      exact stampRow_stamping _ _ _ _ _
    cases outcome with
    | ok =>
      cases rows with
      | nil =>
        obtain ⟨hrest, hs, he, hstore⟩ := decide_books
          { w with spend := stampRow row.1 row.2 epochId factor w.spend
                   phase := .stampRows t g epochId factor [row] } p t g now
        refine .stamped hopen (by simp) ?_ hrest ?_ he hstore
        · intro _ r _ hp
          simpa [h, pending, takes] using hp
        · dsimp only [List.isEmpty, if_true]
          rw [if_pos rfl, hs]
          exact hspend
      | cons next rows => exact .stampedOne h rfl hspend rfl rfl
    | failed => exact .left hopen (by simp) (by simp) rfl rfl rfl rfl
    | ackLost => exact .stamped hopen (by simp) (by simp) rfl hspend rfl rfl

theorem exec_moved (w : World) (p : Process) (outcome : PersistOutcome) (now : Int) (newId : String) :
    Moved w outcome now newId (w.exec p outcome now newId) := by
  cases h : w.phase with
  | idle =>
    simp only [World.exec, h]
    exact .ended (by rw [h]; rfl) (fun _ => by rw [h]; rfl) (by rw [h]; rfl) rfl rfl
  | activating input reason => exact moved_early (Or.inl ⟨reason, h⟩)
  | readLedger input => exact moved_early (Or.inr h)
  | findEpochs t => exact moved_findEpochs h
  | window t win => exact moved_window h
  | lag t win est => exact moved_lag h
  | createEpoch t g => exact moved_createEpoch h
  | stamp t g epochId => exact moved_stamp h
  | stampRows t g epochId factor rows => exact moved_stampRows h
  | acting actions =>
    have hopen : openEpoch w.phase = none := by rw [h]; rfl
    have hrest : resting w.phase = true := by rw [h]; rfl
    cases actions with
    | nil =>
      simp only [World.exec, h]
      exact .aborted hopen (fun _ => hrest)
    | cons action rest =>
      simp only [World.exec, h]
      obtain ⟨hafter, hs, he⟩ := act_books w p action rest outcome now
      exact .ended hopen (fun _ => hrest) hafter hs he

/-- Without a process nothing happens. -/
theorem step_moved (w : World) (outcome : PersistOutcome) (now : Int) (newId : String) :
    w.step (.exec outcome now newId) = w ∨ Moved w outcome now newId (w.step (.exec outcome now newId)) := by
  simp only [World.step]
  cases w.proc with
  | none => exact Or.inl rfl
  | some p => exact Or.inr (exec_moved w p outcome now newId)

end Moves

theorem openEpoch_calm {phase : Phase} (h : early phase = true ∨ resting phase = true) : openEpoch phase = none := by
  cases phase <;> simp [early, resting, openEpoch] at h ⊢

theorem pending_closed {phase : Phase} (h : openEpoch phase = none) (r : MetabolismSpend) :
    pending phase r = false := by
  cases phase <;> simp [openEpoch, pending] at h ⊢

theorem takes_pending {phase : Phase} {r : MetabolismSpend} (h : takes phase r = true) : pending phase r = true := by
  cases phase with
  | stamp t g epochId =>
    cases hf : g.ep.reconciliationFactor with
    | none => simpa [takes, hf, pending] using h
    | some factor => simp [takes, hf] at h
  | stampRows t g epochId factor rows =>
    cases rows with
    | nil => cases h
    | cons row rows =>
      have hid : r.id = row.1 := by simpa [takes] using h
      simp [pending, hid]
  | _ => cases h

/-- The ledger and the epochs of a step: rows and epochs at their ends, stamps on rows
that had none. -/
inductive Wrote (w w' : World) : Prop
  | more (rows : SpendTable) (epochs : List MetabolismEpoch) (spend : w'.spend = w.spend ++ rows)
      (created : w'.epochs = w.epochs ++ epochs)
  | stamps {epochId : String} (before : openEpoch w.phase = some epochId)
      (spend : ∃ f, Stamping epochId (takes w.phase) f ∧ w'.spend = w.spend.map f) (epochs : w'.epochs = w.epochs)

theorem Wrote.nothing {w w' : World} (hspend : w'.spend = w.spend) (hepochs : w'.epochs = w.epochs) : Wrote w w' :=
  .more [] [] (by simp [hspend]) (by simp [hepochs])

theorem step_wrote (w : World) (s : Step) : Wrote w (w.step s) := by
  cases s with
  | insertSpend row => exact .more [row] [] rfl (by simp [World.step])
  | tick input =>
    simp only [World.step]
    split
    · split <;> exact .nothing rfl rfl
    · exact .nothing rfl rfl
  | exec outcome now newId =>
    rcases step_moved w outcome now newId with hsame | hm
    · exact .nothing (by rw [hsame]) (by rw [hsame])
    generalize w.step (.exec outcome now newId) = w' at hm ⊢
    cases hm with
    | early _ _ spend epochs => exact .nothing spend epochs
    | ended _ _ _ spend epochs => exact .nothing spend epochs
    | found _ _ _ _ spend epochs => exact .nothing spend epochs
    | queried _ _ spend epochs => exact .nothing spend epochs
    | graded _ _ _ _ _ spend epochs => exact .nothing spend epochs
    | created _ _ _ spend epochs => exact .more [] _ (by simp [spend]) epochs
    | listed _ _ spend epochs => exact .nothing spend epochs
    | stampedOne before _ spend epochs => exact .stamps (by rw [before]; rfl) spend epochs
    | stamped before _ _ _ spend epochs => exact .stamps before spend epochs
    | left _ _ _ _ spend epochs => exact .nothing spend epochs
  | start cfg tie => exact .nothing rfl rfl
  | reauth => exact .nothing rfl rfl

end LaunchAuditor.Proofs.Moves
