import LaunchAuditor.Proofs.Halt

namespace LaunchAuditor.Proofs.Housekeeping
open Db Metabolism Runner Tick Halt Steps

def revokeCause : Event → Option Bool
  | .revoking phantom => some phantom
  | _ => none

/-- Whether the last revoke a tick acted on was for phantom spend. -/
def lastRevoke (seen : List Event) : Option Bool := (seen.filterMap revokeCause).getLast?

/-- A halt is due to phantom spend: the last revoke was for it, or there was none yet
and the log the run began with tells of a halt. -/
def PhantomHalt (log : List LoggedRow) (seen : List Event) : Prop :=
  lastRevoke seen = some true ∨ (lastRevoke seen = none ∧ log.any LoggedRow.haltsStart = true)

/-- Only phantom spend halts, and after any other revoke the next tick with something
to spend mints again. -/
structure Unstuck (log : List LoggedRow) (w : World) : Prop where
  halts : ∀ p, w.proc = some p → p.halted = true → PhantomHalt log w.seen
  remints : ∀ p, w.proc = some p → p.cfg.observe = false → p.state = .noKey → ¬ PhantomHalt log w.seen →
    ∀ t g now, 0 < t.input.read.balanceUsd - p.cfg.lifecycle.reserveUsd → (decision p t g now).mints = true

/-- Neither of the two marks of the revoke path takes effect but for phantom spend:
the append that sets `halted`, and a start on a row that a restart takes for a halt. -/
def MarksOk (log : List LoggedRow) (w : World) : Step → Prop
  | .exec outcome _ _ => w.proc ≠ none → outcome = .ok → (actions w.phase).head?.any halts = true →
      PhantomHalt log w.seen
  | .start _ tie => (lastRow tie w.lifecycleLog).any LoggedRow.haltsStart = true → PhantomHalt log w.seen
  | _ => True

variable {log : List LoggedRow} {w : World} {p : Process} {outcome : PersistOutcome} {now : Int}

theorem phantomHalt_snoc {seen : List Event} {e : Event} (h : revokeCause e = none) :
    PhantomHalt log (seen ++ [e]) ↔ PhantomHalt log seen := by
  simp [PhantomHalt, lastRevoke, List.filterMap_append, h]

theorem decision_remints {t : Tick} {g : Graded} (hm : p.cfg.observe = false) (hs : p.state = .noKey)
    (hh : p.halted = false) (hb : 0 < t.input.read.balanceUsd - p.cfg.lifecycle.reserveUsd) :
    (decision p t g now).mints = true := by
  have hd : decideLifecycle (lifecycleReading p t g now) p.cfg.lifecycle =
      .transition .noKey .active .keyClaimed true
        s!"minted a gateway key (balance ${r2 t.input.read.balanceUsd}, spendable ${r2
          (t.input.read.balanceUsd - p.cfg.lifecycle.reserveUsd)})" := by
    simp only [decideLifecycle, lifecycleReading, hs, hh, not_le.mpr hb, if_false]
    simp
  simp [decision, hm, hd, LifecycleDecision.mints]

theorem unstuck_of_halts (h : ∀ p, w.proc = some p → p.halted = true → PhantomHalt log w.seen) : Unstuck log w := by
  refine ⟨h, ?_⟩
  intro p hw hm hs hno t g now hb
  cases hh : p.halted with
  | true => exact absurd (h p hw hh) hno
  | false => exact decision_remints hm hs hh hb

/-- The operation that halts leads to `NO_KEY`, and none after it leads away. -/
def HaltsAtNoKey : List Action → Prop
  | [] => True
  | a :: rest =>
    (∀ row enter, a = .append row enter true → enter = some .noKey ∧ ∀ b ∈ rest, keeps b = true) ∧ HaltsAtNoKey rest

theorem haltsAtNoKey_actionsOf (p : Process) (t : Tick) (g : Graded) (now : Int) (d : LifecycleDecision) :
    HaltsAtNoKey (actionsOf p t g now d) := by
  cases d with
  | steady state reason => simp [actionsOf, HaltsAtNoKey]
  | transition source target event mint reason => cases mint <;> simp [actionsOf, HaltsAtNoKey]
  | rotate source reason => simp [actionsOf, HaltsAtNoKey]
  | revoke source reason => simp [actionsOf, HaltsAtNoKey, keeps]

/-- A halted process has no key and nothing to do that leads away from there. -/
structure Inv (w : World) : Prop where
  still : ∀ p, w.proc = some p → p.halted = true → p.state = .noKey ∧ ∀ a ∈ actions w.phase, keeps a = true
  ahead : HaltsAtNoKey (actions w.phase)

theorem Inv.quiet {w' : World} (h : Inv w) (hp : ∀ p', w'.proc = some p' →
    ∃ p, w.proc = some p ∧ p'.halted = p.halted ∧ p'.state = p.state) (ha : actions w'.phase = []) : Inv w' := by
  constructor
  · intro p' hp' hh
    obtain ⟨p, hw, he, hs⟩ := hp p' hp'
    rw [he] at hh
    rw [hs, ha]
    exact ⟨(h.still p hw hh).1, by simp⟩
  · rw [ha]
    trivial

theorem same_proc {w' : World} (hp : w'.proc = w.proc) : ∀ p', w'.proc = some p' →
    ∃ p, w.proc = some p ∧ p'.halted = p.halted ∧ p'.state = p.state :=
  fun p' hp' => ⟨p', hp ▸ hp', rfl, rfl⟩

theorem Inv.act {action : Action} {rest : List Action} (h : Inv w) (hw : w.proc = some p)
    (hphase : w.phase = .acting (action :: rest)) : Inv (w.act p action rest outcome now) := by
  have hahead : HaltsAtNoKey (action :: rest) := by
    have ha := h.ahead
    rwa [hphase] at ha
  constructor
  · intro p' hp' hh
    have hrest : ∀ a ∈ actions (w.act p action rest outcome now).phase, a ∈ rest := fun _ => act_actions
    have hstill : p.halted = true → p.state = .noKey ∧ ∀ a ∈ action :: rest, keeps a = true := by
      intro hp
      have hs := h.still p hw hp
      rwa [hphase] at hs
    rcases @act_proc w p outcome now action rest hw with he | ⟨row, enter, halts, rfl, he⟩
    · obtain rfl := Option.some.inj (he.symm.trans hp')
      obtain ⟨hs, hk⟩ := hstill hh
      exact ⟨hs, fun a ha => hk a (List.mem_cons_of_mem _ (hrest a ha))⟩
    · obtain rfl := Option.some.inj (he.symm.trans hp')
      cases halts with
      | true =>
        obtain ⟨hen, hk⟩ := hahead.1 row enter rfl
        exact ⟨by simp [Process.enter, hen], fun a ha => hk a (hrest a ha)⟩
      | false =>
        obtain ⟨hs, hk⟩ := hstill (by simpa [Process.enter] using hh)
        have hen : enter = none := by simpa [keeps] using hk _ List.mem_cons_self
        exact ⟨by simp [Process.enter, hen, hs], fun a ha => hk a (List.mem_cons_of_mem _ (hrest a ha))⟩
  · rcases @act_phase w p outcome now action rest with hp | hp
    · rw [hp]
      trivial
    · rw [hp]
      exact hahead.2

theorem Inv.decide {w' : World} (h : Inv w) (hw : w.proc = some p) (hp : w'.proc = w.proc) (t : Tick) (g : Graded) :
    Inv (w'.decide p t g now) := by
  obtain ⟨hproc, hphase⟩ := decide_frame w' p t g now
  constructor
  · intro p' hp' hh
    rw [hproc, hp, hw] at hp'
    obtain rfl := Option.some.inj hp'
    have hs := (h.still p hw hh).1
    obtain ⟨reason, hd⟩ := @decision_halted p t g now hh hs
    refine ⟨hs, ?_⟩
    rw [hphase, hd]
    exact @actionsOf_steady p t g now .noKey reason
  · rw [hphase]
    exact haltsAtNoKey_actionsOf ..

theorem Inv.exec (h : Inv w) (hw : w.proc = some p) (newId : String) : Inv (w.exec p outcome now newId) := by
  have he := exec_effect w p outcome now newId
  generalize w.exec p outcome now newId = next at he ⊢
  cases he with
  | went before seen proc after fewer => exact h.quiet (same_proc proc) after
  | graded phase done verdict seen proc next =>
    refine h.quiet ?_ (by rw [next]; rfl)
    intro p' hp'
    obtain rfl := Option.some.inj (proc.symm.trans hp')
    exact ⟨p, hw, rfl, rfl⟩
  | recorded before owed seen proc after fewer => exact h.quiet (same_proc proc) after
  | decided before seen proc owed => exact h.decide hw proc _ _
  | acted phase => exact h.act hw phase

theorem Inv.step (h : Inv w) (i : Step) : Inv (w.step i) := by
  cases i with
  | insertSpend row => exact ⟨h.still, h.ahead⟩
  | tick input =>
    obtain ⟨_, hp, ha, _⟩ := tick_frame w input
    constructor
    · rw [hp, ha]
      exact h.still
    · rw [ha]
      exact h.ahead
  | exec outcome now newId =>
    cases hw : w.proc with
    | none => simpa [World.step, hw] using h
    | some p => simpa [World.step, hw] using h.exec hw newId
  | start cfg tie =>
    constructor
    · intro p hp hh
      obtain rfl := Option.some.inj hp
      obtain ⟨row, hl, hr⟩ := Option.any_eq_true .. |>.mp hh
      have hn : row.newState = .noKey := by
        simp only [LoggedRow.haltsStart, Bool.and_eq_true, decide_eq_true_eq] at hr
        exact hr.1
      exact ⟨by simp [startProcess, hl, hn], by simp [World.step, World.note, actions]⟩
    · trivial
  | reauth => exact ⟨h.still, h.ahead⟩

/-- Whatever halted the process is due to phantom spend. -/
def HaltsOk (log : List LoggedRow) (w : World) : Prop :=
  ∀ p, w.proc = some p → p.halted = true → PhantomHalt log w.seen

/-- Nothing is halted that was not. -/
theorem HaltsOk.quiet {w' : World} (h : HaltsOk log w) (hp : ∀ p', w'.proc = some p' →
    ∃ p, w.proc = some p ∧ p'.halted = p.halted ∧ p'.state = p.state)
    (hs : PhantomHalt log w'.seen ↔ PhantomHalt log w.seen) : HaltsOk log w' := by
  intro p' hp' hh
  obtain ⟨p, hw, he, _⟩ := hp p' hp'
  rw [he] at hh
  exact hs.mpr (h p hw hh)

theorem marksOk_of_resting {newId : String} (ha : actions w.phase = []) : MarksOk log w (.exec outcome now newId) := by
  intro _ _ hm
  simp [ha] at hm

/-- A process is halted by an acknowledged append of the revoke only. -/
theorem act_halts {action : Action} {rest : List Action} {p' : Process} (hw : w.proc = some p)
    (hp' : (w.act p action rest outcome now).proc = some p') (hh : p'.halted = true) :
    p.halted = true ∨ (outcome = .ok ∧ halts action = true) := by
  have hsame : w.proc = some p' → p.halted = true := by
    intro h
    obtain rfl := Option.some.inj (hw.symm.trans h)
    exact hh
  cases action with
  | append row enter halted =>
    cases outcome with
    | ok =>
      obtain rfl := Option.some.inj hp'
      rcases Bool.or_eq_true_iff.mp hh with hp | hp
      · exact Or.inl hp
      · exact Or.inr ⟨rfl, hp⟩
    | failed => exact Or.inl (hsame hp')
    | ackLost => exact Or.inl (hsame hp')
  | mint baseline key => cases outcome <;> exact Or.inl (hsame hp')
  | revokeKey => exact Or.inl (hsame hp')
  | clearKey => cases outcome <;> exact Or.inl (hsame hp')

/-- The next operation halts the process only where the marks say so. -/
theorem HaltsOk.act {action : Action} {rest : List Action} {newId : String} (h : HaltsOk log w)
    (hw : w.proc = some p) (hphase : w.phase = .acting (action :: rest)) :
    HaltsOk log (w.act p action rest outcome now) ↔ MarksOk log w (.exec outcome now newId) := by
  have hseen : PhantomHalt log (w.act p action rest outcome now).seen ↔ PhantomHalt log w.seen := by
    rcases @act_seen w p outcome now action rest with he | ⟨_, he⟩ | ⟨s, _, he⟩
    · rw [he]
    · rw [he]
      exact phantomHalt_snoc rfl
    · rw [he]
      exact phantomHalt_snoc rfl
  have hhead : (actions w.phase).head?.any halts = halts action := by simp [hphase, actions]
  constructor
  · intro hok _ ho hh
    rw [hhead] at hh
    subst ho
    cases action with
    | append row enter halted =>
      obtain rfl : halted = true := hh
      exact hseen.mp (hok (p.enter enter true) rfl (by simp [Process.enter]))
    | mint baseline key => cases hh
    | revokeKey => cases hh
    | clearKey => cases hh
  · intro hok p' hp' hh
    rcases act_halts hw hp' hh with hp | ⟨ho, hm⟩
    · exact hseen.mpr (h p hw hp)
    · exact hseen.mpr (hok (by simp [hw]) ho (hhead.trans hm))

theorem HaltsOk.exec {newId : String} (hi : Inv w) (h : HaltsOk log w) (hw : w.proc = some p) :
    HaltsOk log (w.exec p outcome now newId) ↔ MarksOk log w (.exec outcome now newId) := by
  have he := exec_effect w p outcome now newId
  generalize w.exec p outcome now newId = next at he ⊢
  cases he with
  | went before seen proc after fewer =>
    exact iff_of_true (h.quiet (same_proc proc) (by rw [seen])) (marksOk_of_resting before)
  | graded phase done verdict seen proc next =>
    refine iff_of_true (h.quiet ?_ ?_) (marksOk_of_resting (by rw [phase]; rfl))
    · intro p' hp'
      obtain rfl := Option.some.inj (proc.symm.trans hp')
      exact ⟨p, hw, rfl, rfl⟩
    · rw [seen]
      exact phantomHalt_snoc rfl
  | recorded before owed seen proc after fewer =>
    refine iff_of_true (h.quiet (same_proc proc) ?_) (marksOk_of_resting before)
    rw [seen]
    exact phantomHalt_snoc rfl
  | @decided w' t g before seen proc owed =>
    refine iff_of_true ?_ (marksOk_of_resting before)
    intro p' hp' hh
    rw [(decide_frame w' p t g now).1, proc, hw] at hp'
    obtain rfl := Option.some.inj hp'
    -- a halted process stands still, so this was no revoke
    obtain ⟨reason, hd⟩ := @decision_halted p t g now hh (hi.still p hw hh).1
    rw [decide_seen, hd, if_neg (by simp [LifecycleDecision.revokes]), seen]
    exact h p hw hh
  | acted phase => exact h.act hw phase

theorem HaltsOk.step (hi : Inv w) (h : HaltsOk log w) (i : Step) : HaltsOk log (w.step i) ↔ MarksOk log w i := by
  cases i with
  | insertSpend row => exact iff_of_true h trivial
  | tick input =>
    obtain ⟨hs, hp, _, _⟩ := tick_frame w input
    exact iff_of_true (h.quiet (same_proc hp) (by rw [hs])) trivial
  | exec outcome now newId =>
    cases hw : w.proc with
    | none =>
      simp only [World.step, hw]
      exact iff_of_true h fun hne => absurd hw hne
    | some p =>
      simp only [World.step, hw]
      exact h.exec hi hw
  | start cfg tie =>
    have hseen : PhantomHalt log (w.step (.start cfg tie)).seen ↔ PhantomHalt log w.seen := phantomHalt_snoc rfl
    constructor
    · intro hok hm
      exact hseen.mp (hok _ rfl hm)
    · intro hok p hp hh
      obtain rfl := Option.some.inj hp
      exact hseen.mpr (hok hh)
  | reauth => exact iff_of_true (h.quiet (same_proc rfl) (phantomHalt_snoc rfl)) trivial

/-- In every state of a run only phantom spend halts and every other revoke is
followed by a mint, exactly when the marks of the revoke path take effect for
phantom spend only. -/
theorem unstuck_iff (store : OAuthBlob) (log : List LoggedRow) (spend : SpendTable) (epochs : List MetabolismEpoch)
    (is : List Step) :
    (∀ js, js <+: is → Unstuck log (run World.step (World.init store log spend epochs) js)) ↔
      Always World.step (MarksOk log) (World.init store log spend epochs) is := by
  have hinit : Inv (World.init store log spend epochs) := by
    constructor
    · intro p hp
      cases hp
    · trivial
  have hstart : HaltsOk log (World.init store log spend epochs) := by
    intro p hp
    cases hp
  rw [← prefixes_iff Inv (HaltsOk log) (fun w i h => h.step i) (fun w i hi h => h.step hi i) hinit hstart]
  exact forall₂_congr fun js _ => ⟨Unstuck.halts, unstuck_of_halts⟩

/-- The provider holds a key whose secret is not in the store: the tick revokes it
"to remint". -/
def lostSecretRun : List Step := .start managed 0 :: wholeTick (polled 5 (some "orbio-9")) 60000 "epoch-1" 11

theorem housekeeping_halts : ¬ ∀ (store : OAuthBlob) (log : List LoggedRow) (spend : SpendTable)
    (epochs : List MetabolismEpoch) (is : List Step), (∀ r ∈ log, r.haltsStart = false) →
      Unstuck log (run World.step (World.init store log spend epochs) is) := by
  intro h
  have hu := h serving.store serving.lifecycleLog serving.spend serving.epochs lostSecretRun (by decide)
  have hproc : (run World.step serving lostSecretRun).proc.map Process.halted = some true := by decide +kernel
  have hlast : lastRevoke (run World.step serving lostSecretRun).seen = some false := by decide +kernel
  obtain ⟨p, hp, hh⟩ := Option.map_eq_some_iff.mp hproc
  have hno : ¬ PhantomHalt serving.lifecycleLog (run World.step serving lostSecretRun).seen := by
    simp [PhantomHalt, hlast]
  exact hno (hu.halts p hp hh)

end LaunchAuditor.Proofs.Housekeeping
