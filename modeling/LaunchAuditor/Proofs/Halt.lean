import LaunchAuditor.Proofs.Tick
import LaunchAuditor.Lib.Steps

namespace LaunchAuditor.Proofs.Halt
open Db Metabolism Runner Tick Steps

/-- A tick has acted on phantom spend and no human has re-authorised since. -/
def Owed (seen : List Event) : Prop := Since (fun e => e = .revoking true) (fun e => e ≠ .reauthorised) seen

/-- No key is minted while a re-authorisation is owed. -/
def HaltKept (seen : List Event) : Prop := Throughout (fun earlier e => e = .minted → ¬ Owed earlier) seen

def halts : Action → Bool
  | .append _ _ halts => halts
  | _ => false

/-- No operation of the revoke fails before the process is halted; only the
provider's own call may. -/
def RevokeCompletes (w : World) (outcome : PersistOutcome) : Prop :=
  (∃ a ∈ actions w.phase, halts a = true) → (actions w.phase).head? ≠ some .revokeKey → outcome = .ok

/-- A process that manages keys starts on a marked `NO_KEY` row. -/
def StartsHalted (w : World) (cfg : RunnerConfig) (tie : Nat) : Prop :=
  cfg.observe = false → (lastRow tie w.lifecycleLog).any LoggedRow.haltsStart = true

/-- What a step has to meet while a re-authorisation is owed. -/
def StepOk (w : World) : Step → Prop
  | .exec outcome _ _ => Owed w.seen → RevokeCompletes w outcome
  | .start cfg tie => Owed w.seen → StartsHalted w cfg tie
  | _ => True

/-- The operation leaves the process where it is. -/
def keeps : Action → Bool
  | .append _ enter _ => enter.isNone
  | .mint .. => false
  | _ => true

theorem keeps_mints {a : Action} (h : keeps a = true) : mints a = false := by
  cases a with
  | mint baseline key => cases h
  | append row enter halts => rfl
  | revokeKey => rfl
  | clearKey => rfl

/-- Nothing mints from here on: the process may not, it is halted, or it is
about to be. -/
inductive Guarded (p : Process) (todo : List Action) : Prop
  | observing (may : p.cfg.observe = true) (quiet : ∀ a ∈ todo, mints a = false)
  | halted (is : p.halted = true) (noKey : p.state = .noKey) (quiet : ∀ a ∈ todo, keeps a = true)
  | revoking {before after : List Action} {row : LifecycleRowInput}
      (todo : todo = before ++ .append row (some .noKey) true :: after)
      (before' : ∀ a ∈ before, keeps a = true) (after' : ∀ a ∈ after, keeps a = true)

theorem Guarded.mints {p : Process} {todo : List Action} (h : Guarded p todo) {a : Action} (ha : a ∈ todo) :
    mints a = false := by
  cases h with
  | observing may quiet => exact quiet a ha
  | halted is noKey quiet => exact keeps_mints (quiet a ha)
  | revoking todo before' after' =>
    subst todo
    rcases List.mem_append.mp ha with hb | ha
    · exact keeps_mints (before' a hb)
    · rcases List.mem_cons.mp ha with rfl | ha
      · rfl
      · exact keeps_mints (after' a ha)

/-- A new count of anomalies changes nothing. -/
theorem Guarded.counted {p : Process} {todo : List Action} (h : Guarded p todo) (consecutiveAnomalies : Nat) :
    Guarded { p with consecutiveAnomalies } todo := by
  cases h with
  | observing may quiet => exact .observing may quiet
  | halted is noKey quiet => exact .halted is noKey quiet
  | revoking todo before' after' => exact .revoking todo before' after'

section Decision
variable {p : Process} {t : Tick} {g : Graded} {now : Int}

theorem decision_observing (h : p.cfg.observe = true) :
    (decision p t g now).mints = false ∧ (decision p t g now).revokes = false := by
  unfold decision
  simp only [h, if_true]
  exact restrictToObserve_acts _ _

theorem decision_halted (hh : p.halted = true) (hs : p.state = .noKey) :
    ∃ reason, decision p t g now = .steady .noKey reason := by
  obtain ⟨reason, hd⟩ := decideLifecycle_halted (r := lifecycleReading p t g now) p.cfg.lifecycle hs hh
  refine ⟨reason, ?_⟩
  unfold decision
  simp only [hd, restrictToObserve]
  split <;> rfl

theorem actionsOf_mints {d : LifecycleDecision} (hm : d.mints = false) :
    ∀ a ∈ actionsOf p t g now d, mints a = false := by
  cases d with
  | steady state reason => simp [actionsOf, mints]
  | transition source target event mint reason =>
    simp only [LifecycleDecision.mints] at hm
    simp [actionsOf, hm, mints]
  | rotate source reason => cases hm
  | revoke source reason => simp [actionsOf, mints]

theorem actionsOf_steady {state : LifecycleState} {reason : String} :
    ∀ a ∈ actionsOf p t g now (.steady state reason), keeps a = true := by
  simp [actionsOf, keeps]

theorem guarded_revoke {d : LifecycleDecision} (h : d.revokes = true) : Guarded p (actionsOf p t g now d) := by
  cases d with
  | revoke source reason =>
    refine @Guarded.revoking _ _ [_, _, _] [_] _ rfl ?_ ?_
    · simp [keeps]
    · simp [keeps]
  | steady state reason => cases h
  | transition source target event mint reason => cases h
  | rotate source reason => cases h

end Decision

structure Inv (w : World) : Prop where
  kept : HaltKept w.seen
  guarded : Owed w.seen → ∀ p, w.proc = some p → Guarded p (actions w.phase)

variable {w : World} {p : Process} {outcome : PersistOutcome} {now : Int}

theorem Inv.same {w' : World} (h : Inv w) (hs : w'.seen = w.seen)
    (hg : Owed w.seen → ∀ p, w'.proc = some p → Guarded p (actions w'.phase)) : Inv w' := by
  constructor
  · rw [hs]
    exact h.kept
  · rw [hs]
    exact hg

/-- The trace grows by an event that is neither a mint nor a revoke. -/
theorem Inv.quiet {w' : World} {e : Event} (h : Inv w) (hs : w'.seen = w.seen ++ [e]) (hm : e ≠ .minted)
    (hr : e ≠ .revoking true) (hg : Owed w.seen → ∀ p, w'.proc = some p → Guarded p (actions w'.phase)) :
    Inv w' := by
  constructor
  · rw [hs]
    exact throughout_snoc.mpr ⟨h.kept, fun he => absurd he hm⟩
  · intro ho
    rw [hs] at ho
    rcases since_snoc.mp ho with he | ⟨ho', _⟩
    · exact absurd he hr
    · exact hg ho'

/-- A guarded process stays so through its next decision. -/
theorem Guarded.decided (h : Guarded p []) (t : Tick) (g : Graded) :
    Guarded p (actionsOf p t g now (decision p t g now)) := by
  cases h with
  | observing may quiet => exact .observing may (actionsOf_mints (decision_observing may).1)
  | halted is noKey quiet =>
    obtain ⟨reason, hd⟩ := @decision_halted p t g now is noKey
    rw [hd]
    exact .halted is noKey actionsOf_steady
  | revoking todo before' after' => simp at todo

theorem Inv.decide {w' : World} (h : Inv w) (hw : w.proc = some p) (hb : actions w.phase = [])
    (hs : w'.seen = w.seen) (hp : w'.proc = w.proc) (t : Tick) (g : Graded) : Inv (w'.decide p t g now) := by
  obtain ⟨hproc, hphase⟩ := decide_frame w' p t g now
  have hone : ∀ p', (w'.decide p t g now).proc = some p' → p' = p := by
    intro p' hp'
    rw [hproc, hp, hw] at hp'
    exact (Option.some.inj hp').symm
  have hseen := decide_seen w' p t g now
  cases hr : (decision p t g now).revokes with
  | true =>
    rw [hr, if_pos rfl, hs] at hseen
    constructor
    · rw [hseen]
      exact throughout_snoc.mpr ⟨h.kept, by simp⟩
    · intro _ p' hp'
      rw [hone p' hp', hphase]
      exact guarded_revoke hr
  | false =>
    rw [hr, if_neg (by simp), hs] at hseen
    refine h.same hseen ?_
    intro ho p' hp'
    have hg := h.guarded ho p hw
    rw [hb] at hg
    rw [hone p' hp', hphase]
    exact hg.decided t g

theorem act_halted {action : Action} {rest : List Action} {p' : Process} (hw : w.proc = some p)
    (hk : keeps action = true) (is : p.halted = true) (noKey : p.state = .noKey)
    (hp' : (w.act p action rest outcome now).proc = some p') : p'.halted = true ∧ p'.state = .noKey := by
  rcases @act_proc w p outcome now action rest hw with he | ⟨row, enter, halts, rfl, he⟩
  · obtain rfl := Option.some.inj (he.symm.trans hp')
    exact ⟨is, noKey⟩
  · obtain rfl := Option.some.inj (he.symm.trans hp')
    have hn : enter = none := by simpa [keeps] using hk
    simp [Process.enter, hn, is, noKey]

theorem RevokeCompletes.done {action : Action} {rest : List Action} (hok : RevokeCompletes w outcome)
    (hp : w.phase = .acting (action :: rest)) (hh : ∃ a ∈ action :: rest, halts a = true) :
    outcome = .ok ∨ action = .revokeKey := by
  by_cases ha : action = .revokeKey
  · exact Or.inr ha
  · refine Or.inl (hok ?_ ?_)
    · rw [hp]
      exact hh
    · rw [hp]
      simpa [actions] using ha

/-- What is left of a guarded list once its head is done. -/
theorem Guarded.act {action : Action} {rest : List Action} {p' : Process} (h : Guarded p (action :: rest))
    (hp : w.phase = .acting (action :: rest)) (hw : w.proc = some p) (hok : RevokeCompletes w outcome)
    (hp' : (w.act p action rest outcome now).proc = some p') :
    Guarded p' (actions (w.act p action rest outcome now).phase) := by
  cases h with
  | observing may quiet =>
    have hcfg := (act_process hw hp').1
    refine .observing (by rw [hcfg]; exact may) ?_
    intro a ha
    exact quiet a (List.mem_cons_of_mem _ (act_actions ha))
  | halted is noKey quiet =>
    obtain ⟨is', noKey'⟩ := act_halted hw (quiet _ List.mem_cons_self) is noKey hp'
    refine .halted is' noKey' ?_
    intro a ha
    exact quiet a (List.mem_cons_of_mem _ (act_actions ha))
  | @revoking before after row todo before' after' =>
    have hdone : outcome = .ok ∨ action = .revokeKey := by
      apply hok.done hp
      exact ⟨.append row (some .noKey) true, by rw [todo]; simp, rfl⟩
    rw [act_done hdone]
    cases before with
    | nil =>
      obtain ⟨rfl, rfl⟩ := List.cons.inj todo
      have hok' : outcome = .ok := hdone.resolve_right (by simp)
      subst hok'
      obtain rfl := Option.some.inj hp'
      exact .halted (by simp [Process.enter]) rfl after'
    | cons a before =>
      obtain ⟨_, rfl⟩ := List.cons.inj todo
      exact .revoking rfl (fun a ha => before' a (List.mem_cons_of_mem _ ha)) after'

theorem Inv.act {action : Action} {rest : List Action} (h : Inv w) (hw : w.proc = some p)
    (hp : w.phase = .acting (action :: rest)) (hok : Owed w.seen → RevokeCompletes w outcome) :
    Inv (w.act p action rest outcome now) := by
  have hg : Owed w.seen → Guarded p (action :: rest) := by
    intro ho
    have hg := h.guarded ho p hw
    rw [hp] at hg
    exact hg
  have hnext : Owed w.seen → ∀ p', (w.act p action rest outcome now).proc = some p' →
      Guarded p' (actions (w.act p action rest outcome now).phase) :=
    fun ho p' hp' => (hg ho).act hp hw (hok ho) hp'
  rcases @act_seen w p outcome now action rest with hs | ⟨hm, hs⟩ | ⟨s, _, hs⟩
  · exact h.same hs hnext
  · have hno : ¬ Owed w.seen := by
      intro ho
      have := (hg ho).mints List.mem_cons_self
      rw [hm] at this
      cases this
    constructor
    · rw [hs]
      exact throughout_snoc.mpr ⟨h.kept, fun _ => hno⟩
    · intro ho
      rw [hs] at ho
      rcases since_snoc.mp ho with he | ⟨ho', _⟩
      · cases he
      · exact absurd ho' hno
  · exact h.quiet hs (by simp) (by simp) hnext

theorem Inv.exec (h : Inv w) (hw : w.proc = some p) (newId : String)
    (hok : Owed w.seen → RevokeCompletes w outcome) : Inv (w.exec p outcome now newId) := by
  have he := exec_effect w p outcome now newId
  generalize w.exec p outcome now newId = next at he ⊢
  cases he with
  | went before seen proc after fewer =>
    refine h.same seen ?_
    rw [proc, after, ← before]
    exact h.guarded
  | graded phase done verdict seen proc next =>
    refine h.quiet seen (by simp) (by simp) ?_
    intro ho p' hp'
    obtain rfl := Option.some.inj (proc.symm.trans hp')
    have hg := h.guarded ho p hw
    rw [phase] at hg
    rw [next]
    exact hg.counted _
  | recorded before owed seen proc after fewer =>
    refine h.quiet seen (by simp) (by simp) ?_
    rw [proc, after, ← before]
    exact h.guarded
  | decided before seen proc owed => exact h.decide hw before seen proc _ _
  | acted phase => exact h.act hw phase hok

theorem Inv.start (h : Inv w) (cfg : RunnerConfig) (tie : Nat) (hok : Owed w.seen → StartsHalted w cfg tie) :
    Inv (w.step (.start cfg tie)) := by
  refine h.quiet rfl (by simp) (by simp) ?_
  intro ho p hp
  obtain rfl := Option.some.inj hp
  cases hm : cfg.observe with
  | true => exact .observing hm (by simp [World.step, World.note, actions])
  | false =>
    have hh := hok ho hm
    obtain ⟨row, hl, hr⟩ := Option.any_eq_true .. |>.mp hh
    have hn : row.newState = .noKey := by
      simp only [LoggedRow.haltsStart, Bool.and_eq_true, decide_eq_true_eq] at hr
      exact hr.1
    refine .halted ?_ ?_ (by simp [World.step, World.note, actions])
    · exact hh
    · simp [startProcess, hl, hn]

theorem Inv.step (h : Inv w) (i : Step) (hok : StepOk w i) : Inv (w.step i) := by
  cases i with
  | insertSpend row => exact ⟨h.kept, h.guarded⟩
  | tick input =>
    obtain ⟨hs, hp, ha, _⟩ := tick_frame w input
    refine h.same hs ?_
    rw [hp, ha]
    exact h.guarded
  | exec outcome now newId =>
    cases hw : w.proc with
    | none => simpa [World.step, hw] using h
    | some p => simpa [World.step, hw] using h.exec hw newId hok
  | start cfg tie => exact h.start cfg tie hok
  | reauth =>
    constructor
    · exact throughout_snoc.mpr ⟨h.kept, by simp⟩
    · intro ho
      rcases since_snoc.mp ho with he | ⟨_, hr⟩
      · cases he
      · exact absurd rfl hr

theorem Inv.init (store : OAuthBlob) (log : List LoggedRow) (spend : SpendTable) (epochs : List MetabolismEpoch) :
    Inv (World.init store log spend epochs) := by
  constructor
  · exact throughout_nil
  · intro _ p hp
    cases hp

/-- Once a tick has acted on phantom spend, no key is minted before a human
re-authorises, if no revoke is cut short and every process starts halted. -/
theorem halt_kept {store : OAuthBlob} {log : List LoggedRow} {spend : SpendTable} {epochs : List MetabolismEpoch}
    {is : List Step} (hok : Always World.step StepOk (World.init store log spend epochs) is) :
    HaltKept (run World.step (World.init store log spend epochs) is).seen :=
  (invariant_run Inv (fun _ i h hi => h.step i hi) (Inv.init store log spend epochs) hok).kept

/-- Without failures and restarts there is nothing to meet. -/
theorem always_of_whole {is : List Step}
    (h : ∀ i ∈ is, (∃ input, i = .tick input) ∨ ∃ now newId, i = .exec .ok now newId) (w : World) :
    Always World.step StepOk w is := by
  induction is generalizing w with
  | nil => trivial
  | cons i is ih =>
    refine ⟨?_, ih (fun j hj => h j (List.mem_cons_of_mem _ hj)) _⟩
    rcases h i List.mem_cons_self with ⟨input, rfl⟩ | ⟨now, newId, rfl⟩
    · trivial
    · exact fun _ _ _ => rfl

theorem always_wholeTick (w : World) (input : TickInput) (now : Int) (newId : String) (ops : Nat) :
    Always World.step StepOk w (wholeTick input now newId ops) := by
  apply always_of_whole
  intro i hi
  rcases List.mem_cons.mp hi with rfl | hi
  · exact Or.inl ⟨input, rfl⟩
  · obtain ⟨k, _, rfl⟩ := List.mem_map.mp hi
    exact Or.inr ⟨now + k, newId, rfl⟩

section Sample

/-- The provider charges a dollar with no request on record: the whole revoke runs. -/
def revokedRun : List Step := .start managed 0 :: wholeTick (polled 6 (some "orbio-1")) 60000 "epoch-1" 11

theorem revokedRun_ok : Always World.step StepOk serving revokedRun :=
  ⟨fun ho => absurd ho (since_nil _ _), always_wholeTick _ _ _ _ _⟩

def restart : Step := .start managed 0

def noKeyTick (now : Int) (newId : String) : List Step := wholeTick (polled 6 none) now newId 7

theorem halt_kept_restarted :
    HaltKept (run World.step serving (revokedRun ++ restart :: noKeyTick 120000 "epoch-2")).seen := by
  apply halt_kept
  refine revokedRun_ok.append ⟨?_, always_wholeTick _ _ _ _ _⟩
  intro _ _
  decide +kernel

/-- The halted process ticks once more, then a restart forgets the halt. -/
def remintedRun : List Step :=
  revokedRun ++ noKeyTick 120000 "epoch-2" ++ restart :: noKeyTick 180000 "epoch-3"

theorem halt_lost : ¬ HaltKept (run World.step serving remintedRun).seen := by
  intro h
  have hs : (run World.step serving remintedRun).seen =
      (run World.step serving remintedRun).seen.take 13 ++ .minted :: [] := by decide +kernel
  refine h _ _ _ hs rfl ⟨_, ((run World.step serving remintedRun).seen.take 13).drop 4, ⟨?_, ?_⟩, rfl, ?_⟩
  · exact (run World.step serving remintedRun).seen.take 3
  · decide +kernel
  · decide +kernel

end Sample

end LaunchAuditor.Proofs.Halt
