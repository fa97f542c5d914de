import LaunchAuditor.Proofs.Epochs

namespace LaunchAuditor.Proofs.Progress
open Db Metabolism Runner Moves Epochs Steps

/-- Rows may land, but nothing fails and no process dies. -/
def Through (clock : Int) : Step → Prop
  | .insertSpend _ => True
  | .exec outcome now _ => outcome = .ok ∧ clock ≤ now
  | _ => False

def acting : Phase → Bool
  | .acting _ => true
  | _ => false

/-- The last of these steps take a tick, at that time or later, to its decision. -/
def SeenThrough (clock : Int) (l : Watched) (steps : List Step) : Prop :=
  ∃ before input ops, steps = before ++ .tick input :: ops ∧ (run Watched.step l before).world.phase = .idle ∧
    (run Watched.step l before).world.proc.isSome ∧ (∀ s ∈ ops, Through clock s) ∧
    acting (run Watched.step l steps).world.phase = true

/-- From its window on the tick is about an epoch of that time or later. -/
def Dated (clock : Int) (w : World) : Prop :=
  match w.phase with
  | .activating .. | .readLedger .. | .findEpochs .. => True
  | .window _ win | .lag _ win _ => clock ≤ win.epochAt
  | .createEpoch _ g => clock ≤ g.window.epochAt
  | _ => ∃ e ∈ w.epochs, clock ≤ e.atMs

theorem dated_iff {clock : Int} {w : World} (h : resting w.phase = true ∨ (openEpoch w.phase).isSome = true) :
    Dated clock w ↔ ∃ e ∈ w.epochs, clock ≤ e.atMs := by
  unfold Dated
  cases hp : w.phase <;> simp [hp, resting, openEpoch] at h ⊢

theorem Dated.carry {clock : Int} {w w' : World} (h : Dated clock w)
    (hbefore : resting w.phase = true ∨ (openEpoch w.phase).isSome = true)
    (hafter : resting w'.phase = true ∨ (openEpoch w'.phase).isSome = true) (hepochs : w'.epochs = w.epochs) :
    Dated clock w' := by
  obtain ⟨e, he, hle⟩ := (dated_iff hbefore).mp h
  exact (dated_iff hafter).mpr ⟨e, hepochs ▸ he, hle⟩

theorem dated_early {clock : Int} {w : World} (h : early w.phase = true) : Dated clock w := by
  unfold Dated
  cases hp : w.phase <;> simp [hp, early] at h ⊢

theorem Dated.step {clock : Int} {w : World} (h : Dated clock w) {s : Step} (hs : Through clock s) :
    Dated clock (w.step s) := by
  cases s with
  | insertSpend row => exact h
  | exec outcome now newId =>
    obtain ⟨rfl, hnow⟩ := hs
    rcases step_moved w .ok now newId with hsame | hm
    · rw [hsame]
      exact h
    generalize w.step (.exec .ok now newId) = w' at hm ⊢
    cases hm with
    | early _ after => exact dated_early after
    | ended _ cut after _ epochs => exact h.carry (Or.inl (cut rfl)) (Or.inl after) epochs
    | found _ _ date after =>
      unfold Dated
      rw [after]
      exact hnow.trans_eq date.symm
    | queried before after =>
      unfold Dated at h ⊢
      rw [before] at h
      rw [after]
      exact h
    | graded before after window =>
      unfold Dated at h ⊢
      rw [before] at h
      rw [after]
      dsimp only at h ⊢
      rw [window]
      exact h
    | created before _ after _ epochs =>
      unfold Dated at h
      rw [before] at h
      have he : ∃ e ∈ w'.epochs, clock ≤ e.atMs := ⟨_, epochs ▸ List.mem_append_right _ List.mem_cons_self, h⟩
      rcases after with ⟨_, hp⟩ | ⟨_, hp⟩
      · exact (dated_iff (Or.inr (by rw [hp]; rfl))).mpr he
      · exact (dated_iff (Or.inl (by rw [hp]; rfl))).mpr he
    | listed before after _ epochs =>
      exact h.carry (Or.inr (by rw [before]; rfl)) (Or.inr (by rw [after]; rfl)) epochs
    | stampedOne before after _ epochs =>
      exact h.carry (Or.inr (by rw [before]; rfl)) (Or.inr (by rw [after]; rfl)) epochs
    | stamped before _ _ after _ epochs => exact h.carry (Or.inr (by rw [before]; rfl)) (Or.inl after) epochs
    | left before _ _ after _ epochs => exact h.carry (Or.inr (by rw [before]; rfl)) (Or.inl after) epochs
  | tick input => cases hs
  | start cfg tie => cases hs
  | reauth => cases hs

theorem tick_early {w : World} (hidle : w.phase = .idle) (hproc : w.proc.isSome) (input : TickInput) :
    early (w.step (.tick input)).phase = true ∧ (w.step (.tick input)).proc = w.proc := by
  obtain ⟨p, hp⟩ := Option.isSome_iff_exists.mp hproc
  simp only [World.step, hidle, hp]
  split <;> exact ⟨rfl, rfl⟩

/-- It has left an epoch of its time, and nobody is stamping any more. -/
theorem SeenThrough.epoch {clock : Int} {l : Watched} {steps : List Step} (h : SeenThrough clock l steps) :
    openEpoch (run Watched.step l steps).world.phase = none ∧
      ∃ e ∈ (run Watched.step l steps).world.epochs, clock ≤ e.atMs := by
  obtain ⟨before, input, ops, rfl, hidle, hproc, hops, hacting⟩ := h
  have hstart : Dated clock ((run Watched.step l before).step (.tick input)).world :=
    dated_early (tick_early hidle hproc input).1
  have hrun : run Watched.step l (before ++ .tick input :: ops) =
      run Watched.step ((run Watched.step l before).step (.tick input)) ops := by
    simp [run, List.foldl_append]
  rw [hrun] at hacting ⊢
  have hdated : ∀ (ops : List Step) (m : Watched), (∀ s ∈ ops, Through clock s) → Dated clock m.world →
      Dated clock (run Watched.step m ops).world := by
    intro ops
    induction ops with
    | nil => exact fun m _ hm => hm
    | cons s ops ih =>
      intro m hall hm
      exact ih (m.step s) (fun x hx => hall x (List.mem_cons_of_mem _ hx)) (hm.step (hall s List.mem_cons_self))
  have hend := hdated ops _ hops hstart
  have hrest : resting (run Watched.step ((run Watched.step l before).step (.tick input)) ops).world.phase = true := by
    cases hp : (run Watched.step ((run Watched.step l before).step (.tick input)) ops).world.phase <;>
      simp [hp, acting, resting] at hacting ⊢
  exact ⟨openEpoch_calm (Or.inr hrest), (dated_iff (Or.inl hrest)).mp hend⟩

/-- How many operations are left to the decision, at most. -/
def remaining (w : World) : Nat :=
  match w.phase with
  | .activating .. => w.spend.length + 7
  | .readLedger .. => w.spend.length + 6
  | .findEpochs .. => w.spend.length + 5
  | .window .. => w.spend.length + 4
  | .lag .. => w.spend.length + 3
  | .createEpoch .. => w.spend.length + 2
  | .stamp .. => w.spend.length + 1
  | .stampRows _ _ _ _ rows => rows.length
  | _ => 0

/-- An operation that succeeds brings the decision or comes nearer to it. -/
theorem exec_progress {w : World} (hproc : w.proc.isSome) (hunder : resting w.phase = false) (now : Int)
    (newId : String) :
    acting (w.step (.exec .ok now newId)).phase = true ∨
      ((w.step (.exec .ok now newId)).proc.isSome ∧ resting (w.step (.exec .ok now newId)).phase = false ∧
        remaining (w.step (.exec .ok now newId)) < remaining w) := by
  obtain ⟨p, hp⟩ := Option.isSome_iff_exists.mp hproc
  have hstep : w.step (.exec .ok now newId) = w.exec p .ok now newId := by simp [World.step, hp]
  rw [hstep]
  have hdecided : ∀ (w : World) (t : Tick) (g : Graded), acting (w.decide p t g now).phase = true := by
    intro w t g
    rw [(Tick.decide_frame w p t g now).2]
    rfl
  cases h : w.phase with
  | activating input reason =>
    right
    simp [World.exec, h, World.insertLog, hp, resting, remaining]
  | readLedger input =>
    right
    simp [World.exec, h, hp, resting, remaining]
  | findEpochs t =>
    right
    simp [World.exec, h, hp, resting, remaining]
  | window t win =>
    right
    simp [World.exec, h, hp, resting, remaining]
  | lag t win est =>
    right
    simp [World.exec, h, World.grade, World.note, resting, remaining]
  | createEpoch t g =>
    right
    simp [World.exec, h, World.note, hp, resting, remaining]
  | stamp t g epochId =>
    simp only [World.exec, h]
    cases hf : g.ep.reconciliationFactor with
    | none => exact Or.inl (hdecided _ t g)
    | some factor =>
      simp only [ne_eq, not_true_eq_false, if_false]
      cases hw : windowIds g.window.windowStart g.window.epochAt w.spend with
      | nil => exact Or.inl (hdecided _ t g)
      | cons row rows =>
        right
        have hlen : (row :: rows).length ≤ w.spend.length := by
          rw [← hw]
          simp only [windowIds, List.length_map]
          exact List.length_filter_le _ _
        simp only [remaining, h, hp, resting, Option.isSome_some, true_and]
        omega
  | stampRows t g epochId factor rows =>
    simp only [World.exec, h]
    cases rows with
    | nil => exact Or.inl (hdecided _ t g)
    | cons row rows =>
      cases rows with
      | nil => exact Or.inl (hdecided _ t g)
      | cons next rows =>
        right
        simp [resting, remaining, hp, h]
  | idle => rw [h] at hunder; cases hunder
  | acting actions => rw [h] at hunder; cases hunder

/-- Operations that all succeed take a tick to its decision. -/
theorem gets_through (now : Int) (newId : String) (n : Nat) :
    ∀ l : Watched, l.world.proc.isSome → resting l.world.phase = false → remaining l.world ≤ n →
      ∃ ops, acting (run Watched.step l (List.replicate ops (.exec .ok now newId))).world.phase = true := by
  induction n with
  | zero =>
    intro l hproc hunder hle
    rcases exec_progress hproc hunder now newId with hacting | ⟨_, _, hless⟩
    · exact ⟨1, hacting⟩
    · omega
  | succ n ih =>
    intro l hproc hunder hle
    rcases exec_progress hproc hunder now newId with hacting | ⟨hproc', hunder', hless⟩
    · exact ⟨1, hacting⟩
    · obtain ⟨ops, hops⟩ := ih (l.step (.exec .ok now newId)) hproc' hunder' (by
        change remaining (l.world.step (.exec .ok now newId)) ≤ n
        omega)
      exact ⟨ops + 1, hops⟩

theorem tick_seen_through {l : Watched} (hidle : l.world.phase = .idle) (hproc : l.world.proc.isSome)
    (input : TickInput) (now : Int) (newId : String) :
    ∃ ops, SeenThrough now l (.tick input :: List.replicate ops (.exec .ok now newId)) := by
  obtain ⟨hearly, hsame⟩ := tick_early hidle hproc input
  have hunder : resting (l.step (.tick input)).world.phase = false := by
    change resting (l.world.step (.tick input)).phase = false
    cases hp : (l.world.step (.tick input)).phase <;> simp [hp, early, resting] at hearly ⊢
  obtain ⟨ops, hacting⟩ := gets_through now newId _ (l.step (.tick input)) (hsame ▸ hproc) hunder le_rfl
  refine ⟨ops, [], input, List.replicate ops (.exec .ok now newId), rfl, hidle, hproc, ?_, hacting⟩
  intro s hs
  rw [List.eq_of_mem_replicate hs]
  exact ⟨rfl, le_rfl⟩

end LaunchAuditor.Proofs.Progress
