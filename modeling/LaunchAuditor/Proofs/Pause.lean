import LaunchAuditor.Proofs.Tick
import LaunchAuditor.Lib.Steps

namespace LaunchAuditor.Proofs.Pause
open Db Metabolism Runner Tick Steps

def reopens (s : BillingStatus) : Bool := !billingBlocksInference (some s)

/-- A sustained anomaly is on record, and since then every epoch was anomalous and
the process is still the same. -/
def Sustained (seen : List Event) : Prop :=
  Since (fun e => ∃ observe, e = .recorded observe .anomaly)
    (fun e => match e with
      | .started => False
      | .graded _ _ _ ep => ep.anomaly = true
      | _ => True) seen

/-- Phantom spend is on record, and since then every epoch was phantom. -/
def PhantomStands (seen : List Event) : Prop :=
  Since (fun e => ∃ observe, e = .recorded observe .phantom)
    (fun e => match e with
      | .graded _ _ _ ep => ep.phantom = true
      | _ => True) seen

/-- What the runner keeps up: a pause stands as long as its cause does. -/
def PauseKept (seen : List Event) : Prop :=
  Throughout (fun earlier e => ∀ observe s, e = .recorded observe s → reopens s = true →
    ¬ Sustained earlier ∧ ¬ PhantomStands earlier) seen

theorem billingStatus_anomaly {cfg : RunnerConfig} {ep : EpochResult} {n : Nat}
    (h : billingStatus cfg ep n = .anomaly) : cfg.anomalyEpochs ≤ n := by
  unfold billingStatus at h
  split at h
  · cases h
  · split at h
    · assumption
    · split at h
      · cases h
      · contradiction

theorem billingStatus_sustained {cfg : RunnerConfig} {n : Nat} (h : cfg.anomalyEpochs ≤ n) (ep : EpochResult) :
    reopens (billingStatus cfg ep n) = false := by
  unfold billingStatus
  cases ep.phantom with
  | true => rfl
  | false => simp [h, reopens, billingBlocksInference]

theorem billingStatus_phantom {cfg : RunnerConfig} {ep : EpochResult} (h : ep.phantom = true) (n : Nat) :
    billingStatus cfg ep n = .phantom := by
  simp [billingStatus, h]

/-- Every row of a tick carries the status its epoch was given. -/
theorem actionsOf_status (p : Process) (t : Tick) (g : Graded) (now : Int) (d : LifecycleDecision) :
    ∀ a ∈ actionsOf p t g now d, rowStatus a = none ∨ rowStatus a = some g.billingStatus := by
  cases d with
  | steady state reason => simp [actionsOf, rowStatus, commonRow]
  | transition source target event mint reason =>
    cases mint with
    | false => simp [actionsOf, rowStatus, commonRow]
    | true => simp [actionsOf, rowStatus, commonRow, LifecycleRowInput.withKey]
  | rotate source reason => simp [actionsOf, rowStatus, commonRow, LifecycleRowInput.withKey]
  | revoke source reason =>
    simp [actionsOf, rowStatus, commonRow, LifecycleRowInput.withKey, LifecycleRowInput.marked]

theorem decide_statuses {w : World} {p : Process} {t : Tick} {g : Graded} {now : Int} {s : BillingStatus}
    (h : s ∈ statuses (w.decide p t g now).phase) : s = g.billingStatus := by
  rw [(decide_frame w p t g now).2] at h
  obtain ⟨a, ha, hs⟩ := List.mem_filterMap.mp h
  rcases actionsOf_status p t g now _ a ha with hn | hg
  · rw [hn] at hs
    cases hs
  · exact (Option.some.inj (hg.symm.trans hs)).symm

/-- The process knows of a standing pause, and what it may still record says so. -/
structure Inv (w : World) : Prop where
  kept : PauseKept w.seen
  counted : Sustained w.seen → ∀ p, w.proc = some p → p.cfg.anomalyEpochs ≤ p.consecutiveAnomalies
  graded : ∀ p, w.proc = some p → ∀ s ∈ statuses w.phase, ∃ ep, s = billingStatus p.cfg ep p.consecutiveAnomalies
  one : ∀ s ∈ statuses w.phase, ∀ s' ∈ statuses w.phase, s = s'
  phantom : PhantomStands w.seen → ∀ s ∈ statuses w.phase, s = .phantom

variable {w w' : World} {p : Process} {outcome : PersistOutcome} {now : Int}

/-- The same process as far as anomalies go, and no status more to record. -/
structure Follows (w w' : World) : Prop where
  proc : ∀ p', w'.proc = some p' →
    ∃ p, w.proc = some p ∧ p'.cfg = p.cfg ∧ p'.consecutiveAnomalies = p.consecutiveAnomalies
  fewer : ∀ s ∈ statuses w'.phase, s ∈ statuses w.phase

theorem Follows.of_same (hp : w'.proc = w.proc) (hf : ∀ s ∈ statuses w'.phase, s ∈ statuses w.phase) :
    Follows w w' :=
  ⟨fun p' hp' => ⟨p', hp ▸ hp', rfl, rfl⟩, hf⟩

theorem Inv.graded_of_follows (h : Inv w) (hf : Follows w w') :
    ∀ p, w'.proc = some p → ∀ s ∈ statuses w'.phase, ∃ ep, s = billingStatus p.cfg ep p.consecutiveAnomalies := by
  intro p' hp' s hs
  obtain ⟨p, hw, hcfg, hn⟩ := hf.proc p' hp'
  rw [hcfg, hn]
  exact h.graded p hw s (hf.fewer s hs)

theorem Inv.one_of_follows (h : Inv w) (hf : Follows w w') :
    ∀ s ∈ statuses w'.phase, ∀ s' ∈ statuses w'.phase, s = s' :=
  fun s hs s' hs' => h.one s (hf.fewer s hs) s' (hf.fewer s' hs')

theorem Inv.went (h : Inv w) (hf : Follows w w') (hs : w'.seen = w.seen) : Inv w' := by
  refine ⟨?_, ?_, h.graded_of_follows hf, h.one_of_follows hf, ?_⟩
  · rw [hs]
    exact h.kept
  · intro ht p' hp'
    obtain ⟨p, hw, hcfg, hn⟩ := hf.proc p' hp'
    rw [hs] at ht
    rw [hcfg, hn]
    exact h.counted ht p hw
  · intro ht s hs'
    rw [hs] at ht
    exact h.phantom ht s (hf.fewer s hs')

/-- A status is recorded only when the process still has it to record. -/
theorem Inv.noted (h : Inv w) (hf : Follows w w') {e : Event} (hs : w'.seen = w.seen ++ [e])
    (howed : ∀ observe s, e = .recorded observe s → (∃ p, w.proc = some p) ∧ s ∈ statuses w.phase) : Inv w' := by
  refine ⟨?_, ?_, h.graded_of_follows hf, h.one_of_follows hf, ?_⟩
  · rw [hs]
    refine throughout_snoc.mpr ⟨h.kept, ?_⟩
    intro observe s he hr
    obtain ⟨⟨p, hw⟩, hm⟩ := howed observe s he
    obtain ⟨ep, hstatus⟩ := h.graded p hw s hm
    constructor
    · intro ht
      rw [hstatus, billingStatus_sustained (h.counted ht p hw)] at hr
      cases hr
    · intro ht
      rw [h.phantom ht s hm] at hr
      cases hr
  · intro ht p' hp'
    obtain ⟨p, hw, hcfg, hn⟩ := hf.proc p' hp'
    rw [hs] at ht
    rw [hcfg, hn]
    rcases since_snoc.mp ht with ⟨observe, he⟩ | ⟨ht', _⟩
    · obtain ⟨ep, hstatus⟩ := h.graded p hw _ (howed observe _ he).2
      exact billingStatus_anomaly hstatus.symm
    · exact h.counted ht' p hw
  · intro ht s hs'
    rw [hs] at ht
    rcases since_snoc.mp ht with ⟨observe, he⟩ | ⟨ht', _⟩
    · -- what the tick may still record is the status it has just recorded
      exact h.one s (hf.fewer s hs') _ (howed observe _ he).2
    · exact h.phantom ht' s (hf.fewer s hs')

/-- A verdict: the count and the status follow the epoch. -/
theorem Inv.grade (h : Inv w) (hw : w.proc = some p) {t : Tick} {win : EpochWindow} {total : ℚ} {ep : EpochResult}
    (hs : w'.seen = w.seen ++ [.graded win total w.spend ep])
    (hp : w'.proc = some { p with consecutiveAnomalies := nextAnomalies p ep })
    (hn : w'.phase = .createEpoch t ⟨win, ep, billingStatus p.cfg ep (nextAnomalies p ep)⟩) : Inv w' := by
  constructor
  · rw [hs]
    exact throughout_snoc.mpr ⟨h.kept, fun observe s he => by cases he⟩
  · intro ht p' hp'
    obtain rfl := Option.some.inj (hp.symm.trans hp')
    rw [hs] at ht
    rcases since_snoc.mp ht with ⟨observe, he⟩ | ⟨ht', ha⟩
    · cases he
    · have hc := h.counted ht' p hw
      simp only [nextAnomalies, ha, if_true]
      omega
  · intro p' hp' s hs'
    obtain rfl := Option.some.inj (hp.symm.trans hp')
    rw [hn] at hs'
    exact ⟨ep, List.mem_singleton.mp hs'⟩
  · intro s hs s' hs'
    rw [hn] at hs hs'
    exact (List.mem_singleton.mp hs).trans (List.mem_singleton.mp hs').symm
  · intro ht s hs'
    rw [hs] at ht
    rw [hn] at hs'
    rw [List.mem_singleton.mp hs']
    rcases since_snoc.mp ht with ⟨observe, he⟩ | ⟨_, hph⟩
    · cases he
    · exact billingStatus_phantom hph _

theorem follows_act {action : Action} {rest : List Action} (hw : w.proc = some p)
    (hp : w.phase = .acting (action :: rest)) : Follows w (w.act p action rest outcome now) := by
  constructor
  · intro p' hp'
    exact ⟨p, hw, act_process hw hp'⟩
  · intro s hs
    rw [hp]
    obtain ⟨a, ha, hr⟩ := List.mem_filterMap.mp (act_statuses hs)
    exact List.mem_filterMap.mpr ⟨a, List.mem_cons_of_mem _ ha, hr⟩

theorem Inv.act {action : Action} {rest : List Action} (h : Inv w) (hw : w.proc = some p)
    (hp : w.phase = .acting (action :: rest)) : Inv (w.act p action rest outcome now) := by
  have hf := @follows_act w p outcome now _ _ hw hp
  rcases @act_seen w p outcome now action rest with hs | ⟨_, hs⟩ | ⟨s, hr, hs⟩
  · exact h.went hf hs
  · exact h.noted hf hs (by simp)
  · refine h.noted hf hs ?_
    intro observe s' he
    obtain ⟨_, rfl⟩ := Event.recorded.inj he
    rw [hp]
    exact ⟨⟨p, hw⟩, List.mem_filterMap.mpr ⟨action, List.mem_cons_self, hr⟩⟩

theorem Inv.decide (h : Inv w) (hs : w'.seen = w.seen) (hp : w'.proc = w.proc) {t : Tick}
    {g : Graded} (owed : g.billingStatus ∈ statuses w.phase) : Inv (w'.decide p t g now) := by
  have hf : Follows w (w'.decide p t g now) := by
    refine .of_same ((decide_frame w' p t g now).1.trans hp) ?_
    intro s hs'
    rw [decide_statuses hs']
    exact owed
  have hseen := decide_seen w' p t g now
  rw [hs] at hseen
  split at hseen
  · exact h.noted hf hseen (by simp)
  · exact h.went hf hseen

theorem Inv.exec (h : Inv w) (hw : w.proc = some p) (newId : String) : Inv (w.exec p outcome now newId) := by
  have he := exec_effect w p outcome now newId
  generalize w.exec p outcome now newId = next at he ⊢
  cases he with
  | went before seen proc after fewer => exact h.went (.of_same proc fewer) seen
  | graded phase done verdict seen proc next => exact h.grade hw seen proc next
  | recorded before owed seen proc after fewer =>
    refine h.noted (.of_same proc fewer) seen ?_
    intro observe s' he
    obtain ⟨_, rfl⟩ := Event.recorded.inj he
    exact ⟨⟨p, hw⟩, owed⟩
  | decided before seen proc owed => exact h.decide seen proc owed
  | acted phase => exact h.act hw phase

/-- A fresh process knows of no pause, and has nothing to record. -/
theorem Inv.start (h : Inv w) (cfg : RunnerConfig) (tie : Nat) : Inv (w.step (.start cfg tie)) := by
  have hnone : ∀ s, s ∉ statuses (w.step (.start cfg tie)).phase := fun s => List.not_mem_nil
  refine ⟨?_, ?_, fun p _ s hs => absurd hs (hnone s), fun s hs => absurd hs (hnone s),
    fun _ s hs => absurd hs (hnone s)⟩
  · exact throughout_snoc.mpr ⟨h.kept, fun observe s he => by cases he⟩
  · intro ht
    rcases since_snoc.mp ht with ⟨observe, he⟩ | ⟨_, hno⟩
    · cases he
    · exact hno.elim

theorem Inv.step (h : Inv w) (i : Step) : Inv (w.step i) := by
  cases i with
  | insertSpend row => exact h.went (.of_same rfl fun s hs => hs) rfl
  | tick input =>
    obtain ⟨hs, hp, _, hst⟩ := tick_frame w input
    exact h.went (.of_same hp (by rw [hst]; exact fun s hs => hs)) hs
  | exec outcome now newId =>
    cases hw : w.proc with
    | none => simpa [World.step, hw] using h
    | some p => simpa [World.step, hw] using h.exec hw newId
  | start cfg tie => exact h.start cfg tie
  | reauth => exact h.noted (.of_same rfl fun s hs => hs) rfl (by simp)

theorem Inv.init (store : OAuthBlob) (log : List LoggedRow) (spend : SpendTable) (epochs : List MetabolismEpoch) :
    Inv (World.init store log spend epochs) := by
  refine ⟨throughout_nil, fun ht => absurd ht (since_nil _ _), fun p _ s hs => ?_, fun s hs => ?_, fun ht =>
    absurd ht (since_nil _ _)⟩
  · cases hs
  · cases hs

/-- In every run, a status that reopens the gate is recorded only after an epoch
that ended the cause of the pause or, for an anomaly, after a restart. -/
theorem pause_kept (store : OAuthBlob) (log : List LoggedRow) (spend : SpendTable) (epochs : List MetabolismEpoch)
    (is : List Step) : PauseKept (run World.step (World.init store log spend epochs) is).seen :=
  (invariant_run_free Inv (fun _ i h => h.step i) (Inv.init store log spend epochs)).kept

/-- No epoch with requests graded within the band, and no human. -/
def unlifted : Event → Bool
  | .reauthorised => false
  | .graded _ _ _ ep => ep.requestCount = 0 || ep.discrepancyPct.isNone || ep.anomaly
  | _ => true

/-- A pause that only work within the band or a human lifts. -/
def PauseHeld (seen : List Event) : Prop :=
  Throughout (fun earlier e => ∀ observe s, e = .recorded observe s → reopens s = true →
    ¬ Since (fun e => (∃ observe, e = .recorded observe .anomaly) ∨ e = .recorded true .phantom)
      (fun e => unlifted e = true) earlier) seen

/-- A pause on record, nothing that lifts it, and a status that reopens the gate. -/
theorem not_held {seen earlier mid later : List Event} {observe observe' : Bool} {s s' : BillingStatus}
    (hs : seen = earlier ++ .recorded observe s :: (mid ++ .recorded observe' s' :: later))
    (hp : s = .anomaly ∨ (s = .phantom ∧ observe = true)) (hu : ∀ e ∈ mid, unlifted e = true)
    (hr : reopens s' = true) : ¬ PauseHeld seen := by
  intro h
  have hs' : seen = (earlier ++ .recorded observe s :: mid) ++ .recorded observe' s' :: later := by simp [hs]
  refine h _ _ _ hs' observe' s' rfl hr ⟨.recorded observe s, mid, ⟨earlier, rfl⟩, ?_, hu⟩
  rcases hp with rfl | ⟨rfl, rfl⟩
  · exact Or.inl ⟨observe, rfl⟩
  · exact Or.inr rfl

theorem split_at {xs : List Event} {k : Nat} {e : Event} (h : xs[k]? = some e) : xs = xs.take k ++ e :: xs.drop (k + 1) := by
  obtain ⟨hk, rfl⟩ := List.getElem?_eq_some_iff.mp h
  rw [← List.drop_eq_getElem_cons hk, List.take_append_drop]

/-- The same by the places of the two records. -/
theorem not_held_at {seen : List Event} (k m : Nat) (observe observe' : Bool) (s s' : BillingStatus)
    (hpaused : seen[k]? = some (.recorded observe s)) (hreopened : (seen.drop (k + 1))[m]? = some (.recorded observe' s'))
    (hp : s = .anomaly ∨ (s = .phantom ∧ observe = true)) (hu : ∀ e ∈ (seen.drop (k + 1)).take m, unlifted e = true)
    (hr : reopens s' = true) : ¬ PauseHeld seen := by
  have hs := split_at hpaused
  rw [split_at hreopened] at hs
  exact not_held hs hp hu hr

section Sample

/-- The provider charges a dollar for a run of ten cents. -/
def overchargedTick (n : Nat) : List Step :=
  .insertSpend (tenCents s!"spend-{n}" (n * 60000 - 30000)) ::
    wholeTick (polled (5 + n) (some "orbio-1")) (n * 60000) s!"epoch-{n}" 8

def pausedRun (cfg : RunnerConfig) : List Step :=
  .start cfg 0 :: (overchargedTick 1 ++ overchargedTick 2 ++ overchargedTick 3)

/-- Three overcharged windows pause inference; the idle one that follows reopens it. -/
def idleRun : List Step := pausedRun managed ++ wholeTick (polled 8 (some "orbio-1")) 240000 "epoch-4" 7

/-- A restart reopens it although the next window is overcharged as well. -/
def restartedRun : List Step := pausedRun managed ++ .start managed 0 :: overchargedTick 4

/-- Observing, phantom spend pauses inference for the one window. -/
def phantomRun : List Step :=
  .start (RunnerConfig.defaults false false) 0 :: wholeTick (polled 6 (some "orbio-1")) 60000 "epoch-1" 7 ++
    wholeTick (polled 6 (some "orbio-1")) 120000 "epoch-2" 7

theorem pause_lifts_itself :
    ¬ PauseHeld (run World.step serving idleRun).seen ∧ ¬ PauseHeld (run World.step serving restartedRun).seen ∧
      ¬ PauseHeld (run World.step serving phantomRun).seen := by
  refine ⟨?_, ?_, ?_⟩
  · exact not_held_at 8 2 false false .anomaly .aggregateOnly (by decide +kernel) (by decide +kernel) (Or.inl rfl)
      (by decide +kernel) rfl
  · exact not_held_at 8 3 false false .anomaly .aggregateOnly (by decide +kernel) (by decide +kernel) (Or.inl rfl)
      (by decide +kernel) rfl
  · exact not_held_at 3 1 true true .phantom .aggregateOnly (by decide +kernel) (by decide +kernel) (Or.inr ⟨rfl, rfl⟩)
      (by decide +kernel) rfl

end Sample

end LaunchAuditor.Proofs.Pause
