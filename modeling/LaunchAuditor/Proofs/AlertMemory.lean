import LaunchAuditor.Alerts
import LaunchAuditor.Lib.Steps

namespace LaunchAuditor.Proofs.AlertMemory
open Telegram

def initial : AlertState := ⟨[], []⟩

abbrev Tick := Except String (List (AlertCheck × SendEnd))

/-- The state after some turns of the loop. -/
def after (ticks : List Tick) : AlertState := Steps.run alertTick initial ticks

/-- `lastBad.get(key) ?? false` -/
def remembered (s : AlertState) (key : AlertKey) : Bool := (s.lastBad.lookup key).getD false

/-- The polarity of the last message about a key, healthy if there is none. -/
def lastBadOf (alerts : List Alert) (key : AlertKey) : Bool :=
  ((alerts.filter fun a => decide (a.key = key)).getLast?.map Alert.bad).getD false

def lastDelivered (s : AlertState) (key : AlertKey) : Bool := lastBadOf (s.alerts.filter Alert.delivered) key

/-- All the checks of the turns whose evaluation did not fail, in order. -/
def checksOf (ticks : List Tick) : List (AlertCheck × SendEnd) := ticks.flatMap fun tick => tick.toOption.getD []

/-- What the last check of a key found, healthy if there was none. -/
def lastChecked (checks : List (AlertCheck × SendEnd)) (key : AlertKey) : Bool :=
  ((checks.filter fun c => decide (c.1.key = key)).getLast?.map fun c => c.1.bad).getD false

/-- The last message about a key arrived, or there is none. -/
def LastArrived (s : AlertState) (key : AlertKey) : Prop :=
  ∀ a, (s.alerts.filter fun a => decide (a.key = key)).getLast? = some a → a.delivered = true

/-- What the loop remembers of the keys. -/
structure Memory (s : AlertState) (checks : List (AlertCheck × SendEnd)) : Prop where
  checked : ∀ key, remembered s key = lastChecked checks key
  sent : ∀ key, remembered s key = lastBadOf s.alerts key
  arrived : ∀ key, LastArrived s key → remembered s key = lastDelivered s key
  /-- what is remembered is not announced again, whether its message arrived or not -/
  quiet : ∀ c ended, c.bad = remembered s c.key → (applyAlertTransition s c ended).alerts = s.alerts

section Snoc

theorem lastBadOf_snoc (alerts : List Alert) (a : Alert) (key : AlertKey) :
    lastBadOf (alerts ++ [a]) key = if a.key = key then a.bad else lastBadOf alerts key := by
  unfold lastBadOf
  rw [List.filter_append]
  by_cases hkey : a.key = key
  · simp [hkey]
  · simp [hkey]

theorem lastChecked_snoc (checks : List (AlertCheck × SendEnd)) (c : AlertCheck × SendEnd) (key : AlertKey) :
    lastChecked (checks ++ [c]) key = if c.1.key = key then c.1.bad else lastChecked checks key := by
  unfold lastChecked
  rw [List.filter_append]
  by_cases hkey : c.1.key = key
  · simp [hkey]
  · simp [hkey]

/-- The last message about a key, if it arrived, is the last that arrived. -/
theorem lastBadOf_delivered {s : AlertState} {key : AlertKey} (h : LastArrived s key) :
    lastDelivered s key = lastBadOf s.alerts key := by
  unfold LastArrived at h
  unfold lastDelivered lastBadOf
  rw [List.filter_filter, List.filter_congr fun a _ => Bool.and_comm _ _, ← List.filter_filter]
  generalize s.alerts.filter (fun a => decide (a.key = key)) = own at *
  rcases List.eq_nil_or_concat' own with rfl | ⟨before, a, rfl⟩
  · rfl
  · have harrived := h a (by simp)
    rw [List.filter_append]
    simp [harrived]

end Snoc

section Step
variable {s : AlertState} {c : AlertCheck} {ended : SendEnd}

/-- A check sends at most one message, of its own polarity, and only against what is remembered. -/
theorem applyAlertTransition_alerts (s : AlertState) (c : AlertCheck) (ended : SendEnd) :
    (c.bad = remembered s c.key ∧ (applyAlertTransition s c ended).alerts = s.alerts) ∨
      (c.bad ≠ remembered s c.key ∧
        ∃ text, (applyAlertTransition s c ended).alerts = s.alerts ++ [⟨c.key, c.bad, text, ended⟩]) := by
  unfold applyAlertTransition remembered
  cases hbad : c.bad <;> cases hwas : (s.lastBad.lookup c.key).getD false
  · exact Or.inl ⟨rfl, rfl⟩
  · exact Or.inr ⟨Bool.false_ne_true, _, rfl⟩
  · exact Or.inr ⟨Bool.false_ne_true.symm, _, rfl⟩
  · exact Or.inl ⟨rfl, rfl⟩

theorem remembered_applyAlertTransition (key : AlertKey) : remembered (applyAlertTransition s c ended) key =
    if c.key = key then c.bad else remembered s key := by
  unfold applyAlertTransition remembered
  rw [OrderedMap.lookup_set]
  by_cases hkey : key = c.key
  · simp [hkey]
  · rw [if_neg hkey, if_neg (Ne.symm hkey)]

/-- What one check keeps: the memory is the polarity of the last message. -/
theorem sent_step (h : ∀ key, remembered s key = lastBadOf s.alerts key) (key : AlertKey) :
    remembered (applyAlertTransition s c ended) key = lastBadOf (applyAlertTransition s c ended).alerts key := by
  rw [remembered_applyAlertTransition]
  rcases applyAlertTransition_alerts s c ended with ⟨hsame, halerts⟩ | ⟨_, text, halerts⟩
  · rw [halerts, ← h key]
    split
    · rename_i hkey
      rw [hsame, hkey]
    · rfl
  · rw [halerts, lastBadOf_snoc, ← h key]

theorem applyAlertTransition_quiet (h : c.bad = remembered s c.key) : (applyAlertTransition s c ended).alerts = s.alerts := by
  rcases applyAlertTransition_alerts s c ended with ⟨_, halerts⟩ | ⟨hdiff, _⟩
  · exact halerts
  · exact absurd h hdiff

end Step

section Runs

theorem after_eq (ticks : List Tick) : after ticks = applyAlertTransitions initial (checksOf ticks) := by
  unfold after checksOf
  generalize initial = s
  induction ticks generalizing s with
  | nil => rfl
  | cons tick ticks ih =>
    rw [Steps.run_cons, ih, List.flatMap_cons]
    unfold applyAlertTransitions
    rw [List.foldl_append]
    cases tick with
    | ok checks => rfl
    | error e => rfl

theorem memory (checks : List (AlertCheck × SendEnd)) : Memory (applyAlertTransitions initial checks) checks := by
  have hboth : ∀ key, remembered (applyAlertTransitions initial checks) key = lastChecked checks key ∧
      remembered (applyAlertTransitions initial checks) key =
        lastBadOf (applyAlertTransitions initial checks).alerts key := by
    induction checks using List.reverseRecOn with
    | nil => exact fun key => ⟨rfl, rfl⟩
    | append_singleton checks c ih =>
      intro key
      unfold applyAlertTransitions at ih ⊢
      rw [List.foldl_append, List.foldl_cons, List.foldl_nil]
      refine ⟨?_, sent_step (fun key => (ih key).2) key⟩
      rw [remembered_applyAlertTransition, lastChecked_snoc, (ih key).1]
  refine ⟨fun key => (hboth key).1, fun key => (hboth key).2, ?_, fun c ended h => applyAlertTransition_quiet h⟩
  intro key h
  rw [lastBadOf_delivered h]
  exact (hboth key).2

/-- After any turns, whatever the checks find and however the sending ends. -/
theorem alerts_remembered (ticks : List Tick) : Memory (after ticks) (checksOf ticks) := by
  rw [after_eq]
  exact memory (checksOf ticks)

/-- The agent is starved, everything else is well, and messages are refused. -/
def refusedTick : Tick :=
  (evaluateAlerts ⟨0, none, none⟩ ⟨.ok (some (.starved, false)), .ok false, .ok none, .ok none⟩).map fun checks =>
    checks.map fun c => (c, .refused)

/-- Nothing arrived, the key is remembered as bad, and the next turn finds the same and sends nothing. -/
theorem alerts_refused :
    remembered (after [refusedTick]) .starved ≠ lastDelivered (after [refusedTick]) .starved ∧
      lastDelivered (after [refusedTick]) .starved = false ∧
      lastChecked (checksOf [refusedTick, refusedTick]) .starved = true ∧
      (after [refusedTick, refusedTick]).alerts = (after [refusedTick]).alerts := by
  decide +kernel

end Runs

end LaunchAuditor.Proofs.AlertMemory
