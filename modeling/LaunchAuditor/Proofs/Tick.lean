import LaunchAuditor.Metabolism.Runner

namespace LaunchAuditor.Proofs.Tick
open Db Metabolism Runner

/-- The operations the tick still owes to its decision. -/
def actions : Phase → List Action
  | .acting as => as
  | _ => []

def rowStatus : Action → Option BillingStatus
  | .append row _ _ => row.billingStatus
  | _ => none

/-- The statuses the tick may still record. -/
def statuses : Phase → List BillingStatus
  | .createEpoch _ g | .stamp _ g _ | .stampRows _ g _ _ _ => [g.billingStatus]
  | .acting as => as.filterMap rowStatus
  | _ => []

/-- What one operation of a tick can do. -/
inductive Effect (w : World) (p : Process) (outcome : PersistOutcome) (now : Int) : World → Prop
  /-- It reads, stamps or gives up. -/
  | went {w' : World} (before : actions w.phase = []) (seen : w'.seen = w.seen) (proc : w'.proc = w.proc)
      (after : actions w'.phase = []) (fewer : ∀ s ∈ statuses w'.phase, s ∈ statuses w.phase) :
      Effect w p outcome now w'
  | graded {w' : World} {t : Tick} {win : EpochWindow} {est : WindowEstimate} {ep : EpochResult}
      (phase : w.phase = .lag t win est) (done : outcome = .ok)
      (verdict : ep = reconcileEpoch (epochInput p.cfg t win est (win.lagRequestCount w.spend)))
      (seen : w'.seen = w.seen ++ [.graded win t.input.read.providerSpendUsd w.spend ep])
      (proc : w'.proc = some { p with consecutiveAnomalies := nextAnomalies p ep })
      (next : w'.phase = .createEpoch t ⟨win, ep, billingStatus p.cfg ep (nextAnomalies p ep)⟩) :
      Effect w p outcome now w'
  | recorded {w' : World} {s : BillingStatus} (before : actions w.phase = []) (owed : s ∈ statuses w.phase)
      (seen : w'.seen = w.seen ++ [.recorded p.cfg.observe s]) (proc : w'.proc = w.proc)
      (after : actions w'.phase = [])
      (fewer : ∀ s ∈ statuses w'.phase, s ∈ statuses w.phase) : Effect w p outcome now w'
  | decided {w' : World} {t : Tick} {g : Graded} (before : actions w.phase = []) (seen : w'.seen = w.seen)
      (proc : w'.proc = w.proc) (owed : g.billingStatus ∈ statuses w.phase) :
      Effect w p outcome now (w'.decide p t g now)
  | acted {action : Action} {rest : List Action} (phase : w.phase = .acting (action :: rest)) :
      Effect w p outcome now (w.act p action rest outcome now)

variable {w : World} {p : Process} {outcome : PersistOutcome} {now : Int}

theorem Effect.aborted (h : actions w.phase = []) : Effect w p outcome now w.abort :=
  .went h rfl rfl rfl (by simp [World.abort, statuses])

theorem effect_activating {input : TickInput} {reason newId : String} (h : w.phase = .activating input reason) :
    Effect w p outcome now (w.exec p outcome now newId) := by
  have hb : actions w.phase = [] := by rw [h]; rfl
  simp only [World.exec, h]
  cases outcome with
  | ok => exact .went hb (List.append_nil _) rfl rfl (by simp [statuses])
  | failed => exact .aborted hb
  | ackLost => exact .went hb (List.append_nil _) rfl rfl (by simp [statuses, World.abort])

theorem effect_createEpoch {t : Tick} {g : Graded} {newId : String} (h : w.phase = .createEpoch t g) :
    Effect w p outcome now (w.exec p outcome now newId) := by
  have hb : actions w.phase = [] := by rw [h]; rfl
  have howed : g.billingStatus ∈ statuses w.phase := by simp [h, statuses]
  simp only [World.exec, h]
  cases outcome with
  | ok => exact .recorded hb howed rfl rfl rfl (by simp [h, statuses])
  | failed => exact .aborted hb
  | ackLost => exact .recorded hb howed rfl rfl rfl (by simp [statuses, World.abort])

theorem effect_stamp {t : Tick} {g : Graded} {epochId newId : String} (h : w.phase = .stamp t g epochId) :
    Effect w p outcome now (w.exec p outcome now newId) := by
  have hb : actions w.phase = [] := by rw [h]; rfl
  have howed : g.billingStatus ∈ statuses w.phase := by simp [h, statuses]
  simp only [World.exec, h]
  cases hf : g.ep.reconciliationFactor with
  | none =>
    cases outcome with
    | ok => exact .decided hb rfl rfl howed
    | failed => exact .aborted hb
    | ackLost => exact .went hb rfl rfl rfl (by simp [statuses, World.abort])
  | some factor =>
    by_cases ho : outcome = .ok
    · simp only [ho, ne_eq, not_true_eq_false, if_false]
      cases hw : windowIds g.window.windowStart g.window.epochAt w.spend with
      | nil => exact .decided hb rfl rfl howed
      | cons row rows => exact .went hb rfl rfl rfl (by simp [h, statuses])
    · simp only [ho, ne_eq, not_false_eq_true, if_true]
      exact .aborted hb

theorem effect_stampRows {t : Tick} {g : Graded} {epochId newId : String} {factor : ℚ}
    {rows : List (String × Option ℚ)} (h : w.phase = .stampRows t g epochId factor rows) :
    Effect w p outcome now (w.exec p outcome now newId) := by
  have hb : actions w.phase = [] := by rw [h]; rfl
  have howed : g.billingStatus ∈ statuses w.phase := by simp [h, statuses]
  simp only [World.exec, h]
  cases rows with
  | nil => exact .decided hb rfl rfl howed
  | cons row rows =>
    cases outcome with
    | ok =>
      cases rows with
      | nil => exact .decided hb rfl rfl howed
      | cons next rows => exact .went hb rfl rfl rfl (by simp [h, statuses])
    | failed => exact .aborted hb
    | ackLost => exact .went hb rfl rfl rfl (by simp [statuses, World.abort])

theorem exec_effect (w : World) (p : Process) (outcome : PersistOutcome) (now : Int) (newId : String) :
    Effect w p outcome now (w.exec p outcome now newId) := by
  cases h : w.phase with
  | idle =>
    have hb : actions w.phase = [] := by rw [h]; rfl
    simp only [World.exec, h]
    exact .went hb rfl rfl hb (fun s hs => hs)
  | activating input reason => exact effect_activating h
  | readLedger input =>
    have hb : actions w.phase = [] := by rw [h]; rfl
    simp only [World.exec, h]
    split
    · exact .aborted hb
    · exact .went hb rfl rfl rfl (by simp [statuses])
  | findEpochs t =>
    have hb : actions w.phase = [] := by rw [h]; rfl
    simp only [World.exec, h]
    split
    · exact .aborted hb
    · exact .went hb rfl rfl rfl (by simp [statuses])
  | window t win =>
    have hb : actions w.phase = [] := by rw [h]; rfl
    simp only [World.exec, h]
    split
    · exact .aborted hb
    · exact .went hb rfl rfl rfl (by simp [statuses])
  | lag t win est =>
    have hb : actions w.phase = [] := by rw [h]; rfl
    simp only [World.exec, h]
    by_cases ho : outcome = .ok
    · simp only [ho, ne_eq, not_true_eq_false, if_false]
      exact .graded h rfl rfl rfl rfl rfl
    · simp only [ho, ne_eq, not_false_eq_true, if_true]
      exact .aborted hb
  | createEpoch t g => exact effect_createEpoch h
  | stamp t g epochId => exact effect_stamp h
  | stampRows t g epochId factor rows => exact effect_stampRows h
  | acting as =>
    cases as with
    | nil =>
      have hb : actions w.phase = [] := by rw [h]; rfl
      simp only [World.exec, h]
      exact .aborted hb
    | cons action rest =>
      simp only [World.exec, h]
      exact .acted h

/-- A tick that starts owes nothing yet. -/
theorem tick_frame (w : World) (input : TickInput) :
    (w.step (.tick input)).seen = w.seen ∧ (w.step (.tick input)).proc = w.proc ∧
      actions (w.step (.tick input)).phase = actions w.phase ∧
      statuses (w.step (.tick input)).phase = statuses w.phase := by
  simp only [World.step]
  split
  · rename_i p hw hp
    rw [hp]
    split <;> exact ⟨rfl, rfl, rfl, rfl⟩
  · exact ⟨rfl, rfl, rfl, rfl⟩

/-- A decision is noted when it revokes, and its operations are taken up. -/
theorem decide_seen (w : World) (p : Process) (t : Tick) (g : Graded) (now : Int) :
    (w.decide p t g now).seen =
      if (decision p t g now).revokes then w.seen ++ [.revoking g.ep.phantom] else w.seen := by
  unfold World.decide
  cases h : (decision p t g now).revokes <;> simp [h, World.note]

theorem decide_frame (w : World) (p : Process) (t : Tick) (g : Graded) (now : Int) :
    (w.decide p t g now).proc = w.proc ∧
      (w.decide p t g now).phase = .acting (actionsOf p t g now (decision p t g now)) := by
  unfold World.decide
  cases h : (decision p t g now).revokes <;> simp [h, World.note]

variable {action : Action} {rest : List Action}

/-- Any operation goes on with the others or ends the tick. -/
theorem act_phase :
    (w.act p action rest outcome now).phase = .idle ∨ (w.act p action rest outcome now).phase = .acting rest := by
  have hnext : (if rest.isEmpty then Phase.idle else .acting rest) = .idle ∨
      (if rest.isEmpty then Phase.idle else .acting rest) = .acting rest := by
    cases rest.isEmpty <;> simp
  cases action with
  | append row enter halts =>
    cases outcome with
    | ok => exact hnext
    | failed => exact Or.inl rfl
    | ackLost => exact Or.inl rfl
  | mint baseline key =>
    cases outcome with
    | ok => exact hnext
    | failed => exact Or.inl rfl
    | ackLost => exact Or.inl rfl
  | revokeKey => exact hnext
  | clearKey =>
    cases outcome with
    | ok => exact hnext
    | failed => exact Or.inl rfl
    | ackLost => exact Or.inl rfl

theorem act_actions {a : Action} (h : a ∈ actions (w.act p action rest outcome now).phase) : a ∈ rest := by
  rcases @act_phase w p outcome now action rest with hp | hp
  · simp [hp, actions] at h
  · simpa [hp, actions] using h

theorem act_statuses {s : BillingStatus} (h : s ∈ statuses (w.act p action rest outcome now).phase) :
    s ∈ rest.filterMap rowStatus := by
  rcases @act_phase w p outcome now action rest with hp | hp
  · simp [hp, statuses] at h
  · simpa [hp, statuses] using h

/-- An operation that succeeds leaves all the others to do. -/
theorem act_done (h : outcome = .ok ∨ action = .revokeKey) :
    actions (w.act p action rest outcome now).phase = rest := by
  have hnext : actions (if rest.isEmpty then Phase.idle else .acting rest) = rest := by
    cases rest <;> rfl
  rcases h with rfl | rfl
  · cases action <;> exact hnext
  · exact hnext

def mints : Action → Bool
  | .mint .. => true
  | _ => false

theorem act_seen :
    (w.act p action rest outcome now).seen = w.seen ∨
      (mints action = true ∧ (w.act p action rest outcome now).seen = w.seen ++ [.minted]) ∨
      ∃ s, rowStatus action = some s ∧
        (w.act p action rest outcome now).seen = w.seen ++ [.recorded p.cfg.observe s] := by
  cases action with
  | append row enter halts =>
    cases hs : row.billingStatus with
    | none => cases outcome <;> simp [World.act, World.abort, World.insertLog, hs]
    | some s => cases outcome <;> simp [World.act, World.abort, World.insertLog, hs, rowStatus]
  | mint baseline key =>
    cases outcome with
    | ok => exact Or.inr (Or.inl ⟨rfl, rfl⟩)
    | failed => exact Or.inl rfl
    | ackLost => exact Or.inr (Or.inl ⟨rfl, rfl⟩)
  | revokeKey => exact Or.inl rfl
  | clearKey => cases outcome <;> exact Or.inl rfl

/-- A process changes in an append only. -/
theorem act_proc (hw : w.proc = some p) :
    (w.act p action rest outcome now).proc = some p ∨
      ∃ row enter halts, action = .append row enter halts ∧
        (w.act p action rest outcome now).proc = some (p.enter enter halts) := by
  cases action with
  | append row enter halts =>
    cases outcome with
    | ok => exact Or.inr ⟨row, enter, halts, rfl, rfl⟩
    | failed => exact Or.inl hw
    | ackLost => exact Or.inl hw
  | mint baseline key => cases outcome <;> exact Or.inl hw
  | revokeKey => exact Or.inl hw
  | clearKey => cases outcome <;> exact Or.inl hw

/-- No operation touches what the process counts or how it is configured. -/
theorem act_process {p' : Process} (hw : w.proc = some p)
    (hp' : (w.act p action rest outcome now).proc = some p') :
    p'.cfg = p.cfg ∧ p'.consecutiveAnomalies = p.consecutiveAnomalies := by
  rcases @act_proc w p outcome now action rest hw with he | ⟨row, enter, halts, _, he⟩
  · obtain rfl := Option.some.inj (he.symm.trans hp')
    exact ⟨rfl, rfl⟩
  · obtain rfl := Option.some.inj (he.symm.trans hp')
    exact ⟨rfl, rfl⟩

section Sample

/-- A process serving with the key `orbio-1`, at its last epoch and row. -/
def serving : World :=
  World.init ⟨some "orbio-1-secret", some "orbio-1", some ⟨"orbio-1", 5, 2, 0⟩⟩
    [{ isSnapshot := true, prevState := some .active, newState := .active, reason := "ok", keyId := some "orbio-1"
       keyHashPrefix := some "orbio-1", balanceUsd := some 10, reserveUsd := some 3, ledgerSpendUsd := some 2
       providerSpendUsd := some 5, idsMismatch := false, billingStatus := some .aggregateOnly, createdAt := 0 }]
    []
    [{ id := "epoch-0", atMs := 0, keyHashPrefix := some "orbio-1", providerSpendUsd := 5, providerDeltaUsd := 0
       localEstimateUsd := 0, requestCount := 0, reconciliationFactor := none, discrepancyPct := none
       anomaly := false, phantom := false, billingStatus := .aggregateOnly }]

/-- A reading with balance $10 and a key, or no key any more. -/
def polled (providerSpendUsd : ℚ) (prefix' : Option String) : TickInput :=
  { read := { balanceUsd := 10, providerSpendUsd, hasKey := prefix'.isSome, prefix', createdAt := none }
    activation := none, resolvedKey := "", createdKey := "orbio-2-secret", createdPrefix := "orbio-2" }

def managed : RunnerConfig := RunnerConfig.defaults false true

/-- A run the estimate prices at ten cents. -/
def tenCents (id : String) (atMs : Int) : MetabolismSpend :=
  { id, atMs, costUsd := 1 / 10, model := "deepdive", keyHashPrefix := some "orbio-1", reportId := none
    generationId := none, promptTokens := some 9000, completionTokens := some 1000
    estimatedCostUsd := some (1 / 10), pricingVersion := some "v1", costBasis := .tokenEstimate
    reconciledCostUsd := none, epochId := none }

end Sample

end LaunchAuditor.Proofs.Tick
