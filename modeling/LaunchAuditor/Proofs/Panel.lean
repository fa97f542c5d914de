import LaunchAuditor.Api.MetabolismPanel
import LaunchAuditor.Metabolism.Lifecycle
import LaunchAuditor.Proofs.Gate

namespace LaunchAuditor.Proofs.Panel
open Api Db Metabolism Deepdive Gate

theorem round2_nonneg {x : ℚ} (h : 0 ≤ x) : 0 ≤ round2 x := Js.roundTo_nonneg 100 h

theorem round2_zero : round2 0 = 0 := by decide +kernel

theorem maxRunCostUsd_nonneg (i : DeepdiveRunGateInputs) : 0 ≤ i.maxRunCostUsd := round2_nonneg (le_max_left _ _)

theorem maxRunCostUsd_eq_zero {i : DeepdiveRunGateInputs} (h : i.spendableUsd ≤ 0 ∨ i.remainingTodayUsd ≤ 0) :
    i.maxRunCostUsd = 0 := by
  have hmin : min (min i.capPerRunUsd i.remainingTodayUsd) i.spendableUsd ≤ 0 := by
    rcases h with h | h
    · exact (min_le_right _ _).trans h
    · exact (min_le_left _ _).trans ((min_le_right _ _).trans h)
  rw [DeepdiveRunGateInputs.maxRunCostUsd, max_eq_left hmin, round2_zero]

/-- The gate answers an amount, nothing under a blocking status. -/
theorem gate_amount (i : DeepdiveRunGateInputs) :
    (deepdiveRunGate i).maxRunCostUsd = if i.blocking.isSome then 0 else i.maxRunCostUsd := by
  unfold deepdiveRunGate
  cases i.blocking with
  | some status => rfl
  | none =>
    simp only [Option.isSome_none, Bool.false_eq_true, if_false]
    split
    · rfl
    · split
      · rfl
      · split <;> rfl

/-- It allows a run exactly when there is an amount to spend on it. -/
theorem gate_allows (i : DeepdiveRunGateInputs) :
    (deepdiveRunGate i).allowed = decide (0 < (deepdiveRunGate i).maxRunCostUsd) := by
  rw [Bool.eq_iff_iff, decide_eq_true_eq, ← not_iff_not, Bool.not_eq_true, deepdiveRunGate_refuses, gate_amount]
  by_cases hb : i.blocking.isSome = true
  · simp [hb]
  · rw [if_neg hb, not_lt]
    constructor
    · intro h
      rcases h with h | h | h | h
      · exact absurd h hb
      · exact (maxRunCostUsd_eq_zero (Or.inl h)).le
      · exact (maxRunCostUsd_eq_zero (Or.inr h)).le
      · exact h
    · exact fun h => Or.inr (Or.inr (Or.inr h))

/-- What the panel reads of the configuration it shares with the worker. -/
def sharedEnv (env : WorkerEnv) : ApiEnv :=
  ⟨env.deepdiveDailyCapUsd, env.deepdiveCapPerRunUsd, env.metabolismReserveUsd⟩

/-- The trailing credits as both see them: nothing when unconfigured or unreadable. -/
def seenTrailing (env : WorkerEnv) : Except String ℚ → Option ℚ
  | .ok trailing => if env.creditConfigured then some trailing else none
  | .error _ => none

/-- The panel over the worker's own tables; `desc` is the log, newest first. -/
def panel (env : WorkerEnv) (tables : Tables) (desc : List LifecycleLog) (limit tieEpoch : Nat)
    (trailing : Except String ℚ) (now : Int) : BudgetDisplay :=
  lifecycleBudget (sharedEnv env) (prismaLifecycleReader limit desc)
    (estimatorLatest tieEpoch tables.metabolismEpoch now) (seenTrailing env trailing)
    (prismaTodaySpendReader tables.metabolismSpend tables.metabolismEpoch now)

/-- Runs are allowed alike, at the same maximum cost. -/
def Agree (shown : BudgetDisplay) (gate : DeepdiveRunGate) : Prop :=
  shown.allowed = gate.allowed ∧ shown.maxRunCostUsd = gate.maxRunCostUsd

/-- Without a balance the daily cap is the spendable figure. -/
def spendable (env : WorkerEnv) (balanceUsd : Option ℚ) : ℚ :=
  match balanceUsd with
  | none => env.deepdiveDailyCapUsd
  | some balanceUsd => balanceUsd - env.metabolismReserveUsd

def capAt (env : WorkerEnv) (trailing : Option ℚ) (spendableUsd : ℚ) : ℚ :=
  match trailing with
  | none => env.deepdiveDailyCapUsd
  | some trailing => (dailyDeepdiveBudget
      { dailyCapUsd := env.deepdiveDailyCapUsd, trailingCreditsUsd := trailing
        keyRemainingUsd := spendableUsd + env.metabolismReserveUsd, reserveUsd := env.metabolismReserveUsd }).budgetUsd

/-- What the money terms leave for a run at a spendable figure, whatever the status. -/
def affordable (env : WorkerEnv) (tables : Tables) (trailing : Except String ℚ) (now : Int) (spendableUsd : ℚ) : ℚ :=
  let today := prismaTodaySpendReader tables.metabolismSpend tables.metabolismEpoch now
  let remaining := round2 (max 0 (capAt env (seenTrailing env trailing) spendableUsd -
    max today.ledgerUsd today.providerUsd))
  round2 (max 0 (min (min env.deepdiveCapPerRunUsd remaining) spendableUsd))

/-- The balance the panel finds in its window. -/
def panelBalance (desc : List LifecycleLog) (limit : Nat) : Option ℚ :=
  (withBalance (prismaLifecycleReader limit desc)).bind fun e => e.balanceUsd

def workerBalance (tables : Tables) (tie : Nat) : Option ℚ :=
  (snapshot tie tables.lifecycleLog).bind fun r => r.balanceUsd

/-- The status the panel settles on blocks. -/
def PanelBlocks (tables : Tables) (desc : List LifecycleLog) (limit tieEpoch : Nat) (now : Int) : Prop :=
  billingBlocksInference (panelStatus (prismaLifecycleReader limit desc)
    (estimatorLatest tieEpoch tables.metabolismEpoch now)) = true

variable {env : WorkerEnv} {tables : Tables} {desc : List LifecycleLog} {limit tie tieEpoch : Nat}
  {trailing : Except String ℚ} {now : Int}

theorem worker_terms : (gateInputs env (defaultLoadBudget env tables tie trailing now)).maxRunCostUsd =
    affordable env tables trailing now (spendable env (workerBalance tables tie)) := by
  have hspendable : (defaultLoadBudget env tables tie trailing now).spendableUsd =
      spendable env (workerBalance tables tie) := by
    simp only [defaultLoadBudget, workerBalance, spendable]
    cases (snapshot tie tables.lifecycleLog).bind fun r => r.balanceUsd <;> rfl
  have hcap : (defaultLoadBudget env tables tie trailing now).dailyCapUsd =
      capAt env (seenTrailing env trailing) (spendable env (workerBalance tables tie)) := by
    rw [← hspendable]
    simp only [defaultLoadBudget, dynamicDailyCapUsd, capAt, seenTrailing]
    cases env.creditConfigured <;> cases trailing <;> rfl
  have hspent : (gateInputs env (defaultLoadBudget env tables tie trailing now)).spentTodayUsd =
      let today := prismaTodaySpendReader tables.metabolismSpend tables.metabolismEpoch now
      max today.ledgerUsd today.providerUsd := by
    simp [gateInputs, defaultLoadBudget, DeepdiveRunGateInputs.spentTodayUsd, prismaTodaySpendReader, totalSpendUsd,
      startOfUtcDay]
  simp only [DeepdiveRunGateInputs.maxRunCostUsd, DeepdiveRunGateInputs.remainingTodayUsd, hspent, affordable]
  simp only [gateInputs, hcap, hspendable]

theorem worker_amount :
    (FreshBlock env tables tie now → (runGate env tables tie trailing now).maxRunCostUsd = 0) ∧
      (¬ FreshBlock env tables tie now → (runGate env tables tie trailing now).maxRunCostUsd =
        affordable env tables trailing now (spendable env (workerBalance tables tie))) := by
  rw [← @freshBlock_iff env tables tie trailing now, runGate, gate_amount]
  exact ⟨fun h => if_pos h, fun h => (if_neg h).trans worker_terms⟩

/-- What the panel hands to the gate. -/
def panelInputs (env : WorkerEnv) (tables : Tables) (desc : List LifecycleLog) (limit tieEpoch : Nat)
    (trailing : Except String ℚ) (now : Int) : BudgetDisplayInputs :=
  let today := prismaTodaySpendReader tables.metabolismSpend tables.metabolismEpoch now
  { dailyCapUsd := env.deepdiveDailyCapUsd, capPerRunUsd := env.deepdiveCapPerRunUsd
    trailingCreditsUsd := seenTrailing env trailing, todaySpendUsd := today.ledgerUsd
    providerSpendTodayUsd := today.providerUsd, balanceUsd := panelBalance desc limit
    reserveUsd := env.metabolismReserveUsd
    billingStatus := (panelStatus (prismaLifecycleReader limit desc)
      (estimatorLatest tieEpoch tables.metabolismEpoch now)).map .billing }

theorem panel_eq : panel env tables desc limit tieEpoch trailing now =
    budgetDisplay (panelInputs env tables desc limit tieEpoch trailing now) := rfl

theorem panel_shows :
    (panel env tables desc limit tieEpoch trailing now).maxRunCostUsd =
      (panelInputs env tables desc limit tieEpoch trailing now).gate.maxRunCostUsd ∧
    (panel env tables desc limit tieEpoch trailing now).allowed =
      decide (0 < (panelInputs env tables desc limit tieEpoch trailing now).gate.maxRunCostUsd) := by
  rw [panel_eq]
  generalize panelInputs env tables desc limit tieEpoch trailing now = i
  have hallows : i.gate.allowed = decide (0 < i.gate.maxRunCostUsd) := gate_allows _
  refine ⟨?_, hallows⟩
  simp only [budgetDisplay, hallows, decide_eq_true_eq]
  split
  · rfl
  · rename_i hno
    have hnonneg : 0 ≤ i.gate.maxRunCostUsd := by
      rw [BudgetDisplayInputs.gate, gate_amount]
      split
      · exact le_rfl
      · exact maxRunCostUsd_nonneg _
    exact le_antisymm hnonneg (not_lt.mp hno)

/-- The gate's inputs as the panel makes them. -/
def panelGate (i : BudgetDisplayInputs) : DeepdiveRunGateInputs :=
  { capPerRunUsd := i.capPerRunUsd, dailyCapUsd := i.effectiveDailyCapUsd, todaySpendUsd := i.todaySpendUsd
    providerSpendTodayUsd := some i.providerSpendTodayUsd, spendableUsd := i.spendableUsd
    billingStatus := i.billingStatus }

theorem panelBlocks_iff :
    (panelGate (panelInputs env tables desc limit tieEpoch trailing now)).blocking.isSome ↔
      PanelBlocks tables desc limit tieEpoch now := by
  rw [blocking_isSome]
  simp only [panelGate, panelInputs, PanelBlocks]
  cases panelStatus (prismaLifecycleReader limit desc) (estimatorLatest tieEpoch tables.metabolismEpoch now) with
  | none => simp [billingBlocksInference]
  | some status => simp

theorem panel_terms : (panelGate (panelInputs env tables desc limit tieEpoch trailing now)).maxRunCostUsd =
    affordable env tables trailing now (spendable env (panelBalance desc limit)) := by
  have hspendable : (panelInputs env tables desc limit tieEpoch trailing now).spendableUsd =
      spendable env (panelBalance desc limit) := by
    cases hbalance : panelBalance desc limit with
    | none => simp only [BudgetDisplayInputs.spendableUsd, panelInputs, spendable, hbalance]
    | some balance => simp only [BudgetDisplayInputs.spendableUsd, panelInputs, spendable, hbalance]
  have hcap : (panelInputs env tables desc limit tieEpoch trailing now).effectiveDailyCapUsd =
      capAt env (seenTrailing env trailing) (spendable env (panelBalance desc limit)) := by
    rw [← hspendable]
    simp only [BudgetDisplayInputs.effectiveDailyCapUsd, BudgetDisplayInputs.eff, capAt, panelInputs]
    cases seenTrailing env trailing <;> rfl
  simp only [DeepdiveRunGateInputs.maxRunCostUsd, DeepdiveRunGateInputs.remainingTodayUsd,
    DeepdiveRunGateInputs.spentTodayUsd, panelGate, hcap, hspendable, affordable]
  rfl

theorem panel_amount :
    (PanelBlocks tables desc limit tieEpoch now →
        (panelInputs env tables desc limit tieEpoch trailing now).gate.maxRunCostUsd = 0) ∧
      (¬ PanelBlocks tables desc limit tieEpoch now →
        (panelInputs env tables desc limit tieEpoch trailing now).gate.maxRunCostUsd =
          affordable env tables trailing now (spendable env (panelBalance desc limit))) := by
  change (_ → (deepdiveRunGate (panelGate _)).maxRunCostUsd = 0) ∧
    (_ → (deepdiveRunGate (panelGate _)).maxRunCostUsd = _)
  rw [← @panelBlocks_iff env tables desc limit tieEpoch trailing now, gate_amount]
  exact ⟨fun h => if_pos h, fun h => (if_neg h).trans panel_terms⟩

theorem agree_iff_amount : Agree (panel env tables desc limit tieEpoch trailing now)
    (runGate env tables tie trailing now) ↔
      (panelInputs env tables desc limit tieEpoch trailing now).gate.maxRunCostUsd =
        (runGate env tables tie trailing now).maxRunCostUsd := by
  obtain ⟨hmax, hallowed⟩ := @panel_shows env tables desc limit tieEpoch trailing now
  rw [Agree, hmax, hallowed, runGate, gate_allows]
  constructor
  · exact fun h => h.2
  · intro h
    exact ⟨by rw [h], h⟩

/-- Where the two applications read different things it makes no difference: a status
that blocks on one side only meets money terms that leave the other side nothing, and
where neither blocks the two balances leave the same amount. -/
structure Alike (env : WorkerEnv) (tables : Tables) (desc : List LifecycleLog) (limit tie tieEpoch : Nat)
    (trailing : Except String ℚ) (now : Int) : Prop where
  onlyWorker : FreshBlock env tables tie now → ¬ PanelBlocks tables desc limit tieEpoch now →
    affordable env tables trailing now (spendable env (panelBalance desc limit)) = 0
  onlyPanel : PanelBlocks tables desc limit tieEpoch now → ¬ FreshBlock env tables tie now →
    affordable env tables trailing now (spendable env (workerBalance tables tie)) = 0
  neither : ¬ FreshBlock env tables tie now → ¬ PanelBlocks tables desc limit tieEpoch now →
    affordable env tables trailing now (spendable env (panelBalance desc limit)) =
      affordable env tables trailing now (spendable env (workerBalance tables tie))

/-- For every database state, configuration and instant, every window of the panel and
every choice among rows of one instant. -/
theorem panel_agrees_iff (env : WorkerEnv) (tables : Tables) (desc : List LifecycleLog) (limit tie tieEpoch : Nat)
    (trailing : Except String ℚ) (now : Int) :
    Agree (panel env tables desc limit tieEpoch trailing now) (runGate env tables tie trailing now) ↔
      Alike env tables desc limit tie tieEpoch trailing now := by
  obtain ⟨hworker, hworker'⟩ := @worker_amount env tables tie trailing now
  obtain ⟨hpanel, hpanel'⟩ := @panel_amount env tables desc limit tieEpoch trailing now
  rw [agree_iff_amount]
  by_cases hw : FreshBlock env tables tie now
  · by_cases hp : PanelBlocks tables desc limit tieEpoch now
    · rw [hworker hw, hpanel hp]
      exact iff_of_true rfl ⟨fun _ h => absurd hp h, fun _ h => absurd hw h, fun h => absurd hw h⟩
    · rw [hworker hw, hpanel' hp]
      exact ⟨fun h => ⟨fun _ _ => h, fun h' => absurd h' hp, fun h' => absurd hw h'⟩, fun h => h.onlyWorker hw hp⟩
  · by_cases hp : PanelBlocks tables desc limit tieEpoch now
    · rw [hworker' hw, hpanel hp]
      exact ⟨fun h => ⟨fun h' => absurd h' hw, fun _ _ => h.symm, fun _ h' => absurd hp h'⟩,
        fun h => (h.onlyPanel hp hw).symm⟩
    · rw [hworker' hw, hpanel' hp]
      exact ⟨fun h => ⟨fun h' => absurd h' hw, fun h' => absurd h' hp, fun _ _ => h⟩, fun h => h.neither hw hp⟩

/-- A phantom row four polls old: the worker has replaced the status by `stale`, which
does not block, and the panel has not. -/
theorem panel_disagrees : ¬ ∀ (env : WorkerEnv) (tables : Tables) (desc : List LifecycleLog)
    (limit tie tieEpoch : Nat) (trailing : Except String ℚ) (now : Int),
      NewestFirst (tables.lifecycleLog.map fun r => r.stored) desc → tables.lifecycleLog.length ≤ limit →
        Agree (panel env tables desc limit tieEpoch trailing now) (runGate env tables tie trailing now) := by
  intro h
  have hdesc : NewestFirst (phantomLog.lifecycleLog.map fun r => r.stored)
      (phantomLog.lifecycleLog.map fun r => r.stored) := ⟨.refl _, List.pairwise_singleton _ _⟩
  have ha := (h sampleEnv phantomLog _ 200 0 0 (.ok 0) 240000 hdesc (by decide)).1
  revert ha
  decide +kernel

end LaunchAuditor.Proofs.Panel
