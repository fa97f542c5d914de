import LaunchAuditor.Deepdive.BudgetedRun

namespace LaunchAuditor.Proofs.Gate
open Db Metabolism Deepdive

variable {env : WorkerEnv} {tables : Tables} {tie : Nat} {trailing : Except String ℚ} {now : Int}

/-- A most recent row among those that carry a billing status. -/
structure LatestStatus (log : List LifecyclePersistRecord) (row : LifecyclePersistRecord) : Prop where
  mem : row ∈ log
  carries : row.billingStatus.isSome
  latest : ∀ r ∈ log, r.billingStatus.isSome → r.createdAt ≤ row.createdAt

/-- What the log has to do to the gate: a blocking status, once the most recent
one, keeps it closed. -/
def BlockHolds (env : WorkerEnv) (tables : Tables) (tie : Nat) (trailing : Except String ℚ) (now : Int) : Prop :=
  ∀ row, LatestStatus tables.lifecycleLog row → billingBlocksInference row.billingStatus = true →
    (runGate env tables tie trailing now).allowed = false

/-- No most recent status blocks. -/
def NothingBlocks (tables : Tables) : Prop :=
  ∀ row, LatestStatus tables.lifecycleLog row → billingBlocksInference row.billingStatus = false

/-- The newest row with a balance carries a blocking status and is at most three
polls old. -/
def FreshBlock (env : WorkerEnv) (tables : Tables) (tie : Nat) (now : Int) : Prop :=
  ∃ snap, snapshot tie tables.lifecycleLog = some snap ∧ billingBlocksInference snap.billingStatus = true ∧
    isStale env (some snap) now = false

/-- The money terms of the gate refuse on their own. -/
def NothingToSpend (env : WorkerEnv) (tables : Tables) (tie : Nat) (trailing : Except String ℚ)
    (now : Int) : Prop :=
  let i := gateInputs env (defaultLoadBudget env tables tie trailing now)
  i.spendableUsd ≤ 0 ∨ i.remainingTodayUsd ≤ 0 ∨ i.maxRunCostUsd ≤ 0

theorem blocking_isSome (i : DeepdiveRunGateInputs) :
    i.blocking.isSome ↔ ∃ status, i.billingStatus = some (.billing status) ∧
      billingBlocksInference (some status) = true := by
  unfold DeepdiveRunGateInputs.blocking
  cases hs : i.billingStatus with
  | none => simp
  | some g =>
    cases g with
    | stale => simp
    | billing status => cases status <;> simp [billingBlocksInference]

/-- The status that reaches the gate is the snapshot's own, and only while fresh. -/
theorem loaded_status (trailing : Except String ℚ) (status : BillingStatus) :
    (defaultLoadBudget env tables tie trailing now).billingStatus = some (.billing status) ↔
      ∃ snap, snapshot tie tables.lifecycleLog = some snap ∧ snap.billingStatus = some status ∧
        isStale env (some snap) now = false := by
  simp only [defaultLoadBudget]
  cases hsnap : snapshot tie tables.lifecycleLog with
  | none => by_cases hold : isStale env none now = true <;> simp [hold]
  | some snap =>
    cases hold : isStale env (some snap) now with
    | true => simp [hold]
    | false => simp [hold]

theorem freshBlock_iff :
    (gateInputs env (defaultLoadBudget env tables tie trailing now)).blocking.isSome ↔
      FreshBlock env tables tie now := by
  rw [blocking_isSome]
  constructor
  · intro h
    obtain ⟨status, hs, hb⟩ := h
    obtain ⟨snap, hsnap, he, hfresh⟩ := (loaded_status trailing status).mp hs
    exact ⟨snap, hsnap, he ▸ hb, hfresh⟩
  · intro h
    obtain ⟨snap, hsnap, hb, hfresh⟩ := h
    cases hst : snap.billingStatus with
    | none => simp [hst, billingBlocksInference] at hb
    | some status => exact ⟨status, (loaded_status trailing status).mpr ⟨snap, hsnap, hst, hfresh⟩, hst ▸ hb⟩

theorem runGate_refuses :
    (runGate env tables tie trailing now).allowed = false ↔
      FreshBlock env tables tie now ∨ NothingToSpend env tables tie trailing now := by
  rw [runGate, deepdiveRunGate_refuses, freshBlock_iff]
  rfl

/-- For every history and every instant: a most recent blocking status keeps the
gate closed exactly when the newest row with a balance carries one too and is
still fresh, or the money terms refuse anyway. -/
theorem block_holds_iff (env : WorkerEnv) (tables : Tables) (tie : Nat) (trailing : Except String ℚ)
    (now : Int) :
    BlockHolds env tables tie trailing now ↔
      NothingBlocks tables ∨ FreshBlock env tables tie now ∨ NothingToSpend env tables tie trailing now := by
  constructor
  · intro h
    by_cases hn : NothingBlocks tables
    · exact Or.inl hn
    · unfold NothingBlocks at hn
      push Not at hn
      obtain ⟨row, hrow, hb⟩ := hn
      exact Or.inr (runGate_refuses.mp (h row hrow (by simpa using hb)))
  · intro h row hrow hb
    rcases h with h | h
    · rw [h row hrow] at hb
      cases hb
    · exact runGate_refuses.mpr h

def sampleRow (createdAt : Int) (billingStatus : Option BillingStatus) : LifecyclePersistRecord :=
  { isSnapshot := true, prevState := some .noKey, newState := .noKey, reason := "", keyId := none
    keyHashPrefix := none, balanceUsd := some 10, reserveUsd := some 1, ledgerSpendUsd := some 0
    providerSpendUsd := some 0, idsMismatch := false, billingStatus, keyRemainingUsd := none
    prevHash := [], bodyHash := [], signature := [], createdAt }

def sampleEnv : WorkerEnv := ⟨1 / 5, 2, 1, 60, false⟩

def phantomLog : Tables := ⟨[], [], [sampleRow 0 (some .phantom)]⟩

/-- The status of the activation row is the one that is read. -/
def phantomThenActivation : Tables := ⟨[], [], [sampleRow 0 (some .phantom), sampleRow 1000 none]⟩

/-- A phantom row opens the gate by growing older than three polls, and an
activation row after it opens the gate at once. -/
theorem block_lost :
    ¬ BlockHolds sampleEnv phantomLog 0 (.ok 0) 180001 ∧
    ¬ BlockHolds sampleEnv phantomThenActivation 0 (.ok 0) 2000 := by
  constructor
  · intro h
    have hrow : LatestStatus phantomLog.lifecycleLog (sampleRow 0 (some .phantom)) := by
      refine ⟨List.mem_singleton_self _, rfl, ?_⟩
      intro r hr _
      rw [List.mem_singleton.mp hr]
    have hopen : (runGate sampleEnv phantomLog 0 (.ok 0) 180001).allowed = true := by decide +kernel
    rw [h _ hrow rfl] at hopen
    cases hopen
  · intro h
    have hrow : LatestStatus phantomThenActivation.lifecycleLog (sampleRow 0 (some .phantom)) := by
      refine ⟨List.mem_cons_self, rfl, ?_⟩
      intro r hr hs
      rcases List.mem_cons.mp hr with rfl | hr
      · exact Int.le_refl _
      · rw [List.mem_singleton.mp hr] at hs
        cases hs
    have hopen : (runGate sampleEnv phantomThenActivation 0 (.ok 0) 2000).allowed = true := by decide +kernel
    rw [h _ hrow rfl] at hopen
    cases hopen

end LaunchAuditor.Proofs.Gate
