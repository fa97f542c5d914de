import LaunchAuditor.Metabolism.Runner

namespace LaunchAuditor.Proofs.Decision
open Metabolism Runner

/-- Phantom spend is acted on where there is a key to revoke. -/
def Compromised (r : LifecycleReading) : Prop :=
  r.phantomSpend = true ∧ r.state ≠ .noKey ∧ r.state ≠ .revoking

/-- A key is thought to be held and serving. -/
def Holding (r : LifecycleReading) : Prop := r.state = .active ∨ r.state = .draining

/-- The key has reached the age of its hygiene rotation. -/
def HygieneDue (r : LifecycleReading) (cfg : LifecycleConfig) : Prop :=
  (r.keyAgeDays.any fun d => d ≥ cfg.hygieneRotateDays) = true

/-- The decisions on a reading, each with the checks that lead to it. -/
inductive Decided (r : LifecycleReading) (cfg : LifecycleConfig) : LifecycleDecision → Prop
  | compromised {reason} : Compromised r → Decided r cfg (.revoke r.state reason)
  | pendingRevoke {reason} : r.state = .revoking → Decided r cfg (.transition r.state .noKey .revoked false reason)
  | nothingToServe {reason} : r.state = .noKey → r.balanceUsd - cfg.reserveUsd ≤ 0 →
      Decided r cfg (.transition r.state .starved .noCredits false reason)
  | claim {reason} : r.state = .noKey → 0 < r.balanceUsd - cfg.reserveUsd →
      Decided r cfg (.transition r.state .active .keyClaimed true reason)
  | pendingRotation {reason} : r.state = .rotating → ¬ Compromised r →
      Decided r cfg (.transition r.state .active .keyClaimed true reason)
  | recovered {mint reason} : r.state = .starved → 0 < r.balanceUsd - cfg.reserveUsd →
      Decided r cfg (.transition r.state .active .keyClaimed mint reason)
  | waiting {reason} : r.state = .noKey ∨ r.state = .starved → Decided r cfg (.steady r.state reason)
  | lost {reason} : Holding r → ¬ Compromised r → r.hasKey = false →
      Decided r cfg (.transition r.state .noKey .revoked false reason)
  | unusable {reason} : Holding r → ¬ Compromised r → r.hasKey = true → r.holdSecret = false →
      Decided r cfg (.revoke r.state reason)
  | hygiene {reason} : Holding r → ¬ Compromised r → r.hasKey = true → r.holdSecret = true → HygieneDue r cfg →
      Decided r cfg (.rotate r.state reason)
  | drained {reason} : Holding r → r.hasKey = true → ¬ HygieneDue r cfg →
      Decided r cfg (.transition r.state .starved .noCredits false reason)
  | low {reason} : r.state = .active → r.hasKey = true → ¬ HygieneDue r cfg →
      Decided r cfg (.transition r.state .draining .lowBalance false reason)
  | refilled {reason} : r.state = .draining → r.hasKey = true → ¬ HygieneDue r cfg →
      Decided r cfg (.transition r.state .active .statusOk false reason)
  | serving {reason} : Holding r → r.hasKey = true → ¬ HygieneDue r cfg → Decided r cfg (.steady r.state reason)

variable {r : LifecycleReading} {cfg : LifecycleConfig}

theorem decideHolding_decided (cfg : LifecycleConfig) (hs : Holding r) (hc : ¬ Compromised r) :
    Decided r cfg (decideHolding r cfg r.state) := by
  unfold decideHolding
  dsimp only
  split
  · exact .lost hs hc (by simp_all)
  · split
    · exact .unusable hs hc (by simp_all) (by simp_all)
    · have hk : r.hasKey = true := by simp_all
      split
      · exact .hygiene hs hc hk (by simp_all) ‹_›
      · rename_i hd
        split
        · exact .drained hs hk hd
        · split
          · split
            · exact .low ‹_› hk hd
            · have h : r.state = .draining := Or.resolve_left hs ‹_›
              exact h ▸ .serving hs hk hd
          · split
            · exact .refilled ‹_› hk hd
            · have h : r.state = .active := Or.resolve_right hs ‹_›
              exact h ▸ .serving hs hk hd

theorem decideLifecycle_decided (r : LifecycleReading) (cfg : LifecycleConfig) :
    Decided r cfg (decideLifecycle r cfg) := by
  unfold decideLifecycle
  dsimp only
  split
  · exact .compromised ‹_›
  · rename_i hc
    split
    · exact .pendingRevoke ‹_›
    · rename_i hs
      split
      · exact hs ▸ .waiting (.inl hs)
      · split
        · exact .nothingToServe hs ‹_›
        · exact .claim hs (not_le.mp ‹_›)
    · exact .pendingRotation ‹_› hc
    · rename_i hs
      split
      · split
        · exact .recovered hs ‹_›
        · exact .recovered hs ‹_›
      · exact hs ▸ .waiting (.inr hs)
    · exact decideHolding_decided cfg (.inl ‹_›) hc
    · exact decideHolding_decided cfg (.inr ‹_›) hc

theorem Decided.source_eq {d : LifecycleDecision} (h : Decided r cfg d) : d.source = r.state := by
  cases h <;> rfl

/-- The provider reports that the key held is gone. -/
def Lost (r : LifecycleReading) : Prop := Holding r ∧ ¬ Compromised r ∧ r.hasKey = false

/-- Every change is an edge of the declared machine, but for the loss of a key. -/
theorem Decided.edges_declared {d : LifecycleDecision} (h : Decided r cfg d) :
    (∀ e ∈ d.edges r.phantomSpend, checkAgainstStateMachine e = true) ∨
      Lost r ∧ ∃ reason, d = .transition r.state .noKey .revoked false reason := by
  cases h with
  | lost hs hc hk => exact .inr ⟨⟨hs, hc, hk⟩, _, rfl⟩
  | compromised hc =>
    obtain ⟨hp, hn, -⟩ := hc
    left
    cases hs : r.state <;> simp_all [LifecycleDecision.edges, checkAgainstStateMachine, nextState]
  | pendingRevoke hs => exact .inl (by simp [LifecycleDecision.edges, hs]; rfl)
  | nothingToServe hs _ => exact .inl (by simp [LifecycleDecision.edges, hs]; rfl)
  | claim hs _ => exact .inl (by simp [LifecycleDecision.edges, hs]; rfl)
  | pendingRotation hs _ => exact .inl (by simp [LifecycleDecision.edges, hs]; rfl)
  | recovered hs _ => exact .inl (by simp [LifecycleDecision.edges, hs]; rfl)
  | waiting hs => exact .inl (by simp [LifecycleDecision.edges])
  | unusable hs _ _ _ =>
    left
    obtain hs | hs := hs <;> cases hp : r.phantomSpend <;>
      simp [LifecycleDecision.edges, checkAgainstStateMachine, nextState, hs]
  | hygiene hs _ _ _ _ =>
    left
    obtain hs | hs := hs <;> simp [LifecycleDecision.edges, checkAgainstStateMachine, nextState, hs]
  | drained hs _ _ =>
    left
    obtain hs | hs := hs <;> simp [LifecycleDecision.edges, checkAgainstStateMachine, nextState, hs]
  | low hs _ _ => exact .inl (by simp [LifecycleDecision.edges, hs]; rfl)
  | refilled hs _ _ => exact .inl (by simp [LifecycleDecision.edges, hs]; rfl)
  | serving hs _ _ => exact .inl (by simp [LifecycleDecision.edges])

theorem decisions_declared_and_restricted (r : LifecycleReading) (cfg : LifecycleConfig) :
    ((∀ e ∈ (decideLifecycle r cfg).edges r.phantomSpend, checkAgainstStateMachine e = true) ∨
      Lost r ∧ ∃ reason, decideLifecycle r cfg = .transition r.state .noKey .revoked false reason) ∧
    (decideLifecycle r cfg).source = r.state ∧
    ∀ d : LifecycleDecision,
      (restrictToObserve d r).acts = false ∧
      (d.acts = false → restrictToObserve d r = d) ∧
      (d.source = r.state → ∀ s ∈ (restrictToObserve d r).states, s ∈ d.states) := by
  have h := decideLifecycle_decided r cfg
  refine ⟨h.edges_declared, h.source_eq, fun d => ⟨?_, restrictToObserve_of_not_acts r, fun hs s hm => ?_⟩⟩
  · obtain ⟨hm, hr⟩ := restrictToObserve_acts d r
    rw [acts_eq, hm, hr]
    rfl
  · obtain he | he := restrictToObserve_states d r
    · exact he ▸ hm
    · rw [he, List.mem_singleton] at hm
      rw [hm, ← hs]
      exact List.mem_cons_self

/-- A rotation is taken up before the funds are looked at. -/
def RotatesFirst (r : LifecycleReading) (cfg : LifecycleConfig) : Prop :=
  ¬ Compromised r ∧
    (r.state = .rotating ∨ Holding r ∧ r.hasKey = true ∧ r.holdSecret = true ∧ HygieneDue r cfg)

/-- With nothing to spend a key is minted in a rotation only. -/
theorem Decided.mints_iff {d : LifecycleDecision} (h : Decided r cfg d) (hb : r.balanceUsd - cfg.reserveUsd ≤ 0) :
    d.mints = true ↔ RotatesFirst r cfg := by
  cases h with
  | compromised hc => simp [LifecycleDecision.mints, RotatesFirst, hc]
  | pendingRevoke hs => simp [LifecycleDecision.mints, RotatesFirst, Holding, hs]
  | nothingToServe hs _ => simp [LifecycleDecision.mints, RotatesFirst, Holding, hs]
  | claim _ hp => exact absurd hb (not_le.mpr hp)
  | pendingRotation hs hc => simp [LifecycleDecision.mints, RotatesFirst, hs, hc]
  | recovered _ hp => exact absurd hb (not_le.mpr hp)
  | waiting hs => obtain hs | hs := hs <;> simp [LifecycleDecision.mints, RotatesFirst, Holding, hs]
  | lost hs _ hk => obtain hs | hs := hs <;> simp [LifecycleDecision.mints, RotatesFirst, Holding, hs, hk]
  | unusable hs _ _ hh => obtain hs | hs := hs <;> simp [LifecycleDecision.mints, RotatesFirst, Holding, hs, hh]
  | hygiene hs hc hk hh hd => simp [LifecycleDecision.mints, RotatesFirst, hs, hc, hk, hh, hd]
  | drained hs _ hd => obtain hs | hs := hs <;> simp [LifecycleDecision.mints, RotatesFirst, Holding, hs, hd]
  | low hs _ hd => simp [LifecycleDecision.mints, RotatesFirst, Holding, hs, hd]
  | refilled hs _ hd => simp [LifecycleDecision.mints, RotatesFirst, Holding, hs, hd]
  | serving hs _ hd => obtain hs | hs := hs <;> simp [LifecycleDecision.mints, RotatesFirst, Holding, hs, hd]

theorem decideLifecycle_unfunded_iff (r : LifecycleReading) (cfg : LifecycleConfig) :
    (r.balanceUsd - cfg.reserveUsd ≤ 0 → (decideLifecycle r cfg).mints = false) ↔
      ¬ (r.balanceUsd - cfg.reserveUsd ≤ 0 ∧ RotatesFirst r cfg) := by
  rw [not_and]
  refine forall_congr' fun hb => ?_
  rw [← (decideLifecycle_decided r cfg).mints_iff hb, Bool.not_eq_true]

/-- An idle agent whose key is due for rotation, with nothing above the reserve. -/
def drainedReading : LifecycleReading :=
  { state := .active, halted := false, balanceUsd := 2, hasKey := true, holdSecret := true, keyAgeDays := some 8
    ledgerSpendUsd := 1, providerSpendUsd := 1, ids := reconcileIds none 1 1 none 1 (1 / 4), phantomSpend := false
    billingStatus := .aggregateOnly }

theorem drained_agent_rotates :
    ¬ ∀ (r : LifecycleReading) (cfg : LifecycleConfig), r.balanceUsd - cfg.reserveUsd ≤ 0 →
      (decideLifecycle r cfg).mints = false := by
  intro h
  have hm := h drainedReading (RunnerConfig.defaults false true).lifecycle (by decide +kernel)
  revert hm
  decide +kernel

end LaunchAuditor.Proofs.Decision
