import LaunchAuditor.Metabolism.Reconcile

/-! `apps/worker/src/metabolism/state.ts`, the declared lifecycle machine, and the pure decision of
`lifecycle-runner.ts`. -/

namespace LaunchAuditor.Metabolism

inductive LifecycleState
  | noKey
  | active
  | draining
  | rotating
  | revoking
  | starved
  deriving DecidableEq, Repr

def LifecycleState.text : LifecycleState → String
  | .noKey => "NO_KEY"
  | .active => "ACTIVE"
  | .draining => "DRAINING"
  | .rotating => "ROTATING"
  | .revoking => "REVOKING"
  | .starved => "STARVED"

inductive LifecycleEvent
  | keyClaimed
  | statusOk
  | lowBalance
  | hygieneDue
  | drained
  | rotated
  | idsMismatch
  | phantomSpend
  | revoked
  | noCredits
  | creditsReturned
  deriving DecidableEq, Repr

structure Transition where
  state : LifecycleState
  reason : String
  deriving DecidableEq, Repr

/-- A compromise signal wins from any state that holds a key; only `REVOKED`
leaves `REVOKING`. -/
def nextState (current : LifecycleState) (event : LifecycleEvent) : Option Transition :=
  match event, current with
  | .phantomSpend, .noKey => none
  | .phantomSpend, _ => some ⟨.revoking, "phantom spend: provider charged with zero local requests"⟩
  | .idsMismatch, .noKey => none
  | .idsMismatch, _ => some ⟨.revoking, "ids: local ledger vs provider status mismatch"⟩
  | .revoked, .revoking => some ⟨.noKey, "key revoked at provider"⟩
  | .revoked, _ => none
  | .keyClaimed, .noKey => some ⟨.active, "claimed a fresh key"⟩
  | .noCredits, .noKey => some ⟨.starved, "no credits to claim a key"⟩
  | .lowBalance, .active => some ⟨.draining, "key remaining is low"⟩
  | .drained, .active | .drained, .draining => some ⟨.rotating, "key drained below reserve"⟩
  | .hygieneDue, .active | .hygieneDue, .draining => some ⟨.rotating, "scheduled key rotation (hygiene)"⟩
  | .noCredits, .active => some ⟨.starved, "balance below the hard reserve — nothing to serve"⟩
  | .statusOk, .active => some ⟨.active, "status ok"⟩
  | .noCredits, .draining => some ⟨.starved, "drained and no credits to rotate into"⟩
  | .statusOk, .draining => some ⟨.active, "balance recovered above the low mark"⟩
  | .rotated, .rotating | .keyClaimed, .rotating => some ⟨.active, "rotated to a fresh key"⟩
  | .noCredits, .rotating => some ⟨.starved, "nothing to rotate into"⟩
  | .creditsReturned, .starved => some ⟨.rotating, "credits accrued — rotating back in"⟩
  | .keyClaimed, .starved => some ⟨.active, "claimed a key after starvation"⟩
  | _, _ => none

end LaunchAuditor.Metabolism

namespace LaunchAuditor.Metabolism

structure LifecycleConfig where
  reserveUsd : ℚ
  lowWaterUsd : ℚ
  hygieneRotateDays : ℚ
  idsToleranceUsd : ℚ
  idsGraceUsd : ℚ

structure LifecycleReading where
  state : LifecycleState
  /-- set after an IDS-triggered revoke; blocks auto-mint until a human re-auths -/
  halted : Bool
  balanceUsd : ℚ
  hasKey : Bool
  holdSecret : Bool
  keyAgeDays : Option ℚ
  ledgerSpendUsd : ℚ
  providerSpendUsd : ℚ
  ids : IdsReconcile
  phantomSpend : Bool
  billingStatus : BillingStatus

inductive LifecycleDecision
  | steady (state : LifecycleState) (reason : String)
  | transition (source target : LifecycleState) (event : LifecycleEvent) (mint : Bool) (reason : String)
  | rotate (source : LifecycleState) (reason : String)
  | revoke (source : LifecycleState) (reason : String)
  deriving DecidableEq, Repr

def r2 (n : ℚ) : String := Js.toFixed 2 n

/-- The last case of the switch: a key is held and serving. -/
def decideHolding (r : LifecycleReading) (cfg : LifecycleConfig) (s : LifecycleState) : LifecycleDecision :=
  let spendable := r.balanceUsd - cfg.reserveUsd
  let days (x : ℚ) := Js.toFixed 1 x
  if !r.hasKey then .transition s .noKey .revoked false "provider reports no key — lost outside the runner"
  else if !r.holdSecret then
    .revoke s "key present at provider but its secret is not in the store — revoking to remint"
  else if r.keyAgeDays.any fun d => d ≥ cfg.hygieneRotateDays then
    .rotate s s!"key age {days (r.keyAgeDays.getD 0)}d ≥ {Js.numberText cfg.hygieneRotateDays}d (hygiene)"
  else if spendable ≤ 0 then
    .transition s .starved .noCredits false
      s!"balance ${r2 r.balanceUsd} ≤ reserve ${r2 cfg.reserveUsd} — no rotate (a new key spends the same balance)"
  else if r.balanceUsd < cfg.lowWaterUsd then
    if s = .active then
      .transition s .draining .lowBalance false
        s!"balance ${r2 r.balanceUsd} < low-water ${r2 cfg.lowWaterUsd} (still serving, flagged)"
    else .steady .draining s!"draining — balance ${r2 r.balanceUsd}"
  else if s = .draining then
    .transition s .active .statusOk false
      s!"balance recovered to ${r2 r.balanceUsd} (≥ low-water ${r2 cfg.lowWaterUsd})"
  else
    let age := (r.keyAgeDays.map fun d => days d ++ "d").getD "unavailable"
    .steady .active s!"ok — balance ${r2 r.balanceUsd}, key age {age}"

def decideLifecycle (r : LifecycleReading) (cfg : LifecycleConfig) : LifecycleDecision :=
  let spendable := r.balanceUsd - cfg.reserveUsd
  let s := r.state
  if r.phantomSpend ∧ s ≠ .noKey ∧ s ≠ .revoking then
    .revoke s "phantom spend: provider charged with zero local requests this epoch"
  else
    match s with
    | .revoking => .transition s .noKey .revoked false "completing a pending revoke"
    | .noKey =>
      if r.halted then .steady .noKey "halted — awaiting a manual credential action (pnpm orbio:auth)"
      else if spendable ≤ 0 then
        .transition s .starved .noCredits false
          s!"balance ${r2 r.balanceUsd} ≤ reserve ${r2 cfg.reserveUsd} — nothing to serve"
      else
        .transition s .active .keyClaimed true
          s!"minted a gateway key (balance ${r2 r.balanceUsd}, spendable ${r2 spendable})"
    | .rotating => .transition s .active .keyClaimed true "completing a pending rotation"
    | .starved =>
      if spendable > 0 then
        if r.hasKey ∧ r.holdSecret then
          .transition s .active .keyClaimed false s!"balance recovered to ${r2 r.balanceUsd} — key still valid"
        else .transition s .active .keyClaimed true s!"balance recovered to ${r2 r.balanceUsd} — minting"
      else
        .steady .starved s!"waiting for accrual — balance ${r2 r.balanceUsd}, reserve ${r2 cfg.reserveUsd}"
    | .active | .draining => decideHolding r cfg s

/-- Observe mode keeps every reading and every non-acting transition; an acting
decision becomes a logged snapshot, a pending mint the adoption of a held key. -/
def restrictToObserve (d : LifecycleDecision) (r : LifecycleReading) : LifecycleDecision :=
  let note := "observe mode — key management stays with the operator (pnpm orbio:auth)"
  match d with
  | .steady .. => d
  | .transition source target event mint reason =>
    if !mint then d
    else if r.hasKey ∧ r.holdSecret then
      .transition source target event false s!"adopted the operator-provisioned key instead of minting ({note})"
    else .steady r.state s!"would mint: {reason} — {note}"
  | .rotate _ reason => .steady r.state s!"would rotate: {reason} — {note}"
  | .revoke _ reason => .steady r.state s!"would revoke: {reason} — {note}"

/-- The decision calls `orbio_create_key`. -/
def LifecycleDecision.mints : LifecycleDecision → Bool
  | .transition _ _ _ mint _ => mint
  | .rotate .. => true
  | _ => false

def LifecycleDecision.revokes : LifecycleDecision → Bool
  | .revoke .. => true
  | _ => false

/-- A state change with the event it is recorded under. -/
structure Edge where
  source : LifecycleState
  event : LifecycleEvent
  target : LifecycleState
  deriving DecidableEq, Repr

/-- `checkAgainstStateMachine`, which warns where this is `false`. -/
def checkAgainstStateMachine (e : Edge) : Bool :=
  (nextState e.source e.event).map Transition.state == some e.target

/-- The changes a tick checks and records for a decision, in order; a revoke is
recorded as a compromise only for phantom spend. -/
def LifecycleDecision.edges (compromise : Bool) : LifecycleDecision → List Edge
  | .steady .. => []
  | .transition source target event _ _ => [⟨source, event, target⟩]
  | .rotate source _ => [⟨source, .hygieneDue, .rotating⟩, ⟨.rotating, .keyClaimed, .active⟩]
  | .revoke source _ =>
    [⟨source, if compromise then .phantomSpend else .idsMismatch, .revoking⟩, ⟨.revoking, .revoked, .noKey⟩]

/-- The decision calls the provider's key management. -/
def LifecycleDecision.acts : LifecycleDecision → Bool
  | .steady .. => false
  | .transition _ _ _ mint _ => mint
  | .rotate .. => true
  | .revoke .. => true

/-- The state a decision starts from. -/
def LifecycleDecision.source : LifecycleDecision → LifecycleState
  | .steady state _ => state
  | .transition source .. => source
  | .rotate source _ => source
  | .revoke source _ => source

/-- The states a decision starts from and goes to. -/
def LifecycleDecision.states (d : LifecycleDecision) : List LifecycleState :=
  d.source :: (d.edges false).map Edge.target

theorem restrictToObserve_acts (d : LifecycleDecision) (r : LifecycleReading) :
    (restrictToObserve d r).mints = false ∧ (restrictToObserve d r).revokes = false := by
  cases d with
  | steady state reason => exact ⟨rfl, rfl⟩
  | rotate source reason => exact ⟨rfl, rfl⟩
  | revoke source reason => exact ⟨rfl, rfl⟩
  | transition source target event mint reason =>
    cases mint with
    | false => exact ⟨rfl, rfl⟩
    | true =>
      unfold restrictToObserve
      by_cases h : r.hasKey ∧ r.holdSecret
      · simp [h, LifecycleDecision.mints, LifecycleDecision.revokes]
      · simp [h, LifecycleDecision.mints, LifecycleDecision.revokes]

theorem acts_eq (d : LifecycleDecision) : d.acts = (d.mints || d.revokes) := by
  cases d with
  | steady => rfl
  | transition source target event mint reason => cases mint <;> rfl
  | rotate => rfl
  | revoke => rfl

theorem restrictToObserve_of_not_acts {d : LifecycleDecision} (r : LifecycleReading) (h : d.acts = false) :
    restrictToObserve d r = d := by
  cases d with
  | steady state reason => rfl
  | transition source target event mint reason =>
    change mint = false at h
    subst h
    rfl
  | rotate source reason => cases h
  | revoke source reason => cases h

/-- Where it differs, observe mode goes where the decision went or stays where the
reading is. -/
theorem restrictToObserve_states (d : LifecycleDecision) (r : LifecycleReading) :
    (restrictToObserve d r).states = d.states ∨ (restrictToObserve d r).states = [r.state] := by
  cases d with
  | steady state reason => exact .inl rfl
  | rotate source reason => exact .inr rfl
  | revoke source reason => exact .inr rfl
  | transition source target event mint reason =>
    cases mint with
    | false => exact .inl rfl
    | true =>
      unfold restrictToObserve
      by_cases h : r.hasKey ∧ r.holdSecret
      · simp [h, LifecycleDecision.states, LifecycleDecision.source, LifecycleDecision.edges]
      · simp [h, LifecycleDecision.states, LifecycleDecision.source, LifecycleDecision.edges]

/-- A halted runner without a key stands still. -/
theorem decideLifecycle_halted {r : LifecycleReading} (cfg : LifecycleConfig) (hs : r.state = .noKey)
    (hh : r.halted = true) : ∃ reason, decideLifecycle r cfg = .steady .noKey reason := by
  simp [decideLifecycle, hs, hh]

end LaunchAuditor.Metabolism
