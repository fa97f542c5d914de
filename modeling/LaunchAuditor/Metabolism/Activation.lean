import LaunchAuditor.Lib.Steps
import LaunchAuditor.Metabolism.CreditWallet

/-! The activation in a tick of `runLifecycleLoop` (`apps/worker/src/metabolism/lifecycle-runner.ts`),
before a chain that includes what the runner submits when it likes. The transactions are
kept with what becomes of them, which no variable of the source does. -/

namespace LaunchAuditor.Metabolism.Activation

structure ActivationConfig where
  addresses : ProtocolAddresses
  wallet : Hex
  lowWaterUsd : ℚ
  chunkUsd : ℚ
  dailyCapUsd : ℚ
  keepWarmAfterMs : ℚ

/-- `lastActivation`, which only this process remembers. -/
structure LastActivation where
  at_ : Int
  balanceBefore : ℚ
  amountUsd : ℚ

inductive TxState
  | waiting
  /-- with the number and the time of its block -/
  | included (block : Nat) (timestamp : Int) (success : Bool)
  | dropped
  deriving DecidableEq

/-- A transaction the runner has submitted, with the raw amount it activates. -/
structure Tx where
  id : Nat
  amount : Nat
  submittedAt : Int
  state : TxState
  deriving DecidableEq

inductive Phase
  | idle
  /-- the scan of today's events is under way -/
  | querying (i : ActivationInputs)
  /-- `lastActivation` is set -/
  | sending (amountUsd : ℚ)
  | receipt

structure World where
  chain : Chain
  now : Int
  txs : List Tx
  lastActivation : Option LastActivation
  phase : Phase

/-- What a tick is told before it looks at today's events. -/
structure ActivationRead where
  balanceUsd : ℚ
  creditHeldUsd : ℚ
  lastSelfActivationAt : Option Int

/-- How `writeContract` ends: `replyLost` is broadcast although it throws. -/
inductive SendOutcome
  | sent
  | failed
  | replyLost
  deriving DecidableEq

inductive Event
  | clock (now : Int)
  /-- a block with the fate of the waiting transactions it includes, and events of others -/
  | mine (timestamp : Int) (included : Nat → Option Bool) (others : List Activated)
  | drop (id : Nat)
  | tick (read : ActivationRead)
  /-- the head is read, and the scan has answered by `decidedAt` -/
  | query (decidedAt : Int)
  | send (outcome : SendOutcome)
  /-- the receipt, or the end of the wait for it, or any call that throws -/
  | endTick
  /-- a fresh process -/
  | restart

namespace World

/-- An earlier activation is neither ten minutes old nor half in the balance. -/
def pending (w : World) (balanceUsd : ℚ) : Bool :=
  w.lastActivation.any fun l => decide (w.now - l.at_ < 600000 ∧ balanceUsd < l.balanceBefore + l.amountUsd * (1 / 2))

def msSinceLastActivation (w : World) (read : ActivationRead) : Option (WithTop ℚ) :=
  if !w.pending read.balanceUsd ∧ read.creditHeldUsd > 0 then
    some (match read.lastSelfActivationAt with
      | some t => ((w.now - t : ℚ) : WithTop ℚ)
      | none => ⊤)
  else none

/-- The inputs of the decision but for today's figure. -/
def inputs (cfg : ActivationConfig) (w : World) (read : ActivationRead) : ActivationInputs :=
  { apiBalanceUsd := read.balanceUsd, creditHeldUsd := read.creditHeldUsd, lowWaterUsd := cfg.lowWaterUsd
    chunkUsd := cfg.chunkUsd, activatedTodayUsd := 0, dailyCapUsd := cfg.dailyCapUsd
    pending := w.pending read.balanceUsd, msSinceLastActivation := w.msSinceLastActivation read
    keepWarmAfterMs := some cfg.keepWarmAfterMs }

def needsCheck (cfg : ActivationConfig) (w : World) (read : ActivationRead) : Bool :=
  let lowBalance := decide (read.balanceUsd < cfg.lowWaterUsd)
  let coldWindow := (w.msSinceLastActivation read).any fun ms => decide ((cfg.keepWarmAfterMs : WithTop ℚ) ≤ ms)
  !w.pending read.balanceUsd && decide (read.creditHeldUsd > 0) && (lowBalance || coldWindow)

/-- From the decision to the call of `activateCredit`. -/
def conclude (w : World) (i : ActivationInputs) (decidedAt : Int) : World :=
  match activationDecision i with
  | .skip _ => { w with phase := .idle }
  | .activate amountUsd _ =>
    { w with lastActivation := some ⟨decidedAt, i.apiBalanceUsd, amountUsd⟩, phase := .sending amountUsd }

/-- The inputs once the scan has answered. -/
def scanned (cfg : ActivationConfig) (w : World) (i : ActivationInputs) : ActivationInputs :=
  { i with activatedTodayUsd := activatedTodayUsd w.chain cfg.wallet 9999 w.now }

def submit (w : World) (amountUsd : ℚ) : World :=
  { w with txs := w.txs ++ [⟨w.txs.length, parseUnits6 amountUsd, w.now, .waiting⟩] }

end World

/-- A waiting transaction takes its place in the block. -/
def Tx.mined (included : Nat → Option Bool) (block : Nat) (timestamp : Int) (tx : Tx) : Tx :=
  match tx.state, included tx.id with
  | .waiting, some success => { tx with state := .included block timestamp success }
  | _, _ => tx

/-- The event it leaves there when it succeeds. -/
def Tx.event (wallet : Hex) (included : Nat → Option Bool) (tx : Tx) : Option Activated :=
  match tx.state, included tx.id with
  | .waiting, some true => some ⟨wallet, wallet, tx.amount⟩
  | _, _ => none

def Tx.dropped (id : Nat) (tx : Tx) : Tx :=
  if tx.id = id ∧ tx.state = .waiting then { tx with state := .dropped } else tx

/-- Events that cannot happen where the runner is change nothing. -/
def World.step (cfg : ActivationConfig) (w : World) : Event → World
  | .clock now => { w with now := max w.now now }
  | .mine timestamp included others =>
    if h : w.chain.headTimestamp ≤ timestamp then
      { w with
        chain := w.chain.extend ⟨timestamp, w.txs.filterMap (Tx.event cfg.wallet included) ++ others⟩ h
        txs := w.txs.map (Tx.mined included w.chain.blocks.length timestamp) }
    else w
  | .drop id => { w with txs := w.txs.map (Tx.dropped id) }
  | .tick read =>
    match w.phase with
    | .idle =>
      let i := w.inputs cfg read
      let w' := { w with lastActivation := if i.pending then w.lastActivation else none }
      if w.needsCheck cfg read then { w' with phase := .querying i } else w'.conclude i w.now
    | _ => w
  | .query decidedAt =>
    match w.phase with
    | .querying i => { w with now := max w.now decidedAt }.conclude (w.scanned cfg i) (max w.now decidedAt)
    | _ => w
  | .send outcome =>
    match w.phase with
    | .sending amountUsd =>
      match assertAllowedCall cfg.addresses.credit "activate" cfg.addresses, outcome with
      | .error _, _ | .ok (), .failed => { w with phase := .idle }
      | .ok (), .sent => { w.submit amountUsd with phase := .receipt }
      | .ok (), .replyLost => { w.submit amountUsd with phase := .idle }
    | _ => w
  | .endTick => { w with phase := .idle }
  | .restart => { w with lastActivation := none, phase := .idle }

/-- Without a check there is no activation. -/
theorem unchecked_skips {cfg : ActivationConfig} {w : World} {read : ActivationRead}
    (h : w.needsCheck cfg read = false) (amount : ℚ) (reason : String) :
    activationDecision (w.inputs cfg read) ≠ .activate amount reason := by
  intro hact
  obtain ⟨hpending, hlow, hheld, _⟩ := activationDecision_activate hact
  have hpending' : w.pending read.balanceUsd = false := hpending
  have hheld' : read.creditHeldUsd > 0 := hheld
  have hsince : w.msSinceLastActivation read = some (match read.lastSelfActivationAt with
      | some t => ((w.now - t : ℚ) : WithTop ℚ)
      | none => ⊤) := by
    unfold World.msSinceLastActivation
    rw [if_pos ⟨by simp [hpending'], hheld'⟩]
  rcases hlow with hlow | hstale
  · have hlow' : read.balanceUsd < cfg.lowWaterUsd := hlow
    simp [World.needsCheck, hpending', hheld', hlow'] at h
  · have hcold : (w.msSinceLastActivation read).any (fun ms => decide ((cfg.keepWarmAfterMs : WithTop ℚ) ≤ ms)) = true := by
      simp only [ActivationInputs.stale, World.inputs, ActivationInputs.keepWarmMs, Option.getD_some] at hstale
      rw [hsince] at hstale ⊢
      exact hstale
    simp [World.needsCheck, hpending', hheld', hcold] at h

end LaunchAuditor.Metabolism.Activation
