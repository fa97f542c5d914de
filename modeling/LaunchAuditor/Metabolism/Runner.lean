import LaunchAuditor.Metabolism.LogWriter
import LaunchAuditor.Metabolism.SpendLedger
import LaunchAuditor.Metabolism.StateMachine

/-! The tick of `runLifecycleLoop` in `apps/worker/src/metabolism/lifecycle-runner.ts`, one
awaited operation a step, so that spend rows can land between any two of them and
every one of them can fail. A process is replaced by `start`, which stands for a
crash as well; the trace `seen` is not in the source. -/

namespace LaunchAuditor.Metabolism.Runner
open Db

structure RunnerConfig where
  lifecycle : LifecycleConfig
  /-- `metabolismSource() === 'gateway'` -/
  gatewaySource : Bool
  /-- `keyManagementMode() === 'managed'` -/
  managedKeys : Bool
  anomalyPct : ℚ
  anomalyEpochs : Nat
  phantomToleranceUsd : ℚ
  metabolismStatusPollSec : Nat

/-- The gateway source has no key-management calls at all, so it is always observe. -/
def RunnerConfig.observe (cfg : RunnerConfig) : Bool := cfg.gatewaySource || !cfg.managedKeys

/-- The defaults of `apps/worker/src/env.ts`. -/
def RunnerConfig.defaults (gatewaySource managedKeys : Bool) : RunnerConfig :=
  { lifecycle := { reserveUsd := 3, lowWaterUsd := 6, hygieneRotateDays := 7, idsToleranceUsd := 1 / 100
                   idsGraceUsd := 1 / 4 }
    gatewaySource, managedKeys, anomalyPct := 50, anomalyEpochs := 3, phantomToleranceUsd := 5 / 1000
    metabolismStatusPollSec := 60 }

structure MetabolismReading where
  balanceUsd : ℚ
  providerSpendUsd : ℚ
  hasKey : Bool
  /-- `status.prefix`, `none` for null and for the empty string -/
  prefix' : Option String
  createdAt : Option Int

/-- What a tick is told from outside: the reading, the reason of the activation it
made (gateway source only), the key inference uses and the key a mint would give. -/
structure TickInput where
  read : MetabolismReading
  activation : Option String
  resolvedKey : String
  createdKey : String
  createdPrefix : String

/-- The part of the encrypted store the runner reads and writes. -/
structure OAuthBlob where
  gatewayKey : Option String
  gatewayKeyPrefix : Option String
  spendBaseline : Option SpendBaseline
  deriving DecidableEq

/-- A `lifecycle_log` row without its hash chain. -/
structure LoggedRow extends LifecycleRowInput where
  createdAt : Int

/-- The variables of one process. -/
structure Process where
  cfg : RunnerConfig
  state : LifecycleState
  halted : Bool
  consecutiveAnomalies : Nat

/-- A tick past the ledger sum. -/
structure Tick where
  input : TickInput
  ledgerSpendUsd : ℚ
  blob : OAuthBlob
  ids : IdsReconcile

structure EpochWindow where
  epochAt : Int
  providerSpendPrevUsd : ℚ
  windowStart : Int
  /-- the bounds of the window before, when there was an epoch -/
  lagWindow : Option (Int × Int)
  deriving DecidableEq

/-- The runs of the window before, `0` when there was no epoch. -/
def EpochWindow.lagRequestCount (w : EpochWindow) (spend : SpendTable) : Nat :=
  match w.lagWindow with
  | some (since, until') => (windowEstimate since until' spend).count
  | none => 0

structure Graded where
  window : EpochWindow
  ep : EpochResult
  billingStatus : BillingStatus

/-- One awaited operation of the acting part; an append may be followed by the
assignments of `state` and `halted`. -/
inductive Action
  | append (row : LifecycleRowInput) (enter : Option LifecycleState) (halts : Bool)
  | mint (baseline : SpendBaseline) (key : String)
  | revokeKey
  | clearKey

inductive Phase
  | idle
  | activating (input : TickInput) (reason : String)
  | readLedger (input : TickInput)
  | findEpochs (t : Tick)
  | window (t : Tick) (w : EpochWindow)
  | lag (t : Tick) (w : EpochWindow) (win : WindowEstimate)
  | createEpoch (t : Tick) (g : Graded)
  | stamp (t : Tick) (g : Graded) (epochId : String)
  | stampRows (t : Tick) (g : Graded) (epochId : String) (factor : ℚ) (rows : List (String × Option ℚ))
  | acting (actions : List Action)

inductive Event
  | started
  /-- the verdict on a window, with the ledger at its last query -/
  | graded (w : EpochWindow) (providerSpendUsd : ℚ) (spend : SpendTable) (ep : EpochResult)
  /-- an epoch or a log row with this status is persisted -/
  | recorded (observe : Bool) (status : BillingStatus)
  /-- the tick acts on a revoke -/
  | revoking (phantom : Bool)
  | minted
  | reauthorised
  deriving DecidableEq

structure World where
  store : OAuthBlob
  lifecycleLog : List LoggedRow
  spend : SpendTable
  epochs : List MetabolismEpoch
  proc : Option Process
  phase : Phase
  seen : List Event

def World.note (w : World) (e : Event) : World := { w with seen := w.seen ++ [e] }

def World.abort (w : World) : World := { w with phase := .idle }

/-- `findMany({ orderBy: { at: 'desc' }, take: 2 })`, the later insert first among equals. -/
def lastEpochs (epochs : List MetabolismEpoch) : Option MetabolismEpoch × Option MetabolismEpoch :=
  let sorted := epochs.reverse.insertionSort fun a b => a.atMs ≥ b.atMs
  (sorted[0]?, sorted[1]?)

/-- The baseline is set afresh for a key it does not belong to. -/
def refreshBaseline (blob : OAuthBlob) (read : MetabolismReading) (ledgerSpendUsd : ℚ) (now : Int) : OAuthBlob :=
  match read.prefix' with
  | some p =>
    if read.hasKey ∧ blob.spendBaseline.all (fun b => b.keyPrefix ≠ p) then
      { blob with spendBaseline := some ⟨p, read.providerSpendUsd, ledgerSpendUsd, now⟩ }
    else blob
  | none => blob

def epochWindow (cfg : RunnerConfig) (t : Tick) (epochs : List MetabolismEpoch) (epochAt : Int) : EpochWindow :=
  let (prevEpoch, prevPrevEpoch) := lastEpochs epochs
  let baseline := t.blob.spendBaseline
  { epochAt
    providerSpendPrevUsd := ((prevEpoch.map MetabolismEpoch.providerSpendUsd) <|>
      (baseline.map SpendBaseline.providerSpentUsd)).getD t.input.read.providerSpendUsd
    windowStart := ((prevEpoch.map MetabolismEpoch.atMs) <|> (baseline.map SpendBaseline.atMs)).getD epochAt
    lagWindow := prevEpoch.map fun p =>
      ((prevPrevEpoch.map MetabolismEpoch.atMs).getD (p.atMs - cfg.metabolismStatusPollSec * 1000), p.atMs) }

def epochInput (cfg : RunnerConfig) (t : Tick) (w : EpochWindow) (win : WindowEstimate) (lagCount : Nat) :
    EpochInput :=
  { providerSpendNowUsd := t.input.read.providerSpendUsd, providerSpendPrevUsd := w.providerSpendPrevUsd
    localEstimateUsd := win.estimatedUsd, requestCount := win.count, anomalyPct := cfg.anomalyPct
    phantomToleranceUsd := cfg.phantomToleranceUsd, lagRequestCount := some lagCount, minGradeUsd := none }

/-- `consecutiveAnomalies = ep.anomaly ? consecutiveAnomalies + 1 : 0` -/
def nextAnomalies (p : Process) (ep : EpochResult) : Nat :=
  if ep.anomaly then p.consecutiveAnomalies + 1 else 0

/-- One bad window is logged, not acted on. -/
def billingStatus (cfg : RunnerConfig) (ep : EpochResult) (consecutiveAnomalies : Nat) : BillingStatus :=
  if ep.phantom then .phantom
  else if consecutiveAnomalies ≥ cfg.anomalyEpochs then .anomaly
  else if ep.billingStatus = .anomaly then .aggregateOnly
  else ep.billingStatus

def epochRow (t : Tick) (g : Graded) (id : String) : MetabolismEpoch :=
  { id, atMs := g.window.epochAt, keyHashPrefix := t.blob.gatewayKeyPrefix
    providerSpendUsd := t.input.read.providerSpendUsd, providerDeltaUsd := g.ep.providerDeltaUsd
    localEstimateUsd := g.ep.localEstimateUsd, requestCount := g.ep.requestCount
    reconciliationFactor := g.ep.reconciliationFactor, discrepancyPct := g.ep.discrepancyPct
    anomaly := g.ep.anomaly, phantom := g.ep.phantom, billingStatus := g.billingStatus }

def samePrefix (a b : Option String) : Bool :=
  match a, b with
  | some a, some b => a ≠ "" && b ≠ "" && a.toList.take 14 = b.toList.take 14
  | _, _ => false

/-- The gateway has just authenticated the key; elsewhere the key held must match. -/
def holdSecret (cfg : RunnerConfig) (t : Tick) : Bool :=
  let heldKey := if cfg.observe then some t.input.resolvedKey else t.blob.gatewayKey
  let heldPrefix := if cfg.observe then heldKey else t.blob.gatewayKeyPrefix
  if cfg.gatewaySource then t.input.read.hasKey
  else heldKey.any (· ≠ "") && (t.input.read.prefix'.isNone || samePrefix t.input.read.prefix' heldPrefix)

def lifecycleReading (p : Process) (t : Tick) (g : Graded) (now : Int) : LifecycleReading :=
  let read := t.input.read
  { state := p.state, halted := p.halted, balanceUsd := read.balanceUsd, hasKey := read.hasKey
    holdSecret := holdSecret p.cfg t
    keyAgeDays := if read.hasKey then read.createdAt.map fun c => ((now - c : Int) : ℚ) / 86400000 else none
    ledgerSpendUsd := t.ledgerSpendUsd, providerSpendUsd := read.providerSpendUsd, ids := t.ids
    phantomSpend := g.ep.phantom, billingStatus := g.billingStatus }

def decision (p : Process) (t : Tick) (g : Graded) (now : Int) : LifecycleDecision :=
  let reading := lifecycleReading p t g now
  let decided := decideLifecycle reading p.cfg.lifecycle
  if p.cfg.observe then restrictToObserve decided reading else decided

/-- A row with the figures of `common`. -/
def commonRow (p : Process) (t : Tick) (g : Graded) (isSnapshot : Bool) (prevState newState : LifecycleState)
    (reason : String) : LifecycleRowInput :=
  let status := t.input.read.prefix'
  { isSnapshot, prevState := some prevState, newState, reason
    keyId := status <|> t.blob.gatewayKeyPrefix
    keyHashPrefix := t.blob.gatewayKeyPrefix <|> (if p.cfg.gatewaySource then status else none)
    balanceUsd := some t.input.read.balanceUsd, reserveUsd := some p.cfg.lifecycle.reserveUsd
    ledgerSpendUsd := some t.ledgerSpendUsd, providerSpendUsd := some t.input.read.providerSpendUsd
    idsMismatch := t.ids.mismatch, billingStatus := some g.billingStatus }

def LifecycleRowInput.withKey (row : LifecycleRowInput) (key : Option String) : LifecycleRowInput :=
  { row with keyId := key, keyHashPrefix := key }

def LifecycleRowInput.marked (row : LifecycleRowInput) (idsMismatch : Bool) : LifecycleRowInput :=
  { row with idsMismatch }

/-- What the tick does after its decision, in order. -/
def actionsOf (p : Process) (t : Tick) (g : Graded) (now : Int) (d : LifecycleDecision) : List Action :=
  let row := commonRow p t g
  let created := some t.input.createdPrefix
  let mint : Action :=
    .mint ⟨t.input.createdPrefix, t.input.read.providerSpendUsd, t.ledgerSpendUsd, now⟩ t.input.createdKey
  let snapshot (s : LifecycleState) := row true s s s!"snapshot after → {s.text}"
  match d with
  | .steady _ reason => [.append (row true p.state p.state reason) none false]
  | .transition source target _ mints reason =>
    let keyed (r : LifecycleRowInput) := if mints then LifecycleRowInput.withKey r created else r
    (if mints then [mint] else []) ++
      [.append (keyed (row false source target reason)) (some target) false,
       .append (keyed (snapshot target)) none false]
  | .rotate source reason =>
    [.append (row false source .rotating reason) none false, mint,
     .append (LifecycleRowInput.withKey
       (row false .rotating .active s!"rotated to {t.input.createdPrefix} (hygiene)") created) (some .active) false,
     .append (LifecycleRowInput.withKey (snapshot .active) created) none false]
  | .revoke source reason =>
    -- only a compromise marks the row so that a restart stays halted
    let compromise := g.ep.phantom
    let why := if compromise then
        "revoked at provider after phantom spend — halting for manual re-auth (pnpm orbio:auth)"
      else "revoked at provider — key was unusable; will remint next tick"
    [.append (LifecycleRowInput.marked (row false source .revoking reason) compromise) none false,
     .revokeKey, .clearKey,
     .append (LifecycleRowInput.withKey
       (LifecycleRowInput.marked (row false .revoking .noKey why) compromise) none) (some .noKey) true,
     .append (LifecycleRowInput.withKey
       (LifecycleRowInput.marked (row true .noKey .noKey "snapshot after → NO_KEY (HALTED)") true) none) none false]

/-- The synchronous code between the last stamp and the first action. -/
def World.decide (w : World) (p : Process) (t : Tick) (g : Graded) (now : Int) : World :=
  let d := decision p t g now
  let w := if d.revokes then w.note (.revoking g.ep.phantom) else w
  { w with phase := .acting (actionsOf p t g now d) }

def World.insertLog (w : World) (p : Process) (row : LifecycleRowInput) (now : Int) : World :=
  { w with lifecycleLog := w.lifecycleLog ++ [{ row with createdAt := now }]
           seen := w.seen ++ (row.billingStatus.map (Event.recorded p.cfg.observe)).toList }

def Process.enter (p : Process) (enter : Option LifecycleState) (halts : Bool) : Process :=
  { p with state := enter.getD p.state, halted := p.halted || halts }

/-- One action. A `failed` one left nothing behind, an `ackLost` one took effect;
either ends the tick, except that a failed `orbio_revoke_key` is only logged. -/
def World.act (w : World) (p : Process) (action : Action) (rest : List Action) (outcome : PersistOutcome)
    (now : Int) : World :=
  let next (w : World) : World := { w with phase := if rest.isEmpty then .idle else .acting rest }
  match action with
  | .append row enter halts =>
    let w' := w.insertLog p row now
    match outcome with
    | .ok => next { w' with proc := some (p.enter enter halts) }
    | .failed => w.abort
    | .ackLost => w'.abort
  | .mint baseline key =>
    match outcome with
    | .ok =>
      next ({ w with store := ⟨some key, some baseline.keyPrefix, some baseline⟩ }.note .minted)
    | .failed => w.abort
    | .ackLost => (w.note .minted).abort
  | .revokeKey => next w
  | .clearKey =>
    match outcome with
    | .ok => next { w with store := ⟨none, none, none⟩ }
    | _ => w.abort

/-- The row of an activation carries no billing status. -/
def activationRow (p : Process) (input : TickInput) (ledgerSpendUsd : ℚ) (reason : String) : LifecycleRowInput :=
  { isSnapshot := false, prevState := some p.state, newState := p.state, reason, keyId := input.read.prefix'
    keyHashPrefix := input.read.prefix', balanceUsd := some input.read.balanceUsd
    reserveUsd := some p.cfg.lifecycle.reserveUsd, ledgerSpendUsd := some ledgerSpendUsd
    providerSpendUsd := some input.read.providerSpendUsd, idsMismatch := false, billingStatus := none }

/-- The grading, synchronous after the lag query. -/
def World.grade (w : World) (p : Process) (t : Tick) (win : EpochWindow) (est : WindowEstimate) (lagCount : Nat) :
    World :=
  let ep := reconcileEpoch (epochInput p.cfg t win est lagCount)
  let consecutiveAnomalies := nextAnomalies p ep
  let g : Graded := ⟨win, ep, Runner.billingStatus p.cfg ep consecutiveAnomalies⟩
  { w with proc := some { p with consecutiveAnomalies }, phase := .createEpoch t g }.note
    (.graded win t.input.read.providerSpendUsd w.spend ep)

/-- The next operation of the tick. A read that fails ends it. -/
def World.exec (w : World) (p : Process) (outcome : PersistOutcome) (now : Int) (newId : String) : World :=
  match w.phase with
  | .idle => w
  | .activating input reason =>
    let row := activationRow p input (totalSpendUsd none none w.spend) reason
    match outcome with
    | .ok => { w.insertLog p row now with phase := .readLedger input }
    | .failed => w.abort
    | .ackLost => (w.insertLog p row now).abort
  | .readLedger input =>
    if outcome ≠ .ok then w.abort
    else
      let ledgerSpendUsd := totalSpendUsd none none w.spend
      let blob := refreshBaseline w.store input.read ledgerSpendUsd now
      let ids := reconcileIds input.read.prefix' input.read.providerSpendUsd ledgerSpendUsd blob.spendBaseline
        p.cfg.lifecycle.idsToleranceUsd p.cfg.lifecycle.idsGraceUsd
      { w with store := blob, phase := .findEpochs ⟨input, ledgerSpendUsd, blob, ids⟩ }
  | .findEpochs t =>
    if outcome ≠ .ok then w.abort
    else { w with phase := .window t (epochWindow p.cfg t w.epochs now) }
  | .window t win =>
    if outcome ≠ .ok then w.abort
    else { w with phase := .lag t win (windowEstimate win.windowStart win.epochAt w.spend) }
  | .lag t win est =>
    if outcome ≠ .ok then w.abort
    else
      w.grade p t win est (win.lagRequestCount w.spend)
  | .createEpoch t g =>
    let row := epochRow t g newId
    let w' : World := { w with epochs := w.epochs ++ [row] }.note (.recorded p.cfg.observe g.billingStatus)
    match outcome with
    | .ok => { w' with phase := .stamp t g newId }
    | .failed => w.abort
    | .ackLost => w'.abort
  | .stamp t g epochId =>
    let since := g.window.windowStart
    let until' := g.window.epochAt
    match g.ep.reconciliationFactor with
    | none =>
      let w' : World := { w with spend := stampWindow since until' epochId w.spend }
      match outcome with
      | .ok => w'.decide p t g now
      | .failed => w.abort
      | .ackLost => w'.abort
    | some factor =>
      if outcome ≠ .ok then w.abort
      else
        match windowIds since until' w.spend with
        | [] => w.decide p t g now
        | rows => { w with phase := .stampRows t g epochId factor rows }
  | .stampRows t g epochId factor rows =>
    match rows with
    | [] => w.decide p t g now
    | (id, estimated) :: rows =>
      let w' : World := { w with spend := stampRow id estimated epochId factor w.spend }
      match outcome with
      | .ok => if rows.isEmpty then w'.decide p t g now else { w' with phase := .stampRows t g epochId factor rows }
      | .failed => w.abort
      | .ackLost => w'.abort
  | .acting [] => w.abort
  | .acting (action :: rest) => w.act p action rest outcome now

inductive Step
  /-- a spend row becomes visible -/
  | insertSpend (row : MetabolismSpend)
  | tick (input : TickInput)
  | exec (outcome : PersistOutcome) (now : Int) (newId : String)
  /-- a fresh process, its memory rebuilt from the log -/
  | start (cfg : RunnerConfig) (tie : Nat)
  /-- `pnpm orbio:auth`: renews the session, touches neither log nor key -/
  | reauth

def lastRow (tie : Nat) (log : List LoggedRow) : Option LoggedRow := Newest.newest LoggedRow.createdAt tie log

/-- The row makes a restart stay halted. -/
def LoggedRow.haltsStart (row : LoggedRow) : Bool :=
  row.newState = .noKey && (row.idsMismatch || row.billingStatus = some .phantom)

def startProcess (cfg : RunnerConfig) (last : Option LoggedRow) : Process :=
  { cfg, state := (last.map fun r => r.newState).getD .noKey, halted := last.any LoggedRow.haltsStart
    consecutiveAnomalies := 0 }

def World.step (w : World) : Step → World
  | .insertSpend row => { w with spend := w.spend ++ [row] }
  | .tick input =>
    match w.proc, w.phase with
    | some p, .idle =>
      match p.cfg.gatewaySource, input.activation with
      | true, some reason => { w with phase := .activating input reason }
      | _, _ => { w with phase := .readLedger input }
    | _, _ => w
  | .exec outcome now newId =>
    match w.proc with
    | some p => w.exec p outcome now newId
    | none => w
  | .start cfg tie =>
    { w with proc := some (startProcess cfg (lastRow tie w.lifecycleLog)), phase := .idle }.note .started
  | .reauth => w.note .reauthorised

/-- A tick of `ops` operations that all succeed, a millisecond each. -/
def wholeTick (input : TickInput) (now : Int) (newId : String) (ops : Nat) : List Step :=
  .tick input :: (List.range ops).map fun k => .exec .ok (now + k) newId

/-- A database and a store before the first process. -/
def World.init (store : OAuthBlob) (log : List LoggedRow) (spend : SpendTable) (epochs : List MetabolismEpoch) :
    World := ⟨store, log, spend, epochs, none, .idle, []⟩

end LaunchAuditor.Metabolism.Runner
