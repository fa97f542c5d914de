import LaunchAuditor.Db.Reports
import LaunchAuditor.Lib.OrderedMap
import LaunchAuditor.Scoring.Vocabulary
import Mathlib.Data.List.Sort

/-! `apps/worker/src/scorer/collect.ts` -/

namespace LaunchAuditor.Scorer
open Chain Outcomes Scoring Db

def P_COL : List (OutcomeKey × String) :=
  [(⟨.INSIDER_EXIT, "6h"⟩, "pInsiderExit6h"), (⟨.INSIDER_EXIT, "24h"⟩, "pInsiderExit24h"),
    (⟨.INSIDER_EXIT, "72h"⟩, "pInsiderExit72h"), (⟨.SELL_IMPAIRED, "1h"⟩, "pSellImpaired1h"),
    (⟨.SELL_IMPAIRED, "24h"⟩, "pSellImpaired24h"), (⟨.LIQ_IMPAIRED, "24h"⟩, "pLiqImpaired24h"),
    (⟨.LIQ_IMPAIRED, "7d"⟩, "pLiqImpaired7d"), (⟨.DRAWDOWN_80, "24h"⟩, "pDrawdown80_24h"),
    (⟨.DRAWDOWN_80, "7d"⟩, "pDrawdown80_7d"), (⟨.TRADING_ALIVE, "24h"⟩, "pTradingAlive24h"),
    (⟨.TRADING_ALIVE, "7d"⟩, "pTradingAlive7d")]

/-- Forecasters computed here inherit this one's eligibility. -/
def REFERENCE_FORECASTER : ForecasterKind := .det_v0

def THIRTY_DAYS_MS : Int := 30 * 24 * 3600000

/-- `${chainId}|${token}|${anchor}` -/
structure ObsKey where
  chainId : Nat
  token : Address
  anchor : Int
  deriving DecidableEq

def horizonEndOf (anchor : Int) (key : OutcomeKey) : Int := anchor + horizonMs key.horizon

structure ResolvedObs where
  chainId : Nat
  token : Address
  anchor : Int
  trigger : ReportTrigger
  launchId : Option String
  labels : List (OutcomeKey × Bool)

inductive Scope
  | live
  | retrospective
  | both
  deriving DecidableEq

structure CollectOptions where
  scope : Scope
  /-- chain timestamp of a block -/
  blockTimeOf : Nat → Option Int

/-- The maps from a scanner's payload to probabilities. -/
structure ScannerMaps where
  scanhoodToProbabilities : Json → List (OutcomeKey × ℚ)
  goplusToProbabilities : Json → List (OutcomeKey × ℚ)

structure ScoreRow where
  obsId : ObsKey
  forecaster : ForecasterKind
  outcomeKey : OutcomeKey
  trigger : ReportTrigger
  source : String
  prob : ℚ
  label : Bool
  deriving DecidableEq

/-- A report-outcome pair with its class, eligible or not. -/
structure ScorePair extends ScoreRow where
  cls : Eligibility
  deriving DecidableEq

def outcomeWhere (scope : Scope) (o : Outcome) : Bool :=
  decide (o.status = .RESOLVED) && o.value.isSome &&
    match scope with
    | .live => !o.retrospective
    | .retrospective => o.retrospective
    | .both => true

def obsKeyOf (o : Outcome) : ObsKey := ⟨o.chainId, o.tokenAddress, o.anchorTime⟩

/-- The observation of an outcome's anchor, with the label the outcome gives it. -/
def labelObs (o : Outcome) (entry : Option ResolvedObs) : ResolvedObs :=
  let e := entry.getD ⟨o.chainId, o.tokenAddress, o.anchorTime, o.trigger, o.launchId, []⟩
  { e with labels := OrderedMap.set ⟨o.label, o.horizon⟩ (o.value = some true) e.labels }

def observations (outcomes : List Outcome) : List (ObsKey × ResolvedObs) :=
  outcomes.foldl (fun obs o => OrderedMap.alter (obsKeyOf o) (labelObs o) obs) []

/-- The labels of a cell with their anchors. -/
def cellLabels (obs : List (ObsKey × ResolvedObs)) (key : OutcomeKey) : List (Int × Bool) :=
  obs.filterMap fun a => (a.2.labels.lookup key).map fun y => (a.2.anchor, y)

/-- Oldest first. -/
def perKey (obs : List (ObsKey × ResolvedObs)) (key : OutcomeKey) : List (Int × Bool) :=
  (cellLabels obs key).insertionSort fun a b => a.1 ≤ b.1

def positives (labels : List (Int × Bool)) : Nat := labels.countP Prod.snd

/-- The share of positive labels. -/
def share (labels : List (Int × Bool)) : ℚ := if labels = [] then 0 else Js.double (positives labels / labels.length)

/-- The loop over the labels before an instant: how many of the last thirty days, and how many of them are positive. -/
def trailingCounts (at_ : Int) : List (Int × Bool) → Nat × Nat
  | [] => (0, 0)
  | r :: arr =>
    if r.1 ≥ at_ then (0, 0)
    else
      let (tot, pos) := trailingCounts at_ arr
      if r.1 ≥ at_ - THIRTY_DAYS_MS then (tot + 1, if r.2 then pos + 1 else pos) else (tot, pos)

def trailingBaseRate (arr : List (Int × Bool)) (at_ : Int) : ℚ :=
  let (tot, pos) := trailingCounts at_ arr
  if tot = 0 then share (arr.filter fun r => decide (r.1 < at_)) else Js.double (pos / tot)

/-- The prevalence over the whole sample. -/
def fixedBaseRate (arr : List (Int × Bool)) : ℚ := share arr

def round4 (x : ℚ) : ℚ := Js.roundDouble 10000 x

/-- Oldest first. -/
def reportLe (r s : Report) : Prop := r.reportTime < s.reportTime ∨ r.reportTime = s.reportTime ∧ r.createdAt ≤ s.createdAt

instance (r s : Report) : Decidable (reportLe r s) := inferInstanceAs (Decidable (_ ∨ _))

def reportsInOrder (db : WorkerDb) : List Report :=
  (db.reports.filter Report.validatorPassed).insertionSort reportLe

def reportObs (r : Report) : ObsKey := ⟨r.chainId, r.tokenAddress, r.reportTime⟩

def sourceOf (db : WorkerDb) (launchId : Option String) : String :=
  ((launchId.bind db.launch).map Launch.source).getD "unknown"

/-- The forecast of a report for a cell, in the column that holds it. -/
def probOf (r : Report) (key : OutcomeKey) : Option ℚ := (P_COL.lookup key).bind fun col => r.columns.lookup col

def reportClass (db : WorkerDb) (opts : CollectOptions) (r : Report) (key : OutcomeKey) : Eligibility :=
  let block := db.commitBlock r
  classifyEligibility ⟨r.reportTime, block.isSome, block.bind opts.blockTimeOf, horizonEndOf r.reportTime key⟩

/-- What a report adds for each cell that is labelled and that it gives a probability for. -/
def reportPairs (db : WorkerDb) (opts : CollectOptions) (obs : List (ObsKey × ResolvedObs)) (r : Report) : List ScorePair :=
  match obs.lookup (reportObs r) with
  | none => []
  | some e =>
    ALL_OUTCOME_KEYS.filterMap fun key => do
      let label ← e.labels.lookup key
      let prob ← probOf r key
      return ⟨⟨reportObs r, r.forecaster, key, r.trigger, sourceOf db r.launchId, prob, label⟩, reportClass db opts r key⟩

/-- The reference forecaster's class: that of its first pair. -/
def refClass (pairs : List ScorePair) (k : ObsKey) (key : OutcomeKey) : Eligibility :=
  ((pairs.find? fun p => decide (p.forecaster = REFERENCE_FORECASTER ∧ p.obsId = k ∧ p.outcomeKey = key)).map
    ScorePair.cls).getD .uncommitted

/-- Both baselines for one cell, in the class of the reference forecaster. -/
def baseCell (db : WorkerDb) (obs : List (ObsKey × ResolvedObs)) (refs : List ScorePair) (e : ResolvedObs)
    (key : OutcomeKey) (label : Bool) : List ScorePair :=
  let k : ObsKey := ⟨e.chainId, e.token, e.anchor⟩
  let cls := refClass refs k key
  let source := sourceOf db e.launchId
  [⟨⟨k, .base_rate, key, e.trigger, source, round4 (trailingBaseRate (perKey obs key) e.anchor), label⟩, cls⟩,
    ⟨⟨k, .base_rate_fixed, key, e.trigger, source, round4 (fixedBaseRate (perKey obs key)), label⟩, cls⟩]

def basePairs (db : WorkerDb) (obs : List (ObsKey × ResolvedObs)) (refs : List ScorePair) : List ScorePair :=
  obs.flatMap fun a => a.2.labels.flatMap fun l => baseCell db obs refs a.2 l.1 l.2

/-- The launch's earliest report of the trigger `launch` or `qualified` with a resolved outcome. -/
def launchAnchors (obs : List (ObsKey × ResolvedObs)) (reports : List Report) : List (String × ObsKey) :=
  reports.foldl (fun anchors r =>
    match obs.lookup (reportObs r), r.launchId with
    | some _, some launchId =>
      if r.trigger = .launch ∨ r.trigger = .qualified then OrderedMap.setNew launchId (reportObs r) anchors else anchors
    | _, _ => anchors) []

/-- A scanner's pair for one cell; it needs a timely fetch. -/
def scannerPair (forecaster : ForecasterKind) (probs : List (OutcomeKey × ℚ)) (fetchedAt : Option Int) (source : String)
    (refs : List ScorePair) (k : ObsKey) (e : ResolvedObs) (key : OutcomeKey) (label : Bool) : Option ScorePair :=
  (probs.lookup key).map fun prob =>
    let ref := refClass refs k key
    let cls := if ref = .eligible && !scannerFetchIsTimely e.anchor fetchedAt then .replay else ref
    ⟨⟨k, forecaster, key, e.trigger, source, prob, label⟩, cls⟩

/-- The pairs of both scanners for the launch of a feature vector. -/
def featurePairs (db : WorkerDb) (maps : ScannerMaps) (obs : List (ObsKey × ResolvedObs)) (anchors : List (String × ObsKey))
    (refs : List ScorePair) (f : Feature) : List ScorePair :=
  match db.launch f.launchId, anchors.lookup f.launchId with
  | some launch, some k =>
    match obs.lookup k with
    | none => []
    | some e =>
      let shProbs := (f.scanhoodRaw.map maps.scanhoodToProbabilities).getD []
      let gpProbs := (f.goplusRaw.map maps.goplusToProbabilities).getD []
      e.labels.flatMap fun l =>
        (scannerPair .scanhood shProbs f.scanhoodFetchedAt launch.source refs k e l.1 l.2).toList ++
          (scannerPair .goplus gpProbs f.goplusFetchedAt launch.source refs k e l.1 l.2).toList
  | _, _ => []

/-- counts[outcomeKey][forecaster][class] -/
abbrev ExclusionCounts := List ((OutcomeKey × ForecasterKind × Eligibility) × Nat)

def countExclusion (counts : ExclusionCounts) (key : OutcomeKey) (forecaster : ForecasterKind) (e : Eligibility) :
    ExclusionCounts :=
  OrderedMap.alter (key, forecaster, e) (fun n => n.getD 0 + 1) counts

structure CollectResult where
  /-- eligible pairs only -/
  rows : List ScoreRow
  exclusions : ExclusionCounts

def scoredObs (db : WorkerDb) (scope : Scope) : List (ObsKey × ResolvedObs) :=
  observations (db.outcomes.filter (outcomeWhere scope))

def fromReports (db : WorkerDb) (opts : CollectOptions) : List ScorePair :=
  (reportsInOrder db).flatMap (reportPairs db opts (scoredObs db opts.scope))

/-- Every pair of the pass. -/
def collectPairs (db : WorkerDb) (maps : ScannerMaps) (opts : CollectOptions) : List ScorePair :=
  let obs := scoredObs db opts.scope
  if obs = [] then []
  else
    let anchors := launchAnchors obs (reportsInOrder db)
    fromReports db opts ++ basePairs db obs (fromReports db opts) ++
      db.features.flatMap (featurePairs db maps obs anchors (fromReports db opts))

def collectScoreRows (db : WorkerDb) (maps : ScannerMaps) (opts : CollectOptions) : CollectResult where
  rows := (collectPairs db maps opts).filterMap fun p => if p.cls = .eligible then some p.toScoreRow else none
  exclusions := (collectPairs db maps opts).foldl (fun counts p => countExclusion counts p.outcomeKey p.forecaster p.cls) []

def exitOutcome (token : Address) (anchorTime : Int) (value : Bool) : Outcome where
  id := "o"
  chainId := 4663
  tokenAddress := token
  anchorTime
  trigger := .launch
  launchId := none
  label := .INSIDER_EXIT
  horizon := "72h"
  ruleVersion := "v1"
  horizonAt := some (anchorTime + horizonMs "72h")
  status := .RESOLVED
  value := some value
  retrospective := false

/-- A forecast at one hour. -/
def exitReport (token : Address) (forecaster : ForecasterKind) (trigger : ReportTrigger) (createdAt : Int)
    (commitId : Option String) : Report where
  chainId := 4663
  tokenAddress := token
  reportTime := 3600000
  trigger
  forecaster
  launchId := none
  columns := [("pInsiderExit72h", 1 / 2)]
  content :=
    ⟨4663, token, none, 3600000, trigger, ⟨36000, 0#256, 3600000⟩, forecaster, "v0", [(⟨.INSIDER_EXIT, "72h"⟩, 1 / 2)], [], none, none⟩
  validatorPassed := true
  createdAt
  commitId

/-- The commit's block is a minute after the anchor. -/
def minuteLater : CollectOptions := ⟨.both, fun _ => some 3660000⟩

/-- A report that was not committed is counted, and so are the baselines, but none of them is scored. -/
example : (collectScoreRows { WorkerDb.empty with
      outcomes := [exitOutcome 1#160 3600000 true], reports := [exitReport 1#160 .det_v0 .launch 3600000 none] }
    ⟨fun _ => [], fun _ => []⟩ minuteLater).exclusions =
      [((⟨.INSIDER_EXIT, "72h"⟩, .det_v0, .uncommitted), 1), ((⟨.INSIDER_EXIT, "72h"⟩, .base_rate, .uncommitted), 1),
        ((⟨.INSIDER_EXIT, "72h"⟩, .base_rate_fixed, .uncommitted), 1)] := by decide +kernel

end LaunchAuditor.Scorer
