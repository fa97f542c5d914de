import LaunchAuditor.Leaderboard.Statistics
import LaunchAuditor.Js
import LaunchAuditor.Scoring.Vocabulary

/-! `packages/scoring/src/scorer.ts`. The exclusions, which the collector attaches, are left out. -/

namespace LaunchAuditor.Leaderboard
open Scoring

def MIN_FOR_METRICS : Nat := 100
def MIN_FOR_CLAIMS : Nat := 200
def MIN_POSITIVES_FOR_CLAIMS : Nat := 30

/-- One forecaster's prediction for one resolved outcome of one launch. -/
structure ScoreRow where
  /-- stable per-observation id -/
  obsId : String
  forecaster : String
  outcomeKey : OutcomeKey
  trigger : String
  source : String
  prob : ℚ
  label : Bool
  deriving DecidableEq

structure Comparison where
  vs : String
  /-- paired observations both forecasters have a prediction for -/
  n : Nat
  /-- positives among those -/
  positives : Nat
  aucDiff : Option ℚ
  z : Option ℚ
  p : Option ℚ
  claimAllowed : Bool
  note : String

structure PrEntry where
  threshold : ℚ
  precision : Option ℚ
  «recall» : Option ℚ

structure ForecasterCell where
  forecaster : String
  n : Nat
  positives : Nat
  baseRate : ℚ
  auroc : Option ℚ
  auprc : Option ℚ
  logLoss : Option ℚ
  brier : Option ℚ
  brierSkill : Option ℚ
  ece : Option ℚ
  pr : List PrEntry
  insufficientSample : Bool
  invertedRanking : Bool
  comparisons : List Comparison

inductive SplitBy
  | all
  | trigger
  | source
  deriving DecidableEq

structure BenchmarkSection where
  splitBy : SplitBy
  splitValue : String
  byOutcome : List (OutcomeKey × List ForecasterCell)

structure Benchmark where
  generatedAt : String
  thresholds : List ℚ
  minForMetrics : Nat
  minForClaims : Nat
  minPositivesForClaims : Nat
  sections : List BenchmarkSection

structure ScoreOptions where
  thresholds : List ℚ
  /-- every other forecaster is compared against these -/
  baselines : List String
  now : Int

/-- `bm.get(obsId)`: of the rows with one id the last is in the map. -/
def rowOf (rows : List ScoreRow) (obsId : String) : Option ScoreRow := rows.reverse.find? fun r => decide (r.obsId = obsId)

structure Aligned where
  pa : List ℚ
  pb : List ℚ
  y : List Bool

def alignByObs (a b : List ScoreRow) : Aligned :=
  let pairs := a.filterMap fun r => (rowOf b r.obsId).map fun m => (r, m)
  { pa := pairs.map fun p => p.1.prob, pb := pairs.map fun p => p.2.prob, y := pairs.map fun p => p.1.label }

def round4 (x : ℚ) : ℚ := Js.roundDouble 10000 x

def nullableRound (x : Option ℚ) : Option ℚ := x.map round4

/-- Hanley and McNeil's. -/
def aurocStandardError (math : Numerics) (auc : ℚ) (positives : Nat) (negatives : Int) : Option ℚ :=
  if positives < 2 ∨ negatives < 2 then none
  else
    let q1 := auc / (2 - auc)
    let q2 := 2 * auc * auc / (1 + auc)
    let v := (auc * (1 - auc) + (positives - 1) * (q1 - auc * auc) + (negatives - 1) * (q2 - auc * auc)) /
      (positives * negatives)
    if 0 ≤ v then some (math.sqrt v) else none

def isInvertedRanking (math : Numerics) (auc : Option ℚ) (n positives : Nat) : Bool :=
  match auc with
  | none => false
  | some auc =>
    if n < MIN_FOR_CLAIMS ∨ positives < MIN_POSITIVES_FOR_CLAIMS then false
    else
      match aurocStandardError math auc positives (n - positives) with
      | none => false
      | some se => if se = 0 then decide (auc < 1 / 2) else decide ((1 / 2 - auc) / se > 196 / 100)

/-- Whether a comparison with this test result may be claimed. -/
def claimGate (auc : Option ℚ) (y : List Bool) (dl : DeLongResult) : Bool :=
  let enoughPositives := decide (countTrue y ≥ MIN_POSITIVES_FOR_CLAIMS)
  let ownAucAboveChance := auc.any fun auc => decide (auc > 1 / 2)
  decide (y.length ≥ MIN_FOR_CLAIMS) && enoughPositives && ownAucAboveChance && decide (dl.p < 5 / 100) && decide (dl.diff > 0)

def claimNote (auc : Option ℚ) (y : List Bool) (dl : DeLongResult) : String :=
  if y.length < MIN_FOR_CLAIMS then s!"insufficient sample ({y.length} < {MIN_FOR_CLAIMS})"
  else if countTrue y < MIN_POSITIVES_FOR_CLAIMS then
    s!"insufficient positives ({countTrue y} < {MIN_POSITIVES_FOR_CLAIMS})"
  else if !auc.any fun auc => decide (auc > 1 / 2) then "own AUROC ≤ 0.5 — beating an inverted comparator is not a win"
  else if claimGate auc y dl then "significant AUROC gain"
  else if dl.diff ≤ 0 then "no gain"
  else "not significant"

/-- The comparison of the rows of a cell with those of a baseline. -/
def comparison (math : Numerics) (auc : Option ℚ) (rows bRows : List ScoreRow) (base : String) : Comparison :=
  let aligned := alignByObs rows bRows
  match fastDeLongIn Js.double math aligned.pa aligned.pb aligned.y with
  | none =>
    { vs := base, n := aligned.y.length, positives := countTrue aligned.y, aucDiff := none, z := none, p := none
      claimAllowed := false, note := "insufficient overlap / single class" }
  | some dl =>
    { vs := base, n := aligned.y.length, positives := countTrue aligned.y
      aucDiff := some (round4 dl.diff), z := some (round4 dl.z), p := some (round4 dl.p)
      claimAllowed := claimGate auc aligned.y dl, note := claimNote auc aligned.y dl }

/-- The rows of one forecaster; `peers.get(f)` has them when there are any. -/
def peerRows (okRows : List ScoreRow) (f : String) : List ScoreRow := okRows.filter fun r => decide (r.forecaster = f)

def comparisons (math : Numerics) (auc : Option ℚ) (forecaster : String) (rows okRows : List ScoreRow)
    (baselines : List String) : List Comparison :=
  baselines.filterMap fun base =>
    if base = forecaster ∨ peerRows okRows base = [] then none
    else some (comparison math auc rows (peerRows okRows base) base)

/-- What is published of too small a sample: its counts. -/
def insufficientCell (forecaster : String) (rows : List ScoreRow) : ForecasterCell where
  forecaster
  n := rows.length
  positives := countTrue (rows.map ScoreRow.label)
  baseRate := round4 (Leaderboard.baseRate (rows.map ScoreRow.label))
  auroc := none
  auprc := none
  logLoss := none
  brier := none
  brierSkill := none
  ece := none
  pr := []
  insufficientSample := true
  invertedRanking := false
  comparisons := []

def sufficientCell (math : Numerics) (forecaster : String) (rows okRows : List ScoreRow) (baselines : List String)
    (thresholds : List ℚ) : ForecasterCell :=
  let probs := rows.map ScoreRow.prob
  let labels := rows.map ScoreRow.label
  let br := Leaderboard.baseRate labels
  let brier := brierScore probs labels
  let refBrier := brierScore (labels.map fun _ => br) labels
  let auc := aurocIn Js.double probs labels
  let entry (t : ℚ) : PrEntry :=
    let r := precisionRecallAt probs labels t
    ⟨t, nullableRound r.precision, nullableRound r.recall⟩
  { forecaster
    n := rows.length
    positives := countTrue labels
    baseRate := round4 br
    auroc := nullableRound auc
    auprc := nullableRound (Leaderboard.auprc probs labels)
    logLoss := nullableRound (Leaderboard.logLoss math probs labels)
    brier := nullableRound brier
    brierSkill := match brier, refBrier with
      | some brier, some refBrier => nullableRound (Leaderboard.brierSkill brier refBrier)
      | _, _ => none
    ece := nullableRound (Leaderboard.ece probs labels)
    pr := thresholds.map entry
    insufficientSample := false
    invertedRanking := isInvertedRanking math auc rows.length (countTrue labels)
    comparisons := comparisons math auc forecaster rows okRows baselines }

def cell (math : Numerics) (forecaster : String) (rows okRows : List ScoreRow) (baselines : List String)
    (thresholds : List ℚ) : ForecasterCell :=
  if rows.length < MIN_FOR_METRICS then insufficientCell forecaster rows
  else sufficientCell math forecaster rows okRows baselines thresholds

/-- The cells of one outcome key, best AUROC first. -/
def outcomeCells (math : Numerics) (okRows : List ScoreRow) (baselines : List String) (thresholds : List ℚ) :
    List ForecasterCell :=
  ((Js.setOf (okRows.map ScoreRow.forecaster)).map fun f =>
    cell math f (peerRows okRows f) okRows baselines thresholds).insertionSort fun a b => b.auroc.getD 0 ≤ a.auroc.getD 0

def keyRows (rows : List ScoreRow) (key : OutcomeKey) : List ScoreRow := rows.filter fun r => decide (r.outcomeKey = key)

def sectionFor (math : Numerics) (splitBy : SplitBy) (splitValue : String) (rows : List ScoreRow) (baselines : List String)
    (thresholds : List ℚ) : BenchmarkSection where
  splitBy
  splitValue
  byOutcome := (Js.setOf (rows.map ScoreRow.outcomeKey)).map fun ok =>
    (ok, outcomeCells math (keyRows rows ok) baselines thresholds)

/-- The distinct values in the order of their code units. -/
def sortedSet (values : List String) : List String :=
  (Js.setOf values).insertionSort fun a b => Js.codeUnits a ≤ Js.codeUnits b

/-- The rows of a section. -/
def splitRows (rows : List ScoreRow) (splitBy : SplitBy) (splitValue : String) : List ScoreRow :=
  match splitBy with
  | .all => rows
  | .trigger => rows.filter fun r => decide (r.trigger = splitValue)
  | .source => rows.filter fun r => decide (r.source = splitValue)

/-- All rows, then split by trigger, then by source. -/
def splits (rows : List ScoreRow) : List (SplitBy × String) :=
  (.all, "all") :: (sortedSet (rows.map ScoreRow.trigger)).map (fun t => (.trigger, t)) ++
    (sortedSet (rows.map ScoreRow.source)).map fun s => (.source, s)

def scoreBenchmark (math : Numerics) (rows : List ScoreRow) (opts : ScoreOptions) : Benchmark where
  generatedAt := Js.toISOString opts.now
  thresholds := opts.thresholds
  minForMetrics := MIN_FOR_METRICS
  minForClaims := MIN_FOR_CLAIMS
  minPositivesForClaims := MIN_POSITIVES_FOR_CLAIMS
  sections := (splits rows).map fun s => sectionFor math s.1 s.2 (splitRows rows s.1 s.2) opts.baselines opts.thresholds

def DEFAULT_THRESHOLDS : List ℚ := [1 / 2]

def DEFAULT_BASELINES : List String := ["base_rate", "base_rate_fixed", "heuristic_v1"]

end LaunchAuditor.Leaderboard
