import LaunchAuditor.Leaderboard.Scorer
import LaunchAuditor.Lib.Tally
import LaunchAuditor.Report.Drafts
import LaunchAuditor.Scorer.Collect

/-! `apps/worker/src/scorer/coverage.ts`, `runScorer` of `benchmark.ts`, and the snapshot that `loop.ts` persists. -/

namespace LaunchAuditor.Scorer
open Chain Outcomes Scoring Db

structure CellCoverage where
  resolved : Int
  /-- horizon has passed, not yet graded -/
  pendingDue : Int
  /-- horizon still in the future; a difference of two counts -/
  pendingNotDue : Int
  unresolvable : Int
  na : Int
  /-- resolved backfill rows -/
  retrospectiveResolved : Int
  deriving DecidableEq, Repr

def CellCoverage.empty : CellCoverage := ⟨0, 0, 0, 0, 0, 0⟩

abbrev CoverageByCell := List (OutcomeKey × CellCoverage)

/-- `prisma.outcome.groupBy`, with the count of each group. -/
def groupBy {κ : Type} [DecidableEq κ] (key : Outcome → κ) (cond : Outcome → Bool) (db : WorkerDb) : List (κ × Nat) :=
  Counts.count ((db.outcomes.filter cond).map key)

def liveRow (o : Outcome) : Bool := !o.retrospective

def duePending (now : Int) (o : Outcome) : Bool :=
  liveRow o && decide (o.status = .PENDING) && o.horizonAt.any fun at_ => decide (at_ ≤ now)

def retroResolved (o : Outcome) : Bool := o.retrospective && decide (o.status = .RESOLVED)

/-- A change of the cell, which is there afterwards. -/
def changeCell (key : OutcomeKey) (change : CellCoverage → CellCoverage) (out : CoverageByCell) : CoverageByCell :=
  OrderedMap.alter key (fun c => change (c.getD .empty)) out

def countStatus (status : OutcomeRowStatus) (n : Nat) (c : CellCoverage) : CellCoverage :=
  match status with
  | .RESOLVED => { c with resolved := c.resolved + n }
  | .UNRESOLVABLE => { c with unresolvable := c.unresolvable + n }
  | .NA => { c with na := c.na + n }
  | .PENDING => { c with pendingNotDue := c.pendingNotDue + n }

def countDue (n : Nat) (c : CellCoverage) : CellCoverage :=
  { c with pendingDue := c.pendingDue + n, pendingNotDue := c.pendingNotDue - n }

def countRetro (n : Nat) (c : CellCoverage) : CellCoverage :=
  { c with retrospectiveResolved := c.retrospectiveResolved + n }

/-- What the three queries of `prismaCoverageReader` see: they are sent together, and each reads the table at its own time. -/
structure CoverageReads where
  byStatus : WorkerDb
  due : WorkerDb
  retro : WorkerDb

def prismaCoverageReader (reads : CoverageReads) (now : Int) : CoverageByCell :=
  let byStatus := groupBy (fun o => (cellKey o, o.status)) liveRow reads.byStatus
  let due := groupBy cellKey (duePending now) reads.due
  let retro := groupBy cellKey retroResolved reads.retro
  let out := byStatus.foldl (fun out g => changeCell g.1.1 (countStatus g.1.2 g.2) out) []
  let out := due.foldl (fun out g => changeCell g.1 (countDue g.2) out) out
  retro.foldl (fun out g => changeCell g.1 (countRetro g.2) out) out

def coverageOf (coverage : CoverageByCell) (key : OutcomeKey) : CellCoverage := (coverage.lookup key).getD .empty

def resolutionPolicy (qualifiedOnly : Bool) : String :=
  let scope :=
    if qualifiedOnly then
      "INSIDER_EXIT, SELL_IMPAIRED and LIQ_IMPAIRED are graded only for qualified launches (≥25 unique buyers in 10 min); DRAWDOWN_80 and TRADING_ALIVE for every launch."
    else "Every outcome is graded for every launch it applies to."
  "Outcomes are graded after their horizon passes, in order of due time, sharing one RPC budget fairly across labels. " ++
    s!"{scope} " ++
    "The resolver does not keep up with every forecast, so graded rows are not a random sample: they lean toward qualified launches and toward whichever launches were reached first."

/-- The row as the table is made from it. -/
def ScoreRow.published (r : ScoreRow) : Leaderboard.ScoreRow where
  obsId := s!"{r.obsId.chainId}|{Report.addressText r.obsId.token}|{Js.toISOString r.obsId.anchor}"
  forecaster := r.forecaster.text
  outcomeKey := r.outcomeKey
  trigger := r.trigger.text
  source := r.source
  prob := r.prob
  label := r.label

/-- A `Benchmark` with what the collector attaches to it. -/
structure ScoredBenchmark extends Leaderboard.Benchmark where
  exclusions : ExclusionCounts

structure ScorerRun where
  benchmark : ScoredBenchmark
  rowCount : Nat

section Loop
variable (math : Leaderboard.Numerics) (maps : ScannerMaps) (blockTimeOf : Nat → Option Int)

def runScorer (score : Leaderboard.ScoreOptions) (scope : Scope) (db : WorkerDb) : ScorerRun :=
  let result := collectScoreRows db maps ⟨scope, blockTimeOf⟩
  let table := Leaderboard.scoreBenchmark math (result.rows.map ScoreRow.published) score
  ⟨{ table with exclusions := result.exclusions }, result.rows.length⟩

structure BenchmarkSnapshot where
  generatedAt : String
  all : ScoredBenchmark
  live : ScoredBenchmark
  coverage : CoverageByCell
  resolutionPolicy : String

/-- The passes and the counts of one tick, with the tables each of them reads. -/
structure SnapshotReads where
  both : WorkerDb
  live : WorkerDb
  coverage : CoverageReads

def snapshot (score : Leaderboard.ScoreOptions) (qualifiedOnly : Bool) (reads : SnapshotReads) (now : Int) :
    BenchmarkSnapshot where
  generatedAt := Js.toISOString now
  all := (runScorer math maps blockTimeOf score .both reads.both).benchmark
  live := (runScorer math maps blockTimeOf score .live reads.live).benchmark
  coverage := prismaCoverageReader reads.coverage now
  resolutionPolicy := resolutionPolicy qualifiedOnly

/-- A tick in which nothing else is written. -/
def SnapshotReads.at (db : WorkerDb) : SnapshotReads := ⟨db, db, ⟨db, db, db⟩⟩

end Loop

end LaunchAuditor.Scorer
