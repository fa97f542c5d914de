import LaunchAuditor.Db.Launches
import LaunchAuditor.Watcher.Cluster

/-! Reports, outcomes and commits in `packages/db/prisma/schema.prisma`, and the tables the
pipeline works on. -/

namespace LaunchAuditor.Db
open Chain Outcomes Scoring Watcher

inductive ForecasterKind
  | base_rate
  | base_rate_fixed
  | heuristic_v1
  | det_v0
  | det_v0_1
  | det_v1
  | llm_deepdive_v0
  | scanhood
  | goplus
  deriving DecidableEq, Repr

def ForecasterKind.text : ForecasterKind → String
  | .base_rate => "base_rate"
  | .base_rate_fixed => "base_rate_fixed"
  | .heuristic_v1 => "heuristic_v1"
  | .det_v0 => "det_v0"
  | .det_v0_1 => "det_v0_1"
  | .det_v1 => "det_v1"
  | .llm_deepdive_v0 => "llm_deepdive_v0"
  | .scanhood => "scanhood"
  | .goplus => "goplus"

structure BlockPin where
  number : Nat
  hash : Word
  timestamp : Int
  deriving DecidableEq

/-- What is canonicalized, hashed and signed, but for its two constant versions. -/
structure ReportContent where
  chainId : Nat
  tokenAddress : Address
  launchId : Option String
  reportTime : Int
  trigger : ReportTrigger
  blockPin : BlockPin
  forecaster : ForecasterKind
  forecasterVersion : String
  probabilities : List (OutcomeKey × ℚ)
  /-- feature names that were null when this report was produced -/
  coverage : List String
  confidence : Option ℚ
  /-- claims, each with a transaction or a URL -/
  evidence : Option (List (String × Option String))
  deriving DecidableEq

structure Report where
  chainId : Nat
  tokenAddress : Address
  reportTime : Int
  trigger : ReportTrigger
  forecaster : ForecasterKind
  launchId : Option String
  /-- the probability columns that are not null -/
  columns : List (String × ℚ)
  /-- stands for the canonical text, and for its hash, by which a report is found -/
  content : ReportContent
  validatorPassed : Bool
  createdAt : Int
  commitId : Option String
  deriving DecidableEq

/-- The statuses of the table; a resolver gives the last three. -/
inductive OutcomeRowStatus
  | PENDING
  | RESOLVED
  | NA
  | UNRESOLVABLE
  deriving DecidableEq, Repr

def OutcomeRowStatus.text : OutcomeRowStatus → String
  | .PENDING => "PENDING"
  | .RESOLVED => "RESOLVED"
  | .NA => "NA"
  | .UNRESOLVABLE => "UNRESOLVABLE"

structure Outcome extends OutcomeRow where
  status : OutcomeRowStatus
  value : Option Bool
  retrospective : Bool
  deriving DecidableEq

def cellKey (o : Outcome) : OutcomeKey := ⟨o.label, o.horizon⟩

structure CommitRef where
  id : String
  blockNumber : Option Nat
  deriving DecidableEq

structure ClusterMember extends ClusterMemberResult where
  launchId : String
  deriving DecidableEq

/-- The tables of the pipeline, and the queue of T+10m jobs. -/
structure WorkerDb where
  launches : List Launch
  features : List Feature
  /-- the launches a job has been added for, whether it has run or not -/
  t10Jobs : List String
  clusterMembers : List ClusterMember
  reports : List Report
  outcomes : List Outcome
  commits : List CommitRef

namespace WorkerDb

def empty : WorkerDb := ⟨[], [], [], [], [], [], []⟩

def launch (db : WorkerDb) (id : String) : Option Launch := db.launches.find? fun l => decide (l.id = id)

def feature (db : WorkerDb) (launchId : String) : Option Feature :=
  db.features.find? fun f => decide (f.launchId = launchId)

/-- By the unique key of the table. -/
def launchOf (db : WorkerDb) (chainId : Nat) (token : Address) : Option Launch :=
  db.launches.find? fun l => decide (l.chainId = chainId ∧ l.tokenAddress = token)

/-- The block of the report's commit, when it has one. -/
def commitBlock (db : WorkerDb) (r : Report) : Option Nat :=
  match r.commitId with
  | none => none
  | some id => (db.commits.find? fun c => decide (c.id = id)).bind CommitRef.blockNumber

end WorkerDb

end LaunchAuditor.Db
