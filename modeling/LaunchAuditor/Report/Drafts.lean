import LaunchAuditor.Db.Reports
import LaunchAuditor.Hex
import LaunchAuditor.Js
import LaunchAuditor.Lib.Keyed
import LaunchAuditor.Scoring.Vocabulary

/-! `validate.ts`, `persist.ts` and the draft of `types.ts` of `apps/worker/src/report`, with
`outcomes/enumerate.ts`. -/

namespace LaunchAuditor.Report
open Chain Outcomes Scoring Db

structure ReportDraft where
  content : ReportContent
  /-- who signed it -/
  signer : Option Address
  validatorPassed : Bool
  validatorFailures : List String

structure ValidateOptions where
  expectedChainId : Nat
  expectedToken : Address
  agentAddress : Address

def HIGH_UNKNOWN_RATIO : ℚ := 7 / 10

def PASS_FLOOR : ℚ := 5 / 100

/-- `totalFeatures`, the approximate number of feature inputs -/
def TOTAL_FEATURES : Nat := 21

/-- In lower case. -/
def addressText (a : Address) : String :=
  Hex.toString ((List.range 40).reverse.map fun i => HexDigit.ofNibble (a.toNat / 16 ^ i % 16))

def keyText (key : OutcomeKey) : String := key.label.text ++ "@" ++ key.horizon

/-- `Math.min`, without a value for no arguments. -/
def minProbability (probs : List (OutcomeKey × ℚ)) : Option ℚ := (probs.map Prod.snd).min?

def chainFailures (c : ReportContent) (o : ValidateOptions) : List String :=
  (if c.chainId ≠ o.expectedChainId then [s!"chainId {c.chainId} != expected {o.expectedChainId}"] else []) ++
    (if c.tokenAddress ≠ o.expectedToken then
      [s!"tokenAddress {addressText c.tokenAddress} != expected {addressText o.expectedToken}"] else [])

/-- A hash has 32 bytes by its type. -/
def pinFailures (pin : BlockPin) : List String :=
  (if pin.number = 0 then ["block pin number missing or non-positive"] else []) ++
    (if pin.timestamp ≤ 0 then ["block pin timestamp missing or invalid"] else [])

def probabilityFailures (probs : List (OutcomeKey × ℚ)) : List String :=
  (if probs = [] then ["no probabilities"] else []) ++
    probs.filterMap fun p =>
      if p.2 < 0 ∨ 1 < p.2 then some s!"probability {keyText p.1} out of range: {Js.numberText p.2}" else none

/-- A clean call that rests on features nobody knew. -/
def unknownFailures (c : ReportContent) : List String :=
  if HIGH_UNKNOWN_RATIO * TOTAL_FEATURES ≤ c.coverage.length then
    match minProbability c.probabilities with
    | none => []
    | some minP =>
      if minP < PASS_FLOOR then
        [s!"clean call (min p={Js.numberText minP}) with {c.coverage.length}/{TOTAL_FEATURES} features unknown"]
      else []
  else []

def signerFailures (signer : Option Address) (agentAddress : Address) : List String :=
  match signer with
  | none => ["report is unsigned"]
  | some signer =>
    if signer ≠ agentAddress then [s!"signer {addressText signer} != agent identity {addressText agentAddress}"] else []

/-- The failures; a report passes without any. The hash is that of the content. -/
def validateReport (content : ReportContent) (signer : Option Address) (o : ValidateOptions) : List String :=
  chainFailures content o ++ pinFailures content.blockPin ++ probabilityFailures content.probabilities ++
    unknownFailures content ++ signerFailures signer o.agentAddress

end LaunchAuditor.Report

namespace LaunchAuditor.Report
open Chain Outcomes Scoring Db

def OUTCOME_COLUMN : List (OutcomeKey × String) :=
  [(⟨.INSIDER_EXIT, "6h"⟩, "pInsiderExit6h"), (⟨.INSIDER_EXIT, "24h"⟩, "pInsiderExit24h"),
    (⟨.INSIDER_EXIT, "72h"⟩, "pInsiderExit72h"), (⟨.SELL_IMPAIRED, "1h"⟩, "pSellImpaired1h"),
    (⟨.SELL_IMPAIRED, "24h"⟩, "pSellImpaired24h"), (⟨.LIQ_IMPAIRED, "24h"⟩, "pLiqImpaired24h"),
    (⟨.LIQ_IMPAIRED, "7d"⟩, "pLiqImpaired7d"), (⟨.DRAWDOWN_80, "24h"⟩, "pDrawdown80_24h"),
    (⟨.DRAWDOWN_80, "7d"⟩, "pDrawdown80_7d"), (⟨.TRADING_ALIVE, "24h"⟩, "pTradingAlive24h"),
    (⟨.TRADING_ALIVE, "7d"⟩, "pTradingAlive7d")]

/-- The columns that are not null. -/
def probabilitiesToColumns (p : List (OutcomeKey × ℚ)) : List (String × ℚ) :=
  OUTCOME_COLUMN.filterMap fun c => (p.lookup c.1).map fun prob => (c.2, prob)

/-- How the awaited operations of one `persistLaunchReports` end. -/
structure PersistCalls where
  /-- the n-th draft's -/
  upsert : Nat → WriteEnd
  /-- what the database sets on the n-th row when it is new -/
  createdAt : Nat → Int
  findLaunch : Option RpcError
  createMany : WriteEnd
  outcomeId : OutcomeKey → String

def newReport (d : ReportDraft) (createdAt : Int) : Db.Report where
  chainId := d.content.chainId
  tokenAddress := d.content.tokenAddress
  reportTime := d.content.reportTime
  trigger := d.content.trigger
  forecaster := d.content.forecaster
  launchId := d.content.launchId
  columns := probabilitiesToColumns d.content.probabilities
  content := d.content
  validatorPassed := d.validatorPassed
  createdAt
  commitId := none

/-- By the hash: a report that is there keeps all but its validation. -/
def upsertReport (d : ReportDraft) (createdAt : Int) (db : WorkerDb) : WorkerDb :=
  { db with
    reports :=
      if db.reports.any fun r => decide (r.content = d.content) then
        db.reports.map fun r => if r.content = d.content then { r with validatorPassed := d.validatorPassed } else r
      else db.reports ++ [newReport d createdAt] }

/-- The loop over the drafts from the n-th, which the first failure ends. -/
def upsertReports (calls : PersistCalls) : Nat → List ReportDraft → WorkerDb → Except RpcError Unit × WorkerDb
  | _, [], db => (.ok (), db)
  | n, d :: drafts, db =>
    match (calls.upsert n).apply (upsertReport d (calls.createdAt n)) db with
    | (.error e, db) => (.error e, db)
    | (.ok _, db) => upsertReports calls (n + 1) drafts db

structure EnsureOutcomeInput where
  chainId : Nat
  tokenAddress : Address
  reportTime : Int
  trigger : ReportTrigger
  launchId : Option String
  lpLockedByConstruction : Bool
  retrospective : Bool

/-- The row of one cell. -/
def outcomeRow (input : EnsureOutcomeInput) (outcomeId : OutcomeKey → String) (key : OutcomeKey) : Outcome where
  id := outcomeId key
  chainId := input.chainId
  tokenAddress := input.tokenAddress
  anchorTime := input.reportTime
  trigger := input.trigger
  launchId := input.launchId
  label := key.label
  horizon := key.horizon
  ruleVersion := "v1"
  horizonAt := some (input.reportTime + horizonMs key.horizon)
  status := if outcomeApplies key input.lpLockedByConstruction then .PENDING else .NA
  value := none
  retrospective := input.retrospective

/-- The unique key of the table. -/
def outcomeKeyOf (o : OutcomeRow) : Nat × Address × Int × OutcomeLabel × String × String :=
  (o.chainId, o.tokenAddress, o.anchorTime, o.label, o.horizon, o.ruleVersion)

/-- `createMany` with `skipDuplicates` -/
def createOutcomes (rows : List Outcome) (db : WorkerDb) : WorkerDb :=
  { db with outcomes := rows.foldl (Keyed.push fun o => outcomeKeyOf o.toOutcomeRow) db.outcomes }

def ensureOutcomeRows (w : WriteEnd) (outcomeId : OutcomeKey → String) (input : EnsureOutcomeInput) (db : WorkerDb) :
    Except RpcError Unit × WorkerDb :=
  w.apply (createOutcomes (ALL_OUTCOME_KEYS.map (outcomeRow input outcomeId))) db

structure PersistResult where
  stored : Nat
  passed : Nat
  failed : Nat

def persistResult (drafts : List ReportDraft) : PersistResult :=
  let passed := drafts.countP ReportDraft.validatorPassed
  ⟨drafts.length, passed, drafts.length - passed⟩

/-- The outcome grid for the anchor of the batch, which the first draft stands for. -/
def ensureGrid (calls : PersistCalls) (drafts : List ReportDraft) (db : WorkerDb) : Except RpcError Unit × WorkerDb :=
  match drafts with
  | [] => (.ok (), db)
  | first :: _ =>
    match first.content.launchId with
    | none => (.ok (), db)
    | some launchId =>
      match calls.findLaunch with
      | some e => (.error e, db)
      | none =>
        match db.launch launchId with
        | none => (.ok (), db)
        | some launch =>
          ensureOutcomeRows calls.createMany calls.outcomeId
            ⟨first.content.chainId, first.content.tokenAddress, first.content.reportTime, first.content.trigger,
              first.content.launchId, launch.lpLockedByConstruction, launch.retrospective⟩ db

def persistLaunchReports (calls : PersistCalls) (drafts : List ReportDraft) (db : WorkerDb) :
    Except RpcError PersistResult × WorkerDb :=
  match upsertReports calls 0 drafts db with
  | (.error e, db) => (.error e, db)
  | (.ok _, db) =>
    match ensureGrid calls drafts db with
    | (.error e, db) => (.error e, db)
    | (.ok _, db) => (.ok (persistResult drafts), db)

end LaunchAuditor.Report
