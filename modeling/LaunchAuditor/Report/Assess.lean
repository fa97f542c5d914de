import LaunchAuditor.Deepdive.Agent
import LaunchAuditor.Report.Assemble

/-! `apps/worker/src/assess.ts`, and the deep dive's report in `deepdive/report.ts` -/

namespace LaunchAuditor.Report
open Chain Outcomes Scoring Db Deepdive

structure AssessCalls where
  findLaunch : Option RpcError
  build : BuildCalls
  persist : PersistCalls

structure AssessResult where
  ran : Bool
  reason : Option String
  /-- `reportHashes` -/
  reports : List ReportContent

def runAssess (cfg : ChainConfig) (env : ReportEnv) (calls : AssessCalls) (tokenAddress : Address) (db : WorkerDb) :
    Except RpcError AssessResult × WorkerDb :=
  match calls.findLaunch with
  | some e => (.error e, db)
  | none =>
    match db.launchOf cfg.chainId tokenAddress with
    | none => (.ok ⟨false, some "token is not an indexed launch on this chain — nothing to assess", []⟩, db)
    | some launch =>
      match buildLaunchReports cfg env calls.build launch.id .on_demand db with
      | .error e => (.error e, db)
      | .ok [] => (.ok ⟨false, some "report assembly produced nothing (missing features?)", []⟩, db)
      | .ok drafts =>
        match persistLaunchReports calls.persist drafts db with
        | (.error e, db) => (.error e, db)
        | (.ok _, db) => (.ok ⟨true, none, drafts.map ReportDraft.content⟩, db)

/-- What a deep dive brings to its report. -/
structure DeepdiveReportInput where
  trigger : ReportTrigger
  /-- the block of the packet -/
  reportBlock : BlockPin
  modelSlug : String
  output : DeepDiveOutput
  /-- the notes on limitations, on a chain that does not match, and the warnings -/
  coverage : List String

def deepdiveProbabilities (o : DeepDiveOutput) : List (OutcomeKey × ℚ) :=
  [(⟨.INSIDER_EXIT, "24h"⟩, o.pInsiderExit24h), (⟨.DRAWDOWN_80, "7d"⟩, o.pDrawdown807d),
    (⟨.SELL_IMPAIRED, "24h"⟩, o.pSellImpaired24h)]

def deepdiveContent (launch : Launch) (input : DeepdiveReportInput) : ReportContent where
  chainId := launch.chainId
  tokenAddress := launch.tokenAddress
  launchId := some launch.id
  reportTime := input.reportBlock.timestamp
  trigger := input.trigger
  blockPin := input.reportBlock
  forecaster := .llm_deepdive_v0
  forecasterVersion := input.modelSlug
  probabilities := deepdiveProbabilities input.output
  coverage := input.coverage
  confidence := some input.output.confidence
  evidence := some (input.output.evidence.map fun e => (e.claim, e.txOrUrl))

def assembleDeepdiveReportSigned (env : ReportEnv) (launch : Launch) (input : DeepdiveReportInput) : ReportDraft :=
  signedDraft env.agent launch.chainId launch.tokenAddress (deepdiveContent launch input)

end LaunchAuditor.Report
