import LaunchAuditor.Chain.Config
import LaunchAuditor.Report.Drafts
import LaunchAuditor.Scoring.Det

/-! `apps/worker/src/report/assemble.ts` -/

namespace LaunchAuditor.Report
open Chain Outcomes Scoring Db Watcher

structure ReportEnv where
  math : Transcendentals
  /-- the address of `agentPrivateKey`, when there is one -/
  agent : Option Address

/-- The inputs that count toward coverage, and whether they are null. -/
def COVERAGE_KEYS : List (String × (FeatureInputs → Bool)) :=
  [("creatorDevbuyPct", fun i => i.creatorDevbuyPct.isNone), ("creatorAgeDays", fun i => i.creatorAgeDays.isNone),
    ("creatorPriorLaunches", fun i => i.creatorPriorLaunches.isNone),
    ("creatorPriorInsiderExitRate", fun i => i.creatorPriorInsiderExitRate.isNone),
    ("clusterSize", fun i => i.clusterSize.isNone),
    ("launchBlockClusterSize", fun i => i.launchBlockClusterSize.isNone),
    ("clusterSupplyPct", fun i => i.clusterSupplyPct.isNone),
    ("top10NoncreatorPct", fun i => i.top10NoncreatorPct.isNone),
    ("uniqueBuyers10m", fun i => i.uniqueBuyers10m.isNone), ("buysPerBuyer10m", fun i => i.buysPerBuyer10m.isNone),
    ("microbuyShare10m", fun i => i.microbuyShare10m.isNone), ("liquidityUsd10m", fun i => i.liquidityUsd10m.isNone),
    ("sellImpactBps", fun i => i.sellImpactBps.isNone), ("hasX", fun i => i.hasX.isNone),
    ("hasSite", fun i => i.hasSite.isNone), ("verified", fun i => i.verified.isNone),
    ("ownerRenounced", fun i => i.ownerRenounced.isNone), ("mintable", fun i => i.mintable.isNone),
    ("sellSimOk", fun i => i.sellSimOk.isNone), ("sellTaxBps", fun i => i.sellTaxBps.isNone)]

def toFeatureInputs (launch : Launch) (f : Option Feature) (launchBlockClusterSize : Nat) : FeatureInputs where
  source := launch.source
  lpLockedByConstruction := launch.lpLockedByConstruction
  creatorDevbuyPct := f.bind Feature.creatorDevbuyPct
  creatorAgeDays := f.bind Feature.creatorAgeDays
  creatorPriorLaunches := f.bind Feature.creatorPriorLaunches
  creatorPriorInsiderExitRate := f.bind Feature.creatorPriorInsiderExitRate
  clusterSize := f.bind Feature.clusterSize
  launchBlockClusterSize := some launchBlockClusterSize
  clusterSupplyPct := f.bind Feature.clusterSupplyPct
  top10NoncreatorPct := f.bind Feature.top10NoncreatorPct
  uniqueBuyers10m := f.bind Feature.uniqueBuyers10m
  buysPerBuyer10m := f.bind Feature.buysPerBuyer10m
  microbuyShare10m := f.bind Feature.microbuyShare10m
  liquidityUsd10m := f.bind Feature.liquidityUsd10m
  sellImpactBps := f.bind Feature.sellImpactBps
  hasX := f.bind Feature.hasX
  hasSite := f.bind Feature.hasSite
  verified := f.bind Feature.verified
  ownerRenounced := f.bind Feature.ownerRenounced
  mintable := f.bind Feature.mintable
  sellSimOk := f.bind Feature.sellSimOk
  sellTaxBps := f.bind Feature.sellTaxBps
  hookCanBlockSwap := f.bind Feature.hookCanBlockSwap
  hookCanTaxSwap := f.bind Feature.hookCanTaxSwap
  hookGatesLpRemoval := f.bind Feature.hookGatesLpRemoval
  sidePoolCount := f.bind Feature.sidePoolCount
  creatorApprovalsOutsideRouters := f.bind Feature.creatorApprovalsOutsideRouters

def coverageOf (inputs : FeatureInputs) : List String :=
  COVERAGE_KEYS.filterMap fun k => if k.2 inputs then some k.1 else none

structure Block where
  number : Nat
  hash : Word
  /-- in seconds -/
  timestamp : Nat

/-- How the awaited operations of one `buildLaunchReports` end. -/
structure BuildCalls where
  findLaunch : Option RpcError
  countMembers : Option RpcError
  getBlock : Nat → Except RpcError Block

/-- One forecaster's part of a launch's reports. -/
structure ForecasterOutput where
  name : ForecasterKind
  version : String
  probs : List (OutcomeKey × ℚ)

def forecasters (m : Transcendentals) (inputs : FeatureInputs) : List ForecasterOutput :=
  let det := detV0 m inputs DET_V0_WEIGHTS
  let det01 := detV0_1 m inputs
  [⟨.heuristic_v1, "v1", (heuristicV1 inputs).probabilities⟩, ⟨.det_v0, det.version, det.probabilities⟩,
    ⟨.det_v0_1, det01.version, det01.probabilities⟩]

/-- Signed and validated, for the chain and the token it is about. -/
def signedDraft (agent : Option Address) (chainId : Nat) (token : Address) (content : ReportContent) : ReportDraft :=
  let failures := validateReport content agent ⟨chainId, token, agent.getD ZERO_ADDRESS⟩
  { content, signer := agent, validatorPassed := failures.isEmpty, validatorFailures := failures }

def launchContent (launch : Launch) (trigger : ReportTrigger) (coverage : List String) (block : Block)
    (fc : ForecasterOutput) : ReportContent where
  chainId := launch.chainId
  tokenAddress := launch.tokenAddress
  launchId := some launch.id
  reportTime := block.timestamp * 1000
  trigger
  blockPin := ⟨block.number, block.hash, block.timestamp * 1000⟩
  forecaster := fc.name
  forecasterVersion := fc.version
  probabilities := fc.probs
  coverage
  confidence := none
  evidence := none

def blocksIn10m (cfg : ChainConfig) : Nat := (Js.mathRound (10 * 60 / cfg.approxBlockSeconds)).toNat

/-- The launch-block buyers of the cluster. -/
def launchBlockClusterSize (db : WorkerDb) (launchId : String) : Nat :=
  db.clusterMembers.countP fun m => decide (m.launchId = launchId ∧ m.rule = .LAUNCH_BLOCK_BUY)

def launchDrafts (env : ReportEnv) (launch : Launch) (trigger : ReportTrigger) (inputs : FeatureInputs)
    (block : Block) : List ReportDraft :=
  (forecasters env.math inputs).map fun fc =>
    signedDraft env.agent launch.chainId launch.tokenAddress
      (launchContent launch trigger (coverageOf inputs) block fc)

/-- The drafts, pinned to the T+10m block; nothing is stored. -/
def buildLaunchReports (cfg : ChainConfig) (env : ReportEnv) (calls : BuildCalls) (launchId : String)
    (trigger : ReportTrigger) (db : WorkerDb) : Except RpcError (List ReportDraft) :=
  match calls.findLaunch with
  | some e => .error e
  | none =>
    match db.launch launchId with
    | none => .ok []
    | some launch =>
      match calls.countMembers with
      | some e => .error e
      | none =>
        match calls.getBlock (launch.launchBlock + blocksIn10m cfg) with
        | .error e => .error e
        | .ok block =>
          let inputs := toFeatureInputs launch (db.feature launchId) (launchBlockClusterSize db launchId)
          .ok (launchDrafts env launch trigger inputs block)

end LaunchAuditor.Report
