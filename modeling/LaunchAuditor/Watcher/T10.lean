import LaunchAuditor.Report.Assemble
import LaunchAuditor.Watcher.LaunchFacts
import LaunchAuditor.Watcher.Creator
import LaunchAuditor.Watcher.Holders
import LaunchAuditor.Watcher.PoolActivity

/-! `apps/worker/src/watcher/t10.ts`: the T+10m job of a launch. -/

namespace LaunchAuditor.Watcher
open Chain Outcomes Scoring Db Report

/-- What `computeFeature9` brings from the scanners and the quoter. -/
structure Feature9Result where
  verified : Option Bool
  ownerRenounced : Option Bool
  mintable : Option Bool
  lpHolderType : Option String
  sellSimOk : Option Bool
  sellTaxBps : Option Int
  sellImpactBps : Option Int
  sellImpactBps100 : Option Int
  sellImpactBps1000 : Option Int
  liquidityUsd10m : Option ℚ
  goplusRaw : Option Json
  goplusFetchedAt : Option Int
  scanhoodRaw : Option Json
  scanhoodFetchedAt : Option Int

structure T10Env where
  /-- the answer of `getGetLogsMaxRange`, which is set to nothing below 1 -/
  maxRange : Nat
  maxRange_pos : 0 < maxRange
  qualifyUniqueBuyers : Nat
  /-- of the launchpads -/
  entrypoints : List Address
  report : ReportEnv

/-- How the awaited operations of one job end. -/
structure T10Calls where
  findLaunch : Option RpcError
  getBlockNumber : Except RpcError Nat
  pick : PickCalls
  updatePool : WriteEnd
  /-- the transfers out of the pool -/
  buys : GetLogs
  cluster : ClusterRule → GetLogs
  findFeature : Option RpcError
  getCode : FreshnessClient
  updateTokenAge : WriteEnd
  creator : CreatorCalls
  transfers : GetLogs
  totalSupply : Except RpcError Nat
  sidePools : PoolRequests
  approvals : Nat → GetLogs
  feature9 : Except RpcError Feature9Result
  transaction : WriteEnd
  now : Int
  build : BuildCalls
  persist : PersistCalls

/-- What a job has found out when it comes to its transaction. -/
structure T10Row where
  feats : T10Features
  cluster : ClusterResult
  creatorCtx : CreatorContext
  holders : HolderStats
  sidePoolCount : Option Nat
  creatorApprovalsOutsideRouters : Option Nat
  qualified : Bool
  f9 : Option Feature9Result

def updateLaunch (id : String) (change : Launch → Launch) (db : WorkerDb) : WorkerDb :=
  { db with launches := db.launches.map fun l => if l.id = id then change l else l }

def updateFeature (launchId : String) (change : Feature → Feature) (db : WorkerDb) : WorkerDb :=
  { db with features := db.features.map fun f => if f.launchId = launchId then change f else f }

/-- The launch as the job goes on with it. -/
def applyPick (pick : PrimaryPoolPick) (launch : Launch) : Launch :=
  match pick.chosen with
  | none => launch
  | some chosen =>
    if pick.changed then
      { launch with
        poolKind := some .v4
        poolId := some chosen.poolId
        poolAddress := none
        poolFee := chosen.fee
        poolTickSpacing := chosen.tickSpacing
        poolHooks := chosen.hooks
        quoteAddress := chosen.quote.or launch.quoteAddress
        poolFeeSuspect := chosen.feeSuspect }
    else { launch with poolFeeSuspect := chosen.feeSuspect }

/-- What is written of it. The kind is not, and what is undefined stays. -/
def writePool (launch row : Launch) : Launch :=
  { row with
    poolId := launch.poolId
    poolAddress := launch.poolAddress
    poolFee := launch.poolFee.or row.poolFee
    poolTickSpacing := launch.poolTickSpacing.or row.poolTickSpacing
    poolHooks := launch.poolHooks
    quoteAddress := launch.quoteAddress.or row.quoteAddress
    poolFeeSuspect := launch.poolFeeSuspect }

section Job
variable (cfg : ChainConfig) (env : T10Env) (calls : T10Calls)

/-- None when the head cannot be read. -/
def headBlock : Option Nat := calls.getBlockNumber.toOption

/-- The end of the ten minutes, not beyond the head. -/
def toBlock (launch : Launch) : Nat := clampToHead (headBlock calls) (launch.launchBlock + blocksIn10m cfg)

def pickArgs (launch : Launch) : PickArgs where
  token := launch.tokenAddress
  currentPoolId := launch.poolId
  scanFrom := launch.launchBlock
  scanTo := launch.launchBlock + (Js.mathRound (2 * 3600 / cfg.approxBlockSeconds)).toNat
  activityFrom := launch.launchBlock
  activityTo := toBlock cfg calls launch
  maxRange := env.maxRange
  headBlock := headBlock calls

/-- A check that fails, or whose write fails, is only reported. -/
def checkPrimaryPool (launch : Launch) (db : WorkerDb) : Launch × WorkerDb :=
  if launch.poolKind = some .v4 ∨ launch.poolKind = none then
    match pickPrimaryV4Pool calls.pick cfg (pickArgs cfg env calls launch) with
    | .error _ => (launch, db)
    | .ok pick =>
      let launch := applyPick pick launch
      (launch, (calls.updatePool.apply (updateLaunch launch.id (writePool launch)) db).2)
  else (launch, db)

/-- `src` -/
def sourceOfLiquidity (launch : Launch) : Option Address :=
  if launch.poolKind = some .v4 then some cfg.v4PoolManager else launch.poolAddress

def clusterParams (launch : Launch) (liquiditySource : Address) : BuildClusterParams where
  request := calls.cluster
  token := launch.tokenAddress
  creator := launch.creatorAddress
  liquiditySource
  launchBlock := launch.launchBlock
  windowBlocks := blocksIn10m cfg
  maxRange := env.maxRange
  firstFunder := UNAVAILABLE_FIRST_INBOUND

/-- The `maxIters` of `computeTokenAgeAtPool`. -/
def AGE_PROBES : Nat := 12

/-- The age is looked for when it is not known, and stored when it is found. -/
def storeTokenAge (launch : Launch) (db : WorkerDb) : Except RpcError Unit × WorkerDb :=
  match launch.tokenAgeAtPoolSec with
  | some _ => (.ok (), db)
  | none =>
    let age := computeTokenAgeAtPool calls.getCode launch.tokenAddress launch.launchBlock cfg.approxBlockSeconds
      FRESH_LAUNCH_WINDOW_BLOCKS AGE_PROBES
    match age.ageSec with
    | none => (.ok (), db)
    | some ageSec =>
      calls.updateTokenAge.apply
        (updateLaunch launch.id fun row => { row with tokenAgeAtPoolSec := some ageSec }) db

def creatorParams (launch : Launch) (db : WorkerDb) : CreatorContextParams where
  chainId := launch.chainId
  creator := launch.creatorAddress
  launchBlock := launch.launchBlock
  launchId := some launch.id
  approxBlockSeconds := cfg.approxBlockSeconds
  existingAgeDays := (db.feature launch.id).bind Feature.creatorAgeDays

def buyerFeatures (launch : Launch) (liquiditySource : Address) : T10Features :=
  computeT10Features calls.buys launch.tokenAddress liquiditySource launch.launchBlock (toBlock cfg calls launch)
    env.maxRange

/-- Whether the launch goes to the qualified lane. -/
def qualifies (launch : Launch) (feats : T10Features) : Bool :=
  !launch.lpLockedByConstruction && decide (env.qualifyUniqueBuyers ≤ feats.uniqueBuyers10m.getD 0)

/-- Everything that is computed from the chain, for the row. -/
def t10Row (launch : Launch) (liquiditySource : Address) (cluster : ClusterResult) (creatorCtx : CreatorContext)
    (f9 : Option Feature9Result) : T10Row :=
  let to_ := toBlock cfg calls launch
  let feats := buyerFeatures cfg env calls launch liquiditySource
  let clusterAddrs := launch.creatorAddress :: cluster.addresses
  { feats
    cluster
    creatorCtx
    holders := computeHolderStats ⟨calls.transfers, calls.totalSupply, launch.tokenAddress, launch.launchBlock, to_,
      env.maxRange, launch.creatorAddress, cluster.addresses, liquiditySource⟩
    sidePoolCount :=
      if launch.poolKind = some .v4 then
        computeSidePoolCount calls.sidePools cfg launch.tokenAddress launch.poolId launch.launchBlock to_ env.maxRange
      else none
    creatorApprovalsOutsideRouters := computeCreatorDrainerApprovals calls.approvals cfg env.entrypoints
      launch.tokenAddress clusterAddrs launch.launchBlock to_ env.maxRange
    qualified := qualifies env launch feats
    f9 }

/-- From the cluster to the row. -/
def computeRow (launch : Launch) (liquiditySource : Address) (db : WorkerDb) : Except RpcError T10Row × WorkerDb :=
  match buildCreatorCluster (clusterParams cfg env calls launch liquiditySource) with
  | .error e => (.error e, db)
  | .ok cluster =>
    match calls.findFeature with
    | some e => (.error e, db)
    | none =>
      match storeTokenAge cfg calls launch db with
      | (.error e, db) => (.error e, db)
      | (.ok _, db) =>
        match computeCreatorContext calls.creator (creatorParams cfg launch db) db with
        | .error e => (.error e, db)
        | .ok creatorCtx =>
          if qualifies env launch (buyerFeatures cfg env calls launch liquiditySource) then
            match calls.feature9 with
            | .error e => (.error e, db)
            | .ok f9 => (.ok (t10Row cfg env calls launch liquiditySource cluster creatorCtx (some f9)), db)
          else (.ok (t10Row cfg env calls launch liquiditySource cluster creatorCtx none), db)

/-- Everything before the transaction: the row, or none when there is nothing to be done. -/
def prepareT10 (launchId : String) (db : WorkerDb) : Except RpcError (Option T10Row) × WorkerDb :=
  match calls.findLaunch with
  | some e => (.error e, db)
  | none =>
    match db.launch launchId with
    | none => (.ok none, db)
    | some launch =>
      let (launch, db) := checkPrimaryPool cfg env calls launch db
      match sourceOfLiquidity cfg launch with
      | none => (.ok none, db)
      | some liquiditySource =>
        match computeRow cfg env calls launch liquiditySource db with
        | (.error e, db) => (.error e, db)
        | (.ok row, db) => (.ok (some row), db)

end Job

def writeFeature9 (f9 : Feature9Result) (f : Feature) : Feature :=
  { f with
    verified := f9.verified
    ownerRenounced := f9.ownerRenounced
    mintable := f9.mintable
    lpHolderType := f9.lpHolderType
    sellSimOk := f9.sellSimOk
    sellTaxBps := f9.sellTaxBps
    sellImpactBps := f9.sellImpactBps
    sellImpactBps100 := f9.sellImpactBps100
    sellImpactBps1000 := f9.sellImpactBps1000
    liquidityUsd10m := f9.liquidityUsd10m
    goplusRaw := f9.goplusRaw
    goplusFetchedAt := f9.goplusFetchedAt
    scanhoodRaw := f9.scanhoodRaw
    scanhoodFetchedAt := f9.scanhoodFetchedAt }

/-- The feature vector, marked as computed unless a lookup of the cluster has failed. -/
def writeT10 (now : Int) (row : T10Row) (f : Feature) : Feature :=
  let f := { f with
    uniqueBuyers10m := row.feats.uniqueBuyers10m
    buysPerBuyer10m := row.feats.buysPerBuyer10m
    creatorAgeDays := row.creatorCtx.creatorAgeDays
    creatorPriorLaunches := some row.creatorCtx.creatorPriorLaunches
    creatorPriorInsiderExitRate := row.creatorCtx.creatorPriorInsiderExitRate
    clusterSize := some row.cluster.size
    clusterConfidence := some row.cluster.confidence
    clusterSupplyPct := row.holders.clusterSupplyPct
    top10NoncreatorPct := row.holders.top10NoncreatorPct
    sidePoolCount := row.sidePoolCount
    creatorApprovalsOutsideRouters := row.creatorApprovalsOutsideRouters }
  let f := match row.f9 with
    | none => f
    | some f9 => writeFeature9 f9 f
  { f with t10ComputedAt := if row.cluster.partialRules = [] then some now else none }

/-- What the transaction does. -/
def storeT10 (now : Int) (launchId : String) (row : T10Row) (db : WorkerDb) : WorkerDb :=
  let members := row.cluster.members.map fun m => (⟨m, launchId⟩ : Db.ClusterMember)
  let db := { db with clusterMembers := (db.clusterMembers.filter fun m => decide (m.launchId ≠ launchId)) ++ members }
  let db := if row.qualified then updateLaunch launchId (fun l => { l with lane := .qualified }) db else db
  updateFeature launchId (writeT10 now row) db

/-- All of it or nothing; the rows to update have to be there. -/
def runTransaction (w : WriteEnd) (now : Int) (launchId : String) (row : T10Row) (db : WorkerDb) :
    Except RpcError Unit × WorkerDb :=
  if (db.launch launchId).isNone ∨ (db.feature launchId).isNone then
    (.error ⟨"PrismaClientKnownRequestError", "Record to update not found."⟩, db)
  else w.apply (storeT10 now launchId row) db

/-- The reports after the transaction, whose errors are swallowed. -/
def reportLaunch (cfg : ChainConfig) (env : ReportEnv) (build : BuildCalls) (persist : PersistCalls) (launchId : String)
    (db : WorkerDb) : WorkerDb :=
  match buildLaunchReports cfg env build launchId .launch db with
  | .error _ => db
  | .ok drafts => (persistLaunchReports persist drafts db).2

def runT10ForLaunch (cfg : ChainConfig) (env : T10Env) (calls : T10Calls) (launchId : String) (db : WorkerDb) :
    Except RpcError Unit × WorkerDb :=
  match prepareT10 cfg env calls launchId db with
  | (.error e, db) => (.error e, db)
  | (.ok none, db) => (.ok (), db)
  | (.ok (some row), db) =>
    match runTransaction calls.transaction calls.now launchId row db with
    | (.error e, db) => (.error e, db)
    | (.ok _, db) =>
      if row.cluster.partialRules = [] then
        (.ok (), reportLaunch cfg env.report calls.build calls.persist launchId db)
      else (.ok (), db)

end LaunchAuditor.Watcher
