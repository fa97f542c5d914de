import LaunchAuditor.Db.Reports
import LaunchAuditor.Watcher.LaunchFacts
import LaunchAuditor.Watcher.Poller
import LaunchAuditor.Watcher.Retry

/-! `apps/worker/src/watcher/ingest.ts`, with the count of `quota.ts`. -/

namespace LaunchAuditor.Watcher
open Chain Outcomes Db

structure LaunchTx where
  from_ : Address
  to_ : Option Address
  /-- of the receipt -/
  logs : List RpcLog
  /-- of the block, in seconds -/
  timestamp : Nat

/-- How the awaited operations of one ingestion end. -/
structure IngestIo where
  getCode : FreshnessClient
  findLaunch : Option RpcError
  /-- the transaction, its receipt and its block, at each attempt -/
  fetchLaunch : Nat → Except RpcError LaunchTx
  countLaunches : Option RpcError
  receipt : Except RpcError (List RpcLog)
  totalSupply : Except RpcError Nat
  /-- the id the database gives to the row -/
  launchId : String
  now : Int
  createLaunch : WriteEnd
  addJob : WriteEnd

structure IngestDeps where
  quotaPerCreator24h : Nat
  /-- mark the row retrospective -/
  retrospective : Bool
  /-- skip pools where the token could not be told from the quote -/
  confidentOnly : Bool

/-- Address that tokens leave on a buy. -/
def liquiditySource (cfg : ChainConfig) (pc : PoolCreation) : Option Address :=
  match pc.poolKind with
  | .v4 => some cfg.v4PoolManager
  | _ => pc.poolAddress

/-- The launches of the creator in the day that ends at `at_`. -/
def priorLaunches (db : WorkerDb) (chainId : Nat) (creator : Address) (at_ : Int) : Nat :=
  db.launches.countP fun l =>
    decide (l.chainId = chainId ∧ l.creatorAddress = creator) &&
      l.launchAt.any fun t => decide (at_ - DAY_MS ≤ t ∧ t ≤ at_)

def creatorQuotaExceeded (db : WorkerDb) (chainId : Nat) (creator : Address) (at_ : Int) (limit : Nat) : Bool :=
  isOverQuota (priorLaunches db chainId creator at_) limit

/-- Which side of the pool is the token, with the freshness checks that were made on the way. -/
structure PairChoice extends PairClassification where
  checked : Option (FreshnessCheck × FreshnessCheck)

def choosePair (cfg : ChainConfig) (getCode : FreshnessClient) (pc : PoolCreation) (blockNumber : Nat) : PairChoice :=
  let pair := classifyPair cfg pc.token0 pc.token1
  if pair.confident then ⟨pair, none⟩
  else
    let f0 := checkTokenFreshness getCode pc.token0 blockNumber FRESH_LAUNCH_WINDOW_BLOCKS
    let f1 := checkTokenFreshness getCode pc.token1 blockNumber FRESH_LAUNCH_WINDOW_BLOCKS
    if f0.isFreshLaunch && !f1.isFreshLaunch then ⟨⟨pc.token0, pc.token1, true⟩, some (f0, f1)⟩
    else if f1.isFreshLaunch && !f0.isFreshLaunch then ⟨⟨pc.token1, pc.token0, true⟩, some (f0, f1)⟩
    else ⟨pair, some (f0, f1)⟩

def tokenFreshness (getCode : FreshnessClient) (pc : PoolCreation) (blockNumber : Nat) (pair : PairChoice) :
    FreshnessCheck :=
  match pair.checked with
  | some (f0, f1) =>
    if pair.token = pc.token0 then f0
    else if pair.token = pc.token1 then f1
    else checkTokenFreshness getCode pair.token blockNumber FRESH_LAUNCH_WINDOW_BLOCKS
  | none => checkTokenFreshness getCode pair.token blockNumber FRESH_LAUNCH_WINDOW_BLOCKS

/-- The row of a launch with its feature vector. -/
structure LaunchRow where
  launch : Launch
  feature : Feature

def newLaunch (cfg : ChainConfig) (deps : IngestDeps) (io : IngestIo) (dp : DetectedPool) (pair : PairChoice)
    (tx : LaunchTx) (quotaExceeded : Bool) : Launch :=
  let pc := dp.poolCreation
  let attribution := attributeSource cfg (Js.setOf (tx.to_.toList ++ tx.logs.map RpcLog.address))
  { id := io.launchId
    chainId := cfg.chainId
    source := attribution.source
    sourceConfidence := some attribution.sourceConfidence
    lpLockedByConstruction := attribution.lpLockedByConstruction
    tokenAddress := pair.token
    quoteAddress := some pair.quote
    poolKind := some pc.poolKind
    poolAddress := pc.poolAddress
    poolId := pc.poolId
    poolFee := pc.fee
    poolTickSpacing := pc.tickSpacing
    poolHooks := pc.hooks
    poolFeeSuspect := isFeeSuspect pc.fee
    creatorAddress := tx.from_
    launchBlock := dp.blockNumber
    launchTxHash := dp.txHash
    launchAt := some (tx.timestamp * 1000)
    detectedVia := some pc.detectedVia
    tokenAgeAtPoolSec := none
    lane := .index
    quotaExceeded
    retrospective := deps.retrospective }

def newFeature (cfg : ChainConfig) (io : IngestIo) (dp : DetectedPool) (token : Address) : Feature :=
  let idx := computeIndexFeatures io.receipt io.totalSupply token (liquiditySource cfg dp.poolCreation)
  let hook := computeHookFeatures dp.poolCreation.hooks
  { launchId := io.launchId
    creatorDevbuyPct := idx.creatorDevbuyPct
    creatorAgeDays := none
    creatorPriorLaunches := none
    creatorPriorInsiderExitRate := none
    clusterSize := none
    clusterSupplyPct := none
    clusterConfidence := none
    top10NoncreatorPct := none
    uniqueBuyers10m := none
    buysPerBuyer10m := none
    microbuyShare10m := none
    liquidityUsd10m := none
    sellImpactBps := none
    sellImpactBps100 := none
    sellImpactBps1000 := none
    hasX := idx.hasX
    hasSite := idx.hasSite
    hookPermissions := hook.hookPermissions
    hookCanBlockSwap := hook.hookCanBlockSwap
    hookCanTaxSwap := hook.hookCanTaxSwap
    hookGatesLpRemoval := hook.hookGatesLpRemoval
    sidePoolCount := none
    creatorApprovalsOutsideRouters := none
    verified := none
    ownerRenounced := none
    mintable := none
    lpHolderType := none
    sellSimOk := none
    sellTaxBps := none
    goplusRaw := none
    goplusFetchedAt := none
    scanhoodRaw := none
    scanhoodFetchedAt := none
    indexLaneComputedAt := some io.now
    t10ComputedAt := none }

/-- Everything before the row is created: the row, or none for a pool that is not indexed. -/
def prepareLaunch (cfg : ChainConfig) (deps : IngestDeps) (io : IngestIo) (dp : DetectedPool) (db : WorkerDb) :
    Except RpcError (Option LaunchRow) :=
  let pair := choosePair cfg io.getCode dp.poolCreation dp.blockNumber
  if deps.confidentOnly && !pair.confident then .ok none
  else
    match io.findLaunch with
    | some e => .error e
    | none =>
      match db.launchOf cfg.chainId pair.token with
      | some _ => .ok none
      | none =>
        -- a new pool is not the same thing as a new token launch
        if !(tokenFreshness io.getCode dp.poolCreation dp.blockNumber pair).isFreshLaunch then .ok none
        else
          match withRetry io.fetchLaunch 4 0 with
          | .error e => .error e
          | .ok tx =>
            match io.countLaunches with
            | some e => .error e
            | none =>
              let quotaExceeded :=
                creatorQuotaExceeded db cfg.chainId tx.from_ (tx.timestamp * 1000) deps.quotaPerCreator24h
              .ok (some ⟨newLaunch cfg deps io dp pair tx quotaExceeded, newFeature cfg io dp pair.token⟩)

def insertLaunch (row : LaunchRow) (db : WorkerDb) : WorkerDb :=
  { db with launches := db.launches ++ [row.launch], features := db.features ++ [row.feature] }

/-- `launch.create` under the unique keys of the table. -/
def createLaunch (w : WriteEnd) (row : LaunchRow) (db : WorkerDb) : Except RpcError Unit × WorkerDb :=
  if db.launches.any fun l => decide (l.id = row.launch.id ∨
      (l.chainId = row.launch.chainId ∧ l.tokenAddress = row.launch.tokenAddress)) then
    (.error ⟨"PrismaClientKnownRequestError", "Unique constraint failed"⟩, db)
  else w.apply (insertLaunch row) db

def insertJob (launchId : String) (db : WorkerDb) : WorkerDb :=
  { db with t10Jobs := if launchId ∈ db.t10Jobs then db.t10Jobs else db.t10Jobs ++ [launchId] }

/-- `queue.add` under the job id `t10-${launchId}`, which adds nothing when the job is there. -/
def addJob (w : WriteEnd) (launchId : String) (db : WorkerDb) : Except RpcError Unit × WorkerDb :=
  w.apply (insertJob launchId) db

/-- The launch id, or none when nothing was indexed. -/
def ingestPool (cfg : ChainConfig) (deps : IngestDeps) (io : IngestIo) (dp : DetectedPool) (db : WorkerDb) :
    Except RpcError (Option String) × WorkerDb :=
  match prepareLaunch cfg deps io dp db with
  | .error e => (.error e, db)
  | .ok none => (.ok none, db)
  | .ok (some row) =>
    match createLaunch io.createLaunch row db with
    | (.error e, db) => (.error e, db)
    | (.ok _, db) =>
      match addJob io.addJob row.launch.id db with
      | (.error e, db) => (.error e, db)
      | (.ok _, db) => (.ok (some row.launch.id), db)

end LaunchAuditor.Watcher
