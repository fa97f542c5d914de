import LaunchAuditor.Watcher.Detect
import LaunchAuditor.Watcher.LaunchFacts
import LaunchAuditor.Watcher.Retry

/-! `apps/worker/src/watcher/primary-pool.ts`, and the counts of `hooks.ts` that need the chain. The reason of a
pick, which is only printed, is left out. -/

namespace LaunchAuditor.Watcher
open Chain Outcomes

/-- What a node answers to the two queries for the Initialize events of a token, at each attempt. -/
structure PoolRequests where
  asC0 : Nat → GetLogs
  asC1 : Nat → GetLogs

/-- Every Initialize event with the token as currency0, and then those with it as currency1. -/
def initializeLogs (requests : PoolRequests) (cfg : ChainConfig) (token : Address) (fromBlock toBlock maxRange : Nat) :
    Except RpcError (List RpcLog) := do
  let tk := some [addressToTopic token]
  let initTopic := some [POOL_EVENT_TOPIC0.v4Initialize]
  let query (request : GetLogs) (topics : List (Option (List Word))) :=
    getLogsChunked request ⟨[cfg.v4PoolManager], topics, fromBlock, toBlock⟩ maxRange
  let logs0 ← withRetry (fun attempt => query (requests.asC0 attempt) [initTopic, none, tk]) 3 0
  let logs1 ← withRetry (fun attempt => query (requests.asC1 attempt) [initTopic, none, none, tk]) 3 0
  return logs0 ++ logs1

structure PoolCandidate where
  poolId : Word
  currency0 : Address
  currency1 : Address
  fee : Option Nat
  tickSpacing : Option Int
  hooks : Option Address
  initBlock : Nat
  quote : Option Address
  feeSuspect : Bool
  standardFee : Bool
  /-- swap count in the scored window -/
  activity : Option Nat
  deriving DecidableEq

def PoolCandidate.quoteIsKnown (c : PoolCandidate) : Bool := c.quote.isSome

def STANDARD_FEES : List Nat := [100, 200, 300, 400, 500, 2500, 3000, 5000, 10000, 20000, 30000]

/-- Which side is the known quote, and whether the fee is sane. -/
def annotate (cfg : ChainConfig) (pc : PoolCreation) (poolId : Word) (initBlock : Nat) : PoolCandidate :=
  let known := ZERO_ADDRESS :: cfg.quoteAssets
  { poolId
    currency0 := pc.token0
    currency1 := pc.token1
    fee := pc.fee
    tickSpacing := pc.tickSpacing
    hooks := pc.hooks
    initBlock
    quote := if pc.token0 ∈ known then some pc.token0 else if pc.token1 ∈ known then some pc.token1 else none
    feeSuspect := isFeeSuspect pc.fee
    standardFee := pc.fee.any fun fee => decide (fee ∈ STANDARD_FEES)
    activity := none }

/-- The pool of each id, by its first event. -/
def candidatesOf (cfg : ChainConfig) : List PoolCandidate → List RpcLog → Except RpcError (List PoolCandidate)
  | cands, [] => .ok cands
  | cands, log :: logs => do
    let pc ← decodePoolCreation log
    match pc, pc.bind PoolCreation.poolId with
    | some pc, some poolId =>
      if cands.any fun c => decide (c.poolId = poolId) then candidatesOf cfg cands logs
      else candidatesOf cfg (cands ++ [annotate cfg pc poolId log.blockNumber]) logs
    | _, _ => candidatesOf cfg cands logs

def findTokenV4Pools (requests : PoolRequests) (cfg : ChainConfig) (token : Address) (fromBlock toBlock maxRange : Nat) :
    Except RpcError (List PoolCandidate) := do
  let logs ← initializeLogs requests cfg token fromBlock toBlock maxRange
  candidatesOf cfg [] logs

/-- The swaps of a pool, none when they cannot be counted. -/
def poolActivity (request : Nat → GetLogs) (cfg : ChainConfig) (poolId : Word) (fromBlock toBlock maxRange : Nat) : Nat :=
  let query (attempt : Nat) := getLogsChunked (request attempt)
    ⟨[cfg.v4PoolManager], [some [TRADE_EVENT_TOPIC0.v4Swap], some [poolId]], fromBlock, toBlock⟩ maxRange
  match withRetry query 2 0 with
  | .ok logs => logs.length
  | .error _ => 0

/-- Negative for the more primary one of two, 0 for a tie. -/
def rankCompare (a b : PoolCandidate) : Int :=
  let activity (c : PoolCandidate) : Int := (c.activity.map Int.ofNat).getD (-1)
  if a.quoteIsKnown != b.quoteIsKnown then if a.quoteIsKnown then -1 else 1
  else if a.feeSuspect != b.feeSuspect then if a.feeSuspect then 1 else -1
  else if a.standardFee != b.standardFee then if a.standardFee then -1 else 1
  else if activity a ≠ activity b then activity b - activity a
  else if a.initBlock < b.initBlock then -1
  else if a.initBlock > b.initBlock then 1
  else 0

def rankCandidates (cands : List PoolCandidate) : List PoolCandidate :=
  cands.insertionSort fun a b => rankCompare a b ≤ 0

structure PrimaryPoolPick where
  chosen : Option PoolCandidate
  /-- the pick is not the launch's pool -/
  changed : Bool
  candidates : List PoolCandidate

structure PickCalls where
  /-- `readHeadBlock`, for a caller that does not know the head -/
  readHead : Option Nat
  requests : PoolRequests
  /-- the swaps of a pool, at each attempt -/
  swaps : Word → Nat → GetLogs

structure PickArgs where
  token : Address
  currentPoolId : Option Word
  scanFrom : Nat
  scanTo : Nat
  activityFrom : Nat
  activityTo : Nat
  maxRange : Nat
  headBlock : Option Nat

def clampToHead (head : Option Nat) (block : Nat) : Nat :=
  match head with
  | none => block
  | some head => if block > head then head else block

/-- The swap counts of the first four contenders, where there is a contest. -/
def probeActivity (calls : PickCalls) (cfg : ChainConfig) (args : PickArgs) (activityTo : Nat)
    (cands : List PoolCandidate) : List PoolCandidate :=
  let contenders := (rankCandidates cands).filter fun c => c.quoteIsKnown && !c.feeSuspect
  if contenders.length ≥ 2 then
    cands.map fun c =>
      if c ∈ contenders.take 4 then
        let swaps := poolActivity (calls.swaps c.poolId) cfg c.poolId args.activityFrom activityTo args.maxRange
        { c with activity := some swaps }
      else c
  else cands

def pickPrimaryV4Pool (calls : PickCalls) (cfg : ChainConfig) (args : PickArgs) : Except RpcError PrimaryPoolPick := do
  let head := args.headBlock.or calls.readHead
  let scanTo := clampToHead head args.scanTo
  let activityTo := clampToHead head args.activityTo
  let cands ← findTokenV4Pools calls.requests cfg args.token args.scanFrom scanTo args.maxRange
  match rankCandidates (probeActivity calls cfg args activityTo cands) with
  | [] => return ⟨none, false, []⟩
  | chosen :: rest => return ⟨some chosen, decide (args.currentPoolId ≠ some chosen.poolId), chosen :: rest⟩

end LaunchAuditor.Watcher

namespace LaunchAuditor.Watcher
open Chain

/-- Approval(address indexed owner, address indexed spender, uint256 value) -/
def APPROVAL_TOPIC0 : Word := 0x8c5be1e5ebec7d5bd14f71427d1e84f3dd0314c0f7b2291e5b200ac8c7c3b925#256

/-- `entrypoints` are those of the launchpads. -/
def infraAddresses (cfg : ChainConfig) (entrypoints : List Address) : List Address :=
  [cfg.v4PoolManager, cfg.v2Factory, cfg.v4Quoter, ZERO_ADDRESS] ++ cfg.v3Factories ++
    cfg.launchpads.flatMap (fun lp => lp.factories ++ lp.candidateFactories) ++ entrypoints

/-- The v4 pools but the primary one that hold the token. -/
def computeSidePoolCount (requests : PoolRequests) (cfg : ChainConfig) (token : Address) (primaryPoolId : Option Word)
    (fromBlock toBlock maxRange : Nat) : Option Nat :=
  match initializeLogs requests cfg token fromBlock toBlock maxRange with
  | .error _ => none
  | .ok logs =>
    let ids := Js.setOf (logs.filterMap fun l => l.topics[1]?)
    some (ids.filter fun id => decide (some id ≠ primaryPoolId)).length

/-- The spenders the owners approved that are not infrastructure or the token. -/
def spendersOf (infra : List Address) (token : Address) (logs : List RpcLog) : List Address :=
  Js.setOf (logs.filterMap fun l =>
    match l.topics[2]?.map topicToAddress with
    | none => none
    | some spender => if spender ∈ infra ∨ spender = token then none else some spender)

def computeCreatorDrainerApprovals (request : Nat → GetLogs) (cfg : ChainConfig) (entrypoints : List Address)
    (token : Address) (owners : List Address) (fromBlock toBlock maxRange : Nat) : Option Nat :=
  if owners = [] then none
  else
    let query (attempt : Nat) := getLogsByTopicValues (request attempt) ⟨[token], [], fromBlock, toBlock⟩
      APPROVAL_TOPIC0 1 ((Js.setOf owners).map addressToTopic) maxRange MAX_TOPIC_VALUES
    match withRetry query 3 0 with
    | .error _ => none
    | .ok logs => some (spendersOf (infraAddresses cfg entrypoints) token logs).length

end LaunchAuditor.Watcher
