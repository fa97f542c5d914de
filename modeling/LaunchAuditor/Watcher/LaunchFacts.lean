import LaunchAuditor.Chain.Config
import LaunchAuditor.Watcher.Erc20
import LaunchAuditor.Js

/-! `classify.ts`, `freshness.ts` and `features.ts` of `apps/worker/src/watcher`, with what `hooks.ts`,
`primary-pool.ts` and `quota.ts` compute from the pool alone. -/

namespace LaunchAuditor.Watcher
open Chain

structure PairClassification where
  token : Address
  /-- the paired asset -/
  quote : Address
  /-- a configured quote asset matched -/
  confident : Bool

/-- Native ETH is always a quote. Without a match token1 is taken for the new token. -/
def classifyPair (cfg : ChainConfig) (token0 token1 : Address) : PairClassification :=
  let quotes := ZERO_ADDRESS :: cfg.quoteAssets
  if token0 ∈ quotes ∧ token1 ∉ quotes then ⟨token1, token0, true⟩
  else if token1 ∈ quotes ∧ token0 ∉ quotes then ⟨token0, token1, true⟩
  else ⟨token1, token0, false⟩

/-- ~24h at ~0.1s blocks -/
def FRESH_LAUNCH_WINDOW_BLOCKS : Nat := 864000

inductive FreshnessReason
  | fresh
  | preexisting
  | inconclusive
  deriving DecidableEq, Repr

structure FreshnessCheck where
  isFreshLaunch : Bool
  reason : FreshnessReason
  checkedAtBlock : Nat

/-- `eth_getCode` at a block: the length of the code, if there is any answer to measure. -/
abbrev FreshnessClient := Address → Nat → Except RpcError (Option Nat)

def hasCodeAt (client : FreshnessClient) (address : Address) (blockNumber : Nat) : Except RpcError Bool := do
  let code ← client address blockNumber
  return code.any (· ≠ 0)

/-- A read that fails does not stand in the way of indexing. -/
def checkTokenFreshness (client : FreshnessClient) (tokenAddress : Address) (poolBlockNumber : Nat)
    (windowBlocks : Nat) : FreshnessCheck :=
  let checkedAtBlock := if poolBlockNumber > windowBlocks then poolBlockNumber - windowBlocks else 0
  match hasCodeAt client tokenAddress checkedAtBlock with
  | .ok hadCodeAlready => ⟨!hadCodeAlready, if hadCodeAlready then .preexisting else .fresh, checkedAtBlock⟩
  | .error _ => ⟨true, .inconclusive, checkedAtBlock⟩

structure TokenAgeResult where
  /-- token code age at pool creation, seconds; none when older than the window -/
  ageSec : Option Int
  deployBlockApprox : Option Nat
  iters : Nat

/-- The loop of the search: `lo` has no code and `hi` has. Twelve probes are made in all. -/
def deployBlock (client : FreshnessClient) (tokenAddress : Address) : Nat → Nat → Nat → Nat → Except RpcError Nat × Nat
  | 0, _, hi, iters => (.ok hi, iters)
  | fuel + 1, lo, hi, iters =>
    if hi - lo > 1 then
      let mid := lo + (hi - lo) / 2
      match hasCodeAt client tokenAddress mid with
      | .error e => (.error e, iters + 1)
      | .ok true => deployBlock client tokenAddress fuel lo mid (iters + 1)
      | .ok false => deployBlock client tokenAddress fuel mid hi (iters + 1)
    else (.ok hi, iters)

def computeTokenAgeAtPool (client : FreshnessClient) (tokenAddress : Address) (poolBlockNumber : Nat)
    (approxBlockSeconds : ℚ) (windowBlocks maxIters : Nat) : TokenAgeResult :=
  let lo := if poolBlockNumber > windowBlocks then poolBlockNumber - windowBlocks else 0
  match hasCodeAt client tokenAddress lo with
  | .error _ => ⟨none, none, 0⟩
  | .ok true => ⟨none, none, 1⟩
  | .ok false =>
    match hasCodeAt client tokenAddress poolBlockNumber with
    | .error _ => ⟨none, none, 0⟩
    | .ok false => ⟨some 0, some poolBlockNumber, 2⟩
    | .ok true =>
      match deployBlock client tokenAddress (maxIters - 2) lo poolBlockNumber 2 with
      | (.error _, iters) => ⟨none, none, iters⟩
      | (.ok deploy, iters) =>
        let ageBlocks := poolBlockNumber - deploy
        ⟨some (Js.mathRound (ageBlocks * approxBlockSeconds)), some deploy, iters⟩

end LaunchAuditor.Watcher

namespace LaunchAuditor.Watcher
open Chain

structure IndexFeatures where
  creatorDevbuyPct : Option ℚ
  /-- address the dev buy landed on -/
  devbuyRecipient : Option Address
  hasX : Option Bool
  hasSite : Option Bool

/-- What each address but the excluded ones received of the token in the launch transaction. -/
def receivedBy (token : Address) (excluded : List Address) (logs : List RpcLog) : List (Address × Nat) :=
  logs.foldl (fun received log =>
    if log.address ≠ token ∨ log.topics[0]? ≠ some TRANSFER_TOPIC0 then received
    else
      match log.topics[2]?.map topicToAddress with
      | none => received
      | some to_ =>
        if to_ ∈ excluded then received
        else OrderedMap.alter to_ (fun sum => sum.getD 0 + transferValue log.data) received) []

/-- The first of the largest amounts, if any is positive. -/
def topRecipient (received : List (Address × Nat)) : Option Address × Nat :=
  received.foldl (fun (top, topAmount) (addr, amt) => if amt > topAmount then (some addr, amt) else (top, topAmount))
    (none, 0)

def devbuyPct (topAmount totalSupply : Nat) : Option ℚ :=
  if totalSupply > 0 then some ((topAmount * 100 * 10 ^ 12 / totalSupply : Nat) / 10 ^ 12) else none

/-- Whatever fails, there is an answer. A pool without an address is a failure too. -/
def computeIndexFeatures (receipt : Except RpcError (List RpcLog)) (totalSupply : Except RpcError Nat)
    (token : Address) (liquiditySource : Option Address) : IndexFeatures :=
  match receipt, liquiditySource with
  | .ok logs, some source =>
    let (devbuyRecipient, topAmount) := topRecipient (receivedBy token [source, ZERO_ADDRESS, token] logs)
    match totalSupply with
    | .ok supply => ⟨devbuyPct topAmount supply, devbuyRecipient, none, none⟩
    | .error _ => ⟨none, devbuyRecipient, none, none⟩
  | _, _ => ⟨none, none, none, none⟩

/-- More logs than this mean that the token is a quote asset. -/
def MAX_T10_LOGS : Nat := 8000

structure T10Features where
  uniqueBuyers10m : Option Nat
  buysPerBuyer10m : Option ℚ

def buyersOf (logs : List RpcLog) : List (Address × Nat) :=
  logs.foldl (fun buyers log =>
    match log.topics[2]? with
    | none => buyers
    | some toTopic => OrderedMap.alter (topicToAddress toTopic) (fun n => n.getD 0 + 1) buyers) []

def computeT10Features (request : GetLogs) (token liquiditySource : Address) (fromBlock toBlock maxRange : Nat) :
    T10Features :=
  match getLogsChunked request
    ⟨[token], [some [TRANSFER_TOPIC0], some [addressToTopic liquiditySource]], fromBlock, toBlock⟩ maxRange with
  | .error _ => ⟨none, none⟩
  | .ok logs =>
    if logs.length > MAX_T10_LOGS then ⟨none, none⟩
    else
      let buyers := buyersOf logs
      if buyers = [] then ⟨some 0, some 0⟩
      else ⟨some buyers.length, some ((buyers.map Prod.snd).sum / buyers.length)⟩

structure HookFeatures where
  hookPermissions : Option Nat
  hookCanBlockSwap : Option Bool
  hookCanTaxSwap : Option Bool
  hookGatesLpRemoval : Option Bool

def computeHookFeatures (poolHooks : Option Address) : HookFeatures :=
  let perms := decodeHookPermissions poolHooks
  if perms.hasHook then
    let risk := hookRisk perms
    ⟨some perms.flags, some risk.canBlockSwap, some risk.canTaxSwap, some risk.gatesLpRemoval⟩
  else ⟨some 0, some false, some false, some false⟩

/-- 10%, in hundredths of a bip -/
def FEE_SUSPECT_THRESHOLD : Nat := 100000

def isFeeSuspect (fee : Option Nat) : Bool := fee.any fun fee => decide (FEE_SUSPECT_THRESHOLD ≤ fee)

def DAY_MS : Int := 86400000

def isOverQuota (priorCountInWindow limit : Nat) : Bool := decide (limit ≤ priorCountInWindow)

end LaunchAuditor.Watcher
