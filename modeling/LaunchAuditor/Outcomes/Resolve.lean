import LaunchAuditor.Outcomes.BlockTime
import LaunchAuditor.Outcomes.Resolvers
import LaunchAuditor.Outcomes.Insider
import LaunchAuditor.Chain.Config
import LaunchAuditor.Db.Launches

/-! `apps/worker/src/outcomes/resolve.ts` -/

namespace LaunchAuditor.Outcomes
open Chain Watcher Scoring Db

def H24_MS : Int := 24 * 3600 * 1000

/-- An entry of `decimalsCache`, and whether it was read or only taken for want of an answer. -/
structure Decimals where
  value : Nat
  read : Bool
  deriving DecidableEq

abbrev DecimalsCache := Memo.Table Address Decimals

def readDecimals (client : ResolveClient) (quote : Address) : Decimals :=
  match client.decimals quote with
  | .ok d => ⟨d, true⟩
  | .error _ => ⟨18, false⟩

def quoteDecimals (client : ResolveClient) (quote : Address) (cache : DecimalsCache) :
    Memo.Result RpcError DecimalsCache Decimals :=
  if quote = ZERO_ADDRESS then (.ok ⟨18, true⟩, cache)
  else Memo.lookup (.ok (readDecimals client quote)) quote cache

/-- What outlives a resolution. -/
structure Caches where
  blocks : BlockTimeCache
  decimals : DecimalsCache

/-- A process that has just started. -/
def Caches.fresh : Caches := ⟨[], []⟩

/-- What the resolver reads of the database. -/
structure LaunchTables where
  launch : String → Option Launch
  clusterMembers : String → List Address

/-- The blocks a row is measured between. -/
structure Windows where
  anchorBlock : Nat
  horizonBlock : Nat
  drawdownRefStart : Nat
  drawdownRefEnd : Nat
  deriving DecidableEq

/-- Where the reference window of a drawdown ends or starts, other than at the anchor. -/
def otherEnd (row : OutcomeRow) : Int :=
  if row.trigger = .launch ∨ row.trigger = .qualified then row.anchorTime + H24_MS else row.anchorTime - H24_MS

def windowsOf (client : ResolveClient) (row : OutcomeRow) (horizonAt : Int) (cache : BlockTimeCache) :
    Memo.Result RpcError BlockTimeCache Windows :=
  Memo.andThen (blockAtTime (client.blocks 0) row.chainId row.anchorTime cache) fun anchorBlock cache =>
  Memo.andThen (blockAtTime (client.blocks 1) row.chainId horizonAt cache) fun horizonBlock cache =>
  if row.label = .DRAWDOWN_80 then
    Memo.andThen (blockAtTime (client.blocks 2) row.chainId (otherEnd row) cache) fun other cache =>
    if row.trigger = .launch ∨ row.trigger = .qualified then (.ok ⟨anchorBlock, horizonBlock, anchorBlock, other⟩, cache)
    else (.ok ⟨anchorBlock, horizonBlock, other, anchorBlock⟩, cache)
  else (.ok ⟨anchorBlock, horizonBlock, anchorBlock, anchorBlock⟩, cache)

def launchQuote (launch : Launch) : Address := launch.quoteAddress.getD ZERO_ADDRESS

def poolRef (cfg : ChainConfig) (launch : Launch) : PoolRef where
  poolKind := launch.poolKind.getD .v4
  poolManager := cfg.v4PoolManager
  poolAddress := launch.poolAddress
  poolId := launch.poolId
  tokenIsCurrency0 := decide (launchQuote launch ≠ ZERO_ADDRESS) && decide (launch.tokenAddress < launchQuote launch)

/-- v4 currency ordering: native zero address sorts first, else by address. -/
def poolKeyOf (launch : Launch) : Option PoolKey :=
  let token := launch.tokenAddress
  let quote := launchQuote launch
  match launch.poolKind.getD .v4, launch.poolFee, launch.poolTickSpacing with
  | .v4, some fee, some tickSpacing =>
    some {
      currency0 := if quote = ZERO_ADDRESS then ZERO_ADDRESS else if token < quote then token else quote
      currency1 := if quote = ZERO_ADDRESS then token else if token < quote then quote else token
      fee, tickSpacing
      hooks := launch.poolHooks.getD ZERO_ADDRESS }
  | _, _, _ => none

def contextOf (cfg : ChainConfig) (maxRange : Nat) (client : ResolveClient) (row : OutcomeRow) (launch : Launch)
    (clusterWallets : List Address) (w : Windows) (decimals : Decimals) : ResolverContext where
  client
  chainId := row.chainId
  maxRange
  pool := poolRef cfg launch
  token := launch.tokenAddress
  quote := launchQuote launch
  poolKey := poolKeyOf launch
  quoter := cfg.v4Quoter
  quoteDecimals := decimals.value
  launchBlock := launch.launchBlock
  lpLockedByConstruction := launch.lpLockedByConstruction
  clusterWallets
  label := row.label.text
  horizon := row.horizon
  trigger := row.trigger.text
  anchorBlock := w.anchorBlock
  horizonBlock := w.horizonBlock
  drawdownRefStart := w.drawdownRefStart
  drawdownRefEnd := w.drawdownRefEnd

/-- The `switch` on the label. -/
def runResolver (label : OutcomeLabel) (ctx : ResolverContext) : Except RpcError Resolution :=
  match label with
  | .DRAWDOWN_80 => (resolveDrawdown ctx).map Measured.resolution
  | .SELL_IMPAIRED => .ok (resolveSellImpaired ctx).resolution
  | .LIQ_IMPAIRED => (resolveLiqImpaired ctx).map Measured.resolution
  | .INSIDER_EXIT => resolveInsiderExit ctx
  | .TRADING_ALIVE => .ok (resolveSurvival ctx).resolution

/-- The part that reads the chain. -/
def measureOutcome (cfg : ChainConfig) (maxRange : Nat) (client : ResolveClient) (db : LaunchTables) (row : OutcomeRow)
    (launchId : String) (horizonAt : Int) (launch : Launch) (caches : Caches) : Memo.Result RpcError Caches Resolution :=
  let windows := windowsOf client row horizonAt caches.blocks
  match windows.1 with
  | .error e => (.error e, { caches with blocks := windows.2 })
  | .ok w =>
    let clusterWallets := if row.label = .INSIDER_EXIT then db.clusterMembers launchId else []
    let decimals := quoteDecimals client (launchQuote launch) caches.decimals
    (decimals.1.bind fun d => runResolver row.label (contextOf cfg maxRange client row launch clusterWallets w d),
      ⟨windows.2, decimals.2⟩)

/-- Resolve one row, or throw. -/
def resolveOneOutcome (chainConfigs : List ChainConfig) (maxRangeOverride : Option Nat) (client : ResolveClient)
    (db : LaunchTables) (row : OutcomeRow) (caches : Caches) : Memo.Result RpcError Caches Resolution :=
  match row.launchId with
  | none => (.ok (unresolvable "no linked launch (non-launch trigger not supported yet)" none []), caches)
  | some launchId =>
    match row.horizonAt with
    | none => (.ok (unresolvable "outcome row has no horizonAt" none []), caches)
    | some horizonAt =>
      match db.launch launchId with
      | none => (.ok (unresolvable "linked launch not found" none []), caches)
      | some launch =>
        if !outcomeApplies ⟨row.label, row.horizon⟩ launch.lpLockedByConstruction then
          (.ok (notApplicable "does not apply to this token type"), caches)
        else
          match getChainConfig chainConfigs row.chainId with
          | .error e => (.error e, caches)
          | .ok cfg =>
            measureOutcome cfg (getGetLogsMaxRange cfg maxRangeOverride) client db row launchId horizonAt launch caches

/-- A row that is measured: the launch is known, the outcome applies to it, and its chain is configured. -/
structure Measurable (chainConfigs : List ChainConfig) (db : LaunchTables) (row : OutcomeRow) (launchId : String)
    (horizonAt : Int) (launch : Launch) (cfg : ChainConfig) : Prop where
  linked : row.launchId = some launchId
  due : row.horizonAt = some horizonAt
  found : db.launch launchId = some launch
  applies : outcomeApplies ⟨row.label, row.horizon⟩ launch.lpLockedByConstruction = true
  configured : getChainConfig chainConfigs row.chainId = .ok cfg

/-- A row is settled without a call and without the caches, or it is measured. -/
theorem resolveOneOutcome_cases (chainConfigs : List ChainConfig) (maxRangeOverride : Option Nat) (db : LaunchTables)
    (row : OutcomeRow) :
    (∃ r, ∀ client caches, resolveOneOutcome chainConfigs maxRangeOverride client db row caches = (r, caches)) ∨
      ∃ launchId horizonAt launch cfg, Measurable chainConfigs db row launchId horizonAt launch cfg ∧
        ∀ client caches, resolveOneOutcome chainConfigs maxRangeOverride client db row caches =
          measureOutcome cfg (getGetLogsMaxRange cfg maxRangeOverride) client db row launchId horizonAt launch caches := by
  unfold resolveOneOutcome
  cases hid : row.launchId with
  | none => exact Or.inl ⟨_, fun _ _ => rfl⟩
  | some launchId =>
    cases hat : row.horizonAt with
    | none => exact Or.inl ⟨_, fun _ _ => rfl⟩
    | some horizonAt =>
      dsimp only
      cases hlaunch : db.launch launchId with
      | none => exact Or.inl ⟨_, fun _ _ => rfl⟩
      | some launch =>
        dsimp only
        cases happlies : outcomeApplies ⟨row.label, row.horizon⟩ launch.lpLockedByConstruction with
        | false => exact Or.inl ⟨_, fun _ _ => rfl⟩
        | true =>
          cases hcfg : getChainConfig chainConfigs row.chainId with
          | error e => exact Or.inl ⟨_, fun _ _ => rfl⟩
          | ok cfg => exact Or.inr ⟨launchId, horizonAt, launch, cfg, ⟨hid, hat, hlaunch, happlies, hcfg⟩, fun _ _ => rfl⟩

end LaunchAuditor.Outcomes
