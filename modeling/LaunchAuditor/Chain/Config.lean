import LaunchAuditor.Chain.Logs
import LaunchAuditor.Lib.OrderedMap
import Mathlib.Data.Rat.Defs
import Mathlib.Data.Rat.Floor

/-! `chain-config.ts`, `launchpads.ts` and `v4-hooks.ts` of `packages/chain/src` -/

namespace LaunchAuditor.Chain

structure LaunchpadConfig where
  key : String
  lpLockedByConstruction : Bool
  factories : List Address
  candidateFactories : List Address
  verified : Bool

structure ChainConfig where
  chainId : Nat
  approxBlockSeconds : ℚ
  getLogsMaxRange : Nat
  v4PoolManager : Address
  v3Factories : List Address
  v2Factory : Address
  v4Quoter : Address
  quoteAssets : List Address
  launchpads : List LaunchpadConfig

/-- `chainConfigs` is what the JSON files hold. -/
def getChainConfig (chainConfigs : List ChainConfig) (chainId : Nat) : Except RpcError ChainConfig :=
  match chainConfigs.find? fun cfg => cfg.chainId = chainId with
  | some cfg => .ok cfg
  | none => .error ⟨"Error", s!"no chain config for chainId {chainId}"⟩

/-- `getLogsMaxRangeOverride` is the span that was probed when the worker booted. -/
def getGetLogsMaxRange (cfg : ChainConfig) (getLogsMaxRangeOverride : Option Nat) : Nat :=
  getLogsMaxRangeOverride.getD cfg.getLogsMaxRange

/-- A chain for the examples. -/
def sampleConfig : ChainConfig where
  chainId := 4663
  approxBlockSeconds := 1 / 10
  getLogsMaxRange := 9999
  v4PoolManager := 2#160
  v3Factories := []
  v2Factory := 5#160
  v4Quoter := 3#160
  quoteAssets := [6#160]
  launchpads := []

structure LaunchAttribution where
  source : String
  sourceConfidence : ℚ
  lpLockedByConstruction : Bool
  matchedAddress : Option Address
  /-- matched an unconfirmed candidate factory -/
  viaCandidate : Bool

structure LaunchpadHit where
  lp : LaunchpadConfig
  candidate : Bool

def indexLaunchpad (idx : List (Address × LaunchpadHit)) (lp : LaunchpadConfig) : List (Address × LaunchpadHit) :=
  let idx := lp.factories.foldl (fun idx f => OrderedMap.set f ⟨lp, false⟩ idx) idx
  lp.candidateFactories.foldl (fun idx f => OrderedMap.setNew f ⟨lp, true⟩ idx) idx

def buildLaunchpadIndex (cfg : ChainConfig) : List (Address × LaunchpadHit) :=
  cfg.launchpads.foldl indexLaunchpad []

def LaunchpadHit.attribution (hit : LaunchpadHit) (raw : Address) : LaunchAttribution where
  source := hit.lp.key
  sourceConfidence := if hit.candidate then 1 / 2 else if hit.lp.verified then 95 / 100 else 8 / 10
  lpLockedByConstruction := hit.lp.lpLockedByConstruction
  matchedAddress := some raw
  viaCandidate := hit.candidate

/-- A confirmed factory wins over a candidate, and the first match over later ones. -/
def attributeTouched (idx : List (Address × LaunchpadHit)) : Option LaunchAttribution → List Address → LaunchAttribution
  | candidateHit, [] => candidateHit.getD ⟨"raw", 1 / 2, false, none, false⟩
  | candidateHit, raw :: touched =>
    match idx.lookup raw with
    | none => attributeTouched idx candidateHit touched
    | some hit =>
      if hit.candidate then attributeTouched idx (candidateHit.or (some (hit.attribution raw))) touched
      else hit.attribution raw

def attributeSource (cfg : ChainConfig) (touchedAddresses : List Address) : LaunchAttribution :=
  attributeTouched (buildLaunchpadIndex cfg) none touchedAddresses

/-- The bits of a hook's address that say what it may do. -/
structure HOOK_FLAG where
  beforeRemoveLiquidity : Bool
  beforeSwap : Bool
  beforeSwapReturnsDelta : Bool
  afterSwapReturnsDelta : Bool

structure HookPermissions where
  hasHook : Bool
  /-- the 14-bit permission value -/
  flags : Nat
  enabled : HOOK_FLAG

def decodeHookPermissions (hookAddress : Option Address) : HookPermissions :=
  match hookAddress with
  | none => ⟨false, 0, ⟨false, false, false, false⟩⟩
  | some hook =>
    if hook = 0#160 then ⟨false, 0, ⟨false, false, false, false⟩⟩
    else
      let flags := hook.toNat % 2 ^ 14
      ⟨true, flags, ⟨flags.testBit 9, flags.testBit 7, flags.testBit 3, flags.testBit 2⟩⟩

structure HookRisk where
  canBlockSwap : Bool
  canTaxSwap : Bool
  gatesLpRemoval : Bool

def hookRisk (p : HookPermissions) : HookRisk :=
  ⟨p.enabled.beforeSwap, p.enabled.beforeSwapReturnsDelta || p.enabled.afterSwapReturnsDelta,
    p.enabled.beforeRemoveLiquidity⟩

end LaunchAuditor.Chain
