import LaunchAuditor.Lib.Json
import LaunchAuditor.Outcomes.Context
import LaunchAuditor.Scoring.Vocabulary

/-! The launches and what hangs on them in `packages/db/prisma/schema.prisma`. Times are in milliseconds. -/

namespace LaunchAuditor.Db
open Chain Outcomes Scoring

/-- How a write ends: acknowledged, refused, or done without an acknowledgement. -/
inductive WriteEnd
  | done
  | refused (e : RpcError)
  | unacknowledged (e : RpcError)

/-- What the caller sees of a write, and the store after it. -/
def WriteEnd.apply {σ : Type} (w : WriteEnd) (change : σ → σ) (s : σ) : Except RpcError Unit × σ :=
  match w with
  | .done => (.ok (), change s)
  | .refused e => (.error e, s)
  | .unacknowledged e => (.error e, change s)

/-- Whether the store has changed. -/
def WriteEnd.applied : WriteEnd → Bool
  | .refused _ => false
  | _ => true

def WriteEnd.acknowledged : WriteEnd → Bool
  | .done => true
  | _ => false

theorem WriteEnd.apply_state {σ : Type} (w : WriteEnd) (change : σ → σ) (s : σ) :
    (w.apply change s).2 = s ∨ (w.apply change s).2 = change s := by
  cases w with
  | done => exact Or.inr rfl
  | refused e => exact Or.inl rfl
  | unacknowledged e => exact Or.inr rfl

inductive Lane
  | index
  | qualified
  deriving DecidableEq, Repr

inductive ReportTrigger
  | launch
  | qualified
  | on_demand
  | scheduled
  | event
  deriving DecidableEq, Repr

def ReportTrigger.text : ReportTrigger → String
  | .launch => "launch"
  | .qualified => "qualified"
  | .on_demand => "on_demand"
  | .scheduled => "scheduled"
  | .event => "event"

structure Launch where
  id : String
  chainId : Nat
  source : String
  sourceConfidence : Option ℚ
  lpLockedByConstruction : Bool
  tokenAddress : Address
  quoteAddress : Option Address
  poolKind : Option PoolKind
  poolAddress : Option Address
  poolId : Option Word
  poolFee : Option Nat
  poolTickSpacing : Option Int
  poolHooks : Option Address
  poolFeeSuspect : Bool
  creatorAddress : Address
  launchBlock : Nat
  launchTxHash : Word
  launchAt : Option Int
  detectedVia : Option String
  tokenAgeAtPoolSec : Option Int
  lane : Lane
  quotaExceeded : Bool
  retrospective : Bool
  deriving DecidableEq

/-- A launch for the examples. -/
def launchIn (id : String) (block : Nat) : Launch where
  id
  chainId := 4663
  source := "raw"
  sourceConfidence := none
  lpLockedByConstruction := false
  tokenAddress := 9#160
  quoteAddress := none
  poolKind := some .v4
  poolAddress := none
  poolId := some 77#256
  poolFee := none
  poolTickSpacing := none
  poolHooks := none
  poolFeeSuspect := false
  creatorAddress := 1#160
  launchBlock := block
  launchTxHash := 70#256
  launchAt := none
  detectedVia := none
  tokenAgeAtPoolSec := none
  lane := .index
  quotaExceeded := false
  retrospective := false

/-- The feature vector of a launch. -/
structure Feature where
  launchId : String
  creatorDevbuyPct : Option ℚ
  creatorAgeDays : Option ℚ
  creatorPriorLaunches : Option Nat
  creatorPriorInsiderExitRate : Option ℚ
  clusterSize : Option Nat
  clusterSupplyPct : Option ℚ
  clusterConfidence : Option ℚ
  top10NoncreatorPct : Option ℚ
  uniqueBuyers10m : Option Nat
  buysPerBuyer10m : Option ℚ
  microbuyShare10m : Option ℚ
  liquidityUsd10m : Option ℚ
  sellImpactBps : Option Int
  sellImpactBps100 : Option Int
  sellImpactBps1000 : Option Int
  hasX : Option Bool
  hasSite : Option Bool
  hookPermissions : Option Nat
  hookCanBlockSwap : Option Bool
  hookCanTaxSwap : Option Bool
  hookGatesLpRemoval : Option Bool
  sidePoolCount : Option Nat
  creatorApprovalsOutsideRouters : Option Nat
  verified : Option Bool
  ownerRenounced : Option Bool
  mintable : Option Bool
  lpHolderType : Option String
  sellSimOk : Option Bool
  sellTaxBps : Option Int
  goplusRaw : Option Json
  goplusFetchedAt : Option Int
  scanhoodRaw : Option Json
  scanhoodFetchedAt : Option Int
  indexLaneComputedAt : Option Int
  t10ComputedAt : Option Int

/-- A pending row of the table of outcomes, as the resolver is given it. -/
structure OutcomeRow where
  id : String
  chainId : Nat
  tokenAddress : Address
  anchorTime : Int
  trigger : ReportTrigger
  launchId : Option String
  label : OutcomeLabel
  horizon : String
  ruleVersion : String
  horizonAt : Option Int
  deriving DecidableEq

end LaunchAuditor.Db
