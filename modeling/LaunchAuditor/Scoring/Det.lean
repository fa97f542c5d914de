import Mathlib.Algebra.Order.Ring.Unbundled.Rat
import Mathlib.Data.Rat.Defs
import LaunchAuditor.Js
import LaunchAuditor.Scoring.Vocabulary

/-! `inputs.ts`, `det.ts` with its weights files, and `heuristic.ts` of `packages/scoring/src`, over exact
rationals. -/

namespace LaunchAuditor.Scoring

/-- What the floating-point library computes. -/
structure Transcendentals where
  log : ℚ → ℚ
  exp : ℚ → ℚ

structure FeatureInputs where
  source : String
  lpLockedByConstruction : Bool
  creatorDevbuyPct : Option ℚ
  creatorAgeDays : Option ℚ
  creatorPriorLaunches : Option Nat
  creatorPriorInsiderExitRate : Option ℚ
  clusterSize : Option Nat
  launchBlockClusterSize : Option Nat
  clusterSupplyPct : Option ℚ
  top10NoncreatorPct : Option ℚ
  uniqueBuyers10m : Option Nat
  buysPerBuyer10m : Option ℚ
  microbuyShare10m : Option ℚ
  liquidityUsd10m : Option ℚ
  sellImpactBps : Option Int
  hasX : Option Bool
  hasSite : Option Bool
  verified : Option Bool
  ownerRenounced : Option Bool
  mintable : Option Bool
  sellSimOk : Option Bool
  sellTaxBps : Option Int
  hookCanBlockSwap : Option Bool
  hookCanTaxSwap : Option Bool
  hookGatesLpRemoval : Option Bool
  sidePoolCount : Option Nat
  creatorApprovalsOutsideRouters : Option Nat

/-- The features a weights file may name. -/
inductive FeatureName
  | creatorDevbuyPct
  | creatorAgeDays
  | creatorPriorLaunches
  | creatorPriorInsiderExitRate
  | clusterSize
  | launchBlockClusterSize
  | clusterSupplyPct
  | top10NoncreatorPct
  | uniqueBuyers10m
  | buysPerBuyer10m
  | microbuyShare10m
  | liquidityUsd10m
  | sellImpactBps
  | hasX
  | hasSite
  | verified
  | ownerRenounced
  | mintable
  | sellSimOk
  | sellTaxBps
  | lpLockedByConstruction
  | hookCanBlockSwap
  | hookCanTaxSwap
  | hookGatesLpRemoval
  | sidePoolCount
  | creatorApprovalsOutsideRouters
  deriving DecidableEq, Repr

namespace Transcendentals
variable (m : Transcendentals)

def log1p (x : ℚ) : ℚ := m.log (1 + max 0 x)

def sigmoid (x : ℚ) : ℚ := 1 / (1 + m.exp (-x))

end Transcendentals

/-- An unknown contributes nothing. -/
def tri (b : Option Bool) : ℚ :=
  match b with
  | none => 0
  | some true => 1
  | some false => -1

/-- `(x - center) / scale`, 0 when missing -/
def z (x : Option ℚ) (center scale : ℚ) : ℚ := (x.map fun x => (x - center) / scale).getD 0

/-- The standardized vector. -/
def standardize (m : Transcendentals) (inputs : FeatureInputs) : FeatureName → ℚ
  | .creatorDevbuyPct => z inputs.creatorDevbuyPct 3 8
  | .creatorAgeDays => z (inputs.creatorAgeDays.map m.log1p) (m.log1p 30) (3 / 2)
  | .creatorPriorLaunches => z (inputs.creatorPriorLaunches.map fun n => m.log1p n) (m.log1p 1) 1
  | .creatorPriorInsiderExitRate => z inputs.creatorPriorInsiderExitRate (3 / 10) (3 / 10)
  | .clusterSize => z (inputs.clusterSize.map fun n => m.log1p n) (m.log1p 1) 1
  | .launchBlockClusterSize => z (inputs.launchBlockClusterSize.map fun n => (n : ℚ)) 1 2
  | .clusterSupplyPct => z inputs.clusterSupplyPct 5 12
  | .top10NoncreatorPct => z inputs.top10NoncreatorPct 25 20
  | .uniqueBuyers10m => z (inputs.uniqueBuyers10m.map fun n => m.log1p n) (m.log1p 30) (3 / 2)
  | .buysPerBuyer10m => z inputs.buysPerBuyer10m 2 3
  | .microbuyShare10m => z inputs.microbuyShare10m (3 / 10) (3 / 10)
  | .liquidityUsd10m => z (inputs.liquidityUsd10m.map m.log1p) (m.log1p 5000) 2
  | .sellImpactBps => z (inputs.sellImpactBps.map fun n => m.log1p n) (m.log1p 100) (3 / 2)
  | .hasX => tri inputs.hasX
  | .hasSite => tri inputs.hasSite
  | .verified => tri inputs.verified
  | .ownerRenounced => tri inputs.ownerRenounced
  | .mintable => tri inputs.mintable
  | .sellSimOk => tri inputs.sellSimOk
  | .sellTaxBps => z (inputs.sellTaxBps.map fun n => (n : ℚ)) 0 300
  | .lpLockedByConstruction => if inputs.lpLockedByConstruction then 1 else -1
  | .hookCanBlockSwap => tri inputs.hookCanBlockSwap
  | .hookCanTaxSwap => tri inputs.hookCanTaxSwap
  | .hookGatesLpRemoval => tri inputs.hookGatesLpRemoval
  | .sidePoolCount => z (inputs.sidePoolCount.map fun n => (n : ℚ)) 1 3
  | .creatorApprovalsOutsideRouters => z (inputs.creatorApprovalsOutsideRouters.map fun n => (n : ℚ)) 0 2

end LaunchAuditor.Scoring

namespace LaunchAuditor.Scoring

structure OutcomeWeights where
  bias : ℚ
  weights : List (FeatureName × ℚ)

structure DetWeights where
  version : String
  outcomes : List (OutcomeKey × OutcomeWeights)

def insiderExitWeights : List (FeatureName × ℚ) :=
  [(.creatorDevbuyPct, 3 / 5), (.clusterSupplyPct, 7 / 10), (.top10NoncreatorPct, 2 / 5),
    (.launchBlockClusterSize, 1 / 2), (.creatorPriorInsiderExitRate, 9 / 10), (.creatorPriorLaunches, 1 / 5),
    (.creatorAgeDays, -2 / 5), (.uniqueBuyers10m, -3 / 10), (.creatorApprovalsOutsideRouters, 3 / 5),
    (.hasX, -1 / 5), (.hasSite, -1 / 5)]

def sellImpairedWeights : List (FeatureName × ℚ) :=
  [(.sellTaxBps, 1), (.mintable, 2 / 5), (.ownerRenounced, -7 / 10), (.sellSimOk, -6 / 5), (.verified, -3 / 10),
    (.sellImpactBps, 1 / 2), (.hookCanBlockSwap, 6 / 5), (.hookCanTaxSwap, 1)]

def liqImpairedWeights : List (FeatureName × ℚ) :=
  [(.lpLockedByConstruction, -2), (.liquidityUsd10m, -1 / 2), (.verified, -3 / 10), (.ownerRenounced, -3 / 10),
    (.clusterSupplyPct, 3 / 10), (.creatorPriorInsiderExitRate, 1 / 2), (.sidePoolCount, 3 / 5),
    (.hookGatesLpRemoval, 1 / 5)]

def drawdownWeights : List (FeatureName × ℚ) :=
  [(.creatorDevbuyPct, 1 / 2), (.top10NoncreatorPct, 1 / 2), (.clusterSupplyPct, 2 / 5),
    (.microbuyShare10m, 3 / 10), (.sellImpactBps, 2 / 5), (.liquidityUsd10m, -3 / 5), (.uniqueBuyers10m, -2 / 5),
    (.buysPerBuyer10m, 1 / 5), (.creatorAgeDays, -1 / 5), (.hookCanBlockSwap, 2 / 5), (.sidePoolCount, 3 / 10),
    (.creatorApprovalsOutsideRouters, 1 / 2), (.hasX, -3 / 20), (.hasSite, -3 / 20)]

def tradingAliveWeights : List (FeatureName × ℚ) :=
  [(.uniqueBuyers10m, 7 / 10), (.buysPerBuyer10m, 1 / 5), (.liquidityUsd10m, 3 / 5), (.creatorAgeDays, 3 / 10),
    (.hasX, 1 / 5), (.hasSite, 1 / 5), (.creatorDevbuyPct, -2 / 5), (.clusterSupplyPct, -2 / 5),
    (.top10NoncreatorPct, -3 / 10), (.microbuyShare10m, -2 / 5), (.creatorPriorInsiderExitRate, -1 / 2),
    (.sellImpactBps, -3 / 10), (.hookCanBlockSwap, -1 / 2), (.hookCanTaxSwap, -2 / 5), (.sidePoolCount, -3 / 10),
    (.creatorApprovalsOutsideRouters, -2 / 5)]

def DET_V0_WEIGHTS : DetWeights where
  version := "det_v0"
  outcomes :=
    [(⟨.INSIDER_EXIT, "6h"⟩, ⟨-2, insiderExitWeights⟩),
      (⟨.INSIDER_EXIT, "24h"⟩, ⟨-8 / 5, insiderExitWeights⟩),
      (⟨.INSIDER_EXIT, "72h"⟩, ⟨-13 / 10, insiderExitWeights⟩),
      (⟨.SELL_IMPAIRED, "1h"⟩, ⟨-5 / 2, sellImpairedWeights⟩),
      (⟨.SELL_IMPAIRED, "24h"⟩, ⟨-11 / 5, sellImpairedWeights⟩),
      (⟨.LIQ_IMPAIRED, "24h"⟩, ⟨-11 / 5, liqImpairedWeights⟩),
      (⟨.LIQ_IMPAIRED, "7d"⟩, ⟨-9 / 5, liqImpairedWeights⟩),
      (⟨.DRAWDOWN_80, "24h"⟩, ⟨-3 / 5, drawdownWeights⟩),
      (⟨.DRAWDOWN_80, "7d"⟩, ⟨-1 / 5, drawdownWeights⟩),
      (⟨.TRADING_ALIVE, "24h"⟩, ⟨-1, tradingAliveWeights⟩),
      (⟨.TRADING_ALIVE, "7d"⟩, ⟨-9 / 5, tradingAliveWeights⟩)]

structure DetV0Result where
  version : String
  probabilities : List (OutcomeKey × ℚ)

/-- The sum of the bias and the weighted features. -/
def logitOf (m : Transcendentals) (inputs : FeatureInputs) (w : OutcomeWeights) : ℚ :=
  w.weights.foldl (fun logit c => logit + c.2 * standardize m inputs c.1) w.bias

/-- Rounded to four places. -/
def detProbability (m : Transcendentals) (inputs : FeatureInputs) (w : OutcomeWeights) : ℚ :=
  Js.roundTo 10000 (m.sigmoid (logitOf m inputs w))

def detV0 (m : Transcendentals) (inputs : FeatureInputs) (weights : DetWeights) : DetV0Result where
  version := weights.version
  probabilities := ALL_OUTCOME_KEYS.filterMap fun key =>
    if outcomeApplies key inputs.lpLockedByConstruction then
      (weights.outcomes.lookup key).map fun w => (key, detProbability m inputs w)
    else none

/-- Other biases for some of the cells. -/
structure DetV01Overrides where
  version : String
  biasOverride : List (OutcomeKey × ℚ)

def DET_V0_1_OVERRIDES : DetV01Overrides where
  version := "det_v0.1"
  biasOverride :=
    [(⟨.INSIDER_EXIT, "6h"⟩, -2), (⟨.INSIDER_EXIT, "24h"⟩, -1029 / 500), (⟨.LIQ_IMPAIRED, "24h"⟩, -397 / 1000),
      (⟨.DRAWDOWN_80, "24h"⟩, -341 / 500), (⟨.TRADING_ALIVE, "24h"⟩, -243 / 250)]

def mergeDetV01 (base : DetWeights) (overrides : DetV01Overrides) : DetWeights where
  version := overrides.version
  outcomes := base.outcomes.map fun w => (w.1, ⟨(overrides.biasOverride.lookup w.1).getD w.2.bias, w.2.weights⟩)

def detV0_1 (m : Transcendentals) (inputs : FeatureInputs) : DetV0Result :=
  detV0 m inputs (mergeDetV01 DET_V0_WEIGHTS DET_V0_1_OVERRIDES)

namespace HEURISTIC_V1_THRESHOLDS

def devbuyPct : ℚ := 5
def launchBlockCluster : Nat := 3
def top10NoncreatorPct : ℚ := 40

end HEURISTIC_V1_THRESHOLDS

namespace HEURISTIC_V1_SCORE

def fired : ℚ := 8 / 10
def clear : ℚ := 12 / 100

end HEURISTIC_V1_SCORE

structure HeuristicV1Result where
  fired : Bool
  reasons : List String
  probabilities : List (OutcomeKey × ℚ)

def heuristicReasons (inputs : FeatureInputs) : List String :=
  (if inputs.creatorDevbuyPct.getD 0 ≥ HEURISTIC_V1_THRESHOLDS.devbuyPct then ["creator_devbuy_pct ≥ 5"] else []) ++
    (if inputs.launchBlockClusterSize.getD 0 ≥ HEURISTIC_V1_THRESHOLDS.launchBlockCluster then
      ["launch_block_cluster ≥ 3"] else []) ++
    (if inputs.top10NoncreatorPct.getD 0 ≥ HEURISTIC_V1_THRESHOLDS.top10NoncreatorPct then
      ["top10_noncreator_pct ≥ 40"] else [])

/-- One flag for every cell, inverted where a positive outcome is the good one. -/
def heuristicV1 (inputs : FeatureInputs) : HeuristicV1Result :=
  let reasons := heuristicReasons inputs
  let fired := !reasons.isEmpty
  let p := if fired then HEURISTIC_V1_SCORE.fired else HEURISTIC_V1_SCORE.clear
  { fired
    reasons
    probabilities := (ALL_OUTCOME_KEYS.filter fun key => outcomeApplies key inputs.lpLockedByConstruction).map
      fun key => (key, if outcomeIsPositive key then 1 - p else p) }

end LaunchAuditor.Scoring
