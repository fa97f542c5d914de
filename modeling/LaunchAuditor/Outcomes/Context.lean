import LaunchAuditor.Chain.Logs
import Mathlib.Data.Rat.Defs

/-! `types.ts`, `coverage.ts`, `context.ts` and the shared types of `apps/worker/src/outcomes`,
and the client the resolvers are given. -/

namespace LaunchAuditor.Outcomes
open Chain

inductive OutcomeStatus
  | RESOLVED
  | NA
  | UNRESOLVABLE
  deriving DecidableEq, Repr

/-- A value of an evidence record. -/
inductive EvidenceValue
  | null
  | num (n : ℚ)
  | text (s : String)
  /-- the decimal text of a bigint -/
  | digits (n : Int)
  | texts (s : List String)
  | nums (n : List ℚ)
  deriving DecidableEq

abbrev Evidence := List (String × EvidenceValue)

structure Coverage where
  fromBlock : Nat
  toBlock : Nat
  blocksScanned : Nat
  chunkSize : Nat
  callCount : Nat
  gaps : List String
  notes : List String
  deriving DecidableEq

def span (fromBlock toBlock : Nat) : Nat := if toBlock ≥ fromBlock then toBlock - fromBlock + 1 else 0

/-- `Math.ceil(a / b)` of a positive `b`, else 0 -/
def ceilDiv (a b : Nat) : Nat := if b > 0 then (a + b - 1) / b else 0

def newCoverage (fromBlock toBlock chunkSize : Nat) : Coverage :=
  ⟨fromBlock, toBlock, span fromBlock toBlock, chunkSize, ceilDiv (span fromBlock toBlock) chunkSize, [], []⟩

def mergeCoverage (a b : Coverage) : Coverage where
  fromBlock := min a.fromBlock b.fromBlock
  toBlock := max a.toBlock b.toBlock
  blocksScanned := a.blocksScanned + b.blocksScanned
  chunkSize := max a.chunkSize b.chunkSize
  callCount := a.callCount + b.callCount
  gaps := a.gaps ++ b.gaps
  notes := a.notes ++ b.notes

structure Resolution where
  status : OutcomeStatus
  value : Option Bool
  evidence : Evidence
  coverage : Option Coverage
  reason : Option String
  deriving DecidableEq

def resolved (value : Bool) (evidence : Evidence) (coverage : Option Coverage) : Resolution :=
  ⟨.RESOLVED, some value, evidence, coverage, none⟩

def unresolvable (reason : String) (coverage : Option Coverage) (evidence : Evidence) : Resolution :=
  ⟨.UNRESOLVABLE, none, evidence, coverage, some reason⟩

def notApplicable (reason : String) : Resolution := ⟨.NA, none, [], none, some reason⟩

inductive PoolKind
  | v2
  | v3
  | v4
  deriving DecidableEq, Repr

def PoolKind.text : PoolKind → String
  | .v2 => "v2"
  | .v3 => "v3"
  | .v4 => "v4"

structure PoolKey where
  currency0 : Address
  currency1 : Address
  fee : Nat
  tickSpacing : Int
  hooks : Address
  deriving DecidableEq

structure PoolRef where
  poolKind : PoolKind
  poolManager : Address
  poolAddress : Option Address
  poolId : Option Word
  /-- the new token holds currency0 (v4) / token0 (v2/v3) -/
  tokenIsCurrency0 : Bool
  deriving DecidableEq

/-- The arguments of one `quoteExactInputSingle` by `eth_call`. -/
structure QuoteCall where
  quoter : Address
  poolKey : PoolKey
  zeroForOne : Bool
  amountIn : Nat
  blockNumber : Nat
  deriving DecidableEq

/-- The block reads of one search; the n-th read may end otherwise than the one before it. -/
structure BlockReader where
  getBlockNumber : Except RpcError Nat
  /-- the timestamp, in seconds -/
  getBlock : Nat → Nat → Except RpcError Nat

/-- What the client answers during one resolution. Every call is given its place in it, so
that two equal calls need not end alike. -/
structure ResolveClient where
  blocks : Nat → BlockReader
  /-- the scan, and the attempt at it -/
  getLogs : Nat → Nat → GetLogs
  /-- the decoded `amountOut` -/
  quote : Nat → QuoteCall → Except RpcError Nat
  /-- `readContract` of `decimals()` -/
  decimals : Address → Except RpcError Nat

/-- Everything a per-label resolver needs. -/
structure ResolverContext where
  client : ResolveClient
  chainId : Nat
  maxRange : Nat
  pool : PoolRef
  token : Address
  quote : Address
  poolKey : Option PoolKey
  quoter : Address
  quoteDecimals : Nat
  launchBlock : Nat
  lpLockedByConstruction : Bool
  clusterWallets : List Address
  label : String
  horizon : String
  trigger : String
  anchorBlock : Nat
  horizonBlock : Nat
  drawdownRefStart : Nat
  drawdownRefEnd : Nat

end LaunchAuditor.Outcomes
