import LaunchAuditor.Outcomes.Context
import LaunchAuditor.Watcher.Erc20
import LaunchAuditor.Js
import LaunchAuditor.Scanners
import LaunchAuditor.Watcher.T10

/-! `sellimpact.ts` and `feature9.ts` of `apps/worker/src/watcher`. -/

namespace LaunchAuditor.Watcher
open Chain Outcomes

/-- A tiny token amount, for the quote near the spot. -/
def SPOT_IN : Nat := 10 ^ 12

/-- The `eth_call` of `quoteExactInputSingle`; without a block it is the latest. -/
structure SellCall where
  quoter : Address
  poolKey : PoolKey
  zeroForOne : Bool
  exactAmount : Nat
  blockNumber : Option Nat
  deriving DecidableEq

inductive CallEnd
  /-- the whole words of the data -/
  | returned (data : List Word)
  | reverted
  | transport
  | timeout
  deriving DecidableEq

/-- The answers to the spot quote (0) and to the quotes of the notionals (1, 2, …). -/
abbrev Quoter := Nat → SellCall → CallEnd

structure SellImpactParams where
  client : Quoter
  quoter : Address
  token : Address
  quote : Address
  fee : Nat
  tickSpacing : Int
  hooks : Address
  /-- raw quote-unit notionals to size the sell to -/
  notionalsQuote : List Nat
  blockNumber : Option Nat

structure SizedSellImpact where
  notionalQuote : Nat
  sellSizeTokens : Nat
  impactBps : Option Int
  simOk : Option Bool

structure SellImpactResult where
  /-- did the quote near the spot succeed -/
  spotOk : Option Bool
  results : List SizedSellImpact

/-- `encodeFunctionData` throws where a number does not fit its type. -/
def SellCall.encodable (c : SellCall) : Bool :=
  decide (c.poolKey.fee < 2 ^ 24) && decide (-2 ^ 23 ≤ c.poolKey.tickSpacing) && decide (c.poolKey.tickSpacing < 2 ^ 23) &&
    decide (c.exactAmount < 2 ^ 128)

/-- `decodeFunctionResult`: the first of two words. -/
def CallEnd.amountOut : CallEnd → Option Nat
  | .returned (out :: _ :: _) => some out.toNat
  | _ => none

def SellImpactParams.sell (p : SellImpactParams) (exactAmount : Nat) : SellCall :=
  let c0 := if p.token < p.quote then p.token else p.quote
  let c1 := if p.token < p.quote then p.quote else p.token
  { quoter := p.quoter
    poolKey := ⟨c0, c1, p.fee, p.tickSpacing, p.hooks⟩
    zeroForOne := decide (p.token = c0)
    exactAmount
    blockNumber := p.blockNumber }

/-- `call(exactAmount)`, the n-th: whatever it throws, there is no amount. -/
def SellImpactParams.call (p : SellImpactParams) (n exactAmount : Nat) : Option Nat :=
  if exactAmount = 0 then none
  else if (p.sell exactAmount).encodable then (p.client n (p.sell exactAmount)).amountOut
  else none

/-- Tokens for about this much of the quote asset. -/
def sellSize (notionalQuote spotOut : Nat) : Nat := notionalQuote * SPOT_IN / spotOut

def sizedSellImpact (p : SellImpactParams) (spotOut n notionalQuote : Nat) : SizedSellImpact :=
  let size := sellSize notionalQuote spotOut
  match (p.call n size).filter (· ≠ 0) with
  | none => ⟨notionalQuote, size, none, some false⟩
  | some bulkOut =>
    let spotPer : ℚ := spotOut / SPOT_IN
    let bulkPer : ℚ := bulkOut / size
    ⟨notionalQuote, size, some (max 0 (Js.mathRound ((1 - bulkPer / spotPer) * 10000))), some true⟩

def quoteSellImpact (p : SellImpactParams) : SellImpactResult :=
  match (p.call 0 SPOT_IN).filter (· ≠ 0) with
  | none => ⟨some false, p.notionalsQuote.map fun notionalQuote => ⟨notionalQuote, 0, none, some false⟩⟩
  | some spotOut =>
    ⟨some true, p.notionalsQuote.mapIdx fun i notionalQuote => sizedSellImpact p spotOut (i + 1) notionalQuote⟩

end LaunchAuditor.Watcher

namespace LaunchAuditor.Watcher
open Chain Outcomes Scanners

/-- What the two fetches come back with; a failed one has no payload. -/
structure ScannerFetches where
  security : Option GoPlusTokenSecurity
  goplusRaw : Json
  goplusFetchedAt : Int
  scan : Option ScanHoodScan
  scanhoodRaw : Json
  scanhoodFetchedAt : Int

structure Feature9Params where
  client : Quoter
  token : Address
  quote : Option Address
  quoter : Address
  poolFee : Option Nat
  poolTickSpacing : Option Int
  poolHooks : Option Address
  /-- for the 100 / 1,000 quote-unit sell notionals -/
  quoteDecimals : Nat
  blockNumber : Option Nat

/-- What each source says, and whether they agree. -/
structure CrossCheck where
  goplus : Option Bool
  scanhood : Option Bool
  agree : Option Bool

structure Feature9 extends Feature9Result where
  verifiedCheck : CrossCheck
  sellSimOkCheck : CrossCheck

def agreement (a b : Option Bool) : Option Bool :=
  match a, b with
  | some a, some b => some (a == b)
  | _, _ => none

def crossCheck (goplus scanhood : Option Bool) : CrossCheck := ⟨goplus, scanhood, agreement goplus scanhood⟩

/-- The first that is there. -/
def coalesce {α : Type} (vals : List (Option α)) : Option α := vals.findSome? id

/-- The quotes that are asked for, if the pool has all they need. -/
def Feature9Params.sellImpact (p : Feature9Params) : Option SellImpactParams :=
  match p.quote, p.poolFee, p.poolTickSpacing with
  | some quote, some fee, some tickSpacing =>
    if quote = ZERO_ADDRESS then none
    else
      some
        { client := p.client, quoter := p.quoter, token := p.token, quote, fee, tickSpacing
          hooks := p.poolHooks.getD ZERO_ADDRESS
          notionalsQuote := [100 * 10 ^ p.quoteDecimals, 1000 * 10 ^ p.quoteDecimals]
          blockNumber := p.blockNumber }
  | _, _, _ => none

def ownQuoteSellOk (q : SellImpactResult) : Option Bool :=
  if q.spotOk = some false then some false
  else if q.results.any fun r => r.simOk = some true then some true
  else q.spotOk

def computeFeature9 (p : Feature9Params) (f : ScannerFetches) : Feature9 :=
  let gp := mapGoPlus f.security
  let sh := mapScanHood f.scan
  let q := p.sellImpact.map quoteSellImpact
  let sellImpactBps100 := q.bind fun q => q.results[0]?.bind SizedSellImpact.impactBps
  let sellImpactBps1000 := q.bind fun q => q.results[1]?.bind SizedSellImpact.impactBps
  { verified := coalesce [gp.verified, sh.verified]
    ownerRenounced := gp.ownerRenounced
    mintable := gp.mintable
    lpHolderType := coalesce [sh.lpHolderType, gp.lpLocked.map fun locked => if locked then "locked" else "unlocked"]
    sellSimOk := coalesce [q.bind ownQuoteSellOk, gp.honeypot.map not, sh.sellable]
    sellTaxBps := gp.sellTaxBps
    sellImpactBps := sellImpactBps1000
    sellImpactBps100
    sellImpactBps1000
    liquidityUsd10m := sh.liquidityUsd
    goplusRaw := some f.goplusRaw
    goplusFetchedAt := some f.goplusFetchedAt
    scanhoodRaw := some f.scanhoodRaw
    scanhoodFetchedAt := some f.scanhoodFetchedAt
    verifiedCheck := crossCheck gp.verified sh.verified
    sellSimOkCheck := crossCheck (gp.honeypot.map not) sh.sellable }

end LaunchAuditor.Watcher
