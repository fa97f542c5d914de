import LaunchAuditor.Outcomes.Series
import LaunchAuditor.Outcomes.Quote

/-! `resolve-survival.ts`, `resolve-drawdown.ts`, `resolve-sell-impaired.ts` and `resolve-liq.ts` of
`apps/worker/src/outcomes`. -/

namespace LaunchAuditor.Outcomes
open Chain

/-- About 6h of blocks. -/
def ALIVE_WINDOW_BLOCKS : Nat := 216000

def aliveFrom (ctx : ResolverContext) : Nat :=
  if ctx.horizonBlock > ALIVE_WINDOW_BLOCKS then ctx.horizonBlock - ALIVE_WINDOW_BLOCKS else 0

theorem aliveFrom_le (ctx : ResolverContext) : aliveFrom ctx ≤ ctx.horizonBlock := by
  unfold aliveFrom
  split <;> omega

def resolveSurvival (ctx : ResolverContext) : Measured :=
  match buildPriceSeries ctx.client 0 ctx.pool (aliveFrom ctx) ctx.horizonBlock ctx.maxRange with
  | .error e =>
    ⟨unresolvable ("could not scan the survival window: " ++ String.ofList (e.message.toList.takeWhile (· ≠ '\n'))) none [],
      [.logs (aliveFrom ctx) ctx.horizonBlock false]⟩
  | .ok series =>
    let g := "; ".intercalate series.coverage.gaps
    if series.points = [] ∧ series.coverage.gaps ≠ [] ∧
        ["network", "busy", "timeout", "log cap"].any (Js.containsText g) then
      ⟨unresolvable ("could not scan the survival window: " ++ g) (some series.coverage) [], series.calls⟩
    else
      let last := series.points.getLast?
      ⟨resolved (decide (series.points ≠ []))
        [("windowBlocks", .nums [aliveFrom ctx, ctx.horizonBlock]), ("tradesInWindow", .num series.points.length),
          ("lastTradeBlock", (last.map fun p => EvidenceValue.num p.block).getD .null),
          ("lastTradeTx", (last.map fun p => EvidenceValue.digits p.txHash.toNat).getD .null)] (some series.coverage),
        series.calls⟩

end LaunchAuditor.Outcomes

namespace LaunchAuditor.Outcomes
open Chain

def DRAWDOWN_FLOOR : ℚ := 2 / 10

/-- How far back from the horizon a last swap is looked for. -/
def HORIZON_TAIL_BLOCKS : Nat := 50000

def refMax (points : List PricePoint) : ℚ := points.foldl (fun m p => if p.price > m then p.price else m) 0

def tailStart (ctx : ResolverContext) : Nat :=
  if ctx.horizonBlock > HORIZON_TAIL_BLOCKS then ctx.horizonBlock - HORIZON_TAIL_BLOCKS else 0

/-- The first block of the horizon scan. -/
def postStart (ctx : ResolverContext) : Nat :=
  if ctx.drawdownRefEnd + 1 > tailStart ctx then ctx.drawdownRefEnd + 1 else tailStart ctx

def refSeries (ctx : ResolverContext) : Except RpcError (Series PricePoint) :=
  buildPriceSeries ctx.client 0 ctx.pool ctx.drawdownRefStart ctx.drawdownRefEnd ctx.maxRange

/-- What is known once the horizon has been looked at: the last swap before it, if there is one. -/
structure HorizonLook where
  last : Option PricePoint
  coverage : Coverage
  calls : List Call

def lookAtHorizon (ctx : ResolverContext) (ref : Series PricePoint) : Except RpcError HorizonLook :=
  if postStart ctx ≤ ctx.horizonBlock then do
    let coverage :=
      if postStart ctx > ctx.drawdownRefEnd + 1 then
        { ref.coverage with notes := ref.coverage.notes ++
            [s!"horizon-price scan capped to the last {HORIZON_TAIL_BLOCKS} blocks; earlier trades fall back to the quoter spot"] }
      else ref.coverage
    let post ← buildPriceSeries ctx.client 1 ctx.pool (postStart ctx) ctx.horizonBlock ctx.maxRange
    return ⟨post.points.getLast?, mergeCoverage coverage post.coverage, ref.calls ++ post.calls⟩
  else .ok ⟨ref.points.getLast?, ref.coverage, ref.calls⟩

/-- The spot call at the horizon block. -/
def spotCall (ctx : ResolverContext) (poolKey : PoolKey) : QuoteCall :=
  ⟨ctx.quoter, poolKey, sellDirection ctx.token ctx.quote, 10 ^ 15, ctx.horizonBlock⟩

def drawdownVerdict (ctx : ResolverContext) (ref : Series PricePoint) (coverage : Coverage) (horizonPrice : ℚ)
    (horizonSource : String) (lastSwapTx : EvidenceValue) : Resolution :=
  let ratio := horizonPrice / refMax ref.points
  resolved (decide (ratio ≤ DRAWDOWN_FLOOR))
    [("refMaxPrice", .num (refMax ref.points)),
      ("refWindowBlocks", .nums [ctx.drawdownRefStart, ctx.drawdownRefEnd]), ("horizonBlock", .num ctx.horizonBlock),
      ("horizonPrice", .num horizonPrice), ("horizonSource", .text horizonSource), ("ratio", .num ratio),
      ("refSwapPoints", .num ref.points.length), ("lastSwapTx", lastSwapTx)] (some coverage)

/-- No swap near the horizon: the quoter is asked. -/
def drawdownByQuote (ctx : ResolverContext) (ref : Series PricePoint) (look : HorizonLook) : Measured :=
  match ctx.poolKey with
  | none =>
    ⟨unresolvable "no swap after the reference window and no v4 quoter available" (some look.coverage)
      [("refMaxPrice", .num (refMax ref.points))], look.calls⟩
  | some poolKey =>
    let coverage := { look.coverage with callCount := look.coverage.callCount + 1 }
    match quoteExactInSingle ctx.client 0 (spotCall ctx poolKey) with
    | .ok amountOut =>
      ⟨drawdownVerdict ctx ref coverage (amountOut / 10 ^ 15) "quote" .null, look.calls ++ [.quote true]⟩
    | .failed .revert _ =>
      -- "cannot sell -> price is effectively 0"
      ⟨drawdownVerdict ctx ref coverage 0 "quote" .null, look.calls ++ [.quote false]⟩
    | .failed error message =>
      ⟨unresolvable s!"quoter {error.text} at horizon block" (some coverage)
        [("refMaxPrice", .num (refMax ref.points)), ("rpcError", .text (firstLine message))],
        look.calls ++ [.quote false]⟩

def resolveDrawdown (ctx : ResolverContext) : Except RpcError Measured := do
  let ref ← refSeries ctx
  if refMax ref.points ≤ 0 then
    return ⟨unresolvable "no positive price in the reference window" (some ref.coverage)
      [("refWindowBlocks", .nums [ctx.drawdownRefStart, ctx.drawdownRefEnd])], ref.calls⟩
  else
    let look ← lookAtHorizon ctx ref
    match look.last with
    | some last =>
      return ⟨drawdownVerdict ctx ref look.coverage last.price "swap" (.text (toString last.txHash.toNat)), look.calls⟩
    | none => return drawdownByQuote ctx ref look

end LaunchAuditor.Outcomes

namespace LaunchAuditor.Outcomes
open Chain

def TAX_FLOOR : ℚ := 3 / 10

def spotIn : Nat := 10 ^ 12

def sellCall (ctx : ResolverContext) (poolKey : PoolKey) (amountIn : Nat) : QuoteCall :=
  ⟨ctx.quoter, poolKey, sellDirection ctx.token ctx.quote, amountIn, ctx.horizonBlock⟩

/-- Token raw units worth about 100 quote units. -/
def sellSize (ctx : ResolverContext) (spotOut : Nat) : Nat := 100 * 10 ^ ctx.quoteDecimals * spotIn / spotOut

def sellTax (spotOut bulkIn bulkOut : Nat) : ℚ := max 0 (1 - (bulkOut / bulkIn : ℚ) / (spotOut / spotIn : ℚ))

def resolveSellImpaired (ctx : ResolverContext) : Measured :=
  if ctx.lpLockedByConstruction then ⟨notApplicable "launchpad token: LP locked by construction", []⟩
  else
    let coverage := newCoverage ctx.horizonBlock ctx.horizonBlock 0
    match ctx.poolKey with
    | none =>
      ⟨unresolvable "sell-impact quote only implemented for v4 pools"
        (some { coverage with gaps := ["non-v4 pool; sell-impact quote not wired"] }) [], []⟩
    | some poolKey =>
      let coverage := { coverage with callCount := coverage.callCount + 1 }
      match quoteExactInSingle ctx.client 0 (sellCall ctx poolKey spotIn) with
      | .failed error message =>
        ⟨unresolvable s!"spot sell quote {error.text} at horizon block" (some coverage)
          [("horizonBlock", .num ctx.horizonBlock), ("rpcError", .text (firstLine message))], [.quote false]⟩
      | .ok spotOut =>
        if spotOut = 0 then
          ⟨unresolvable "spot sell quote returns 0 (degenerate quote)" (some coverage)
            [("horizonBlock", .num ctx.horizonBlock)], [.quote true]⟩
        else if sellSize ctx spotOut ≤ 0 then
          ⟨unresolvable "sell size underflow"
            (some { coverage with notes := ["computed sell size rounded to 0; token likely very high unit price"] }) [],
            [.quote true]⟩
        else
          let size := sellSize ctx spotOut
          let coverage := { coverage with callCount := coverage.callCount + 1 }
          match quoteExactInSingle ctx.client 1 (sellCall ctx poolKey size) with
          | .failed error message =>
            ⟨unresolvable s!"100-unit sell quote {error.text} at horizon block" (some coverage)
              [("sellSizeTokens", .digits size), ("rpcError", .text (firstLine message))], [.quote true, .quote false]⟩
          | .ok bulkOut =>
            if bulkOut = 0 then
              ⟨resolved true [("reason", .text "100-unit sell quote returns 0"), ("sellSizeTokens", .digits size)]
                (some coverage), [.quote true, .quote true]⟩
            else
              let tax := sellTax spotOut size bulkOut
              ⟨resolved (decide (tax ≥ TAX_FLOOR))
                [("notionalQuoteUnits", .num 100), ("quoteAsset", .digits ctx.quote.toNat),
                  ("quoteDecimals", .num ctx.quoteDecimals), ("sellSizeTokens", .digits size),
                  ("spotPer", .num (spotOut / spotIn)), ("bulkPer", .num (bulkOut / size)),
                  ("taxBps", .num (Js.mathRound (tax * 10000))), ("horizonBlock", .num ctx.horizonBlock)] (some coverage),
                [.quote true, .quote true]⟩

def LIQ_FLOOR : ℚ := Js.double (2 / 10)

def peakLiquidity (points : List LiquidityPoint) : ℚ :=
  points.foldl (fun m p => if p.liquidity > m then p.liquidity else m) 0

def resolveLiqImpaired (ctx : ResolverContext) : Except RpcError Measured :=
  if ctx.lpLockedByConstruction then .ok ⟨notApplicable "launchpad token: LP locked by construction", []⟩
  else do
    let series ← buildLiquiditySeries ctx.client 0 ctx.pool ctx.launchBlock ctx.horizonBlock ctx.maxRange
    let giveUp (reason : String) : Measured := ⟨unresolvable reason (some series.coverage) [], series.calls⟩
    if series.points = [] then return giveUp "no liquidity events observed for this pool"
    else
      match (series.points.filter fun p => decide (p.block ≤ ctx.horizonBlock)).getLast? with
      | none => return giveUp "no liquidity events at/before the horizon"
      | some current =>
        let peak := peakLiquidity series.points
        if peak ≤ 0 then return giveUp "no positive liquidity observed"
        else
          let removals := series.points.filter fun p => decide (p.delta < 0)
          let ratio := Js.double (current.liquidity / peak)
          let impaired := decide (ratio ≤ LIQ_FLOOR) && (decide (ctx.pool.poolKind = .v2) || decide (removals ≠ []))
          return ⟨resolved impaired
            [("method", .text (if ctx.pool.poolKind = .v4 then "v4:ModifyLiquidity cumulative" else "v2:Sync quote-side reserve")),
              ("peakLiquidity", .num peak), ("currentLiquidity", .num current.liquidity), ("ratio", .num ratio),
              ("removalCount", .num removals.length),
              ("removalTxs", .nums ((removals.take 20).map fun r => (r.txHash.toNat : ℚ))),
              ("points", .num series.points.length)] (some series.coverage), series.calls⟩

end LaunchAuditor.Outcomes
