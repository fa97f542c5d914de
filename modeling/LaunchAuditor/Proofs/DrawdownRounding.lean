import LaunchAuditor.Lib.Rounding
import LaunchAuditor.Outcomes.Resolvers
import LaunchAuditor.Proofs.InsiderOrder
import LaunchAuditor.Proofs.Trades
import Mathlib.Data.BitVec
import Mathlib.Tactic.NormNum

namespace LaunchAuditor.Proofs.DrawdownRounding
open Chain Watcher Outcomes Trades

/-- The exact price of currency0 in currency1. -/
def price0 (sqrtPriceX96 : Nat) : ℚ := ((sqrtPriceX96 : ℚ) / 2 ^ 96) ^ 2

def exactPrice (tokenIsCurrency0 : Bool) (sqrtPriceX96 : Nat) : ℚ :=
  if tokenIsCurrency0 then price0 sqrtPriceX96 else 1 / price0 sqrtPriceX96

/-- The decision on exact prices. -/
def ExactDrawdown (tokenIsCurrency0 : Bool) (refs : List Nat) (horizon : Nat) : Prop :=
  exactPrice tokenIsCurrency0 horizon ≤ DRAWDOWN_FLOOR * Grid.top (refs.map (exactPrice tokenIsCurrency0))

/-- What a price is truncated to whole numbers of. -/
def STEP : ℚ := 1 / 10 ^ 18

/-- A whole number of steps lies above the one and at or below the other. -/
def StepBetween (x y : ℚ) : Prop := ∃ n : ℕ, x < n * STEP ∧ n * STEP ≤ y

/-- Some reference price is a step or more. -/
def Seen (refs : List Nat) : Prop := ∃ s ∈ refs, STEP ≤ price0 s

/-- The token holds currency0: truncating the horizon price does not take it down to a fifth of the highest. -/
def KeptAs0 (refs : List Nat) (horizon : Nat) : Prop :=
  (∃ s ∈ refs, 5 * price0 horizon ≤ price0 s) ∨ ∀ s ∈ refs, StepBetween (price0 s / 5) (price0 horizon)

/-- The token holds currency1, and falls when the price of currency0 rises to five times a reference price. A
reference price below a step is not seen, and a horizon price below a step counts as a fall. -/
inductive KeptAs1 (refs : List Nat) (horizon : Nat) : Prop
  | tiny (s : Nat) (below : price0 horizon < STEP) (ref : s ∈ refs) (fall : 5 * price0 s ≤ price0 horizon)
  | seen (s : Nat) (above : STEP ≤ price0 horizon) (ref : s ∈ refs) (step : STEP ≤ price0 s)
    (fall : 5 * price0 s ≤ price0 horizon)
  /-- the fall is against a price that is not seen, but another one is truncated to a fifth -/
  | unseen (s s' : Nat) (above : STEP ≤ price0 horizon) (ref : s ∈ refs) (step : price0 s < STEP)
    (fall : 5 * price0 s ≤ price0 horizon) (ref' : s' ∈ refs) (step' : STEP ≤ price0 s')
    (truncated : ¬ StepBetween (price0 horizon / 5) (price0 s'))
  | held (above : STEP ≤ price0 horizon) (holds : ∀ s ∈ refs, price0 horizon < 5 * price0 s)
    (kept : ∀ s ∈ refs, STEP ≤ price0 s → StepBetween (price0 horizon / 5) (price0 s))

def Kept (tokenIsCurrency0 : Bool) (refs : List Nat) (horizon : Nat) : Prop :=
  Seen refs ∧ if tokenIsCurrency0 then KeptAs0 refs horizon else KeptAs1 refs horizon

section Prices

theorem step_pos : 0 < STEP := by norm_num [STEP]

theorem price0_nonneg (s : Nat) : 0 ≤ price0 s := sq_nonneg _

theorem price0_pos {s : Nat} (h : 0 < s) : 0 < price0 s := by
  have hs : (0 : ℚ) < s := Nat.cast_pos.mpr h
  unfold price0
  positivity

/-- The code's price is the exact one rounded down to whole steps. -/
theorem sqrtPriceX96ToPrice0in1_eq (s : Nat) : sqrtPriceX96ToPrice0in1 s = Grid.down STEP (price0 s) := by
  have hdiv : price0 s / STEP = ((s * s * 10 ^ 18 : ℕ) : ℚ) / ((2 ^ 96 * 2 ^ 96 : ℕ) : ℚ) := by
    unfold price0 STEP
    push_cast
    ring
  have hfloor : ⌊price0 s / STEP⌋₊ = s * s * 10 ^ 18 / (2 ^ 96 * 2 ^ 96) := by
    rw [hdiv]
    exact Nat.floor_div_eq_div _ _
  unfold sqrtPriceX96ToPrice0in1
  split
  · rename_i hzero
    obtain rfl : s = 0 := by omega
    simp [Grid.down, price0]
  · rw [Grid.down, hfloor, STEP, mul_one_div]

theorem stepBetween_iff (x : ℚ) (s : Nat) : StepBetween x (price0 s) ↔ x < Grid.down STEP (price0 s) :=
  (Grid.lt_down_iff step_pos x (price0_nonneg s)).symm

theorem tokenPriceInQuote_slot0 (s : Nat) : tokenPriceInQuote s true = Grid.down STEP (price0 s) :=
  sqrtPriceX96ToPrice0in1_eq s

theorem tokenPriceInQuote_slot1 (s : Nat) : tokenPriceInQuote s false =
    if 0 < Grid.down STEP (price0 s) then 1 / Grid.down STEP (price0 s) else 0 := by
  simp only [tokenPriceInQuote, sqrtPriceX96ToPrice0in1_eq, Bool.false_eq_true, if_false, gt_iff_lt]

theorem tokenPriceInQuote_pos_iff (tokenIsCurrency0 : Bool) (s : Nat) :
    0 < tokenPriceInQuote s tokenIsCurrency0 ↔ STEP ≤ price0 s := by
  rw [← Grid.down_pos_iff step_pos (price0_nonneg s)]
  cases tokenIsCurrency0 with
  | true => rw [tokenPriceInQuote_slot0]
  | false =>
    rw [tokenPriceInQuote_slot1]
    split
    · rename_i hpos
      exact iff_of_true (one_div_pos.mpr hpos) hpos
    · rename_i hpos
      exact iff_of_false (lt_irrefl 0) hpos

end Prices

section Decisions
variable (refs : List Nat) (horizon : Nat)

/-- The highest of the prices that the code has of the reference window. -/
def codeTop (tokenIsCurrency0 : Bool) : ℚ := Grid.top (refs.map fun s => tokenPriceInQuote s tokenIsCurrency0)

theorem codeTop_pos_iff (tokenIsCurrency0 : Bool) : 0 < codeTop refs tokenIsCurrency0 ↔ Seen refs := by
  unfold codeTop Seen
  rw [Grid.lt_top_map_iff (le_refl 0)]
  simp only [tokenPriceInQuote_pos_iff]

/-- A price is at most the floor of the highest when it is that of some. -/
theorem le_floor_iff {c : ℚ} (hc : 0 < c) (price : Nat → ℚ) :
    c ≤ DRAWDOWN_FLOOR * Grid.top (refs.map price) ↔ ∃ s ∈ refs, 5 * c ≤ price s := by
  have hfive : c ≤ DRAWDOWN_FLOOR * Grid.top (refs.map price) ↔ 5 * c ≤ Grid.top (refs.map price) := by
    unfold DRAWDOWN_FLOOR
    constructor
    · intro h
      linarith
    · intro h
      linarith
  have hnot : ¬ 5 * c ≤ 0 := by linarith
  rw [hfive, Grid.le_top_map_iff, or_iff_right hnot]

theorem exactDrawdown_slot0 (hh : 0 < horizon) :
    ExactDrawdown true refs horizon ↔ ∃ s ∈ refs, 5 * price0 horizon ≤ price0 s := by
  unfold ExactDrawdown exactPrice
  simp only [if_true]
  rw [le_floor_iff refs (price0_pos hh)]

theorem exactDrawdown_slot1 (hrefs : ∀ s ∈ refs, 0 < s) (hh : 0 < horizon) :
    ExactDrawdown false refs horizon ↔ ∃ s ∈ refs, 5 * price0 s ≤ price0 horizon := by
  unfold ExactDrawdown exactPrice
  simp only [Bool.false_eq_true, if_false]
  rw [le_floor_iff refs (one_div_pos.mpr (price0_pos hh))]
  refine exists_congr fun s => and_congr_right fun hs => ?_
  rw [mul_one_div, div_le_div_iff₀ (price0_pos hh) (price0_pos (hrefs s hs)), one_mul]

/-- The code's decision where the token holds currency0. -/
theorem codeDrawdown_slot0 (hseen : Seen refs) :
    tokenPriceInQuote horizon true / codeTop refs true ≤ DRAWDOWN_FLOOR ↔
      ∃ s ∈ refs, ¬ StepBetween (price0 s / 5) (price0 horizon) := by
  have hpos := (codeTop_pos_iff refs true).mpr hseen
  rw [div_le_iff₀ hpos]
  have hfive : tokenPriceInQuote horizon true ≤ DRAWDOWN_FLOOR * codeTop refs true ↔
      5 * tokenPriceInQuote horizon true ≤ codeTop refs true := by
    unfold DRAWDOWN_FLOOR
    constructor
    · intro h
      linarith
    · intro h
      linarith
  rw [hfive, codeTop, Grid.le_top_map_iff]
  have hmember : ∀ s, 5 * tokenPriceInQuote horizon true ≤ tokenPriceInQuote s true ↔
      ¬ StepBetween (price0 s / 5) (price0 horizon) := by
    intro s
    rw [tokenPriceInQuote_slot0, tokenPriceInQuote_slot0, stepBetween_iff, not_lt]
    have hwhole := Grid.mul_down_le_down_iff step_pos 5 (price0 horizon) (price0_nonneg s)
    rw [Nat.cast_ofNat] at hwhole
    rw [hwhole, le_div_iff₀ (by norm_num), mul_comm]
  simp only [hmember]
  constructor
  · rintro (hzero | h)
    · -- a price of 0 is below all
      obtain ⟨s, hs, _⟩ := hseen
      refine ⟨s, hs, (hmember s).mp ?_⟩
      have hnonneg : 0 ≤ tokenPriceInQuote s true := by
        rw [tokenPriceInQuote_slot0]
        exact Grid.down_nonneg step_pos _
      exact hzero.trans hnonneg
    · exact h
  · exact Or.inr

/-- The code's decision where the token holds currency1. -/
theorem codeDrawdown_slot1 (hseen : Seen refs) :
    tokenPriceInQuote horizon false / codeTop refs false ≤ DRAWDOWN_FLOOR ↔
      price0 horizon < STEP ∨ ∃ s ∈ refs, STEP ≤ price0 s ∧ ¬ StepBetween (price0 horizon / 5) (price0 s) := by
  have hpos := (codeTop_pos_iff refs false).mpr hseen
  rw [div_le_iff₀ hpos]
  by_cases hhorizon : 0 < tokenPriceInQuote horizon false
  · have hstep : STEP ≤ price0 horizon := (tokenPriceInQuote_pos_iff false horizon).mp hhorizon
    have hdown := (Grid.down_pos_iff step_pos (price0_nonneg horizon)).mpr hstep
    rw [codeTop, le_floor_iff refs hhorizon, or_iff_right (not_lt.mpr hstep)]
    refine exists_congr fun s => and_congr_right fun _ => ?_
    rw [tokenPriceInQuote_slot1 horizon, if_pos hdown, mul_one_div, tokenPriceInQuote_slot1, stepBetween_iff, not_lt]
    by_cases hs : STEP ≤ price0 s
    · have hsdown := (Grid.down_pos_iff step_pos (price0_nonneg s)).mpr hs
      have hwhole := Grid.mul_down_le_down_iff step_pos 5 (price0 s) (price0_nonneg horizon)
      rw [Nat.cast_ofNat] at hwhole
      rw [if_pos hsdown, div_le_div_iff₀ hdown hsdown, one_mul, hwhole, le_div_iff₀ (by norm_num), mul_comm,
        and_iff_right hs]
    · rw [if_neg (mt (Grid.down_pos_iff step_pos (price0_nonneg s)).mp hs)]
      have hfive : 0 < 5 / Grid.down STEP (price0 horizon) := div_pos (by norm_num) hdown
      exact iff_of_false (not_le.mpr hfive) fun h => hs h.1
  · have hstep : price0 horizon < STEP := by
      rw [tokenPriceInQuote_pos_iff] at hhorizon
      exact not_le.mp hhorizon
    have hnonneg : 0 ≤ DRAWDOWN_FLOOR * codeTop refs false := by
      unfold DRAWDOWN_FLOOR
      linarith
    exact iff_of_true ((not_lt.mp hhorizon).trans hnonneg) (Or.inl hstep)

/-- No whole step lies above a fifth and at or below a price that is no more than it. -/
theorem not_stepBetween {x y : ℚ} (h : 5 * y ≤ x) : ¬ StepBetween (x / 5) y := by
  rintro ⟨n, hlt, hn⟩
  linarith

theorem keptAs1_iff :
    (price0 horizon < STEP ∨ (∃ s ∈ refs, STEP ≤ price0 s ∧ ¬ StepBetween (price0 horizon / 5) (price0 s)) ↔
        ∃ s ∈ refs, 5 * price0 s ≤ price0 horizon) ↔ KeptAs1 refs horizon := by
  constructor
  · intro h
    by_cases hstep : price0 horizon < STEP
    · obtain ⟨s, hs, hfall⟩ := h.mp (Or.inl hstep)
      exact .tiny s hstep hs hfall
    · rw [or_iff_right hstep] at h
      have habove := not_lt.mp hstep
      by_cases hexact : ∃ s ∈ refs, 5 * price0 s ≤ price0 horizon
      · obtain ⟨s', hs', hstep', hcut⟩ := h.mpr hexact
        obtain ⟨s, hs, hfall⟩ := hexact
        by_cases hseen : STEP ≤ price0 s
        · exact .seen s habove hs hseen hfall
        · exact .unseen s s' habove hs (not_le.mp hseen) hfall hs' hstep' hcut
      · refine .held habove (fun s hs => not_le.mp fun hfall => hexact ⟨s, hs, hfall⟩) fun s hs hseen => ?_
        by_contra hcut
        exact hexact (h.mp ⟨s, hs, hseen, hcut⟩)
  · intro h
    cases h with
    | tiny s below ref fall => exact iff_of_true (Or.inl below) ⟨s, ref, fall⟩
    | seen s above ref step fall => exact iff_of_true (Or.inr ⟨s, ref, step, not_stepBetween fall⟩) ⟨s, ref, fall⟩
    | unseen s s' above ref step fall ref' step' truncated =>
      exact iff_of_true (Or.inr ⟨s', ref', step', truncated⟩) ⟨s, ref, fall⟩
    | held above holds kept =>
      refine iff_of_false ?_ fun ⟨s, hs, hfall⟩ => absurd (holds s hs) hfall.not_gt
      rintro (hbelow | ⟨s, hs, hseen, hcut⟩)
      · exact absurd hbelow above.not_gt
      · exact hcut (kept s hs hseen)

/-- The two decisions agree exactly where the truncation is harmless. -/
theorem decisions_agree_iff (tokenIsCurrency0 : Bool) (hrefs : ∀ s ∈ refs, 0 < s) (hh : 0 < horizon) (hseen : Seen refs) :
    (tokenPriceInQuote horizon tokenIsCurrency0 / codeTop refs tokenIsCurrency0 ≤ DRAWDOWN_FLOOR ↔
        ExactDrawdown tokenIsCurrency0 refs horizon) ↔ Kept tokenIsCurrency0 refs horizon := by
  unfold Kept
  rw [and_iff_right hseen]
  cases tokenIsCurrency0 with
  | true =>
    rw [codeDrawdown_slot0 refs horizon hseen, exactDrawdown_slot0 refs horizon hh, if_pos rfl]
    unfold KeptAs0
    -- an exact drawdown is never lost, the truncation only adds some
    have hnever : (∃ s ∈ refs, 5 * price0 horizon ≤ price0 s) →
        ∃ s ∈ refs, ¬ StepBetween (price0 s / 5) (price0 horizon) := by
      rintro ⟨s, hs, hle⟩
      refine ⟨s, hs, ?_⟩
      rintro ⟨n, hlt, hn⟩
      linarith
    constructor
    · intro h
      by_cases hexact : ∃ s ∈ refs, 5 * price0 horizon ≤ price0 s
      · exact Or.inl hexact
      · refine Or.inr fun s hs => ?_
        by_contra hno
        exact hexact (h.mp ⟨s, hs, hno⟩)
    · intro h
      refine ⟨?_, hnever⟩
      rintro ⟨s, hs, hno⟩
      rcases h with h | h
      · exact h
      · exact absurd (h s hs) hno
  | false =>
    rw [codeDrawdown_slot1 refs horizon hseen, exactDrawdown_slot1 refs horizon hrefs hh, if_neg Bool.false_ne_true]
    exact keptAs1_iff refs horizon

end Decisions

/-- The swaps of a v3 or v4 pool in a window, in the order of the chain. -/
def swapLogs (pool : PoolRef) (node : LogNode) (fromBlock toBlock : Nat) : List RpcLog :=
  node.logs.filter fun l => owns pool l && decide (l.topics[0]? = some (tradeTopic pool.poolKind)) &&
    decide (fromBlock ≤ l.blockNumber) && decide (l.blockNumber ≤ toBlock)

/-- Their `sqrtPriceX96`. -/
def sqrtPrices (pool : PoolRef) (node : LogNode) (fromBlock toBlock : Nat) : List Nat :=
  (swapLogs pool node fromBlock toBlock).map fun l => (l.word 2).toNat

/-- The reference series. -/
def refPrices (ctx : ResolverContext) (node : LogNode) : List Nat :=
  sqrtPrices ctx.pool node ctx.drawdownRefStart ctx.drawdownRefEnd

/-- The swaps that the horizon price is the last of. -/
def horizonPrices (ctx : ResolverContext) (node : LogNode) : List Nat :=
  if postStart ctx ≤ ctx.horizonBlock then sqrtPrices ctx.pool node (postStart ctx) ctx.horizonBlock
  else refPrices ctx node

/-- A pool logs swaps that decode, with a positive price. -/
def Swapping (pool : PoolRef) (node : LogNode) : Prop :=
  ∀ l ∈ node.logs, owns pool l = true → ¬ Quiet pool l → SwapLog pool l

section Resolver
variable {ctx : ResolverContext} {node : LogNode} {pool : PoolRef}

theorem mem_swapLogs {fromBlock toBlock : Nat} {l : RpcLog} : l ∈ swapLogs pool node fromBlock toBlock ↔
    l ∈ node.logs ∧ owns pool l = true ∧ ¬ Quiet pool l ∧ fromBlock ≤ l.blockNumber ∧ l.blockNumber ≤ toBlock := by
  simp [swapLogs, Quiet, and_assoc]

theorem decodeAll_map {α : Type} {decode : RpcLog → Except RpcError (Option α)} {point : RpcLog → α} {logs : List RpcLog}
    (h : ∀ l ∈ logs, decode l = .ok (some (point l))) : decodeAll decode logs = .ok (logs.map point) := by
  induction logs with
  | nil => rfl
  | cons l logs ih =>
    rw [decodeAll, h l List.mem_cons_self, ih fun x hx => h x (List.mem_cons_of_mem _ hx)]
    rfl

/-- The series is that of the swaps, in their order. -/
theorem series_prices (hkind : pool.poolKind ≠ .v2) (hswaps : Swapping pool node) {client : ResolveClient} {scan : Nat}
    (hclient : ∀ attempt, client.getLogs scan attempt = node.request) {maxRange : Nat} (hrange : 0 < maxRange)
    (fromBlock toBlock : Nat) :
    ∃ series, buildPriceSeries client scan pool fromBlock toBlock maxRange = .ok series ∧
      series.points.map PricePoint.price =
        (sqrtPrices pool node fromBlock toBlock).map fun s => tokenPriceInQuote s pool.tokenIsCurrency0 := by
  unfold buildPriceSeries
  dsimp only
  by_cases hempty : toBlock < fromBlock
  · have hnone : swapLogs pool node fromBlock toBlock = [] := by
      rw [List.eq_nil_iff_forall_not_mem]
      intro l hl
      have hl' := mem_swapLogs.mp hl
      omega
    rw [if_pos hempty, sqrtPrices, hnone]
    exact ⟨_, rfl, rfl⟩
  · rw [if_neg hempty]
    cases hf : tradeFilter pool fromBlock toBlock with
    | error gap =>
      have hnone : swapLogs pool node fromBlock toBlock = [] := by
        rw [List.eq_nil_iff_forall_not_mem]
        intro l hl
        have howns := (mem_swapLogs.mp hl).2.1
        rw [owns_of_tradeFilter_error hf] at howns
        cases howns
      rw [sqrtPrices, hnone]
      exact ⟨_, rfl, rfl⟩
    | ok f =>
      have hanswer : node.answer f = swapLogs pool node fromBlock toBlock := by
        apply List.filter_congr
        intro l _
        obtain ⟨hsel, hfrom, hto⟩ := selects_tradeFilter hf l
        rw [LogFilter.accepts, hfrom, hto, Bool.eq_iff_iff]
        simp [hsel, Quiet]
      have hlogs : chunkedLogs client scan f maxRange = .ok (swapLogs pool node fromBlock toBlock) := by
        refine withRetry_of_ok (by omega) ?_
        rw [hclient, ← hanswer]
        exact getLogsChunked_request node f hrange
      have hpoints : decodeAll (pricePoint pool) (swapLogs pool node fromBlock toBlock) =
          .ok ((swapLogs pool node fromBlock toBlock).map (pointOf pool)) := by
        apply decodeAll_map
        intro l hl
        obtain ⟨hnode, howns, htrade, _⟩ := mem_swapLogs.mp hl
        exact pricePoint_swap hkind (hswaps l hnode howns htrade)
      have hordered : ((swapLogs pool node fromBlock toBlock).map (pointOf pool)).Pairwise fun a b => a.block ≤ b.block := by
        rw [List.pairwise_map]
        exact node.blocks_ordered.sublist List.filter_sublist
      dsimp only
      rw [hlogs]
      simp only [bind, Except.bind, hpoints]
      refine ⟨_, rfl, ?_⟩
      dsimp only
      rw [Keyed.inOrder_of_ordered hordered, sqrtPrices, List.map_map, List.map_map]
      rfl

theorem refMax_eq (points : List PricePoint) : refMax points = Grid.top (points.map PricePoint.price) := by
  rw [refMax, Grid.top, List.foldl_map]

/-- The horizon price is that of the last of the swaps looked at. -/
theorem look_price (hkind : ctx.pool.poolKind ≠ .v2) (hswaps : Swapping ctx.pool node)
    (hclient : ∀ scan attempt, ctx.client.getLogs scan attempt = node.request) (hrange : 0 < ctx.maxRange)
    {ref : Series PricePoint} (hprices : ref.points.map PricePoint.price =
      (refPrices ctx node).map fun s => tokenPriceInQuote s ctx.pool.tokenIsCurrency0)
    {horizon : Nat} (hlast : (horizonPrices ctx node).getLast? = some horizon) :
    ∃ look last, lookAtHorizon ctx ref = .ok look ∧ look.last = some last ∧
      last.price = tokenPriceInQuote horizon ctx.pool.tokenIsCurrency0 := by
  have hpoint : ∀ {points : List PricePoint} {prices : List Nat}, points.map PricePoint.price =
      (prices.map fun s => tokenPriceInQuote s ctx.pool.tokenIsCurrency0) → prices.getLast? = some horizon →
      ∃ last, points.getLast? = some last ∧ last.price = tokenPriceInQuote horizon ctx.pool.tokenIsCurrency0 := by
    intro points prices hmap hget
    have heq := congrArg List.getLast? hmap
    rw [List.getLast?_map, List.getLast?_map, hget] at heq
    cases hp : points.getLast? with
    | none =>
      rw [hp] at heq
      cases heq
    | some last =>
      rw [hp] at heq
      exact ⟨last, rfl, Option.some.inj heq⟩
  unfold lookAtHorizon
  unfold horizonPrices at hlast
  by_cases hpost : postStart ctx ≤ ctx.horizonBlock
  · rw [if_pos hpost] at hlast ⊢
    obtain ⟨post, hbuild, hpostPrices⟩ :=
      series_prices hkind hswaps (hclient 1) hrange (postStart ctx) ctx.horizonBlock
    obtain ⟨last, hget, hprice⟩ := hpoint hpostPrices hlast
    rw [hbuild]
    exact ⟨_, last, rfl, hget, hprice⟩
  · rw [if_neg hpost] at hlast ⊢
    obtain ⟨last, hget, hprice⟩ := hpoint hprices hlast
    exact ⟨_, last, rfl, hget, hprice⟩

theorem horizonPrices_pos (hswaps : Swapping ctx.pool node) {fromBlock toBlock s : Nat}
    (hs : s ∈ sqrtPrices ctx.pool node fromBlock toBlock) : 0 < s := by
  obtain ⟨l, hl, rfl⟩ := List.mem_map.mp hs
  obtain ⟨hnode, howns, htrade, _⟩ := mem_swapLogs.mp hl
  exact Nat.pos_of_ne_zero (hswaps l hnode howns htrade).priced

instance (tokenIsCurrency0 : Bool) (refs : List Nat) (horizon : Nat) :
    Decidable (ExactDrawdown tokenIsCurrency0 refs horizon) :=
  inferInstanceAs (Decidable (exactPrice tokenIsCurrency0 horizon ≤
    DRAWDOWN_FLOOR * Grid.top (refs.map (exactPrice tokenIsCurrency0))))

/-- The resolver decides as the exact prices do, exactly where the truncation is harmless. -/
theorem drawdown_exact_iff (ctx : ResolverContext) (node : LogNode) (hkind : ctx.pool.poolKind ≠ .v2)
    (hswaps : Swapping ctx.pool node) (hclient : ∀ scan attempt, ctx.client.getLogs scan attempt = node.request)
    (hrange : 0 < ctx.maxRange) (horizon : Nat) (hlast : (horizonPrices ctx node).getLast? = some horizon) :
    (∃ m, resolveDrawdown ctx = .ok m ∧ m.resolution.value =
        some (decide (ExactDrawdown ctx.pool.tokenIsCurrency0 (refPrices ctx node) horizon))) ↔
      Kept ctx.pool.tokenIsCurrency0 (refPrices ctx node) horizon := by
  obtain ⟨ref, hbuild, hprices⟩ :=
    series_prices hkind hswaps (hclient 0) hrange ctx.drawdownRefStart ctx.drawdownRefEnd
  obtain ⟨look, last, hlook, hsome, hprice⟩ := look_price hkind hswaps hclient hrange hprices hlast
  have htop : refMax ref.points = codeTop (refPrices ctx node) ctx.pool.tokenIsCurrency0 := by
    rw [refMax_eq, hprices]
    rfl
  have hrefs : ∀ s ∈ refPrices ctx node, 0 < s := fun s hs => horizonPrices_pos hswaps hs
  have hh : 0 < horizon := by
    have hmem : horizon ∈ horizonPrices ctx node := List.mem_of_getLast? hlast
    unfold horizonPrices at hmem
    split at hmem
    · exact horizonPrices_pos hswaps hmem
    · exact hrefs horizon hmem
  by_cases hseen : Seen (refPrices ctx node)
  · have hpos : 0 < refMax ref.points := htop ▸ (codeTop_pos_iff _ ctx.pool.tokenIsCurrency0).mpr hseen
    rw [Measurement.resolveDrawdown_afterScans hbuild hpos hlook, Measurement.afterScans, hsome,
      ← decisions_agree_iff _ _ _ hrefs hh hseen, ← hprice, ← htop]
    constructor
    · rintro ⟨m, hm, hvalue⟩
      obtain rfl := Except.ok.inj hm
      exact decide_eq_decide.mp (Option.some.inj hvalue)
    · intro hiff
      exact ⟨_, rfl, congrArg some (decide_eq_decide.mpr hiff)⟩
  · have hzero : refMax ref.points ≤ 0 := by
      rw [htop]
      exact not_lt.mp (mt (codeTop_pos_iff _ ctx.pool.tokenIsCurrency0).mp hseen)
    unfold resolveDrawdown refSeries
    rw [hbuild]
    simp only [bind, Except.bind, if_pos hzero]
    constructor
    · rintro ⟨m, hm, hvalue⟩
      obtain rfl := Except.ok.inj hm
      cases hvalue
    · exact fun h => absurd h.1 hseen

/-- One swap in the reference window and one after it. -/
def twoSwaps (refPrice horizonPrice : Word) : LogNode where
  logs := [⟨2, [TRADE_EVENT_TOPIC0.v4Swap, 77, 5], [0, 0, refPrice, 0, 0, 0], 15, 0, 0⟩,
    ⟨2, [TRADE_EVENT_TOPIC0.v4Swap, 77, 5], [0, 0, horizonPrice, 0, 0, 0], 25, 0, 0⟩]
  ordered := by simp [logKey, Prod.Lex.toLex_lt_toLex]

def swapContext (node : LogNode) : ResolverContext :=
  { InsiderOrder.contextOf node.request 2000 [] with pool := ⟨.v4, 2, none, some 77, true⟩, horizonBlock := 30 }

theorem twoSwaps_swapping {refPrice horizonPrice : Word} (hr : refPrice.toNat ≠ 0) (hh : horizonPrice.toNat ≠ 0) :
    Swapping (swapContext (twoSwaps refPrice horizonPrice)).pool (twoSwaps refPrice horizonPrice) := by
  intro l hl _ _
  rcases List.mem_cons.mp hl with rfl | hl
  · exact ⟨rfl, by simp, Or.inl (by simp), hr⟩
  · obtain rfl := List.mem_singleton.mp hl
    exact ⟨rfl, by simp, Or.inl (by simp), hh⟩

/-- From 100 to 1. -/
def fallenSwaps : LogNode := twoSwaps (10 * 2 ^ 96) (2 ^ 96)

theorem drawdown_exact_fall : ∃ m, resolveDrawdown (swapContext fallenSwaps) = .ok m ∧ m.resolution.value =
    some (decide (ExactDrawdown true (refPrices (swapContext fallenSwaps) fallenSwaps) (2 ^ 96))) := by
  have hrefs : refPrices (swapContext fallenSwaps) fallenSwaps = [10 * 2 ^ 96] := by decide +kernel
  refine (drawdown_exact_iff (swapContext fallenSwaps) fallenSwaps (by decide)
    (twoSwaps_swapping (by decide +kernel) (by decide +kernel)) (fun _ _ => rfl) (by decide) (2 ^ 96)
    (by decide +kernel)).mpr ?_
  rw [hrefs]
  exact ⟨⟨10 * 2 ^ 96, by simp, by norm_num [STEP, price0]⟩, Or.inl ⟨10 * 2 ^ 96, by simp, by norm_num [price0]⟩⟩

/-- A price near a step of the truncation falls by a fortieth. -/
def cheapSwaps : LogNode := twoSwaps 80000000000000000000 79000000000000000000

/-- It is resolved to a drawdown. -/
theorem cheap_token_drawdown :
    (horizonPrices (swapContext cheapSwaps) cheapSwaps).getLast? = some 79000000000000000000 ∧
      ¬ ∃ m, resolveDrawdown (swapContext cheapSwaps) = .ok m ∧ m.resolution.value =
        some (decide (ExactDrawdown true (refPrices (swapContext cheapSwaps) cheapSwaps) 79000000000000000000)) := by
  refine ⟨by decide +kernel, ?_⟩
  rintro ⟨m, hm, hvalue⟩
  have hresolved : ((resolveDrawdown (swapContext cheapSwaps)).toOption.map fun m => m.resolution.value) =
      some (some true) := by decide +kernel
  have hexact : decide (ExactDrawdown true (refPrices (swapContext cheapSwaps) cheapSwaps) 79000000000000000000) =
      false := by decide +kernel
  rw [hm] at hresolved
  have htrue : m.resolution.value = some true := Option.some.inj hresolved
  rw [hvalue, hexact] at htrue
  cases htrue

end Resolver

end LaunchAuditor.Proofs.DrawdownRounding
