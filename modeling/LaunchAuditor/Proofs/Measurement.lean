import LaunchAuditor.Outcomes.Resolve

namespace LaunchAuditor.Proofs.Measurement
open Chain Watcher Db Outcomes

/-- Everything a resolver is run with: any record, and any answers of the client. -/
structure Setting where
  cfg : ChainConfig
  maxRange : Nat
  client : ResolveClient
  row : OutcomeRow
  launch : Launch
  clusterWallets : List Address
  windows : Windows
  decimals : Decimals

def Setting.ctx (s : Setting) : ResolverContext :=
  contextOf s.cfg s.maxRange s.client s.row s.launch s.clusterWallets s.windows s.decimals

/-- The record has what the events of the pool are asked for with. -/
def poolRecorded (launch : Launch) : Prop :=
  match launch.poolKind.getD .v4 with
  | .v4 => launch.poolId.isSome = true
  | _ => launch.poolAddress.isSome = true

instance (launch : Launch) : Decidable (poolRecorded launch) := by
  unfold poolRecorded
  cases launch.poolKind.getD .v4 <;> infer_instance

/-- The paired asset is known, so the price is that of the token and not its inverse. -/
def quoteRecorded (launch : Launch) : Prop := launch.quoteAddress.isSome = true

/-- The quoter was asked about the recorded pool, and no part of its key was made up. -/
def keyRecorded (launch : Launch) : Prop := quoteRecorded launch ∧ launch.poolHooks.isSome = true

/-- What a resolved verdict must rest on. -/
structure Sound (identified : Prop) (m : Measured) : Prop where
  calls : ∀ c ∈ m.calls, c.ok = true
  windows : ∀ fromBlock toBlock ok, Call.logs fromBlock toBlock ok ∈ m.calls → fromBlock ≤ toBlock
  identified : identified

/-- A resolver publishes a verdict only when it is sound. -/
def Publishes (result : Except RpcError Measured) (identified : Measured → Prop) : Prop :=
  ∀ m, result = .ok m → m.resolution.status = .RESOLVED → Sound (identified m) m

def survivalPublishes (s : Setting) : Prop :=
  Publishes (.ok (resolveSurvival s.ctx)) fun _ => poolRecorded s.launch

def drawdownPublishes (s : Setting) : Prop :=
  Publishes (resolveDrawdown s.ctx) fun m =>
    poolRecorded s.launch ∧ quoteRecorded s.launch ∧ (Call.quote true ∈ m.calls → keyRecorded s.launch)

def sellPublishes (s : Setting) : Prop :=
  Publishes (.ok (resolveSellImpaired s.ctx)) fun _ => keyRecorded s.launch ∧ s.decimals.read = true

section Pool
variable (s : Setting)

theorem tradeFilter_ok_iff (fromBlock toBlock : Nat) :
    (∃ f, tradeFilter s.ctx.pool fromBlock toBlock = .ok f) ↔ poolRecorded s.launch := by
  have hkind : s.ctx.pool.poolKind = s.launch.poolKind.getD .v4 := rfl
  have hid : s.ctx.pool.poolId = s.launch.poolId := rfl
  have haddress : s.ctx.pool.poolAddress = s.launch.poolAddress := rfl
  unfold tradeFilter PoolRef.eventFilter poolRecorded
  rw [hkind, hid, haddress]
  cases s.launch.poolKind.getD .v4 with
  | v4 => cases s.launch.poolId <;> simp
  | v3 => cases s.launch.poolAddress <;> simp
  | v2 => cases s.launch.poolAddress <;> simp

variable {s}

/-- A series with points was asked of a recorded pool. -/
theorem series_recorded {scan maxRange fromBlock toBlock : Nat} {series : Series PricePoint}
    (h : buildPriceSeries s.client scan s.ctx.pool fromBlock toBlock maxRange = .ok series) (hp : series.points ≠ []) :
    poolRecorded s.launch := by
  rcases buildPriceSeries_cases h with ⟨hnil, _⟩ | ⟨_, _, hf⟩
  · exact absurd hnil hp
  · exact (tradeFilter_ok_iff s _ _).mp hf

theorem series_windows {scan maxRange fromBlock toBlock a b : Nat} {ok : Bool} {series : Series PricePoint}
    (h : buildPriceSeries s.client scan s.ctx.pool fromBlock toBlock maxRange = .ok series)
    (hc : Call.logs a b ok ∈ series.calls) : a ≤ b := by
  rcases buildPriceSeries_cases h with ⟨_, hnil, _⟩ | ⟨hcalls, hle, _⟩
  · rw [hnil] at hc
    cases hc
  · rw [hcalls] at hc
    simp only [List.mem_singleton, Call.logs.injEq] at hc
    omega

end Pool

section Survival
variable (s : Setting)

/-- Without a recorded pool nothing is asked, and the token is declared dead. -/
theorem survival_unrecorded (h : ¬ poolRecorded s.launch) :
    (resolveSurvival s.ctx).resolution.status = .RESOLVED := by
  have hgap : ∃ gap, tradeFilter s.ctx.pool (aliveFrom s.ctx) s.ctx.horizonBlock = .error gap := by
    cases hf : tradeFilter s.ctx.pool (aliveFrom s.ctx) s.ctx.horizonBlock with
    | error gap => exact ⟨gap, rfl⟩
    | ok f => exact absurd ((tradeFilter_ok_iff s _ _).mp ⟨f, hf⟩) h
  obtain ⟨gap, hgap⟩ := hgap
  have hseries : buildPriceSeries s.ctx.client 0 s.ctx.pool (aliveFrom s.ctx) s.ctx.horizonBlock s.ctx.maxRange =
      .ok ⟨[], { newCoverage (aliveFrom s.ctx) s.ctx.horizonBlock s.ctx.maxRange with gaps := [gap] }, []⟩ := by
    unfold buildPriceSeries
    dsimp only
    rw [if_neg (Nat.not_lt.mpr (aliveFrom_le s.ctx)), hgap]
  have htext : gap = "v4 pool has no poolId" ∨ gap = "v3 pool has no poolAddress" ∨ gap = "v2 pool has no poolAddress" := by
    unfold tradeFilter PoolRef.eventFilter at hgap
    cases hk : s.ctx.pool.poolKind with
    | v4 =>
      rw [hk] at hgap
      cases hid : s.ctx.pool.poolId with
      | none =>
        rw [hid] at hgap
        exact Or.inl (Except.error.inj hgap).symm
      | some poolId =>
        rw [hid] at hgap
        cases hgap
    | v3 =>
      rw [hk] at hgap
      cases ha : s.ctx.pool.poolAddress with
      | none =>
        rw [ha] at hgap
        exact Or.inr (Or.inl (Except.error.inj hgap).symm)
      | some a =>
        rw [ha] at hgap
        cases hgap
    | v2 =>
      rw [hk] at hgap
      cases ha : s.ctx.pool.poolAddress with
      | none =>
        rw [ha] at hgap
        exact Or.inr (Or.inr (Except.error.inj hgap).symm)
      | some a =>
        rw [ha] at hgap
        cases hgap
  have hquiet : (["network", "busy", "timeout", "log cap"].any (Js.containsText ("; ".intercalate [gap]))) = false := by
    rcases htext with rfl | rfl | rfl
    · decide +kernel
    · decide +kernel
    · decide +kernel
  unfold resolveSurvival
  rw [hseries]
  dsimp only
  rw [if_neg fun hloud => Bool.false_ne_true (hquiet.symm.trans hloud.2.2)]
  rfl

theorem survival_iff : survivalPublishes s ↔ poolRecorded s.launch := by
  constructor
  · intro h
    by_contra hno
    exact hno (h _ rfl (survival_unrecorded s hno)).identified
  · intro hrec m hm hres
    obtain rfl := Except.ok.inj hm
    unfold resolveSurvival at hres ⊢
    cases hseries : buildPriceSeries s.ctx.client 0 s.ctx.pool (aliveFrom s.ctx) s.ctx.horizonBlock s.ctx.maxRange with
    | error e =>
      rw [hseries] at hres
      cases hres
    | ok series =>
      have hcalls := buildPriceSeries_calls hseries
      have hwindows : ∀ a b ok, Call.logs a b ok ∈ series.calls → a ≤ b := fun _ _ _ hc => series_windows (s := s) hseries hc
      dsimp only
      split
      · exact ⟨hcalls, hwindows, hrec⟩
      · exact ⟨hcalls, hwindows, hrec⟩

end Survival

section Drawdown
variable (s : Setting)

/-- The verdict once both windows have been scanned. -/
def afterScans (ctx : ResolverContext) (ref : Series PricePoint) (look : HorizonLook) : Measured :=
  match look.last with
  | some last =>
    ⟨drawdownVerdict ctx ref look.coverage last.price "swap" (.text (toString last.txHash.toNat)), look.calls⟩
  | none => drawdownByQuote ctx ref look

/-- A verdict comes from a reference price and a look at the horizon. -/
theorem resolveDrawdown_resolved {ctx : ResolverContext} {m : Measured} (h : resolveDrawdown ctx = .ok m)
    (hres : m.resolution.status = .RESOLVED) :
    ∃ ref look, refSeries ctx = .ok ref ∧ 0 < refMax ref.points ∧ lookAtHorizon ctx ref = .ok look ∧
      m = afterScans ctx ref look := by
  unfold resolveDrawdown at h
  obtain ⟨ref, href, h⟩ := bind_ok h
  split at h
  · obtain rfl := Except.ok.inj h
    cases hres
  · rename_i hpos
    obtain ⟨look, hlook, h⟩ := bind_ok h
    refine ⟨ref, look, href, not_le.mp hpos, hlook, ?_⟩
    unfold afterScans
    cases hlast : look.last with
    | some last =>
      rw [hlast] at h
      exact (Except.ok.inj h).symm
    | none =>
      rw [hlast] at h
      exact (Except.ok.inj h).symm

theorem resolveDrawdown_afterScans {ctx : ResolverContext} {ref : Series PricePoint} {look : HorizonLook}
    (href : refSeries ctx = .ok ref) (hpos : 0 < refMax ref.points) (hlook : lookAtHorizon ctx ref = .ok look) :
    resolveDrawdown ctx = .ok (afterScans ctx ref look) := by
  unfold resolveDrawdown afterScans
  rw [href]
  simp only [bind, Except.bind]
  rw [if_neg (not_le.mpr hpos), hlook]
  dsimp only
  cases look.last with
  | some last => rfl
  | none => rfl

theorem refMax_ne_nil {points : List PricePoint} (h : 0 < refMax points) : points ≠ [] := by
  rintro rfl
  exact lt_irrefl _ h

/-- The scans behind a look at the horizon were answered. -/
theorem lookAtHorizon_calls {s : Setting} {ref : Series PricePoint} {look : HorizonLook}
    (href : refSeries s.ctx = .ok ref) (h : lookAtHorizon s.ctx ref = .ok look) :
    (∀ c ∈ look.calls, c.ok = true ∧ c ≠ .quote true) ∧ ∀ a b ok, Call.logs a b ok ∈ look.calls → a ≤ b := by
  have hscan : ∀ {scan maxRange a b : Nat} {series : Series PricePoint},
      buildPriceSeries s.client scan s.ctx.pool a b maxRange = .ok series →
      ∀ c ∈ series.calls, c.ok = true ∧ c ≠ .quote true := by
    intro scan maxRange a b series hs c hc
    refine ⟨buildPriceSeries_calls hs c hc, ?_⟩
    rintro rfl
    rcases buildPriceSeries_cases hs with ⟨_, hnil, _⟩ | ⟨hcalls, _⟩
    · rw [hnil] at hc
      cases hc
    · rw [hcalls] at hc
      simp at hc
  unfold lookAtHorizon at h
  split at h
  · cases hpost : buildPriceSeries s.ctx.client 1 s.ctx.pool (postStart s.ctx) s.ctx.horizonBlock s.ctx.maxRange with
    | error e =>
      rw [hpost] at h
      cases h
    | ok post =>
      rw [hpost] at h
      obtain rfl := Except.ok.inj h
      constructor
      · intro c hc
        rcases List.mem_append.mp hc with hc | hc
        · exact hscan href c hc
        · exact hscan hpost c hc
      · intro a b ok hc
        rcases List.mem_append.mp hc with hc | hc
        · exact series_windows (s := s) href hc
        · exact series_windows (s := s) hpost hc
  · obtain rfl := Except.ok.inj h
    exact ⟨hscan href, fun a b ok hc => series_windows (s := s) href hc⟩

/-- Where the horizon price comes from: a swap needs the orientation of the pool, a quote its whole key,
and a quoter that reverts gives no price. -/
def drawdownMeasurable : Prop :=
  ∀ ref look, refSeries s.ctx = .ok ref → 0 < refMax ref.points → lookAtHorizon s.ctx ref = .ok look →
    match look.last, poolKeyOf s.launch with
    | some _, _ => quoteRecorded s.launch
    | none, none => True
    | none, some poolKey =>
      match quoteExactInSingle s.client 0 (spotCall s.ctx poolKey) with
      | .ok _ => keyRecorded s.launch
      | .failed error _ => error ≠ .revert

theorem drawdown_iff : drawdownPublishes s ↔ drawdownMeasurable s := by
  have hkey : s.ctx.poolKey = poolKeyOf s.launch := rfl
  have hclient : s.ctx.client = s.client := rfl
  constructor
  · intro h ref look href hpos hlook
    have hsound := h _ (resolveDrawdown_afterScans href hpos hlook)
    unfold afterScans at hsound
    cases hlast : look.last with
    | some last =>
      rw [hlast] at hsound
      exact (hsound rfl).identified.2.1
    | none =>
      rw [hlast] at hsound
      unfold drawdownByQuote at hsound
      cases hk : poolKeyOf s.launch with
      | none => trivial
      | some poolKey =>
        rw [hkey, hclient, hk] at hsound
        dsimp only at hsound ⊢
        cases hq : quoteExactInSingle s.client 0 (spotCall s.ctx poolKey) with
        | ok amountOut =>
          rw [hq] at hsound
          exact (hsound rfl).identified.2.2 (by simp)
        | failed error message =>
          rw [hq] at hsound
          rintro rfl
          have hfailed := (hsound rfl).calls (.quote false) (by simp)
          cases hfailed
  · intro h m hm hres
    obtain ⟨ref, look, href, hpos, hlook, rfl⟩ := resolveDrawdown_resolved hm hres
    have hmeasurable := h ref look href hpos hlook
    have hrecorded : poolRecorded s.launch := series_recorded (s := s) href (refMax_ne_nil hpos)
    obtain ⟨hcalls, hwindows⟩ := lookAtHorizon_calls href hlook
    unfold afterScans at hres ⊢
    cases hlast : look.last with
    | some last =>
      rw [hlast] at hmeasurable
      exact ⟨fun c hc => (hcalls c hc).1, hwindows,
        hrecorded, hmeasurable, fun hc => absurd rfl (hcalls _ hc).2⟩
    | none =>
      rw [hlast] at hmeasurable hres
      unfold drawdownByQuote at hres ⊢
      rw [hkey, hclient] at hres ⊢
      cases hk : poolKeyOf s.launch with
      | none =>
        rw [hk] at hres
        cases hres
      | some poolKey =>
        rw [hk] at hres hmeasurable
        dsimp only at hres hmeasurable ⊢
        cases hq : quoteExactInSingle s.client 0 (spotCall s.ctx poolKey) with
        | ok amountOut =>
          rw [hq] at hmeasurable
          refine ⟨?_, ?_, hrecorded, hmeasurable.1, fun _ => hmeasurable⟩
          · intro c hc
            rcases List.mem_append.mp hc with hc | hc
            · exact (hcalls c hc).1
            · rw [List.mem_singleton.mp hc]
              rfl
          · intro a b ok hc
            rcases List.mem_append.mp hc with hc | hc
            · exact hwindows a b ok hc
            · simp at hc
        | failed error message =>
          rw [hq] at hmeasurable hres
          cases error with
          | revert => exact absurd rfl hmeasurable
          | archive => cases hres
          | network => cases hres

end Drawdown

section Sell
variable (s : Setting)

/-- The quotes of a sale that come to a verdict need the whole key, and a size in read decimals. -/
def sellMeasurable : Prop :=
  s.launch.lpLockedByConstruction = false → ∀ poolKey spotOut bulkOut, poolKeyOf s.launch = some poolKey →
    s.client.quote 0 (sellCall s.ctx poolKey spotIn) = .ok spotOut → spotOut ≠ 0 → 0 < sellSize s.ctx spotOut →
    s.client.quote 1 (sellCall s.ctx poolKey (sellSize s.ctx spotOut)) = .ok bulkOut →
    keyRecorded s.launch ∧ s.decimals.read = true

theorem quote_ok {client : ResolveClient} {n amountOut : Nat} {call : QuoteCall}
    (h : quoteExactInSingle client n call = .ok amountOut) : client.quote n call = .ok amountOut := by
  unfold quoteExactInSingle at h
  cases hq : client.quote n call with
  | ok a =>
    rw [hq] at h
    rw [QuoteOutcome.ok.inj h]
  | error e =>
    rw [hq] at h
    cases h

theorem quoteExactInSingle_ok {client : ResolveClient} {n amountOut : Nat} {call : QuoteCall}
    (h : client.quote n call = .ok amountOut) : quoteExactInSingle client n call = .ok amountOut := by
  rw [quoteExactInSingle, h]

/-- A verdict comes from two quotes that were answered. -/
theorem resolveSellImpaired_resolved (h : (resolveSellImpaired s.ctx).resolution.status = .RESOLVED) :
    s.launch.lpLockedByConstruction = false ∧ ∃ poolKey spotOut bulkOut, poolKeyOf s.launch = some poolKey ∧
      s.client.quote 0 (sellCall s.ctx poolKey spotIn) = .ok spotOut ∧ spotOut ≠ 0 ∧ 0 < sellSize s.ctx spotOut ∧
      s.client.quote 1 (sellCall s.ctx poolKey (sellSize s.ctx spotOut)) = .ok bulkOut ∧
      (resolveSellImpaired s.ctx).calls = [.quote true, .quote true] := by
  have hkey : s.ctx.poolKey = poolKeyOf s.launch := rfl
  have hclient : s.ctx.client = s.client := rfl
  have hlocked : s.ctx.lpLockedByConstruction = s.launch.lpLockedByConstruction := rfl
  unfold resolveSellImpaired at h ⊢
  rw [hkey, hclient, hlocked] at h ⊢
  cases hl : s.launch.lpLockedByConstruction with
  | true =>
    rw [hl, if_pos rfl] at h
    cases h
  | false =>
    rw [hl, if_neg Bool.false_ne_true] at h
    rw [if_neg Bool.false_ne_true]
    refine ⟨rfl, ?_⟩
    cases hk : poolKeyOf s.launch with
    | none =>
      rw [hk] at h
      cases h
    | some poolKey =>
      rw [hk] at h
      dsimp only at h ⊢
      cases hspot : quoteExactInSingle s.client 0 (sellCall s.ctx poolKey spotIn) with
      | failed error message =>
        rw [hspot] at h
        cases h
      | ok spotOut =>
        rw [hspot] at h
        dsimp only at h ⊢
        by_cases hzero : spotOut = 0
        · rw [if_pos hzero] at h
          cases h
        · by_cases hsize : sellSize s.ctx spotOut ≤ 0
          · rw [if_neg hzero, if_pos hsize] at h
            cases h
          · rw [if_neg hzero, if_neg hsize] at h
            rw [if_neg hzero, if_neg hsize]
            cases hbulk : quoteExactInSingle s.client 1 (sellCall s.ctx poolKey (sellSize s.ctx spotOut)) with
            | failed error message =>
              rw [hbulk] at h
              cases h
            | ok bulkOut =>
              refine ⟨poolKey, spotOut, bulkOut, rfl, quote_ok hspot, hzero, Nat.lt_of_not_le hsize, quote_ok hbulk, ?_⟩
              dsimp only
              split
              · rfl
              · rfl

theorem resolveSellImpaired_quotes {poolKey : PoolKey} {spotOut bulkOut : Nat}
    (hl : s.launch.lpLockedByConstruction = false) (hk : poolKeyOf s.launch = some poolKey)
    (hspot : s.client.quote 0 (sellCall s.ctx poolKey spotIn) = .ok spotOut) (hzero : spotOut ≠ 0)
    (hsize : 0 < sellSize s.ctx spotOut)
    (hbulk : s.client.quote 1 (sellCall s.ctx poolKey (sellSize s.ctx spotOut)) = .ok bulkOut) :
    (resolveSellImpaired s.ctx).resolution.status = .RESOLVED := by
  have hkey : s.ctx.poolKey = some poolKey := hk
  have hclient : s.ctx.client = s.client := rfl
  have hlocked : ¬ s.ctx.lpLockedByConstruction = true := by
    change ¬ s.launch.lpLockedByConstruction = true
    simp [hl]
  unfold resolveSellImpaired
  rw [if_neg hlocked, hkey, hclient]
  dsimp only
  rw [quoteExactInSingle_ok hspot]
  dsimp only
  rw [if_neg hzero, if_neg (Nat.not_le.mpr hsize), quoteExactInSingle_ok hbulk]
  dsimp only
  split <;> rfl

theorem sell_iff : sellPublishes s ↔ sellMeasurable s := by
  constructor
  · intro h hl poolKey spotOut bulkOut hk hspot hzero hsize hbulk
    exact (h _ rfl (resolveSellImpaired_quotes s hl hk hspot hzero hsize hbulk)).identified
  · intro h m hm hres
    obtain rfl := Except.ok.inj hm
    obtain ⟨hl, poolKey, spotOut, bulkOut, hk, hspot, hzero, hsize, hbulk, hcalls⟩ :=
      resolveSellImpaired_resolved s hres
    refine ⟨?_, ?_, h hl poolKey spotOut bulkOut hk hspot hzero hsize hbulk⟩
    · rw [hcalls]
      simp [Call.ok]
    · rw [hcalls]
      simp

end Sell

/-- Each resolver publishes sound verdicts exactly on these inputs. -/
theorem publishes_iff (s : Setting) :
    (survivalPublishes s ↔ poolRecorded s.launch) ∧ (drawdownPublishes s ↔ drawdownMeasurable s) ∧
      (sellPublishes s ↔ sellMeasurable s) :=
  ⟨survival_iff s, drawdown_iff s, sell_iff s⟩

def sampleLaunch : Launch :=
  { launchIn "l1" 10 with
    sourceConfidence := some (1 / 2)
    quoteAddress := some 6#160
    poolFee := some 3000
    poolTickSpacing := some 60
    poolHooks := some 0#160
    launchAt := some 1000000
    detectedVia := some "v4:Initialize" }

def sampleRow (label : Scoring.OutcomeLabel) : OutcomeRow where
  id := "o1"
  chainId := 4663
  tokenAddress := 9#160
  anchorTime := 1600000
  trigger := .launch
  launchId := some "l1"
  label
  horizon := "24h"
  ruleVersion := "v1"
  horizonAt := some 88000000

/-- One swap of the pool at block 20. -/
def swapNode : LogNode where
  logs :=
    [⟨2#160, [TRADE_EVENT_TOPIC0.v4Swap, 77#256, 8#256], [5#256, 5#256, 79228162514264337593543950336#256, 1#256, 0#256, 0#256],
      20, 71#256, 0⟩]
  ordered := by decide +kernel

def sampleClient (quote : Except RpcError Nat) : ResolveClient where
  blocks := fun _ => ⟨.ok 200, fun _ n => .ok n⟩
  getLogs := fun _ _ => swapNode.request
  quote := fun _ _ => quote
  decimals := fun _ => .ok 6

def sampleSetting (label : Scoring.OutcomeLabel) (quote : Except RpcError Nat) : Setting where
  cfg := sampleConfig
  maxRange := 9999
  client := sampleClient quote
  row := sampleRow label
  launch := sampleLaunch
  clusterWallets := []
  windows := ⟨15, 100, 15, 50⟩
  decimals := ⟨6, true⟩

/-- A launch without a pool id is declared dead; a quoter that reverts at the horizon is a crash of the price;
a failed read of the decimals sizes the sale. -/
theorem publishes_unmeasured :
    ¬ survivalPublishes { sampleSetting .TRADING_ALIVE (.ok 1) with launch := { sampleLaunch with poolId := none } } ∧
      ¬ drawdownPublishes (sampleSetting .DRAWDOWN_80 (.error ⟨"ContractFunctionRevertedError", "execution reverted"⟩)) ∧
      ¬ sellPublishes { sampleSetting .SELL_IMPAIRED (.ok 1000000000000) with decimals := ⟨18, false⟩ } := by
  refine ⟨?_, ?_, ?_⟩
  · intro h
    exact absurd (h _ rfl (by decide +kernel)).identified (by decide +kernel)
  · intro h
    have hverdict : (resolveDrawdown
        (sampleSetting .DRAWDOWN_80 (.error ⟨"ContractFunctionRevertedError", "execution reverted"⟩)).ctx).toOption.map
          (fun m => (m.resolution.status, m.resolution.value, m.calls)) =
        some (.RESOLVED, some true, [.logs 15 50 true, .logs 51 100 true, .quote false]) := by decide +kernel
    cases hm : resolveDrawdown
        (sampleSetting .DRAWDOWN_80 (.error ⟨"ContractFunctionRevertedError", "execution reverted"⟩)).ctx with
    | error e =>
      rw [hm] at hverdict
      cases hverdict
    | ok m =>
      rw [hm] at hverdict
      simp only [Except.toOption, Option.map_some, Option.some.injEq, Prod.mk.injEq] at hverdict
      have hfailed := (h m hm hverdict.1).calls (.quote false) (by simp [hverdict.2.2])
      cases hfailed
  · intro h
    exact absurd (h _ rfl (by decide +kernel)).identified.2 (by decide)

end LaunchAuditor.Proofs.Measurement
