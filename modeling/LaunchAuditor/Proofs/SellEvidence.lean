import LaunchAuditor.Watcher.SellFacts

namespace LaunchAuditor.Proofs.SellEvidence
open Chain Outcomes Scanners Watcher

section Calls
variable (q : SellImpactParams)

/-- The quote near the spot brings an amount. -/
def spotPositive : Prop := ∃ out, q.call 0 SPOT_IN = some out ∧ out ≠ 0

/-- The places and amounts of the quotes: without an amount for the first there are no others. -/
def legs : List (Nat × Nat) :=
  (0, SPOT_IN) ::
    match (q.call 0 SPOT_IN).filter (· ≠ 0) with
    | none => []
    | some spotOut => q.notionalsQuote.mapIdx fun i notionalQuote => (i + 1, Watcher.sellSize notionalQuote spotOut)

/-- How the calls end that are made: each sells something, and its arguments fit their types. -/
def ends : List CallEnd :=
  ((legs q).filter fun leg => decide (leg.2 ≠ 0) && (q.sell leg.2).encodable).map fun leg => q.client leg.1 (q.sell leg.2)

/-- A sell reverts or returns nothing. -/
def quoterEvidence : Prop := ∃ e ∈ ends q, e = .reverted ∨ e.amountOut = some 0

def transportFailure : Prop := ∃ e ∈ ends q, e = .transport ∨ e = .timeout

variable {q}

/-- The failure of a sized quote never counts: the spot quote alone decides. -/
theorem ownQuoteSellOk_positive (h : spotPositive q) : ownQuoteSellOk (quoteSellImpact q) = some true := by
  obtain ⟨out, hcall, hne⟩ := h
  have hspot : (q.call 0 SPOT_IN).filter (· ≠ 0) = some out := by simp [hcall, hne]
  unfold ownQuoteSellOk quoteSellImpact
  rw [hspot]
  simp

theorem ownQuoteSellOk_failed (h : ¬ spotPositive q) : ownQuoteSellOk (quoteSellImpact q) = some false := by
  have hspot : (q.call 0 SPOT_IN).filter (· ≠ 0) = none := by
    apply Option.filter_eq_none_iff.mpr
    intro out hcall hne
    exact h ⟨out, hcall, of_decide_eq_true hne⟩
  unfold ownQuoteSellOk quoteSellImpact
  rw [hspot]
  rfl

end Calls

section Sell
variable (p : Feature9Params) (f : ScannerFetches)

/-- What the scanners say when nothing is quoted. -/
def scannersVerdict : Option Bool := coalesce [(mapGoPlus f.security).honeypot.map not, (mapScanHood f.scan).sellable]

def evidence : Prop :=
  (∃ q, p.sellImpact = some q ∧ quoterEvidence q) ∨ (mapGoPlus f.security).honeypot = some true ∨
    (mapScanHood f.scan).sellable = some false

/-- A token is said not to sell on evidence, and a failure of the transport is none. -/
structure Supported : Prop where
  onEvidence : (computeFeature9 p f).sellSimOk = some false → evidence p f
  onFailure : (∃ q, p.sellImpact = some q ∧ transportFailure q) → ¬ evidence p f →
    (computeFeature9 p f).sellSimOk = none ∨ (computeFeature9 p f).sellSimOk = scannersVerdict f

variable {p f}

theorem sellSimOk_unquoted (h : p.sellImpact = none) : (computeFeature9 p f).sellSimOk = scannersVerdict f := by
  unfold computeFeature9
  rw [h]
  rfl

theorem sellSimOk_quoted {q : SellImpactParams} (h : p.sellImpact = some q) {ok : Bool}
    (hown : ownQuoteSellOk (quoteSellImpact q) = some ok) : (computeFeature9 p f).sellSimOk = some ok := by
  unfold computeFeature9
  simp only [h, Option.map_some, Option.bind_some, hown, coalesce, List.findSome?_cons, id_eq]

theorem scannersVerdict_false (h : scannersVerdict f = some false) :
    (mapGoPlus f.security).honeypot = some true ∨ (mapScanHood f.scan).sellable = some false := by
  unfold scannersVerdict coalesce at h
  cases hgoplus : (mapGoPlus f.security).honeypot with
  | some honeypot =>
    rw [hgoplus] at h
    left
    simpa using h
  | none =>
    rw [hgoplus] at h
    right
    simpa using h

/-- The value is supported where nothing is quoted, where there is evidence, and where the spot quote brings an amount
and either no sized quote fails in transport or the scanners say that the token sells. -/
theorem sellSimOk_supported_iff : Supported p f ↔
    p.sellImpact = none ∨ evidence p f ∨ ∃ q, p.sellImpact = some q ∧ spotPositive q ∧
      (¬ transportFailure q ∨ scannersVerdict f = some true) := by
  cases hq : p.sellImpact with
  | none =>
    refine iff_of_true ⟨?_, ?_⟩ (Or.inl rfl)
    · intro hfalse
      rw [sellSimOk_unquoted hq] at hfalse
      exact Or.inr (scannersVerdict_false hfalse)
    · rintro ⟨q, hsome, _⟩
      rw [hq] at hsome
      cases hsome
  | some q =>
    by_cases hspot : spotPositive q
    · have hvalue := sellSimOk_quoted (f := f) hq (ownQuoteSellOk_positive hspot)
      constructor
      · intro h
        by_cases hev : evidence p f
        · exact Or.inr (Or.inl hev)
        · refine Or.inr (Or.inr ⟨q, rfl, hspot, ?_⟩)
          by_cases hfail : transportFailure q
          · rcases h.onFailure ⟨q, hq, hfail⟩ hev with hnone | hverdict
            · rw [hvalue] at hnone
              cases hnone
            · exact Or.inr (hverdict.symm.trans hvalue)
          · exact Or.inl hfail
      · intro h
        refine ⟨?_, ?_⟩
        · intro hfalse
          rw [hvalue] at hfalse
          cases hfalse
        · rintro ⟨q', hq', hfail⟩ hno
          obtain rfl : q = q' := Option.some.inj (hq.symm.trans hq')
          rcases h with hnone | hev | ⟨q', hq', _, hok⟩
          · cases hnone
          · exact absurd hev hno
          · obtain rfl := Option.some.inj hq'
            rcases hok with hnot | hverdict
            · exact absurd hfail hnot
            · exact Or.inr (hvalue.trans hverdict.symm)
    · have hvalue := sellSimOk_quoted (f := f) hq (ownQuoteSellOk_failed hspot)
      constructor
      · exact fun h => Or.inr (Or.inl (h.onEvidence hvalue))
      · rintro (hnone | hev | ⟨q', hq', hpos, _⟩)
        · cases hnone
        · exact ⟨fun _ => hev, fun _ hno => absurd hev hno⟩
        · obtain rfl := Option.some.inj hq'
          exact absurd hpos hspot

end Sell

/-- A pool with a known quote asset; the quotes end like this. -/
def sampleParams (client : Quoter) : Feature9Params :=
  ⟨client, 9#160, some 2#160, 7#160, some 3000, some 60, none, 6, some 100⟩

/-- Both scanners say that the token sells. -/
def sellableFetches : ScannerFetches where
  security := some ⟨some "1", some "0", some "0", none, none, some "0", none⟩
  goplusRaw := .null
  goplusFetchedAt := 1000
  scan := some ⟨some true, some true, none, none, none, none⟩
  scanhoodRaw := .null
  scanhoodFetchedAt := 1000

theorem sellSimOk_timeout : (computeFeature9 (sampleParams fun _ _ => .timeout) sellableFetches).sellSimOk = some false ∧
    ¬ evidence (sampleParams fun _ _ => .timeout) sellableFetches ∧
    ¬ Supported (sampleParams fun _ _ => .timeout) sellableFetches := by
  have hvalue : (computeFeature9 (sampleParams fun _ _ => .timeout) sellableFetches).sellSimOk = some false := by
    decide +kernel
  have hno : ¬ evidence (sampleParams fun _ _ => .timeout) sellableFetches := by
    rintro (⟨q, hq, e, he, hbad⟩ | hgoplus | hscanhood)
    · obtain rfl := Option.some.inj hq
      obtain ⟨leg, _, rfl⟩ := List.mem_map.mp he
      rcases hbad with hbad | hbad
      · cases hbad
      · cases hbad
    · exact absurd hgoplus (by decide +kernel)
    · exact absurd hscanhood (by decide +kernel)
  exact ⟨hvalue, hno, fun h => hno (h.onEvidence hvalue)⟩

end LaunchAuditor.Proofs.SellEvidence
