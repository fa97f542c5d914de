import LaunchAuditor.Outcomes.Insider
import LaunchAuditor.Watcher.Cluster

namespace LaunchAuditor.Proofs.Replay
open Chain Watcher Outcomes

/-- The resolver runs over the chain that holds the history, for a cluster that was built for the launch. -/
structure Resolving (h : TransferHistory) (p : BuildClusterParams) (ctx : ResolverContext) : Prop where
  client : ∀ scan attempt, ctx.client.getLogs scan attempt = (h.node ctx.token).request
  cluster : ∃ result, buildCreatorCluster p = .ok result ∧
    ctx.clusterWallets = result.members.map ClusterMemberResult.address
  launchBlock : ctx.launchBlock = p.launchBlock
  maxRange : 0 < ctx.maxRange

section History
variable (h : TransferHistory) (ctx : ResolverContext)

def wallets : Finset Address := ctx.clusterWallets.toFinset

/-- The transfers of the token before the launch block. -/
def opening : List (Ledger.Transfer Address) := (h.before ctx.launchBlock).map TransferEvent.transfer

def window : List TransferEvent := h.window ctx.launchBlock ctx.horizonBlock

/-- What the cluster truly holds once the window has gone so far. -/
def trueTotal (earlier : List TransferEvent) : ℤ :=
  Ledger.held ZERO_ADDRESS (wallets ctx) (opening h ctx ++ earlier.map TransferEvent.transfer)

/-- The totals of the window, the one it opens with included. -/
def trueTotals : Set ℤ := {x | ∃ earlier, earlier <+: window h ctx ∧ x = trueTotal h ctx earlier}

/-- The highest of them. -/
def truePeak : ℤ := ((window h ctx).inits.map (trueTotal h ctx)).foldr max (trueTotal h ctx [])

theorem truePeak_isGreatest : IsGreatest (trueTotals h ctx) (truePeak h ctx) := by
  have hfold : ∀ xs : List ℤ, IsGreatest {x | x = trueTotal h ctx [] ∨ x ∈ xs} (xs.foldr max (trueTotal h ctx [])) := by
    intro xs
    induction xs with
    | nil => simp
    | cons x xs ih =>
      have hset : {y | y = trueTotal h ctx [] ∨ y ∈ x :: xs} = insert x {y | y = trueTotal h ctx [] ∨ y ∈ xs} := by
        ext y
        simp only [Set.mem_ofPred_eq, List.mem_cons, Set.mem_insert_iff]
        tauto
      rw [hset, List.foldr_cons]
      exact ih.insert x
  have hset : trueTotals h ctx = {x | x = trueTotal h ctx [] ∨ x ∈ (window h ctx).inits.map (trueTotal h ctx)} := by
    ext x
    simp only [trueTotals, Set.mem_ofPred_eq, List.mem_map, List.mem_inits]
    constructor
    · rintro ⟨earlier, he, rfl⟩
      exact Or.inr ⟨earlier, he, rfl⟩
    · rintro (rfl | ⟨earlier, he, rfl⟩)
      · exact ⟨[], List.nil_prefix, rfl⟩
      · exact ⟨earlier, he, rfl⟩
  rw [hset]
  exact hfold _

end History

def touches (cluster : List Address) (e : TransferEvent) : Bool := decide (e.from_ ∈ cluster) || decide (e.to_ ∈ cluster)

def evOf (e : TransferEvent) : Ev := ⟨e.blockNumber, e.logIndex, e.from_, e.to_, e.value.toNat⟩

theorem ofLog_toLog (token : Address) (e : TransferEvent) : Ev.ofLog (e.toLog token) = some (evOf e) := by
  simp [Ev.ofLog, TransferEvent.toLog, evOf, transferValue]

section Events
variable {h : TransferHistory} {ctx : ResolverContext}

theorem selects_toLog (token : Address) (cluster : List Address) (e : TransferEvent) (f : LogFilter)
    (hf : f.address = [token]) :
    selectsValue f TRANSFER_TOPIC0 1 (cluster.map addressToTopic) (e.toLog token) = decide (e.from_ ∈ cluster) ∧
      selectsValue f TRANSFER_TOPIC0 2 (cluster.map addressToTopic) (e.toLog token) = decide (e.to_ ∈ cluster) := by
  have hmem : ∀ a : Address, (∃ b ∈ cluster, addressToTopic b = addressToTopic a) ↔ a ∈ cluster := by
    intro a
    constructor
    · rintro ⟨b, hb, he⟩
      rwa [← addressToTopic_injective he]
    · exact fun ha => ⟨a, ha, rfl⟩
  simp [selectsValue, TransferEvent.toLog, hf, hmem]

/-- What the two queries bring of the window. -/
theorem clusterTransfers_eq (hclient : ∀ scan attempt, ctx.client.getLogs scan attempt = (h.node ctx.token).request)
    (hrange : 0 < ctx.maxRange) :
    clusterTransfers ctx 1 =
        .ok (((window h ctx).filter fun e => decide (e.from_ ∈ Js.setOf ctx.clusterWallets)).map (·.toLog ctx.token)) ∧
      clusterTransfers ctx 2 =
        .ok (((window h ctx).filter fun e => decide (e.to_ ∈ Js.setOf ctx.clusterWallets)).map (·.toLog ctx.token)) := by
  have hquery : ∀ pos, 0 < pos → clusterTransfers ctx pos =
      .ok (valueLogs (h.node ctx.token) ⟨[ctx.token], [], ctx.launchBlock, ctx.horizonBlock⟩ TRANSFER_TOPIC0 pos
        ((Js.setOf ctx.clusterWallets).map addressToTopic)) := by
    intro pos hpos
    unfold clusterTransfers
    apply withRetry_of_ok (by omega)
    rw [hclient]
    exact getLogsByTopicValues_request _ _ _ hpos _ hrange (by decide)
  rw [hquery 1 (by omega), hquery 2 (by omega)]
  unfold valueLogs window TransferHistory.window TransferHistory.node
  simp only [List.filter_map, List.filter_filter]
  constructor
  · congr 2
    apply List.filter_congr
    intro e _
    rw [Function.comp_apply, (selects_toLog ctx.token _ e _ rfl).1, TransferEvent.inBlocks, Bool.and_assoc]
    rfl
  · congr 2
    apply List.filter_congr
    intro e _
    rw [Function.comp_apply, (selects_toLog ctx.token _ e _ rfl).2, TransferEvent.inBlocks, Bool.and_assoc]
    rfl

/-- The replay runs over the window's transfers that touch the cluster. -/
theorem replayEvents_eq (h : TransferHistory) (ctx : ResolverContext) (cluster : List Address) :
    replayEvents (((window h ctx).filter fun e => decide (e.from_ ∈ cluster)).map (·.toLog ctx.token))
        (((window h ctx).filter fun e => decide (e.to_ ∈ cluster)).map (·.toLog ctx.token)) =
      ((window h ctx).filter (touches cluster)).map evOf := by
  have hstrict : ((window h ctx).filter (touches cluster)).Pairwise fun a b => a.key < b.key :=
    h.ordered.sublist (List.filter_sublist.trans List.filter_sublist)
  have hlogs : (((window h ctx).filter (touches cluster)).map (·.toLog ctx.token)).Pairwise
      fun a b => logKey a < logKey b := List.pairwise_map.mpr hstrict
  have hevents : (((window h ctx).filter (touches cluster)).map evOf).Pairwise fun a b => a.key < b.key :=
    List.pairwise_map.mpr hstrict
  apply Keyed.inOrder_eq hevents
  have hmap : (((window h ctx).filter (touches cluster)).map (·.toLog ctx.token)).filterMap Ev.ofLog =
      ((window h ctx).filter (touches cluster)).map evOf := by
    rw [List.filterMap_map]
    simp only [Function.comp_def, ofLog_toLog, List.filterMap_eq_map']
  rw [← hmap]
  apply List.Perm.filterMap
  apply Keyed.uniq_perm hlogs
  intro log
  simp only [List.mem_append, List.mem_map, List.mem_filter, touches, Bool.or_eq_true, decide_eq_true_eq]
  constructor
  · rintro (⟨e, ⟨he, hc⟩, rfl⟩ | ⟨e, ⟨he, hc⟩, rfl⟩)
    · exact ⟨e, ⟨he, Or.inl hc⟩, rfl⟩
    · exact ⟨e, ⟨he, Or.inr hc⟩, rfl⟩
  · rintro ⟨e, ⟨he, hc | hc⟩, rfl⟩
    · exact Or.inl ⟨e, ⟨he, hc⟩, rfl⟩
    · exact Or.inr ⟨e, ⟨he, hc⟩, rfl⟩

end Events

section Totals
variable (h : TransferHistory) (ctx : ResolverContext)

/-- The replay's book over some of the window. -/
def book (earlier : List TransferEvent) : ℤ := (earlier.map fun e => Ledger.flow (wallets ctx) e.transfer).sum

/-- What the book gets wrong: it counts the zero address as a holder when it is in the cluster. -/
def leak (e : TransferEvent) : ℤ :=
  if ZERO_ADDRESS ∈ wallets ctx then Ledger.flow {ZERO_ADDRESS} e.transfer else 0

theorem book_eq (earlier : List TransferEvent) :
    book ctx earlier = trueTotal h ctx earlier - trueTotal h ctx [] + (earlier.map (leak ctx)).sum := by
  have htrue : trueTotal h ctx earlier = trueTotal h ctx [] +
      (earlier.map fun e => Ledger.flow ((wallets ctx).erase ZERO_ADDRESS) e.transfer).sum := by
    rw [trueTotal, trueTotal, List.map_nil, List.append_nil, Ledger.held_append, List.map_map]
    rfl
  have hbook : book ctx earlier =
      (earlier.map fun e => Ledger.flow ((wallets ctx).erase ZERO_ADDRESS) e.transfer).sum +
        (earlier.map (leak ctx)).sum := by
    rw [← List.sum_map_add]
    exact congrArg List.sum (List.map_congr_left fun e _ => Ledger.flow_eq _ _)
  rw [hbook, htrue]
  omega

theorem trueTotal_nonneg {earlier : List TransferEvent} (he : earlier <+: window h ctx) :
    0 ≤ trueTotal h ctx earlier := by
  apply Ledger.held_nonneg h.solvent
  have hprefix := ((List.prefix_append_right_inj (h.before ctx.launchBlock)).mpr he).trans
    (h.before_window_prefix ctx.launchBlock ctx.horizonBlock)
  rw [opening, ← List.map_append]
  exact hprefix.map _

theorem totals_book : Ledger.totals ((window h ctx).map fun e => Ledger.flow (wallets ctx) e.transfer) =
    {x | ∃ earlier, earlier <+: window h ctx ∧ x = book ctx earlier} := by
  ext x
  constructor
  · rintro ⟨changes, hc, rfl⟩
    obtain ⟨earlier, he, rfl⟩ := List.prefix_map_iff.mp hc
    exact ⟨earlier, he, rfl⟩
  · rintro ⟨earlier, he, rfl⟩
    exact ⟨_, he.map _, rfl⟩

/-- A transfer that takes from the supply or adds to it. -/
def mintsOrBurns (e : TransferEvent) : Prop := e.value.toNat ≠ 0 ∧ ¬ (e.from_ = ZERO_ADDRESS ↔ e.to_ = ZERO_ADDRESS)

instance (e : TransferEvent) : Decidable (mintsOrBurns e) := by unfold mintsOrBurns; infer_instance

theorem leak_eq_zero {e : TransferEvent} : leak ctx e = 0 ↔ (ZERO_ADDRESS ∈ wallets ctx → ¬ mintsOrBurns e) := by
  unfold leak
  split
  · rename_i hz
    rw [Ledger.flow_singleton_eq_zero, mintsOrBurns]
    change (e.value.toNat = 0 ∨ (e.from_ = ZERO_ADDRESS ↔ e.to_ = ZERO_ADDRESS)) ↔ _
    tauto
  · rename_i hz
    simp [hz]

/-- The book is right after every transfer of the window, and its highest value is the highest total. -/
def BookExact (peak : ℤ) : Prop :=
  (∀ earlier t, earlier ++ [t] <+: window h ctx →
    book ctx (earlier ++ [t]) = trueTotal h ctx (earlier ++ [t]) ∧ 0 ≤ book ctx (earlier ++ [t])) ∧
  IsGreatest (trueTotals h ctx) peak

/-- Nothing is held when the window opens, and the zero address is no holder that the window moves tokens of. -/
def FromNothing : Prop :=
  trueTotal h ctx [] = 0 ∧ ∀ t ∈ window h ctx, ZERO_ADDRESS ∈ wallets ctx → ¬ mintsOrBurns t

/-- Two errors that cancel: the zero address is in the cluster, the window opens with a burn of exactly what
the cluster held before it, nothing more is minted or burned, and the total comes back to where it was. -/
def Offset : Prop :=
  ∃ t rest, window h ctx = t :: rest ∧ leak ctx t = trueTotal h ctx [] ∧
    (∀ u ∈ rest, ZERO_ADDRESS ∈ wallets ctx → ¬ mintsOrBurns u) ∧
    ∃ earlier, earlier <+: window h ctx ∧ earlier ≠ [] ∧ trueTotal h ctx [] ≤ trueTotal h ctx earlier

variable {h ctx}

theorem FromNothing.book_eq (hn : FromNothing h ctx) {earlier : List TransferEvent} (he : earlier <+: window h ctx) :
    book ctx earlier = trueTotal h ctx earlier := by
  have hleak : (earlier.map (leak ctx)).sum = 0 := by
    apply List.sum_eq_zero
    intro x hx
    obtain ⟨t, ht, rfl⟩ := List.mem_map.mp hx
    exact (leak_eq_zero ctx).mpr (hn.2 t (he.subset ht))
  rw [Replay.book_eq h, hn.1, hleak]
  omega

theorem FromNothing.exact (hn : FromNothing h ctx) {peak : ℤ}
    (hp : IsGreatest {x | ∃ earlier, earlier <+: window h ctx ∧ x = book ctx earlier} peak) : BookExact h ctx peak := by
  have hsame : {x | ∃ earlier, earlier <+: window h ctx ∧ x = book ctx earlier} = trueTotals h ctx := by
    ext x
    constructor
    · rintro ⟨earlier, he, rfl⟩
      exact ⟨earlier, he, hn.book_eq he⟩
    · rintro ⟨earlier, he, rfl⟩
      exact ⟨earlier, he, (hn.book_eq he).symm⟩
  refine ⟨?_, hsame ▸ hp⟩
  intro earlier t he
  have hb := hn.book_eq he
  refine ⟨hb, ?_⟩
  rw [hb]
  exact trueTotal_nonneg h ctx he

theorem Offset.book_eq (ho : Offset h ctx) {earlier : List TransferEvent} (he : earlier <+: window h ctx)
    (hne : earlier ≠ []) : book ctx earlier = trueTotal h ctx earlier := by
  obtain ⟨t, rest, hw, ht, hrest, _⟩ := ho
  rw [hw] at he
  cases earlier with
  | nil => exact absurd rfl hne
  | cons u more =>
    obtain ⟨rfl, hmore⟩ := List.cons_prefix_cons.mp he
    have hleak : (more.map (leak ctx)).sum = 0 := by
      apply List.sum_eq_zero
      intro x hx
      obtain ⟨v, hv, rfl⟩ := List.mem_map.mp hx
      exact (leak_eq_zero ctx).mpr (hrest v (hmore.subset hv))
    rw [Replay.book_eq h, List.map_cons, List.sum_cons, hleak, ht]
    omega

theorem Offset.exact (ho : Offset h ctx) {peak : ℤ}
    (hp : IsGreatest {x | ∃ earlier, earlier <+: window h ctx ∧ x = book ctx earlier} peak) : BookExact h ctx peak := by
  obtain ⟨back, hback, hbackne, hle⟩ : ∃ earlier, earlier <+: window h ctx ∧ earlier ≠ [] ∧
      trueTotal h ctx [] ≤ trueTotal h ctx earlier := by
    obtain ⟨_, _, _, _, _, hback⟩ := ho
    exact hback
  have hopen : trueTotal h ctx [] ≤ peak := by
    calc trueTotal h ctx [] ≤ trueTotal h ctx back := hle
      _ = book ctx back := (ho.book_eq hback hbackne).symm
      _ ≤ peak := hp.2 ⟨back, hback, rfl⟩
  refine ⟨?_, ?_, ?_⟩
  · intro earlier t he
    have hb := ho.book_eq he (by simp)
    refine ⟨hb, ?_⟩
    rw [hb]
    exact trueTotal_nonneg h ctx he
  · obtain ⟨earlier, he, hpeak⟩ := hp.1
    by_cases hne : earlier = []
    · subst hne
      have hzero : book ctx [] = 0 := rfl
      have hnonneg := trueTotal_nonneg h ctx (List.nil_prefix (l := window h ctx))
      exact ⟨[], List.nil_prefix, by omega⟩
    · exact ⟨earlier, he, hpeak.trans (ho.book_eq he hne)⟩
  · rintro x ⟨earlier, he, rfl⟩
    by_cases hne : earlier = []
    · rw [hne]
      exact hopen
    · rw [← ho.book_eq he hne]
      exact hp.2 ⟨earlier, he, rfl⟩

/-- What an exact book has leaked after any transfer is what was held before the window. -/
theorem BookExact.leaked {peak : ℤ} (hx : BookExact h ctx peak) {earlier : List TransferEvent}
    (he : earlier <+: window h ctx) (hne : earlier ≠ []) : (earlier.map (leak ctx)).sum = trueTotal h ctx [] := by
  rcases List.eq_nil_or_concat' earlier with rfl | ⟨before, t, rfl⟩
  · exact absurd rfl hne
  · have hb := (hx.1 before t he).1
    rw [Replay.book_eq h] at hb
    omega

theorem BookExact.leak_eq_zero {peak : ℤ} (hx : BookExact h ctx peak) {a b : List TransferEvent} {u : TransferEvent}
    (hw : window h ctx = a ++ u :: b) (ha : (a.map (leak ctx)).sum = trueTotal h ctx []) : leak ctx u = 0 := by
  have hprefix : a ++ [u] <+: window h ctx := ⟨b, by simp [hw]⟩
  have hsum := hx.leaked hprefix (by simp)
  rw [List.map_append, List.sum_append, ha] at hsum
  simpa using hsum

theorem BookExact.cause {peak : ℤ} (hx : BookExact h ctx peak)
    (hp : IsGreatest {x | ∃ earlier, earlier <+: window h ctx ∧ x = book ctx earlier} peak) :
    FromNothing h ctx ∨ Offset h ctx := by
  have hnonneg := trueTotal_nonneg h ctx (List.nil_prefix (l := window h ctx))
  have hzero : book ctx [] = 0 := rfl
  by_cases h0 : trueTotal h ctx [] = 0
  · refine Or.inl ⟨h0, ?_⟩
    intro t ht
    obtain ⟨a, b, hw⟩ := List.append_of_mem ht
    apply (Replay.leak_eq_zero ctx).mp
    apply hx.leak_eq_zero hw
    by_cases hne : a = []
    · rw [hne, h0]
      rfl
    · exact hx.leaked ⟨_, hw.symm⟩ hne
  · right
    have hopen : trueTotal h ctx [] ≤ peak := hx.2.2 ⟨[], List.nil_prefix, rfl⟩
    obtain ⟨top, htop, hpeak⟩ := hp.1
    have htopne : top ≠ [] := by
      rintro rfl
      omega
    cases hw : window h ctx with
    | nil =>
      rw [hw] at htop
      exact absurd (List.prefix_nil.mp htop) htopne
    | cons t rest =>
      have hone : [t] <+: window h ctx := ⟨rest, by simp [hw]⟩
      have hfirst : leak ctx t = trueTotal h ctx [] := by simpa using hx.leaked hone (by simp)
      refine ⟨t, rest, hw, hfirst, ?_, top, htop, htopne, ?_⟩
      · intro u hu
        obtain ⟨a, b, hrest⟩ := List.append_of_mem hu
        have hsplit : window h ctx = (t :: a) ++ u :: b := by rw [hw, hrest, List.cons_append]
        apply (Replay.leak_eq_zero ctx).mp
        exact hx.leak_eq_zero hsplit (hx.leaked ⟨_, hsplit.symm⟩ (by simp))
      · have hb : book ctx top = trueTotal h ctx top := by
          rcases List.eq_nil_or_concat' top with rfl | ⟨before, u, rfl⟩
          · exact absurd rfl htopne
          · exact (hx.1 before u htop).1
        omega

end Totals

section Resolver
variable {h : TransferHistory} {ctx : ResolverContext}

variable (h ctx) in
/-- Whenever the resolver replays: after every transfer of the window the aggregate is what the cluster
truly holds, and it is not negative; and the peak it reports is the highest total of the window. -/
def ReplayExact : Prop :=
  ∀ outLogs inLogs, clusterTransfers ctx 1 = .ok outLogs → clusterTransfers ctx 2 = .ok inLogs →
    capHit outLogs inLogs = false →
    (∀ earlier t, earlier ++ [t] <+: window h ctx →
      let done := (replayEvents outLogs inLogs).filter fun e => decide (e.key ≤ t.key)
      let agg := (replay (Js.setOf ctx.clusterWallets) ctx.pool.sinks done).agg
      agg = trueTotal h ctx (earlier ++ [t]) ∧ 0 ≤ agg) ∧
    ∃ r peak, resolveInsiderExit ctx = .ok r ∧ r.status = .RESOLVED ∧
      r.evidence.lookup "peakHoldings" = some (.digits peak) ∧ IsGreatest (trueTotals h ctx) peak

variable (h ctx) in
/-- More transfers than the resolver is willing to replay. -/
def Capped : Prop :=
  MAX_INSIDER_LOGS ≤ ((window h ctx).filter fun e => decide (e.from_ ∈ wallets ctx)).length ∨
    MAX_INSIDER_LOGS ≤ ((window h ctx).filter fun e => decide (e.to_ ∈ wallets ctx)).length

theorem setOf_toFinset : (Js.setOf ctx.clusterWallets).toFinset = wallets ctx := by
  ext a
  simp [wallets]

theorem flow_untouched {e : TransferEvent} (he : touches (Js.setOf ctx.clusterWallets) e = false) :
    Ledger.flow (wallets ctx) e.transfer = 0 := by
  simp only [touches, Bool.or_eq_false_iff, decide_eq_false_iff_not, Js.mem_setOf] at he
  simp [Ledger.flow, wallets, TransferEvent.transfer, he.1, he.2]

variable (ctx) in
/-- The replay's aggregate over the events that some of the window has brought. -/
theorem replay_book (poolSinks : List Address) (earlier : List TransferEvent) :
    (replay (Js.setOf ctx.clusterWallets) poolSinks
      ((earlier.filter (touches (Js.setOf ctx.clusterWallets))).map evOf)).agg = book ctx earlier := by
  rw [replay_agg, List.map_map, setOf_toFinset]
  exact (Ledger.totals_filter (fun _ he => flow_untouched he) earlier).1

variable (h ctx) in
theorem replay_book_peak (poolSinks : List Address) :
    IsGreatest {x | ∃ earlier, earlier <+: window h ctx ∧ x = book ctx earlier}
      (replay (Js.setOf ctx.clusterWallets) poolSinks
        (((window h ctx).filter (touches (Js.setOf ctx.clusterWallets))).map evOf)).peak := by
  have hpeak := replay_peak (Js.setOf ctx.clusterWallets) poolSinks
    (((window h ctx).filter (touches (Js.setOf ctx.clusterWallets))).map evOf)
  rw [List.map_map, setOf_toFinset] at hpeak
  rw [← totals_book, ← (Ledger.totals_filter (fun _ he => flow_untouched he) (window h ctx)).2]
  exact hpeak

/-- The events up to one of the window's transfers are those of the window up to it. -/
theorem done_eq (cluster : List Address) {earlier : List TransferEvent} {t : TransferEvent}
    (he : earlier ++ [t] <+: window h ctx) :
    (((window h ctx).filter (touches cluster)).map evOf).filter (fun e => decide (e.key ≤ t.key)) =
      ((earlier ++ [t]).filter (touches cluster)).map evOf := by
  obtain ⟨rest, hw⟩ := he
  have hstrict : (window h ctx).Pairwise fun a b => a.key < b.key := h.ordered.sublist List.filter_sublist
  rw [← hw] at hstrict ⊢
  obtain ⟨hfront, _, hrest⟩ := List.pairwise_append.mp hstrict
  obtain ⟨_, _, hlast⟩ := List.pairwise_append.mp hfront
  have hkeep : ((earlier ++ [t]).filter (touches cluster)).filter (fun e => decide (e.key ≤ t.key)) =
      (earlier ++ [t]).filter (touches cluster) := by
    apply List.filter_eq_self.mpr
    intro e hm
    rcases List.mem_append.mp (List.mem_of_mem_filter hm) with hm | hm
    · exact decide_eq_true (le_of_lt (hlast e hm t List.mem_cons_self))
    · rw [List.mem_singleton.mp hm]
      exact decide_eq_true le_rfl
  have hdrop : (rest.filter (touches cluster)).filter (fun e => decide (e.key ≤ t.key)) = [] := by
    apply List.filter_eq_nil_iff.mpr
    intro e hm
    have hlt := hrest t (by simp) e (List.mem_of_mem_filter hm)
    simpa using hlt
  rw [List.filter_map, List.filter_append, List.filter_append]
  change List.map evOf (List.filter (fun e => decide (e.key ≤ t.key)) ((earlier ++ [t]).filter (touches cluster)) ++
    List.filter (fun e => decide (e.key ≤ t.key)) (rest.filter (touches cluster))) = _
  rw [hkeep, hdrop, List.append_nil]

variable (ctx) in
theorem insiderVerdict_peak (coverage : Coverage) (events : List Ev) :
    (insiderVerdict ctx coverage events).status = .RESOLVED ∧
      (insiderVerdict ctx coverage events).evidence.lookup "peakHoldings" =
        some (.digits (replay (Js.setOf ctx.clusterWallets) ctx.pool.sinks events).peak) := by
  unfold insiderVerdict
  dsimp only
  split
  · rename_i h0
    rw [h0]
    exact ⟨rfl, rfl⟩
  · exact ⟨rfl, rfl⟩

variable {p : BuildClusterParams}

theorem Resolving.cluster_ne (hr : Resolving h p ctx) : Js.setOf ctx.clusterWallets ≠ [] := by
  obtain ⟨result, hb, hc⟩ := hr.cluster
  intro hnil
  have hmem : p.creator ∈ Js.setOf ctx.clusterWallets := by
    rw [Js.mem_setOf, hc]
    exact creator_mem hb
  rw [hnil] at hmem
  cases hmem

theorem capHit_iff :
    capHit (((window h ctx).filter fun e => decide (e.from_ ∈ Js.setOf ctx.clusterWallets)).map (·.toLog ctx.token))
        (((window h ctx).filter fun e => decide (e.to_ ∈ Js.setOf ctx.clusterWallets)).map (·.toLog ctx.token)) = true ↔
      Capped h ctx := by
  simp [capHit, Capped, wallets]

theorem Resolving.resolve (hr : Resolving h p ctx) (hcap : ¬ Capped h ctx) : ∃ coverage,
    resolveInsiderExit ctx = .ok (insiderVerdict ctx coverage
      (((window h ctx).filter (touches (Js.setOf ctx.clusterWallets))).map evOf)) := by
  obtain ⟨hout, hin⟩ := clusterTransfers_eq hr.client hr.maxRange
  rw [← capHit_iff] at hcap
  unfold resolveInsiderExit
  rw [if_neg hr.cluster_ne, hout, hin]
  simp only [bind, Except.bind, pure, Except.pure]
  rw [if_neg hcap, replayEvents_eq]
  exact ⟨_, rfl⟩

/-- The replay is exact on just these histories. -/
theorem replay_exact_iff (hr : Resolving h p ctx) :
    ReplayExact h ctx ↔ Capped h ctx ∨ FromNothing h ctx ∨ Offset h ctx := by
  obtain ⟨hout, hin⟩ := clusterTransfers_eq hr.client hr.maxRange
  have hevents := replayEvents_eq h ctx (Js.setOf ctx.clusterWallets)
  have hpeak := replay_book_peak h ctx ctx.pool.sinks
  have hdone : ∀ earlier t, earlier ++ [t] <+: window h ctx →
      (replay (Js.setOf ctx.clusterWallets) ctx.pool.sinks
        ((((window h ctx).filter (touches (Js.setOf ctx.clusterWallets))).map evOf).filter
          fun e => decide (e.key ≤ t.key))).agg = book ctx (earlier ++ [t]) := by
    intro earlier t he
    rw [done_eq _ he, replay_book]
  constructor
  · intro hexact
    by_cases hcap : Capped h ctx
    · exact Or.inl hcap
    · right
      have hcapped := mt capHit_iff.mp hcap
      obtain ⟨hagg, r, peak, hres, _, hshown, hgreatest⟩ := hexact _ _ hout hin (by simpa using hcapped)
      rw [hevents] at hagg
      obtain ⟨coverage, hverdict⟩ := hr.resolve hcap
      rw [hverdict] at hres
      obtain rfl := Except.ok.inj hres
      rw [(insiderVerdict_peak ctx coverage _).2] at hshown
      obtain rfl := EvidenceValue.digits.inj (Option.some.inj hshown)
      refine BookExact.cause (h := h) ⟨?_, hgreatest⟩ hpeak
      intro earlier t he
      rw [← hdone earlier t he]
      exact hagg earlier t he
  · intro hcond outLogs inLogs ho hi hcapped
    obtain rfl := Except.ok.inj (hout.symm.trans ho)
    obtain rfl := Except.ok.inj (hin.symm.trans hi)
    rcases hcond with hcap | hcond
    · rw [capHit_iff.mpr hcap] at hcapped
      cases hcapped
    · have hcap : ¬ Capped h ctx := by
        intro hcap
        rw [capHit_iff.mpr hcap] at hcapped
        cases hcapped
      obtain ⟨hbook, hgreatest⟩ : BookExact h ctx _ := by
        rcases hcond with hn | ho
        · exact hn.exact hpeak
        · exact ho.exact hpeak
      obtain ⟨coverage, hverdict⟩ := hr.resolve hcap
      obtain ⟨hstatus, hshown⟩ := insiderVerdict_peak ctx coverage
        (((window h ctx).filter (touches (Js.setOf ctx.clusterWallets))).map evOf)
      refine ⟨?_, _, _, hverdict, hstatus, hshown, hgreatest⟩
      intro earlier t he
      rw [hevents]
      dsimp only
      rw [hdone earlier t he]
      exact hbook earlier t he

end Resolver

/-- The wallets of the cluster that is built, none when the building fails. -/
def clusterOf (p : BuildClusterParams) : List Address :=
  ((buildCreatorCluster p).toOption.map fun result => result.members.map ClusterMemberResult.address).getD []

def sampleParams (h : TransferHistory) : BuildClusterParams where
  request _ := (h.node 9#160).request
  token := 9#160
  creator := 1#160
  liquiditySource := 2#160
  launchBlock := 10
  windowBlocks := 100
  maxRange := 50
  firstFunder := UNAVAILABLE_FIRST_INBOUND

def sampleContext (h : TransferHistory) : ResolverContext where
  client :=
    { blocks := fun _ => ⟨.ok 200, fun _ _ => .ok 0⟩
      getLogs := fun _ _ => (h.node 9#160).request
      quote := fun _ _ => .ok 0
      decimals := fun _ => .ok 18 }
  chainId := 4663
  maxRange := 50
  pool := ⟨.v4, 2#160, none, some 77#256, false⟩
  token := 9#160
  quote := 0#160
  poolKey := none
  quoter := 3#160
  quoteDecimals := 18
  launchBlock := 10
  lpLockedByConstruction := false
  clusterWallets := clusterOf (sampleParams h)
  label := "INSIDER_EXIT"
  horizon := "24h"
  trigger := "launch"
  anchorBlock := 110
  horizonBlock := 120
  drawdownRefStart := 110
  drawdownRefEnd := 110

theorem sample_resolving {h : TransferHistory} (hok : (buildCreatorCluster (sampleParams h)).toOption.isSome = true) :
    Resolving h (sampleParams h) (sampleContext h) where
  client _ _ := rfl
  cluster := by
    cases hb : buildCreatorCluster (sampleParams h) with
    | error e =>
      rw [hb] at hok
      cases hok
    | ok result =>
      refine ⟨result, rfl, ?_⟩
      change clusterOf (sampleParams h) = _
      rw [clusterOf, hb]
      rfl
  launchBlock := rfl
  maxRange := Nat.succ_pos 49

/-- The creator mints in the launch block and sells some. -/
def mintedAtLaunch : TransferHistory where
  events := [⟨10, 0, 70#256, 0#160, 1#160, 1000#256⟩, ⟨12, 3, 71#256, 1#160, 2#160, 600#256⟩]
  ordered := by decide +kernel
  solvent := Ledger.solvent_of_pays (by decide +kernel)

theorem replay_exact_minted : Resolving mintedAtLaunch (sampleParams mintedAtLaunch) (sampleContext mintedAtLaunch) ∧
    (ReplayExact mintedAtLaunch (sampleContext mintedAtLaunch) ↔
      Capped mintedAtLaunch (sampleContext mintedAtLaunch) ∨ FromNothing mintedAtLaunch (sampleContext mintedAtLaunch) ∨
        Offset mintedAtLaunch (sampleContext mintedAtLaunch)) := by
  have hr := sample_resolving (h := mintedAtLaunch) (by decide +kernel)
  exact ⟨hr, replay_exact_iff hr⟩

/-- The token is minted a few blocks before the creator opens the pool with some of it. -/
def mintedBefore : TransferHistory where
  events := [⟨4, 0, 70#256, 0#160, 1#160, 1000#256⟩, ⟨10, 3, 71#256, 1#160, 2#160, 600#256⟩]
  ordered := by decide +kernel
  solvent := Ledger.solvent_of_pays (by decide +kernel)

/-- The peak is reported as 0 although the cluster held 1000. -/
theorem replay_misses_holdings : Resolving mintedBefore (sampleParams mintedBefore) (sampleContext mintedBefore) ∧
    ¬ ReplayExact mintedBefore (sampleContext mintedBefore) := by
  have hr := sample_resolving (h := mintedBefore) (by decide +kernel)
  refine ⟨hr, ?_⟩
  intro hexact
  obtain ⟨hout, hin⟩ := clusterTransfers_eq hr.client hr.maxRange
  obtain ⟨_, r, peak, hres, _, hshown, hgreatest⟩ := hexact _ _ hout hin (by decide +kernel)
  have hreport : ((resolveInsiderExit (sampleContext mintedBefore)).toOption.map fun r => r.evidence.lookup "peakHoldings") =
      some (some (.digits 0)) := by decide +kernel
  rw [hres] at hreport
  have hpeak : peak = 0 := EvidenceValue.digits.inj (Option.some.inj (hshown.symm.trans (Option.some.inj hreport)))
  have hopen : trueTotal mintedBefore (sampleContext mintedBefore) [] = 1000 := by decide +kernel
  have hle := hgreatest.2 ⟨[], List.nil_prefix, rfl⟩
  omega

end LaunchAuditor.Proofs.Replay
