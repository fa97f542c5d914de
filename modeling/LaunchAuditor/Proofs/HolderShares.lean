import LaunchAuditor.Lib.Largest
import LaunchAuditor.Watcher.Holders
import Mathlib.Algebra.Order.Field.Basic
import Mathlib.Algebra.Order.Field.Rat
import Mathlib.Algebra.Order.Floor.Semifield
import Mathlib.Data.Rat.Floor
import Mathlib.Data.Set.Card
import Mathlib.Tactic.FieldSimp
import Mathlib.Tactic.Positivity

namespace LaunchAuditor.Proofs.HolderShares
open Chain Watcher

section Percent
variable {part totalSupply : Nat}

/-- A percentage cut off after the twelfth place. -/
structure Truncated (pct share : ℚ) : Prop where
  le : pct ≤ 100 * share
  lt : 100 * share < pct + 1 / 10 ^ 12

theorem supplyPct_truncated (part totalSupply : Nat) : Truncated (supplyPct part totalSupply) (part / totalSupply) := by
  have hscaled : (100 * (part / totalSupply) : ℚ) * 10 ^ 12 = ((part * 100 * 10 ^ 12 : Nat) : ℚ) / totalSupply := by
    push_cast
    ring
  have hfloor : ((part * 100 * 10 ^ 12 / totalSupply : Nat) : ℚ) =
      ⌊((part * 100 * 10 ^ 12 : Nat) : ℚ) / totalSupply⌋₊ := by
    rw [Nat.floor_div_eq_div]
  have hle := Nat.floor_le (a := ((part * 100 * 10 ^ 12 : Nat) : ℚ) / totalSupply) (by positivity)
  have hlt := Nat.lt_floor_add_one (((part * 100 * 10 ^ 12 : Nat) : ℚ) / totalSupply)
  unfold supplyPct
  rw [← hfloor, ← hscaled] at hle hlt
  constructor
  · rw [div_le_iff₀ (by positivity)]
    exact hle
  · rw [← add_div, lt_div_iff₀ (by positivity)]
    exact hlt

theorem supplyPct_nonneg (part totalSupply : Nat) : 0 ≤ supplyPct part totalSupply := by
  unfold supplyPct
  positivity

theorem supplyPct_le_hundred (h : part ≤ totalSupply) : supplyPct part totalSupply ≤ 100 := by
  refine (supplyPct_truncated part totalSupply).le.trans ?_
  have hshare : (part : ℚ) / totalSupply ≤ 1 := div_le_one_of_le₀ (Nat.cast_le.mpr h) (Nat.cast_nonneg _)
  linarith

end Percent

section Balances

/-- What the replay has for an address. -/
def net (bal : List (Address × Int)) (a : Address) : Int := (bal.lookup a).getD 0

theorem net_bump (addr : Address) (delta : Int) (bal : List (Address × Int)) (a : Address) :
    net (bump addr delta bal) a = net bal a + if a = addr ∧ addr ≠ ZERO_ADDRESS then delta else 0 := by
  unfold bump net
  by_cases hz : addr = ZERO_ADDRESS
  · simp [hz]
  · rw [if_neg hz, OrderedMap.lookup_alter]
    by_cases ha : a = addr
    · simp [ha, hz]
    · simp [ha]

theorem bump_nodup {bal : List (Address × Int)} (h : (OrderedMap.keys bal).Nodup) (addr : Address) (delta : Int) :
    (OrderedMap.keys (bump addr delta bal)).Nodup := by
  unfold bump
  split
  · exact h
  · exact OrderedMap.keys_alter_nodup h

variable (token : Address)

theorem balancesOf_snoc (events : List TransferEvent) (e : TransferEvent) :
    balancesOf ((events ++ [e]).map (TransferEvent.toLog token)) =
      bump e.to_ e.value.toNat (bump e.from_ (-e.value.toNat) (balancesOf (events.map (TransferEvent.toLog token)))) := by
  unfold balancesOf
  rw [List.map_append, List.foldl_append]
  simp [TransferEvent.toLog, transferValue]

theorem balancesOf_nodup (events : List TransferEvent) :
    (OrderedMap.keys (balancesOf (events.map (TransferEvent.toLog token)))).Nodup := by
  induction events using List.reverseRecOn with
  | nil => exact List.nodup_nil
  | append_singleton events e ih =>
    rw [balancesOf_snoc]
    exact bump_nodup (bump_nodup ih _ _) _ _

/-- The replay keeps the books of the transfers it sees. -/
theorem net_balancesOf (events : List TransferEvent) (a : Address) :
    net (balancesOf (events.map (TransferEvent.toLog token))) a =
      Ledger.balance ZERO_ADDRESS (events.map TransferEvent.transfer) a := by
  induction events using List.reverseRecOn with
  | nil => simp [net, balancesOf, Ledger.balance]
  | append_singleton events e ih =>
    rw [balancesOf_snoc, net_bump, net_bump, ih, List.map_append, List.map_singleton, Ledger.balance_snoc]
    simp only [Ledger.flow, Finset.mem_singleton, TransferEvent.transfer]
    by_cases ha : a = ZERO_ADDRESS
    · subst ha
      rw [if_pos rfl, if_neg (fun h => h.2 h.1.symm), if_neg (fun h => h.2 h.1.symm)]
      ring
    · rw [if_neg ha]
      by_cases hf : e.from_ = a <;> by_cases ht : e.to_ = a
      · simp [hf, ht, ha]
      · simp [hf, ht, ha, Ne.symm ht]
      · simp [hf, ht, ha, Ne.symm hf]
      · simp [hf, ht, Ne.symm hf, Ne.symm ht]

end Balances

section Selection
variable {bal : List (Address × Int)}

theorem net_of_mem (hnodup : (OrderedMap.keys bal).Nodup) {b : Address × Int} (h : b ∈ bal) : net bal b.1 = b.2 := by
  unfold net
  rw [(OrderedMap.mem_iff_lookup hnodup).mp h, Option.getD_some]

theorem mem_of_net_pos (hnodup : (OrderedMap.keys bal).Nodup) {a : Address} (h : 0 < net bal a) : (a, net bal a) ∈ bal := by
  unfold net at h ⊢
  rw [OrderedMap.mem_iff_lookup hnodup]
  cases hlookup : bal.lookup a with
  | none => simp [hlookup] at h
  | some v => rfl

/-- What some entries of the map add up to. -/
theorem sum_entries (hnodup : (OrderedMap.keys bal).Nodup) {entries : List (Address × Int)} (hsub : entries.Sublist bal) :
    (entries.map Prod.snd).sum = ∑ a ∈ (entries.map Prod.fst).toFinset, net bal a := by
  rw [List.sum_toFinset (net bal) (hnodup.sublist (hsub.map Prod.fst)), List.map_map]
  congr 1
  apply List.map_congr_left
  intro b hb
  exact (net_of_mem hnodup (hsub.subset hb)).symm

/-- The entries above zero whose addresses pass a test. -/
theorem mem_entries (hnodup : (OrderedMap.keys bal).Nodup) (p : Address → Bool) (a : Address) :
    a ∈ (((bal.filter fun b => decide (0 < b.2)).filter fun b => p b.1).map Prod.fst) ↔ 0 < net bal a ∧ p a = true := by
  simp only [List.mem_map, List.mem_filter, decide_eq_true_eq]
  constructor
  · rintro ⟨b, ⟨⟨hb, hpos⟩, hp⟩, rfl⟩
    rw [net_of_mem hnodup hb]
    exact ⟨hpos, hp⟩
  · rintro ⟨hpos, hp⟩
    exact ⟨(a, net bal a), ⟨⟨mem_of_net_pos hnodup hpos, hpos⟩, hp⟩, rfl⟩

end Selection

section Shares
variable (h : TransferHistory) (p : HolderParams)

/-- What an address holds after a block. -/
def balanceAt (block : Nat) (a : Address) : ℤ :=
  Ledger.balance ZERO_ADDRESS ((h.before (block + 1)).map TransferEvent.transfer) a

/-- What there is of the token after a block. -/
def supplyAt (block : Nat) : Nat :=
  (Ledger.supply ZERO_ADDRESS ((h.before (block + 1)).map TransferEvent.transfer)).toNat

def IsHolder (a : Address) : Prop := 0 < balanceAt h p.toBlock a ∧ a ≠ p.creator ∧ a ≠ p.liquiditySource

/-- The statistics of a replay that misses nothing. -/
structure Exact (stats : HolderStats) : Prop where
  count : stats.holderCount = some (Set.ncard {a | IsHolder h p a})
  cluster : ∃ pct, stats.clusterSupplyPct = some pct ∧
    Truncated pct ((∑ a ∈ p.cluster.toFinset, balanceAt h p.toBlock a : ℤ) / supplyAt h p.toBlock)
  top10 : ∃ pct best, stats.top10NoncreatorPct = some pct ∧
    IsGreatest (Largest.sums (balanceAt h p.toBlock) 10 {a | IsHolder h p a}) best ∧
    Truncated pct ((best : ℤ) / supplyAt h p.toBlock)

structure Within (stats : HolderStats) : Prop where
  cluster : ∃ pct, stats.clusterSupplyPct = some pct ∧ 0 ≤ pct ∧ pct ≤ 100
  top10 : ∃ pct, stats.top10NoncreatorPct = some pct ∧ 0 ≤ pct ∧ pct ≤ 100

/-- The replay starts no later than the first mint of anything. -/
def FromFirstMint : Prop := ∀ e ∈ h.events, e.from_ = ZERO_ADDRESS → e.value ≠ 0 → p.fromBlock ≤ e.blockNumber

variable {h p}

theorem solvent_before (block : Nat) : Ledger.Solvent ZERO_ADDRESS ((h.before block).map TransferEvent.transfer) := by
  have hbefore : h.before block <+: h.events := by
    apply Keyed.filter_prefix
    refine h.blocks_ordered.imp ?_
    intro a b hab hb
    simp only [decide_eq_true_eq] at hb ⊢
    omega
  intro earlier he
  exact h.solvent earlier (he.trans (hbefore.map _))

theorem balanceAt_nonneg (block : Nat) (a : Address) : 0 ≤ balanceAt h block a :=
  solvent_before (block + 1) _ List.prefix_rfl a

/-- The window continues what came before it, if it opens before its end. -/
theorem before_append_window {fromBlock toBlock : Nat} (hle : fromBlock ≤ toBlock + 1) :
    h.before fromBlock ++ h.window fromBlock toBlock = h.before (toBlock + 1) := by
  unfold TransferHistory.before TransferHistory.window
  rw [Keyed.filter_append_filter]
  · apply List.filter_congr
    intro e _
    rw [Bool.eq_iff_iff]
    simp only [TransferEvent.inBlocks, Bool.or_eq_true, Bool.and_eq_true, decide_eq_true_eq]
    omega
  · refine h.blocks_ordered.imp ?_
    intro a b hab ha
    simp only [TransferEvent.inBlocks, Bool.and_eq_true, decide_eq_true_eq] at ha
    simp only [decide_eq_false_iff_not]
    omega
  · intro a _ ha
    simp only [TransferEvent.inBlocks, Bool.and_eq_true, decide_eq_true_eq] at ha
    simp only [decide_eq_false_iff_not]
    omega

theorem window_eq_nil {fromBlock toBlock : Nat} (hlt : toBlock + 1 < fromBlock) : h.window fromBlock toBlock = [] := by
  apply List.filter_eq_nil_iff.mpr
  intro e _ he
  simp only [TransferEvent.inBlocks, Bool.and_eq_true, decide_eq_true_eq] at he
  omega

/-- What the window brings an address is part of what it holds in the end. -/
theorem balance_window_le (fromBlock toBlock : Nat) (a : Address) :
    Ledger.balance ZERO_ADDRESS ((h.window fromBlock toBlock).map TransferEvent.transfer) a ≤ balanceAt h toBlock a := by
  by_cases hle : fromBlock ≤ toBlock + 1
  · have hbefore := solvent_before (h := h) fromBlock _ List.prefix_rfl a
    rw [balanceAt, ← before_append_window hle, List.map_append, Ledger.balance_append]
    omega
  · rw [window_eq_nil (by omega)]
    simpa [Ledger.balance] using balanceAt_nonneg toBlock a

/-- Nothing is held at a start before the first mint. -/
theorem balance_window_eq (hstart : FromFirstMint h p) (a : Address) :
    Ledger.balance ZERO_ADDRESS ((h.window p.fromBlock p.toBlock).map TransferEvent.transfer) a =
      balanceAt h p.toBlock a := by
  have hzero : ∀ block, block ≤ p.fromBlock →
      Ledger.balance ZERO_ADDRESS ((h.before block).map TransferEvent.transfer) a = 0 := by
    intro block hblock
    apply (solvent_before block).balance_eq_zero
    intro t ht hsource
    obtain ⟨e, he, rfl⟩ := List.mem_map.mp ht
    obtain ⟨hmem, hlt⟩ := List.mem_filter.mp he
    by_contra hvalue
    have hge := hstart e hmem hsource fun hv => hvalue (by rw [TransferEvent.transfer, hv]; rfl)
    rw [decide_eq_true_eq] at hlt
    omega
  by_cases hle : p.fromBlock ≤ p.toBlock + 1
  · rw [balanceAt, ← before_append_window hle, List.map_append, Ledger.balance_append, hzero _ (le_refl _), zero_add]
  · rw [window_eq_nil (by omega), balanceAt, hzero _ (by omega)]
    simp [Ledger.balance]

theorem sum_balanceAt_le (block : Nat) (s : Finset Address) : ∑ a ∈ s, balanceAt h block a ≤ supplyAt h block := by
  have hheld := Ledger.held_le_supply (solvent_before (h := h) (block + 1)) s
  exact hheld.trans (Int.self_le_toNat _)

theorem answer_transfers (token : Address) (fromBlock toBlock : Nat) :
    (h.node token).answer ⟨[token], [some [TRANSFER_TOPIC0]], fromBlock, toBlock⟩ =
      (h.window fromBlock toBlock).map (TransferEvent.toLog token) := by
  unfold LogNode.answer TransferHistory.node TransferHistory.window
  rw [List.filter_map]
  congr 1
  apply List.filter_congr
  intro e _
  have hselects : LogFilter.selects ⟨[token], [some [TRANSFER_TOPIC0]], fromBlock, toBlock⟩ (e.toLog token) = true := by
    simp [LogFilter.selects, topicsMatch, TransferEvent.toLog]
  rw [Function.comp_apply, LogFilter.accepts, hselects, Bool.true_and]
  rfl

/-- What the statistics are computed from. -/
structure Reads (h : TransferHistory) (p : HolderParams) : Prop where
  request : p.request = (h.node p.token).request
  range : 0 < p.maxRange
  cap : (h.window p.fromBlock p.toBlock).length ≤ MAX_HOLDER_LOGS
  supply : p.totalSupply = .ok (supplyAt h p.toBlock)

/-- The balances of the replay. -/
def replayed (h : TransferHistory) (p : HolderParams) : List (Address × Int) :=
  balancesOf ((h.window p.fromBlock p.toBlock).map (TransferEvent.toLog p.token))

theorem Reads.balances (hp : Reads h p) : reconstructBalances p.request p.token p.fromBlock p.toBlock p.maxRange =
    .ok (some (replayed h p)) := by
  have hlogs : getLogsChunked p.request ⟨[p.token], [some [TRANSFER_TOPIC0]], p.fromBlock, p.toBlock⟩ p.maxRange =
      .ok ((h.window p.fromBlock p.toBlock).map (TransferEvent.toLog p.token)) := by
    rw [hp.request, getLogsChunked_request _ _ hp.range, answer_transfers]
  unfold reconstructBalances
  rw [hlogs]
  simp only [bind, Except.bind, pure, Except.pure, List.length_map]
  rw [if_neg (Nat.not_lt.mpr hp.cap)]
  rfl

def clusterEntries (bal : List (Address × Int)) (cluster : List Address) : List (Address × Int) :=
  (bal.filter fun b => decide (0 < b.2)).filter fun b => decide (b.1 ∈ cluster)

def holderEntries (bal : List (Address × Int)) (creator liquiditySource : Address) : List (Address × Int) :=
  (bal.filter fun b => decide (0 < b.2)).filter fun b => decide (b.1 ≠ creator ∧ b.1 ≠ liquiditySource)

def topEntries (bal : List (Address × Int)) (creator liquiditySource : Address) : List (Address × Int) :=
  ((holderEntries bal creator liquiditySource).insertionSort fun a b => b.2 ≤ a.2).take 10

theorem Reads.stats_zero (hp : Reads h p) (hzero : supplyAt h p.toBlock = 0) :
    computeHolderStats p = ⟨none, none, some 0, none⟩ := by
  unfold computeHolderStats
  rw [hp.balances, hp.supply, hzero]
  rfl

theorem Reads.stats (hp : Reads h p) (hpos : 0 < supplyAt h p.toBlock) : computeHolderStats p =
    ⟨some (supplyPct ((clusterEntries (replayed h p) p.cluster).map Prod.snd).sum.toNat (supplyAt h p.toBlock)),
      some (supplyPct ((topEntries (replayed h p) p.creator p.liquiditySource).map Prod.snd).sum.toNat
        (supplyAt h p.toBlock)),
      some (supplyAt h p.toBlock), some (holderEntries (replayed h p) p.creator p.liquiditySource).length⟩ := by
  unfold computeHolderStats
  rw [hp.balances, hp.supply]
  exact if_neg hpos.ne'

theorem replayed_nodup : (OrderedMap.keys (replayed h p)).Nodup := balancesOf_nodup p.token _

theorem net_replayed (a : Address) : net (replayed h p) a =
    Ledger.balance ZERO_ADDRESS ((h.window p.fromBlock p.toBlock).map TransferEvent.transfer) a :=
  net_balancesOf p.token _ a

theorem net_replayed_le (a : Address) : net (replayed h p) a ≤ balanceAt h p.toBlock a := by
  rw [net_replayed]
  exact balance_window_le p.fromBlock p.toBlock a

/-- Some of the entries add up to no more than the supply. -/
theorem sum_entries_le {entries : List (Address × Int)} (hsub : entries.Sublist (replayed h p)) :
    (entries.map Prod.snd).sum ≤ supplyAt h p.toBlock := by
  rw [sum_entries replayed_nodup hsub]
  exact (Finset.sum_le_sum fun a _ => net_replayed_le a).trans (sum_balanceAt_le p.toBlock _)

theorem sum_clusterEntries_nonneg (bal : List (Address × Int)) (cluster : List Address) :
    0 ≤ ((clusterEntries bal cluster).map Prod.snd).sum := by
  apply List.sum_nonneg
  intro x hx
  obtain ⟨b, hb, rfl⟩ := List.mem_map.mp hx
  have hpos := (List.mem_filter.mp (List.mem_of_mem_filter hb)).2
  rw [decide_eq_true_eq] at hpos
  exact hpos.le

/-- The first ten of the sorted holders are the best choice of at most ten. -/
theorem sum_topEntries_isGreatest {bal : List (Address × Int)} (hnodup : (OrderedMap.keys bal).Nodup)
    (creator liquiditySource : Address) :
    IsGreatest (Largest.sums (net bal) 10 {a | 0 < net bal a ∧ a ≠ creator ∧ a ≠ liquiditySource})
      ((topEntries bal creator liquiditySource).map Prod.snd).sum := by
  let sorted := (holderEntries bal creator liquiditySource).insertionSort fun a b => b.2 ≤ a.2
  have hperm : sorted.Perm (holderEntries bal creator liquiditySource) := List.perm_insertionSort _ _
  have hsub : (holderEntries bal creator liquiditySource).Sublist bal :=
    List.filter_sublist.trans List.filter_sublist
  have hin : ∀ b ∈ sorted, net bal b.1 = b.2 := fun b hb => net_of_mem hnodup (hsub.subset (hperm.mem_iff.mp hb))
  have hdesc : sorted.Pairwise fun a b => b.2 ≤ a.2 := by
    have htotal : Std.Total fun a b : Address × Int => b.2 ≤ a.2 := ⟨fun a b => le_total b.2 a.2⟩
    have htrans : IsTrans (Address × Int) fun a b => b.2 ≤ a.2 := ⟨fun _ _ _ hab hbc => hbc.trans hab⟩
    exact List.pairwise_insertionSort _ _
  have hnodup' : (sorted.map Prod.fst).Nodup := ((hperm.map Prod.fst).nodup_iff).mpr (hnodup.sublist (hsub.map Prod.fst))
  have hset : {a | 0 < net bal a ∧ a ≠ creator ∧ a ≠ liquiditySource} = {a | a ∈ sorted.map Prod.fst} := by
    ext a
    have hmem := mem_entries hnodup (fun a => decide (a ≠ creator ∧ a ≠ liquiditySource)) a
    rw [decide_eq_true_eq] at hmem
    exact hmem.symm.trans (hperm.map Prod.fst).mem_iff.symm
  have hsum : ((topEntries bal creator liquiditySource).map Prod.snd).sum =
      (((sorted.map Prod.fst).take 10).map (net bal)).sum := by
    rw [← List.map_take, List.map_map]
    congr 1
    apply List.map_congr_left
    intro b hb
    exact (hin b (List.mem_of_mem_take hb)).symm
  rw [hset, hsum]
  apply Largest.isGreatest_take hnodup'
  · refine List.pairwise_map.mpr (hdesc.imp_of_mem ?_)
    intro a b ha hb hab
    rwa [hin a ha, hin b hb]
  · intro a ha
    have hmem : a ∈ {a | 0 < net bal a ∧ a ≠ creator ∧ a ≠ liquiditySource} := hset ▸ ha
    exact hmem.1.le

theorem within_of_part {x : ℤ} (hle : x ≤ supplyAt h p.toBlock) :
    0 ≤ supplyPct x.toNat (supplyAt h p.toBlock) ∧ supplyPct x.toNat (supplyAt h p.toBlock) ≤ 100 :=
  ⟨supplyPct_nonneg _ _, supplyPct_le_hundred (Int.toNat_le.mpr hle)⟩

theorem truncated_of_part {x : ℤ} (h0 : 0 ≤ x) :
    Truncated (supplyPct x.toNat (supplyAt h p.toBlock)) ((x : ℤ) / supplyAt h p.toBlock) := by
  have htrunc := supplyPct_truncated x.toNat (supplyAt h p.toBlock)
  have hcast : ((x.toNat : Nat) : ℚ) = (x : ℤ) := by exact_mod_cast Int.toNat_of_nonneg h0
  rwa [hcast] at htrunc

theorem Reads.within (hp : Reads h p) (hpos : 0 < supplyAt h p.toBlock) : Within (computeHolderStats p) := by
  rw [hp.stats hpos]
  have hcluster : ((clusterEntries (replayed h p) p.cluster).map Prod.snd).sum ≤ supplyAt h p.toBlock :=
    sum_entries_le (List.filter_sublist.trans List.filter_sublist)
  obtain ⟨⟨s, _, _, hsum⟩, _⟩ :=
    sum_topEntries_isGreatest (replayed_nodup (h := h) (p := p)) p.creator p.liquiditySource
  have htop : ((topEntries (replayed h p) p.creator p.liquiditySource).map Prod.snd).sum ≤ supplyAt h p.toBlock := by
    rw [hsum]
    exact (Finset.sum_le_sum fun a _ => net_replayed_le a).trans (sum_balanceAt_le p.toBlock s)
  exact ⟨⟨_, rfl, within_of_part hcluster⟩, ⟨_, rfl, within_of_part htop⟩⟩

theorem Reads.exact (hp : Reads h p) (hpos : 0 < supplyAt h p.toBlock) (hstart : FromFirstMint h p) :
    Exact h p (computeHolderStats p) := by
  rw [hp.stats hpos]
  have hnet : net (replayed h p) = balanceAt h p.toBlock := by
    funext a
    rw [net_replayed, balance_window_eq hstart]
  have hnodup := replayed_nodup (h := h) (p := p)
  have hsub : (holderEntries (replayed h p) p.creator p.liquiditySource).Sublist (replayed h p) :=
    List.filter_sublist.trans List.filter_sublist
  have hholders : {a | IsHolder h p a} =
      ((holderEntries (replayed h p) p.creator p.liquiditySource).map Prod.fst).toFinset := by
    ext a
    have hmem := mem_entries hnodup (fun a => decide (a ≠ p.creator ∧ a ≠ p.liquiditySource)) a
    rw [decide_eq_true_eq, hnet] at hmem
    rw [Finset.mem_coe, List.mem_toFinset]
    exact hmem.symm
  have hgreatest := sum_topEntries_isGreatest hnodup p.creator p.liquiditySource
  rw [hnet] at hgreatest
  constructor
  · rw [hholders, Set.ncard_coe_finset, List.toFinset_card_of_nodup (hnodup.sublist (hsub.map Prod.fst)), List.length_map]
  · refine ⟨_, rfl, ?_⟩
    have hsum : ((clusterEntries (replayed h p) p.cluster).map Prod.snd).sum =
        ∑ a ∈ p.cluster.toFinset, balanceAt h p.toBlock a := by
      have hcluster : (clusterEntries (replayed h p) p.cluster).Sublist (replayed h p) :=
        List.filter_sublist.trans List.filter_sublist
      rw [sum_entries hnodup hcluster, hnet]
      have hmem := mem_entries hnodup (fun a => decide (a ∈ p.cluster))
      rw [hnet] at hmem
      apply Finset.sum_subset
      · intro a ha
        have hin := ((hmem a).mp (List.mem_toFinset.mp ha)).2
        exact List.mem_toFinset.mpr (of_decide_eq_true hin)
      · -- an address of the cluster that is not listed holds nothing
        intro a ha hnot
        have hle : ¬ 0 < balanceAt h p.toBlock a := by
          intro hlt
          exact hnot (List.mem_toFinset.mpr ((hmem a).mpr ⟨hlt, decide_eq_true (List.mem_toFinset.mp ha)⟩))
        exact le_antisymm (not_lt.mp hle) (balanceAt_nonneg p.toBlock a)
    rw [← hsum]
    exact truncated_of_part (sum_clusterEntries_nonneg _ _)
  · refine ⟨_, _, rfl, hgreatest, truncated_of_part ?_⟩
    exact hgreatest.2 ⟨∅, Nat.zero_le 10, by simp, by simp⟩

/-- The statistics of any replay are shares of the supply, and those of one that misses no mint are the true ones. A
token of which nothing is left has none. -/
theorem holderStats_shares (hp : Reads h p) :
    (supplyAt h p.toBlock = 0 → computeHolderStats p = ⟨none, none, some 0, none⟩) ∧
      (0 < supplyAt h p.toBlock → Within (computeHolderStats p) ∧
        (FromFirstMint h p → Exact h p (computeHolderStats p))) := by
  refine ⟨hp.stats_zero, ?_⟩
  intro hpos
  exact ⟨hp.within hpos, hp.exact hpos⟩

end Shares

/-- All that was minted is burned. -/
def burnedAgain : TransferHistory where
  events := [⟨4, 0, 70#256, 0#160, 1#160, 5000#256⟩, ⟨6, 1, 71#256, 1#160, 0#160, 5000#256⟩]
  ordered := by decide +kernel
  solvent := Ledger.solvent_of_pays (by decide +kernel)

/-- The creator sells to the pool what it bought. -/
def soldAgain : TransferHistory where
  events := [⟨4, 0, 70#256, 0#160, 2#160, 5000#256⟩, ⟨6, 1, 71#256, 2#160, 1#160, 3000#256⟩,
    ⟨7, 0, 72#256, 1#160, 3#160, 1000#256⟩, ⟨9, 4, 73#256, 1#160, 2#160, 500#256⟩]
  ordered := by decide +kernel
  solvent := Ledger.solvent_of_pays (by decide +kernel)

def sampleParams (h : TransferHistory) : HolderParams where
  request := (h.node 9#160).request
  totalSupply := .ok (supplyAt h 8)
  token := 9#160
  fromBlock := 3
  toBlock := 8
  maxRange := 4
  creator := 1#160
  cluster := [1#160, 3#160]
  liquiditySource := 2#160

theorem holderStats_shares_sold :
    (supplyAt soldAgain 8 = 0 → computeHolderStats (sampleParams soldAgain) = ⟨none, none, some 0, none⟩) ∧
      (0 < supplyAt soldAgain 8 → Within (computeHolderStats (sampleParams soldAgain)) ∧
        (FromFirstMint soldAgain (sampleParams soldAgain) →
          Exact soldAgain (sampleParams soldAgain) (computeHolderStats (sampleParams soldAgain)))) :=
  holderStats_shares (h := soldAgain) (p := sampleParams soldAgain) ⟨rfl, by decide, by decide +kernel, rfl⟩

/-- The replay misses nothing and finds no holder, and there is no count. -/
theorem holderStats_burned :
    Reads burnedAgain (sampleParams burnedAgain) ∧ FromFirstMint burnedAgain (sampleParams burnedAgain) ∧
      {a | IsHolder burnedAgain (sampleParams burnedAgain) a} = ∅ ∧
      (computeHolderStats (sampleParams burnedAgain)).holderCount = none ∧
      ¬ (Within (computeHolderStats (sampleParams burnedAgain)) ∧
        Exact burnedAgain (sampleParams burnedAgain) (computeHolderStats (sampleParams burnedAgain))) := by
  have hreads : Reads burnedAgain (sampleParams burnedAgain) := ⟨rfl, by decide, by decide +kernel, rfl⟩
  have hstart : FromFirstMint burnedAgain (sampleParams burnedAgain) := by
    unfold FromFirstMint
    decide +kernel
  have hzero : supplyAt burnedAgain 8 = 0 := by decide +kernel
  have hstats := hreads.stats_zero hzero
  refine ⟨hreads, hstart, ?_, ?_, ?_⟩
  · ext a
    refine iff_of_false ?_ (Set.notMem_empty a)
    intro ha
    have hle := sum_balanceAt_le (h := burnedAgain) 8 {a}
    rw [Finset.sum_singleton, hzero] at hle
    exact absurd ha.1 (not_lt.mpr hle)
  · rw [hstats]
  · rintro ⟨_, hexact⟩
    have hcount := hexact.count
    rw [hstats] at hcount
    cases hcount

end LaunchAuditor.Proofs.HolderShares
