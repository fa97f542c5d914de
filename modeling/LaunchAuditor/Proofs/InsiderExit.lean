import LaunchAuditor.Proofs.Replay

namespace LaunchAuditor.Proofs.InsiderExit
open Chain Watcher Outcomes Replay

/-- A wallet of the cluster buys from the pool; a mint or a burn is no purchase. -/
def buys (ctx : ResolverContext) (pool : Address) (t : TransferEvent) : Prop :=
  t.from_ = pool ∧ t.to_ ∈ wallets ctx ∧ t.to_ ≠ ZERO_ADDRESS

def sells (ctx : ResolverContext) (pool : Address) (t : TransferEvent) : Prop :=
  t.from_ ∈ wallets ctx ∧ t.from_ ≠ ZERO_ADDRESS ∧ t.to_ = pool

/-- The cluster holds nothing at the launch block, and all it does afterwards is to trade with the launch pool. -/
structure PoolOnly (h : TransferHistory) (ctx : ResolverContext) (pool : Address) : Prop where
  launchPool : ctx.pool.launchPool = some pool
  opening : trueTotal h ctx [] = 0
  trades : ∀ t ∈ window h ctx, t.from_ ∈ wallets ctx ∨ t.to_ ∈ wallets ctx → buys ctx pool t ∨ sells ctx pool t

section Trades
variable {h : TransferHistory} {ctx : ResolverContext} {pool : Address}

theorem PoolOnly.fromNothing (hp : PoolOnly h ctx pool) (hpool : pool ∉ wallets ctx) : FromNothing h ctx := by
  refine ⟨hp.opening, ?_⟩
  intro t ht hzero hmint
  have hends : t.from_ = ZERO_ADDRESS ∨ t.to_ = ZERO_ADDRESS := by
    by_contra hnone
    rw [not_or] at hnone
    exact hmint.2 (iff_of_false hnone.1 hnone.2)
  rcases hends with hfrom | hto
  · rcases hp.trades t ht (Or.inl (hfrom ▸ hzero)) with ⟨hf, _, _⟩ | ⟨_, hf, _⟩
    · exact hpool (hf ▸ hfrom ▸ hzero)
    · exact hf hfrom
  · rcases hp.trades t ht (Or.inr (hto ▸ hzero)) with ⟨_, _, hn⟩ | ⟨_, _, hn⟩
    · exact hn hto
    · exact hpool (hn ▸ hto ▸ hzero)

/-- Trades with a pool that counts as a member move nothing. -/
theorem PoolOnly.book_eq_zero (hp : PoolOnly h ctx pool) (hpool : pool ∈ wallets ctx) {earlier : List TransferEvent}
    (he : earlier <+: window h ctx) : book ctx earlier = 0 := by
  apply List.sum_eq_zero
  intro x hx
  obtain ⟨t, ht, rfl⟩ := List.mem_map.mp hx
  change (if t.to_ ∈ wallets ctx then (t.value.toNat : ℤ) else 0) -
    (if t.from_ ∈ wallets ctx then (t.value.toNat : ℤ) else 0) = 0
  by_cases htouch : t.from_ ∈ wallets ctx ∨ t.to_ ∈ wallets ctx
  · rcases hp.trades t (he.subset ht) htouch with ⟨hf, hto, _⟩ | ⟨hfrom, _, hto⟩
    · rw [if_pos hto, if_pos (hf ▸ hpool)]
      omega
    · rw [if_pos (hto ▸ hpool), if_pos hfrom]
      omega
  · rw [not_or] at htouch
    rw [if_neg htouch.1, if_neg htouch.2]
    rfl

/-- The purchase cancels the sale: what is sold, net, is what is no longer held, and that is never positive. -/
theorem PoolOnly.verdict (hp : PoolOnly h ctx pool) (coverage : Coverage) :
    (insiderVerdict ctx coverage
      (((window h ctx).filter (touches (Js.setOf ctx.clusterWallets))).map evOf)).value = some false := by
  have hpeak := replay_book_peak h ctx ctx.pool.sinks
  have hagg := replay_book ctx ctx.pool.sinks (window h ctx)
  have hnonneg := replay_peak_nonneg (Js.setOf ctx.clusterWallets) ctx.pool.sinks
    (((window h ctx).filter (touches (Js.setOf ctx.clusterWallets))).map evOf)
  unfold insiderVerdict
  dsimp only
  split
  · rfl
  · rename_i hne
    by_cases hpool : pool ∈ wallets ctx
    · obtain ⟨earlier, he, hbook⟩ := hpeak.1
      rw [hp.book_eq_zero hpool he] at hbook
      exact absurd hbook hne
    · have hnet : ((replay (Js.setOf ctx.clusterWallets) ctx.pool.sinks
            (((window h ctx).filter (touches (Js.setOf ctx.clusterWallets))).map evOf)).soldToPool : Int) -
          (replay (Js.setOf ctx.clusterWallets) ctx.pool.sinks
            (((window h ctx).filter (touches (Js.setOf ctx.clusterWallets))).map evOf)).boughtFromPool =
          -(replay (Js.setOf ctx.clusterWallets) ctx.pool.sinks
            (((window h ctx).filter (touches (Js.setOf ctx.clusterWallets))).map evOf)).agg := by
        apply replay_net
        intro e hm
        obtain ⟨t, ht, rfl⟩ := List.mem_map.mp hm
        obtain ⟨htw, htouch⟩ := List.mem_filter.mp ht
        have hsink := launchPool_mem_sinks hp.launchPool
        simp only [touches, Bool.or_eq_true, decide_eq_true_eq, Js.mem_setOf] at htouch
        simp only [evOf, Js.mem_setOf]
        simp only [wallets, List.mem_toFinset] at hpool
        rcases hp.trades t htw (by simpa [wallets] using htouch) with ⟨hf, hto, _⟩ | ⟨hfrom, _, hto⟩
        · exact Or.inr ⟨by simpa [wallets] using hto, hf ▸ hsink, hf ▸ hpool⟩
        · exact Or.inl ⟨by simpa [wallets] using hfrom, hto ▸ hsink, hto ▸ hpool⟩
      have hheld : 0 ≤ book ctx (window h ctx) := by
        rw [(hp.fromNothing hpool).book_eq List.prefix_rfl]
        exact trueTotal_nonneg h ctx List.prefix_rfl
      refine congrArg some (decide_eq_false ?_)
      rw [hnet, hagg]
      omega

theorem PoolOnly.never_true (hp : PoolOnly h ctx pool)
    (hclient : ∀ scan attempt, ctx.client.getLogs scan attempt = (h.node ctx.token).request) (hrange : 0 < ctx.maxRange) :
    ¬ ∃ r, resolveInsiderExit ctx = .ok r ∧ r.value = some true := by
  obtain ⟨hout, hin⟩ := clusterTransfers_eq hclient hrange
  rintro ⟨r, hres, hvalue⟩
  unfold resolveInsiderExit at hres
  split at hres
  · obtain rfl := Except.ok.inj hres
    cases hvalue
  · rw [hout, hin] at hres
    simp only [bind, Except.bind, pure, Except.pure] at hres
    split at hres
    · obtain rfl := Except.ok.inj hres
      cases hvalue
    · obtain rfl := Except.ok.inj hres
      rw [replayEvents_eq, hp.verdict] at hvalue
      cases hvalue

/-- The verdict is the one of the rules when the cluster still holds more than half of its peak, and then only. -/
theorem insider_exit_iff (hp : PoolOnly h ctx pool)
    (hclient : ∀ scan attempt, ctx.client.getLogs scan attempt = (h.node ctx.token).request) (hrange : 0 < ctx.maxRange) :
    ((∃ r, resolveInsiderExit ctx = .ok r ∧ r.value = some true) ↔
        2 * trueTotal h ctx (window h ctx) ≤ truePeak h ctx) ↔
      truePeak h ctx < 2 * trueTotal h ctx (window h ctx) := by
  have hnever := hp.never_true hclient hrange
  constructor
  · intro hiff
    exact not_le.mp fun hle => hnever (hiff.mpr hle)
  · intro hlt
    exact iff_of_false hnever (not_le.mpr hlt)

end Trades

/-- The creator buys in the launch block and keeps most of it. -/
def boughtAndHeld : TransferHistory where
  events := [⟨4, 0, 70#256, 0#160, 2#160, 5000#256⟩, ⟨10, 3, 71#256, 2#160, 1#160, 1000#256⟩,
    ⟨50, 1, 72#256, 1#160, 2#160, 100#256⟩]
  ordered := by decide +kernel
  solvent := Ledger.solvent_of_pays (by decide +kernel)

/-- The creator buys in the launch block and sells all of it. -/
def boughtAndSold : TransferHistory where
  events := [⟨4, 0, 70#256, 0#160, 2#160, 5000#256⟩, ⟨10, 3, 71#256, 2#160, 1#160, 1000#256⟩,
    ⟨50, 1, 72#256, 1#160, 2#160, 1000#256⟩]
  ordered := by decide +kernel
  solvent := Ledger.solvent_of_pays (by decide +kernel)

instance (ctx : ResolverContext) (pool : Address) (t : TransferEvent) : Decidable (buys ctx pool t) := by
  unfold buys
  infer_instance

instance (ctx : ResolverContext) (pool : Address) (t : TransferEvent) : Decidable (sells ctx pool t) := by
  unfold sells
  infer_instance

theorem insider_exit_held :
    ((∃ r, resolveInsiderExit (sampleContext boughtAndHeld) = .ok r ∧ r.value = some true) ↔
        2 * trueTotal boughtAndHeld (sampleContext boughtAndHeld) (window boughtAndHeld (sampleContext boughtAndHeld)) ≤
          truePeak boughtAndHeld (sampleContext boughtAndHeld)) ↔
      truePeak boughtAndHeld (sampleContext boughtAndHeld) <
        2 * trueTotal boughtAndHeld (sampleContext boughtAndHeld)
          (window boughtAndHeld (sampleContext boughtAndHeld)) :=
  insider_exit_iff (show PoolOnly boughtAndHeld (sampleContext boughtAndHeld) 2#160 from
    ⟨rfl, by decide +kernel, by decide +kernel⟩) (fun _ _ => rfl) (Nat.succ_pos 49)

/-- The cluster has sold all it had, and INSIDER_EXIT is resolved to false. -/
theorem insider_exit_sold : PoolOnly boughtAndSold (sampleContext boughtAndSold) 2#160 ∧
    ¬ ((∃ r, resolveInsiderExit (sampleContext boughtAndSold) = .ok r ∧ r.value = some true) ↔
      2 * trueTotal boughtAndSold (sampleContext boughtAndSold) (window boughtAndSold (sampleContext boughtAndSold)) ≤
        truePeak boughtAndSold (sampleContext boughtAndSold)) := by
  refine ⟨⟨rfl, by decide +kernel, by decide +kernel⟩, ?_⟩
  intro hiff
  have hsold : 2 * trueTotal boughtAndSold (sampleContext boughtAndSold)
      (window boughtAndSold (sampleContext boughtAndSold)) ≤ truePeak boughtAndSold (sampleContext boughtAndSold) := by
    decide +kernel
  have hfalse : (resolveInsiderExit (sampleContext boughtAndSold)).toOption.map Resolution.value = some (some false) := by
    decide +kernel
  obtain ⟨r, hres, hvalue⟩ := hiff.mpr hsold
  rw [hres] at hfalse
  have hboth := hvalue.symm.trans (Option.some.inj hfalse)
  cases hboth

end LaunchAuditor.Proofs.InsiderExit
