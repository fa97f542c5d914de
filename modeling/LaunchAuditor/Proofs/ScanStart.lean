import LaunchAuditor.Proofs.Funding

namespace LaunchAuditor.Proofs.ScanStart
open Metabolism ActivationCap

/-- The first block at or after an instant. -/
def firstAt (c : Chain) (sinceSec : Int) : Nat := c.blocks.findIdx fun b => sinceSec ≤ b.timestamp

/-- What the blocks at or after an instant have activated. -/
def amountSince (c : Chain) (args : Activated → Bool) (sinceSec : Int) : Nat :=
  ((((c.blocks.filter fun b => sinceSec ≤ b.timestamp).flatMap Block.activated).filter args).map Activated.amount).sum

/-- The blocks that the requests of a scan ask for, one request after the other. -/
def visited (c : Chain) (sinceSec : Int) (maxRange : Nat) : List Nat :=
  (ranges maxRange c.head.number (c.head.number + 1 - scanStart c sinceSec) (scanStart c sinceSec)).flatMap fun r =>
    List.range' r.1 (r.2 + 1 - r.1)

/-- The scan starts in time, visits every block from its start to the head once, and reports no
less than has been activated. -/
structure SafeScan (c : Chain) (sinceSec : Int) (maxRange : Nat) : Prop where
  start : scanStart c sinceSec ≤ firstAt c sinceSec
  visits : visited c sinceSec maxRange = List.range' (scanStart c sinceSec) (c.head.number + 1 - scanStart c sinceSec)
  amount : ∀ args, formatUnits6 (amountSince c args sinceSec) ≤ sumActivatedSince c sinceSec args maxRange

/-- Between the first block since the instant and the head the chain has kept to the pace of its last
ten thousand blocks, two per cent added. -/
def KeepsPace (c : Chain) (sinceSec : Int) : Prop :=
  firstAt c sinceSec = c.head.number ∨ ((sinceSec : ℚ) < Js.double c.head.timestamp ∧
    0 < Js.double (c.head.timestamp - c.ref.timestamp : Int) ∧
    (c.head.number : ℚ) - firstAt c sinceSec - 1 < blocksSince sinceSec c.head c.ref)

variable {c : Chain} {sinceSec : Int} {maxRange : Nat}

/-- In the order of their times, the blocks since an instant are those from the first of them on. -/
theorem filter_eq_drop {blocks : List Block} (h : blocks.Pairwise fun a b => a.timestamp ≤ b.timestamp) :
    (blocks.filter fun b => sinceSec ≤ b.timestamp) = blocks.drop (blocks.findIdx fun b => sinceSec ≤ b.timestamp) := by
  induction blocks with
  | nil => rfl
  | cons b blocks ih =>
    obtain ⟨hb, hblocks⟩ := List.pairwise_cons.mp h
    by_cases hsince : sinceSec ≤ b.timestamp
    · have hall : ∀ d ∈ b :: blocks, decide (sinceSec ≤ d.timestamp) = true := by
        intro d hd
        rcases List.mem_cons.mp hd with rfl | hd
        · exact decide_eq_true hsince
        · exact decide_eq_true (hsince.trans (hb d hd))
      rw [List.filter_eq_self.mpr hall, List.findIdx_cons, decide_eq_true hsince]
      rfl
    · rw [List.filter_cons_of_neg (by simpa using hsince), List.findIdx_cons, decide_eq_false hsince, ih hblocks]
      rfl

theorem amountSince_eq (c : Chain) (args : Activated → Bool) (sinceSec : Int) :
    amountSince c args sinceSec = c.amountFrom args (firstAt c sinceSec) := by
  rw [amountSince, filter_eq_drop c.ordered]
  rfl

/-- Blocks further back add to the amount. -/
theorem amountFrom_anti (args : Activated → Bool) {m n : Nat} (h : m ≤ n) : c.amountFrom args n ≤ c.amountFrom args m := by
  have hsplit : c.blocks.drop m = (c.blocks.drop m).take (n - m) ++ c.blocks.drop n := by
    conv_lhs => rw [← List.take_append_drop (n - m) (c.blocks.drop m), List.drop_drop, Nat.add_sub_cancel' h]
  rw [Chain.amountFrom, Chain.amountFrom, hsplit, List.flatMap_append, List.filter_append, List.map_append, List.sum_append]
  exact Nat.le_add_left _ _

/-- The requests go through the blocks without a gap and without an overlap. -/
theorem ranges_cover {last : Nat} (hrange : 0 < maxRange) (fuel fromBlock : Nat) (hfuel : last + 1 - fromBlock ≤ fuel) :
    ((ranges maxRange last fuel fromBlock).flatMap fun r => List.range' r.1 (r.2 + 1 - r.1)) =
      List.range' fromBlock (last + 1 - fromBlock) := by
  apply ranges_flatMap (fun n m => List.range' n (m + 1 - n)) hrange _ _ fuel fromBlock hfuel
  · intro n hn
    rw [Nat.sub_eq_zero_of_le hn]
    rfl
  · intro n m hn hm
    have hnext : n + (m + 1 - n) = m + 1 := by omega
    have hlength : last + 1 - n = (m + 1 - n) + (last + 1 - (m + 1)) := by omega
    rw [hlength, ← List.range'_append_1, hnext]

theorem firstAt_le_head (h : sinceSec ≤ c.head.timestamp) : firstAt c sinceSec ≤ c.head.number := by
  have hlt : firstAt c sinceSec < c.blocks.length :=
    List.findIdx_lt_length_of_exists ⟨c.blocks.getLast c.nonempty, List.getLast_mem c.nonempty, decide_eq_true h⟩
  simp only [Chain.head, Chain.headNumber]
  omega

/-- The pace, counted in blocks. -/
theorem keepsPace_iff (h : sinceSec ≤ c.head.timestamp) : KeepsPace c sinceSec ↔ Reaches c sinceSec (firstAt c sinceSec) := by
  have hfirst := firstAt_le_head h
  have hceil : ∀ x : ℚ, (c.head.number : ℚ) - firstAt c sinceSec - 1 < x ↔
      (c.head.number : Int) - firstAt c sinceSec ≤ ⌈x⌉ := by
    intro x
    rw [← Int.sub_one_lt_iff, Int.lt_ceil]
    push_cast
    rfl
  unfold KeepsPace Reaches
  rw [hceil]
  constructor
  · rintro (heq | hpace)
    · exact Or.inl heq.ge
    · exact Or.inr hpace
  · rintro (hle | hpace)
    · exact Or.inl (Nat.le_antisymm hfirst hle)
    · exact Or.inr hpace

/-- A scan is safe exactly where the chain has kept its pace since the instant. -/
theorem safeScan_iff (c : Chain) (sinceSec : Int) (maxRange : Nat) (hsince : sinceSec ≤ c.head.timestamp)
    (hrange : 0 < maxRange) : SafeScan c sinceSec maxRange ↔ KeepsPace c sinceSec := by
  rw [keepsPace_iff hsince, ← Funding.scanStart_le_iff]
  constructor
  · exact SafeScan.start
  · intro hstart
    refine ⟨hstart, ranges_cover hrange _ _ (Nat.le_refl _), ?_⟩
    intro args
    rw [sumActivatedSince_eq c sinceSec args hrange, amountSince_eq]
    exact formatUnits6_mono (amountFrom_anti args hstart)

def steadyChain : Chain where
  blocks := [⟨0, []⟩, ⟨100, []⟩, ⟨200, []⟩, ⟨300, []⟩]
  nonempty := by decide
  ordered := by decide

theorem safeScan_steady : SafeScan steadyChain 150 9999 := by
  refine (safeScan_iff steadyChain 150 9999 (by decide) (by decide)).mpr (Or.inr ?_)
  decide +kernel

/-- Three blocks in two seconds after a long pause. -/
def burstChain : Chain where
  blocks := [⟨0, []⟩, ⟨1000000, [⟨Funding.account, Funding.account, 20000000⟩]⟩, ⟨1000001, []⟩, ⟨1000002, []⟩]
  nonempty := by decide
  ordered := by decide

/-- The scan since the first of them starts after it and reports nothing. -/
theorem burst_missed : ¬ SafeScan burstChain 1000000 9999 := by
  intro h
  have hamount := h.amount fun _ => true
  revert hamount
  decide +kernel

end LaunchAuditor.Proofs.ScanStart
