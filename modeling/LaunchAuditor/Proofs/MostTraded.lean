import LaunchAuditor.Proofs.PoolChoice

namespace LaunchAuditor.Proofs.MostTraded
open Chain Outcomes Watcher

/-- A pool with a known quote asset and a fee below 10%. -/
def Qualified (c : PoolCandidate) : Prop :=
  c.quoteIsKnown = true ∧ ∃ fee, c.fee = some fee ∧ fee < FEE_SUSPECT_THRESHOLD

/-- Those the code has contend, in the order it has them before it has counted any swaps: the standard
fees first, then the earlier pools. -/
def contenders (cands : List PoolCandidate) : List PoolCandidate :=
  (rankCandidates cands).filter fun c => c.quoteIsKnown && !c.feeSuspect

/-- The swaps of a pool in the activity window. -/
def swapCount (cfg : ChainConfig) (args : PickArgs) (node : LogNode) (activityTo : Nat) (c : PoolCandidate) : Nat :=
  (node.answer ⟨[cfg.v4PoolManager], [some [TRADE_EVENT_TOPIC0.v4Swap], some [c.poolId]], args.activityFrom,
    activityTo⟩).length

/-- A qualified pool, of a standard fee tier if any is, that has the most swaps of those of its standing where no more
than four contend. -/
structure Primary (count : PoolCandidate → Nat) (cands : List PoolCandidate) (c : PoolCandidate) : Prop where
  mem : c ∈ cands
  qualified : Qualified c
  standard : ∀ q ∈ cands, Qualified q → q.standardFee = true → c.standardFee = true
  most : (contenders cands).length ≤ 4 → ∀ q ∈ cands, Qualified q → q.standardFee = c.standardFee → count q ≤ count c

section Rank

def activityOf (c : PoolCandidate) : Int := (c.activity.map Int.ofNat).getD (-1)

def rankKey (c : PoolCandidate) : Bool ×ₗ Bool ×ₗ Bool ×ₗ Int ×ₗ Nat :=
  toLex (!c.quoteIsKnown, toLex (c.feeSuspect, toLex (!c.standardFee, toLex (-activityOf c, c.initBlock))))

/-- Whichever has the mark comes first. -/
theorem marked_first (x y : Bool) {rest : Int} {P : Prop} (h : rest ≤ 0 ↔ P) :
    (if x != y then if x then -1 else 1 else rest) ≤ 0 ↔ (!x) < (!y) ∨ (!x) = (!y) ∧ P := by
  cases x <;> cases y <;> simp [h]

theorem marked_last (x y : Bool) {rest : Int} {P : Prop} (h : rest ≤ 0 ↔ P) :
    (if x != y then if x then 1 else -1 else rest) ≤ 0 ↔ x < y ∨ x = y ∧ P := by
  cases x <;> cases y <;> simp [h]

theorem counted_then_earlier (a b : PoolCandidate) :
    (if activityOf a ≠ activityOf b then activityOf b - activityOf a
      else if a.initBlock < b.initBlock then -1 else if a.initBlock > b.initBlock then 1 else 0) ≤ 0 ↔
      -activityOf a < -activityOf b ∨ -activityOf a = -activityOf b ∧ a.initBlock ≤ b.initBlock := by
  by_cases h : activityOf a = activityOf b
  · rw [if_neg (not_not.mpr h), h]
    split
    · omega
    · split
      · omega
      · omega
  · rw [if_pos h]
    omega

theorem rankCompare_nonpos_iff (a b : PoolCandidate) : rankCompare a b ≤ 0 ↔ rankKey a ≤ rankKey b := by
  unfold rankKey
  rw [Prod.Lex.toLex_le_toLex, Prod.Lex.toLex_le_toLex, Prod.Lex.toLex_le_toLex, Prod.Lex.toLex_le_toLex]
  exact marked_first _ _ (marked_last _ _ (marked_first _ _ (counted_then_earlier a b)))

theorem rankCandidates_eq (cands : List PoolCandidate) : rankCandidates cands = Keyed.inOrder rankKey cands := by
  simp only [rankCandidates, Keyed.inOrder, rankCompare_nonpos_iff]

/-- What is ranked first is before all others. -/
theorem rankCandidates_head {cands rest : List PoolCandidate} {c : PoolCandidate} (h : rankCandidates cands = c :: rest) :
    c ∈ cands ∧ ∀ x ∈ cands, rankKey c ≤ rankKey x := by
  rw [rankCandidates_eq] at h
  have hordered := Keyed.inOrder_pairwise rankKey cands
  rw [h] at hordered
  have hmem : ∀ x, x ∈ c :: rest ↔ x ∈ cands := fun x => h ▸ Keyed.mem_inOrder rankKey
  refine ⟨(hmem c).mp List.mem_cons_self, ?_⟩
  intro x hx
  rcases List.mem_cons.mp ((hmem x).mpr hx) with rfl | hx
  · exact le_refl _
  · exact List.rel_of_pairwise_cons hordered hx

/-- What a place before a contender says. -/
theorem rank_le {a b : PoolCandidate} (h : rankKey a ≤ rankKey b) (hquote : b.quoteIsKnown = true)
    (hfee : b.feeSuspect = false) :
    a.quoteIsKnown = true ∧ a.feeSuspect = false ∧ (b.standardFee = true → a.standardFee = true) ∧
      (a.standardFee = b.standardFee → activityOf b ≤ activityOf a) := by
  unfold rankKey at h
  rw [Prod.Lex.toLex_le_toLex, Prod.Lex.toLex_le_toLex, Prod.Lex.toLex_le_toLex, Prod.Lex.toLex_le_toLex, hquote,
    hfee] at h
  dsimp only at h
  rcases h with hlt | ⟨hq, hlt | ⟨hf, hlt | ⟨hs, hrest⟩⟩⟩
  · exact absurd hlt (by cases a.quoteIsKnown <;> decide)
  · exact absurd hlt (by cases a.feeSuspect <;> decide)
  · have hmarks : a.standardFee = true ∧ b.standardFee = false := by
      revert hlt
      cases a.standardFee <;> cases b.standardFee <;> decide
    refine ⟨by simpa using hq, hf, fun _ => hmarks.1, ?_⟩
    intro he
    rw [hmarks.1, hmarks.2] at he
    cases he
  · have hsame : a.standardFee = b.standardFee := by simpa using hs
    exact ⟨by simpa using hq, hf, fun hb => hsame.trans hb, fun _ => by omega⟩

end Rank

/-- A candidate as it is found. -/
structure Found (c : PoolCandidate) : Prop where
  activity : c.activity = none
  fee : c.fee.isSome = true
  suspect : c.feeSuspect = isFeeSuspect c.fee

section Candidates

/-- An event with a pool id is one with a fee. -/
theorem decodePoolCreation_fee {log : RpcLog} {pc : PoolCreation} (h : decodePoolCreation log = .ok (some pc))
    (hid : pc.poolId.isSome = true) : pc.fee.isSome = true := by
  unfold decodePoolCreation at h
  split at h
  · cases h
  · split at h
    · obtain ⟨_, _, h⟩ := bind_ok h
      obtain rfl := Option.some.inj (Except.ok.inj h)
      rfl
    · split at h
      · obtain ⟨_, _, h⟩ := bind_ok h
        obtain rfl := Option.some.inj (Except.ok.inj h)
        rfl
      · split at h
        · obtain ⟨_, _, h⟩ := bind_ok h
          obtain rfl := Option.some.inj (Except.ok.inj h)
          cases hid
        · cases h

theorem candidatesOf_found {cfg : ChainConfig} {acc : List PoolCandidate} {logs : List RpcLog} {cands : List PoolCandidate}
    (h : candidatesOf cfg acc logs = .ok cands) (hacc : ∀ c ∈ acc, Found c) : ∀ c ∈ cands, Found c := by
  induction logs generalizing acc with
  | nil =>
    obtain rfl := Except.ok.inj h
    exact hacc
  | cons log logs ih =>
    rw [candidatesOf] at h
    obtain ⟨pc?, hpc, h⟩ := bind_ok h
    split at h
    · rename_i pc poolId hid
      split at h
      · exact ih h hacc
      · refine ih h ?_
        intro c hc
        rcases List.mem_append.mp hc with hc | hc
        · exact hacc c hc
        · obtain rfl := List.mem_singleton.mp hc
          have hfee := decodePoolCreation_fee hpc (Option.isSome_of_mem hid)
          exact ⟨rfl, hfee, rfl⟩
    · exact ih h hacc

theorem Found.contends_iff {c : PoolCandidate} (h : Found c) :
    (c.quoteIsKnown && !c.feeSuspect) = true ↔ Qualified c := by
  obtain ⟨fee, hfee⟩ := Option.isSome_iff_exists.mp h.fee
  rw [h.suspect, hfee]
  simp [Qualified, isFeeSuspect, hfee]

theorem mem_contenders {cands : List PoolCandidate} (hfound : ∀ c ∈ cands, Found c) {q : PoolCandidate} :
    q ∈ contenders cands ↔ q ∈ cands ∧ Qualified q := by
  unfold contenders
  rw [List.mem_filter, rankCandidates_eq, Keyed.mem_inOrder]
  exact and_congr_right fun hq => (hfound q hq).contends_iff

end Candidates

section Counted
variable {cands : List PoolCandidate} {count : PoolCandidate → Nat}

/-- A candidate as the second ranking has it. -/
def counted (count : PoolCandidate → Nat) (cands : List PoolCandidate) (c : PoolCandidate) : PoolCandidate :=
  if c ∈ (contenders cands).take 4 then { c with activity := some (count c) } else c

theorem counted_marks (c : PoolCandidate) : (counted count cands c).quoteIsKnown = c.quoteIsKnown ∧
    (counted count cands c).feeSuspect = c.feeSuspect ∧ (counted count cands c).standardFee = c.standardFee := by
  unfold counted
  split
  · exact ⟨rfl, rfl, rfl⟩
  · exact ⟨rfl, rfl, rfl⟩

theorem counted_activity {c : PoolCandidate} (h : c ∈ (contenders cands).take 4) :
    activityOf (counted count cands c) = count c := by
  rw [counted, if_pos h]
  rfl

theorem uncounted_activity {c : PoolCandidate} (hc : Found c) (h : c ∉ (contenders cands).take 4) :
    activityOf (counted count cands c) = -1 := by
  rw [counted, if_neg h, activityOf, hc.activity]
  rfl

theorem counted_uncounted {c : PoolCandidate} (hc : Found c) : { counted count cands c with activity := none } = c := by
  have hnone : { c with activity := none } = c := by
    rw [← hc.activity]
  unfold counted
  split
  · exact hnone
  · exact hnone

theorem Found.contends {c : PoolCandidate} (h : Found c) (hq : Qualified c) :
    c.quoteIsKnown = true ∧ c.feeSuspect = false := by
  have hcontends := h.contends_iff.mpr hq
  rwa [Bool.and_eq_true, Bool.not_eq_true'] at hcontends

variable (hfound : ∀ c ∈ cands, Found c)
include hfound

/-- What a place before all says of every qualified candidate. -/
theorem first_le {c : PoolCandidate} (hfirst : ∀ x ∈ cands, rankKey (counted count cands c) ≤ rankKey (counted count cands x))
    {q : PoolCandidate} (hq : q ∈ cands) (hqq : Qualified q) :
    c.quoteIsKnown = true ∧ c.feeSuspect = false ∧ (q.standardFee = true → c.standardFee = true) ∧
      (c.standardFee = q.standardFee → activityOf (counted count cands q) ≤ activityOf (counted count cands c)) := by
  obtain ⟨hqquote, hqfee, hqstandard⟩ := @counted_marks cands count q
  obtain ⟨hcquote, hcfee, hcstandard⟩ := @counted_marks cands count c
  obtain ⟨hquote, hfee⟩ := (hfound q hq).contends hqq
  have hrank := rank_le (hfirst q hq) (hqquote.trans hquote) (hqfee.trans hfee)
  rwa [hcquote, hcfee, hcstandard, hqstandard] at hrank

/-- The first contender is of a standard tier if any qualified candidate is. -/
theorem exists_first (h : 0 < (contenders cands).length) : ∃ first ∈ (contenders cands).take 4,
    first ∈ cands ∧ Qualified first ∧ ∀ c ∈ cands, Qualified c → c.standardFee = true → first.standardFee = true := by
  obtain ⟨first, rest, hcontenders⟩ := List.exists_cons_of_length_pos h
  have hin : first ∈ (contenders cands).take 4 := by
    rw [hcontenders]
    exact List.mem_cons_self
  obtain ⟨hmem, hqualified⟩ := (mem_contenders hfound).mp (List.mem_of_mem_take hin)
  refine ⟨first, hin, hmem, hqualified, ?_⟩
  intro c hc hcq hs
  have hordered : (contenders cands).Pairwise fun a b => rankKey a ≤ rankKey b := by
    unfold contenders
    rw [rankCandidates_eq]
    exact (Keyed.inOrder_pairwise rankKey cands).filter _
  have hcin : c ∈ contenders cands := (mem_contenders hfound).mpr ⟨hc, hcq⟩
  have hbefore : rankKey first ≤ rankKey c := by
    rw [hcontenders] at hcin hordered
    rcases List.mem_cons.mp hcin with rfl | hcin
    · exact le_refl _
    · exact List.rel_of_pairwise_cons hordered hcin
  obtain ⟨hquote, hfee⟩ := (hfound c hc).contends hcq
  exact (rank_le hbefore hquote hfee).2.2.1 hs

theorem Primary.of_first_four {c : PoolCandidate} (hc : c ∈ cands) (hqualified : Qualified c)
    (hstandard : ∀ q ∈ cands, Qualified q → q.standardFee = true → c.standardFee = true)
    (hmost : ∀ q ∈ (contenders cands).take 4, q.standardFee = c.standardFee → count q ≤ count c) :
    Primary count cands c := by
  refine ⟨hc, hqualified, hstandard, ?_⟩
  intro hfour q hq hqq hsame
  refine hmost q ?_ hsame
  rw [List.take_of_length_le hfour]
  exact (mem_contenders hfound).mpr ⟨hq, hqq⟩

/-- First among the counted. -/
theorem primary_of_counted (hcontest : 2 ≤ (contenders cands).length) {c : PoolCandidate} (hc : c ∈ cands)
    (hfirst : ∀ x ∈ cands, rankKey (counted count cands c) ≤ rankKey (counted count cands x)) : Primary count cands c := by
  obtain ⟨first, hin, hmem, hfirstQ, hbest⟩ := exists_first hfound (by omega)
  obtain ⟨hquote, hfee, htier, hmore⟩ := first_le hfound hfirst hmem hfirstQ
  have hqualified : Qualified c := (hfound c hc).contends_iff.mp (by rw [hquote, hfee]; rfl)
  have hsame : c.standardFee = first.standardFee := Bool.eq_iff_iff.mpr ⟨hbest c hc hqualified, htier⟩
  have hprobed : c ∈ (contenders cands).take 4 := by
    by_contra hno
    have hact := hmore hsame
    rw [counted_activity hin, uncounted_activity (hfound c hc) hno] at hact
    omega
  refine Primary.of_first_four hfound hc hqualified (fun q hq hqq => (first_le hfound hfirst hq hqq).2.2.1) ?_
  intro q hq hqs
  obtain ⟨hqmem, hqq⟩ := (mem_contenders hfound).mp (List.mem_of_mem_take hq)
  have hact := (first_le hfound hfirst hqmem hqq).2.2.2 hqs.symm
  rw [counted_activity hq, counted_activity hprobed] at hact
  exact_mod_cast hact

/-- First of all, where at most one contends. -/
theorem primary_of_single (hsingle : (contenders cands).length < 2) (hex : ∃ q ∈ cands, Qualified q) {c : PoolCandidate}
    (hc : c ∈ cands) (hfirst : ∀ x ∈ cands, rankKey c ≤ rankKey x) : Primary count cands c := by
  obtain ⟨q, hq, hqq⟩ := hex
  obtain ⟨hquote, hfee⟩ := (hfound q hq).contends hqq
  obtain ⟨hcquote, hcfee, _⟩ := rank_le (hfirst q hq) hquote hfee
  have hqualified : Qualified c := (hfound c hc).contends_iff.mp (by rw [hcquote, hcfee]; rfl)
  have hcin : c ∈ contenders cands := (mem_contenders hfound).mpr ⟨hc, hqualified⟩
  have honly : contenders cands = [c] := by
    obtain ⟨d, hd⟩ := List.length_eq_one_iff.mp (show (contenders cands).length = 1 by
      have hpos := List.length_pos_of_mem hcin
      omega)
    rw [hd] at hcin ⊢
    rw [List.mem_singleton.mp hcin]
  have hall : ∀ x ∈ cands, Qualified x → x = c := by
    intro x hx hxq
    have hxin := (mem_contenders hfound).mpr ⟨hx, hxq⟩
    rw [honly] at hxin
    exact List.mem_singleton.mp hxin
  refine Primary.of_first_four hfound hc hqualified ?_ ?_
  · exact fun x hx hxq hs => hall x hx hxq ▸ hs
  · intro x hx _
    obtain ⟨hxmem, hxq⟩ := (mem_contenders hfound).mp (List.mem_of_mem_take hx)
    rw [hall x hxmem hxq]

end Counted

section Choice
variable {calls : PickCalls} {cfg : ChainConfig} {args : PickArgs} {node : LogNode} {cands : List PoolCandidate}

/-- The candidates with their swaps, as the second ranking gets them. -/
theorem probeActivity_eq (hswaps : ∀ poolId attempt, calls.swaps poolId attempt = node.request) (hrange : 0 < args.maxRange)
    (activityTo : Nat) : probeActivity calls cfg args activityTo cands = if (contenders cands).length ≥ 2 then
      cands.map (counted (swapCount cfg args node activityTo) cands) else cands := by
  have hactivity : ∀ c : PoolCandidate, poolActivity (calls.swaps c.poolId) cfg c.poolId args.activityFrom activityTo
      args.maxRange = swapCount cfg args node activityTo c := by
    intro c
    unfold poolActivity
    dsimp only
    rw [withRetry_of_ok (by omega) (by rw [hswaps]; exact getLogsChunked_request node _ hrange)]
    rfl
  unfold probeActivity contenders
  simp only [hactivity]
  rfl

/-- The head that the windows are cut at. -/
def headOf (calls : PickCalls) (args : PickArgs) : Option Nat := args.headBlock.or calls.readHead

/-- Once the pools are found, the first in the second ranking is chosen. -/
theorem pickPrimaryV4Pool_found (hfind : findTokenV4Pools calls.requests cfg args.token args.scanFrom
      (clampToHead (headOf calls args) args.scanTo) args.maxRange = .ok cands) :
    pickPrimaryV4Pool calls cfg args =
      match rankCandidates (probeActivity calls cfg args (clampToHead (headOf calls args) args.activityTo) cands) with
      | [] => .ok ⟨none, false, []⟩
      | chosen :: rest => .ok ⟨some chosen, decide (args.currentPoolId ≠ some chosen.poolId), chosen :: rest⟩ := by
  unfold pickPrimaryV4Pool
  dsimp only
  unfold headOf at hfind ⊢
  rw [hfind]
  rfl

/-- The pool that is picked, whatever pools and swaps there are. -/
theorem picked_primary (calls : PickCalls) (cfg : ChainConfig) (args : PickArgs) (node : LogNode)
    (hswaps : ∀ poolId attempt, calls.swaps poolId attempt = node.request) (hrange : 0 < args.maxRange)
    (cands : List PoolCandidate) (hfind : findTokenV4Pools calls.requests cfg args.token args.scanFrom
      (clampToHead (headOf calls args) args.scanTo) args.maxRange = .ok cands) (hex : ∃ q ∈ cands, Qualified q) :
    ∃ pick chosen, pickPrimaryV4Pool calls cfg args = .ok pick ∧ pick.chosen = some chosen ∧
      Primary (swapCount cfg args node (clampToHead (headOf calls args) args.activityTo)) cands
        { chosen with activity := none } := by
  have hfound : ∀ c ∈ cands, Found c := by
    obtain ⟨logs, _, hcands⟩ := bind_ok hfind
    exact candidatesOf_found hcands (by simp)
  rw [pickPrimaryV4Pool_found hfind, probeActivity_eq hswaps hrange]
  generalize swapCount cfg args node (clampToHead (headOf calls args) args.activityTo) = count
  have hne : ∀ xs : List PoolCandidate, xs ≠ [] → ∃ chosen rest, rankCandidates xs = chosen :: rest := by
    intro xs hxs
    obtain ⟨x, hx⟩ := List.exists_mem_of_ne_nil xs hxs
    rw [rankCandidates_eq]
    exact List.exists_cons_of_ne_nil (List.ne_nil_of_mem ((Keyed.mem_inOrder rankKey).mpr hx))
  have hcands : cands ≠ [] := by
    obtain ⟨q, hq, _⟩ := hex
    exact List.ne_nil_of_mem hq
  by_cases hcontest : (contenders cands).length ≥ 2
  · rw [if_pos hcontest]
    obtain ⟨chosen, rest, hrank⟩ := hne (cands.map (counted count cands)) (by simpa using hcands)
    obtain ⟨hmem, hfirst⟩ := rankCandidates_head hrank
    obtain ⟨c, hc, rfl⟩ := List.mem_map.mp hmem
    rw [hrank]
    refine ⟨_, _, rfl, rfl, ?_⟩
    rw [counted_uncounted (hfound c hc)]
    exact primary_of_counted hfound hcontest hc fun x hx => hfirst _ (List.mem_map_of_mem hx)
  · rw [if_neg hcontest]
    obtain ⟨chosen, rest, hrank⟩ := hne cands hcands
    obtain ⟨hmem, hfirst⟩ := rankCandidates_head hrank
    rw [hrank]
    refine ⟨_, _, rfl, rfl, ?_⟩
    have hnone : { chosen with activity := none } = chosen := by
      rw [← (hfound chosen hmem).activity]
    rw [hnone]
    exact primary_of_single hfound (by omega) hex hmem hfirst

/-- A pool of a standard tier without swaps and one of another tier with a swap. -/
def sidePools : LogNode where
  logs := [PollerSafety.creationLog 11 77,
    ⟨2, [POOL_EVENT_TOPIC0.v4Initialize, 78, 6, 9], [600, 60, 0, 1, 0], 12, 70, 0⟩,
    ⟨2, [TRADE_EVENT_TOPIC0.v4Swap, 78, 5], [0, 0, 1, 0, 0, 600], 13, 71, 0⟩]
  ordered := by decide +kernel

def quietPool : PoolCandidate := ⟨77, 6, 9, some 3000, some 60, some 0, 11, some 6, false, true, none⟩

def busyPool : PoolCandidate := ⟨78, 6, 9, some 600, some 60, some 0, 12, some 6, false, false, none⟩

theorem sidePools_found : findTokenV4Pools (PoolChoice.nodeCalls sidePools).requests sampleConfig
    PoolChoice.sampleArgs.token PoolChoice.sampleArgs.scanFrom
    (clampToHead (headOf (PoolChoice.nodeCalls sidePools) PoolChoice.sampleArgs) PoolChoice.sampleArgs.scanTo)
    PoolChoice.sampleArgs.maxRange = .ok [quietPool, busyPool] := by
  rfl

theorem picked_primary_quiet : ∃ pick chosen,
    pickPrimaryV4Pool (PoolChoice.nodeCalls sidePools) sampleConfig PoolChoice.sampleArgs = .ok pick ∧
      pick.chosen = some chosen ∧
      Primary (swapCount sampleConfig PoolChoice.sampleArgs sidePools
        (clampToHead (headOf (PoolChoice.nodeCalls sidePools) PoolChoice.sampleArgs) PoolChoice.sampleArgs.activityTo))
        [quietPool, busyPool] { chosen with activity := none } :=
  picked_primary (PoolChoice.nodeCalls sidePools) sampleConfig PoolChoice.sampleArgs sidePools (fun _ _ => rfl)
    (by decide) [quietPool, busyPool] sidePools_found ⟨quietPool, by simp, rfl, 3000, rfl, by decide⟩

/-- The pool without swaps is chosen. -/
theorem busier_pool_passed_over : ¬ ∀ (calls : PickCalls) (cfg : ChainConfig) (args : PickArgs) (node : LogNode)
    (cands : List PoolCandidate), (∀ poolId attempt, calls.swaps poolId attempt = node.request) → 0 < args.maxRange →
    findTokenV4Pools calls.requests cfg args.token args.scanFrom (clampToHead (headOf calls args) args.scanTo)
      args.maxRange = .ok cands → (∃ q ∈ cands, Qualified q) →
    ∀ pick chosen, pickPrimaryV4Pool calls cfg args = .ok pick → pick.chosen = some chosen →
      ∀ q ∈ cands, Qualified q → swapCount cfg args node (clampToHead (headOf calls args) args.activityTo) q ≤
        swapCount cfg args node (clampToHead (headOf calls args) args.activityTo) chosen := by
  intro h
  have hchosen : ((pickPrimaryV4Pool (PoolChoice.nodeCalls sidePools) sampleConfig PoolChoice.sampleArgs).toOption.bind
      fun pick => pick.chosen) = some { quietPool with activity := some 0 } := by decide +kernel
  cases hpick : pickPrimaryV4Pool (PoolChoice.nodeCalls sidePools) sampleConfig PoolChoice.sampleArgs with
  | error e =>
    rw [hpick] at hchosen
    cases hchosen
  | ok pick =>
    rw [hpick] at hchosen
    have hle := h _ _ _ sidePools _ (fun _ _ => rfl) (by decide) sidePools_found
      ⟨quietPool, by simp, rfl, 3000, rfl, by decide⟩ pick _ hpick hchosen busyPool (by simp) ⟨rfl, 600, rfl, by decide⟩
    revert hle
    decide +kernel

end Choice

end LaunchAuditor.Proofs.MostTraded
