import LaunchAuditor.Watcher.LaunchFacts
import LaunchAuditor.Lib.Ledger
import Mathlib.Algebra.Order.Field.Basic
import Mathlib.Algebra.Order.Field.Rat
import Mathlib.Data.List.Find
import Mathlib.Data.Rat.Cast.Order
import Mathlib.Tactic.FieldSimp
import Mathlib.Tactic.Linarith
import Mathlib.Tactic.Positivity

namespace LaunchAuditor.Proofs.DevBuy
open Chain Watcher

section Receipts
variable (token : Address) (excluded : List Address)

/-- The Transfer logs of the token among those of the receipt are these. -/
def Transfers (logs : List RpcLog) (events : List TransferEvent) : Prop :=
  (logs.filter fun l => decide (l.address = token ∧ l.topics[0]? = some TRANSFER_TOPIC0)) =
    events.map (TransferEvent.toLog token)

def gross (a : Address) (events : List TransferEvent) : Nat := Ledger.received a (events.map TransferEvent.transfer)

theorem gross_snoc (a : Address) (events : List TransferEvent) (e : TransferEvent) :
    gross a (events ++ [e]) = gross a events + if e.to_ = a then e.value.toNat else 0 := by
  unfold gross
  rw [List.map_append, Ledger.received_append]
  simp [Ledger.received, TransferEvent.transfer]

theorem receivedBy_filter (logs : List RpcLog) : receivedBy token excluded logs = receivedBy token excluded
    (logs.filter fun l => decide (l.address = token ∧ l.topics[0]? = some TRANSFER_TOPIC0)) := by
  unfold receivedBy
  rw [List.foldl_filter]
  congr 1
  funext received l
  by_cases hl : l.address = token ∧ l.topics[0]? = some TRANSFER_TOPIC0
  · rw [if_pos (decide_eq_true hl)]
  · rw [if_neg (mt of_decide_eq_true hl), if_pos (not_and_or.mp hl)]

/-- The amounts, by the transfers. -/
def tally (events : List TransferEvent) : List (Address × Nat) :=
  receivedBy token excluded (events.map (TransferEvent.toLog token))

theorem tally_snoc (events : List TransferEvent) (e : TransferEvent) : tally token excluded (events ++ [e]) =
    if e.to_ ∈ excluded then tally token excluded events
    else OrderedMap.alter e.to_ (fun sum => sum.getD 0 + e.value.toNat) (tally token excluded events) := by
  unfold tally receivedBy
  rw [List.map_append, List.foldl_append]
  simp [TransferEvent.toLog, transferValue]

theorem tally_nodup (events : List TransferEvent) : (OrderedMap.keys (tally token excluded events)).Nodup := by
  induction events using List.reverseRecOn with
  | nil => exact List.nodup_nil
  | append_singleton events e ih =>
    rw [tally_snoc]
    split
    · exact ih
    · exact OrderedMap.keys_alter_nodup ih

theorem lookup_tally (events : List TransferEvent) (a : Address) :
    ((tally token excluded events).lookup a).getD 0 = if a ∈ excluded then 0 else gross a events := by
  induction events using List.reverseRecOn with
  | nil => simp [tally, receivedBy, gross, Ledger.received]
  | append_singleton events e ih =>
    rw [tally_snoc, gross_snoc]
    by_cases he : e.to_ ∈ excluded
    · rw [if_pos he, ih]
      by_cases ha : e.to_ = a
      · rw [if_pos (ha ▸ he), if_pos (ha ▸ he)]
      · rw [if_neg ha, Nat.add_zero]
    · rw [if_neg he, OrderedMap.lookup_alter]
      by_cases ha : a = e.to_
      · subst ha
        rw [if_pos rfl, Option.getD_some, ih, if_neg he, if_neg he, if_pos rfl]
      · rw [if_neg ha, ih, if_neg (Ne.symm ha), Nat.add_zero]

/-- The addresses come in the order of their first receipts. -/
theorem find?_tally (p : Address → Bool) (events : List TransferEvent) :
    (OrderedMap.keys (tally token excluded events)).find? p =
      ((events.map TransferEvent.to_).filter fun a => decide (a ∉ excluded)).find? p := by
  induction events using List.reverseRecOn with
  | nil => rfl
  | append_singleton events e ih =>
    rw [tally_snoc, List.map_append, List.filter_append]
    by_cases he : e.to_ ∈ excluded
    · rw [if_pos he, ih]
      simp [he]
    · rw [if_neg he, OrderedMap.find?_keys_alter, List.find?_append, List.find?_append, ih]
      simp [he]

end Receipts

section Top

theorem topRecipient_snoc (m : List (Address × Nat)) (e : Address × Nat) : topRecipient (m ++ [e]) =
    if e.2 > (topRecipient m).2 then (some e.1, e.2) else topRecipient m := by
  unfold topRecipient
  rw [List.foldl_append]
  rfl

/-- The amount is the largest, and the address the first that has it, unless it is 0. -/
theorem topRecipient_spec (m : List (Address × Nat)) : (∀ e ∈ m, e.2 ≤ (topRecipient m).2) ∧
    ((topRecipient m).2 = 0 ∨ ∃ e ∈ m, e.2 = (topRecipient m).2) ∧
    (topRecipient m).1 = (m.find? fun e => decide (0 < e.2 ∧ e.2 = (topRecipient m).2)).map Prod.fst := by
  induction m using List.reverseRecOn with
  | nil => exact ⟨by simp, Or.inl rfl, rfl⟩
  | append_singleton m e ih =>
    obtain ⟨hle, hex, hfind⟩ := ih
    rw [topRecipient_snoc]
    by_cases hgt : e.2 > (topRecipient m).2
    · rw [if_pos hgt]
      refine ⟨?_, Or.inr ⟨e, by simp, rfl⟩, ?_⟩
      · intro b hb
        rcases List.mem_append.mp hb with hb | hb
        · exact (hle b hb).trans hgt.le
        · rw [List.mem_singleton.mp hb]
      · have hnone : (m.find? fun b => decide (0 < b.2 ∧ b.2 = e.2)) = none := by
          apply List.find?_eq_none.mpr
          intro b hb hdec
          have hb' := hle b hb
          have heq := (of_decide_eq_true hdec).2
          omega
        have hpos : 0 < e.2 := by omega
        rw [List.find?_append, hnone]
        simp [hpos]
    · rw [if_neg hgt]
      refine ⟨?_, ?_, ?_⟩
      · intro b hb
        rcases List.mem_append.mp hb with hb | hb
        · exact hle b hb
        · rw [List.mem_singleton.mp hb]
          exact Nat.not_lt.mp hgt
      · rcases hex with hzero | ⟨b, hb, heq⟩
        · exact Or.inl hzero
        · exact Or.inr ⟨b, List.mem_append_left _ hb, heq⟩
      · rw [hfind, List.find?_append]
        cases hold : m.find? fun b => decide (0 < b.2 ∧ b.2 = (topRecipient m).2) with
        | some b => rfl
        | none =>
          -- nothing is above 0, the new entry included
          have hzero : (topRecipient m).2 = 0 := by
            rcases hex with hzero | ⟨b, hb, heq⟩
            · exact hzero
            · have hno := List.find?_eq_none.mp hold b hb
              rw [decide_eq_true_eq] at hno
              omega
          have hno : ¬ (0 < e.2 ∧ e.2 = (topRecipient m).2) := by omega
          simp [hno]

end Top

section Recipient
variable (token : Address) (excluded : List Address) (events : List TransferEvent)

/-- Of the addresses that received most in all, the first to receive anything. -/
def devbuyAddress : Option Address :=
  (events.map TransferEvent.to_).find? fun a =>
    decide (a ∉ excluded ∧ 0 < gross a events ∧ ∀ e ∈ events, e.to_ ∉ excluded → gross e.to_ events ≤ gross a events)

/-- What it received. -/
def devbuyAmount : Nat := ((devbuyAddress excluded events).map fun a => gross a events).getD 0

variable {token excluded events}

theorem tally_kept (b : Address × Nat) (hb : b ∈ tally token excluded events) : b.1 ∉ excluded := by
  induction events using List.reverseRecOn generalizing b with
  | nil => cases hb
  | append_singleton events e ih =>
    rw [tally_snoc] at hb
    split at hb
    · exact ih b hb
    · rename_i he
      exact OrderedMap.forall_alter ih he (fun v hv => hv) b hb

theorem mem_tally {b : Address × Nat} (hb : b ∈ tally token excluded events) : b.2 = gross b.1 events := by
  have hlookup := (OrderedMap.mem_iff_lookup (tally_nodup token excluded events)).mp (show (b.1, b.2) ∈ _ from hb)
  have hvalue := lookup_tally token excluded events b.1
  rwa [hlookup, if_neg (tally_kept b hb), Option.getD_some] at hvalue

theorem gross_le_top {a : Address} (ha : a ∉ excluded) : gross a events ≤ (topRecipient (tally token excluded events)).2 := by
  have hvalue := lookup_tally token excluded events a
  rw [if_neg ha] at hvalue
  cases hlookup : (tally token excluded events).lookup a with
  | none =>
    rw [hlookup, Option.getD_none] at hvalue
    omega
  | some v =>
    rw [hlookup, Option.getD_some] at hvalue
    have hmem := (OrderedMap.mem_iff_lookup (tally_nodup token excluded events)).mpr hlookup
    exact hvalue ▸ (topRecipient_spec (tally token excluded events)).1 _ hmem

/-- An address has the largest amount, above 0, by what it and the others received. -/
theorem isTop_iff {a : Address} (ha : a ∉ excluded) :
    (0 < gross a events ∧ gross a events = (topRecipient (tally token excluded events)).2) ↔
      0 < gross a events ∧ ∀ e ∈ events, e.to_ ∉ excluded → gross e.to_ events ≤ gross a events := by
  refine and_congr_right fun hpos => ⟨?_, ?_⟩
  · intro heq e _ he
    rw [heq]
    exact gross_le_top he
  · intro hall
    refine Nat.le_antisymm (gross_le_top ha) ?_
    rcases (topRecipient_spec (tally token excluded events)).2.1 with hzero | ⟨b, hb, htop⟩
    · omega
    · by_cases hzero : b.2 = 0
      · omega
      · -- the entry has an amount, so that a transfer has gone there
        have hgross : gross b.1 events ≠ 0 := by rwa [← mem_tally hb]
        obtain ⟨e, he, hto⟩ : ∃ e ∈ events, e.to_ = b.1 := by
          by_contra hnone
          refine hgross (List.sum_eq_zero ?_)
          intro x hx
          obtain ⟨t, ht, rfl⟩ := List.mem_map.mp hx
          obtain ⟨e, he, rfl⟩ := List.mem_map.mp ht
          exact if_neg fun hto => hnone ⟨e, he, hto⟩
        have hle := hall e he (hto ▸ tally_kept b hb)
        rw [hto, ← mem_tally hb] at hle
        omega

theorem topRecipient_tally : topRecipient (tally token excluded events) =
    (devbuyAddress excluded events, devbuyAmount excluded events) := by
  obtain ⟨_, hex, hfind⟩ := topRecipient_spec (tally token excluded events)
  have haddress : (topRecipient (tally token excluded events)).1 = devbuyAddress excluded events := by
    have hkeys := find?_tally token excluded
      (fun a => decide (0 < gross a events ∧ gross a events = (topRecipient (tally token excluded events)).2)) events
    rw [OrderedMap.keys, List.find?_map, List.find?_filter] at hkeys
    have hentry : ((tally token excluded events).find? fun b =>
          decide (0 < b.2 ∧ b.2 = (topRecipient (tally token excluded events)).2)) =
        (tally token excluded events).find? ((fun a => decide (0 < gross a events ∧
          gross a events = (topRecipient (tally token excluded events)).2)) ∘ Prod.fst) := by
      apply List.find?_congr
      intro b hb
      rw [Function.comp_apply, ← mem_tally hb]
    rw [hfind, hentry, hkeys, devbuyAddress]
    apply List.find?_congr
    intro a _
    rw [Bool.eq_iff_iff]
    simp only [decide_eq_true_eq]
    exact and_congr_right fun ha => @isTop_iff token excluded events a ha
  refine Prod.ext haddress ?_
  unfold devbuyAmount
  rw [← haddress, hfind]
  cases hold : (tally token excluded events).find? fun b =>
      decide (0 < b.2 ∧ b.2 = (topRecipient (tally token excluded events)).2) with
  | some b =>
    have heq := List.find?_some hold
    simp only [decide_eq_true_eq] at heq
    have hmem := mem_tally (List.mem_of_find?_eq_some hold)
    simp only [Option.map_some, Option.getD_some]
    rw [← hmem, heq.2]
  | none =>
    rcases hex with hzero | ⟨b, hb, heq⟩
    · exact hzero
    · have hno := List.find?_eq_none.mp hold b hb
      rw [decide_eq_true_eq] at hno
      simp only [Option.map_none, Option.getD_none]
      omega

end Recipient

section Shares
variable (prior events : List TransferEvent) (token source : Address)

/-- A launch transaction of a conserving token, as the function reads it. -/
structure Launch (receipt : List RpcLog) (supply : Nat) : Prop where
  solvent : Ledger.Solvent ZERO_ADDRESS ((prior ++ events).map TransferEvent.transfer)
  transfers : Transfers token receipt events
  supply : (supply : ℤ) = Ledger.supply ZERO_ADDRESS ((prior ++ events).map TransferEvent.transfer)

/-- What an address holds at a moment of the transaction, when these of its transfers are done. -/
def heldAfter (done : List TransferEvent) (a : Address) : ℤ :=
  Ledger.balance ZERO_ADDRESS ((prior ++ done).map TransferEvent.transfer) a

/-- A percentage, and what the address it is about held at some moment. -/
structure Held (features : IndexFeatures) (supply : Nat) : Prop where
  percentage : ∀ pct, features.creatorDevbuyPct = some pct → 0 ≤ pct ∧ pct ≤ 100
  moment : ∀ pct a, features.creatorDevbuyPct = some pct → features.devbuyRecipient = some a →
    ∃ done, done <+: events ∧ pct * supply ≤ 100 * heldAfter prior done a

/-- An amount in percent of the supply, cut off after the twelfth place. -/
def pctOf (amount supply : Nat) : ℚ := (amount * 100 * 10 ^ 12 / supply : Nat) / 10 ^ 12

/-- What the truncation to twelve places leaves out. -/
def dust (amount supply : Nat) : Nat := amount * 10 ^ 14 % supply

/-- The recipient did not get more than there is, and at some moment what it had passed on and what was still to come
to it were no more than it had from before. -/
structure NotPassedOn (supply : Nat) (a : Address) : Prop where
  within : gross a events * 10 ^ 14 < (10 ^ 14 + 1) * supply
  moment : ∃ done rest, events = done ++ rest ∧
    10 ^ 14 * (Ledger.sent a (done.map TransferEvent.transfer) + gross a rest : ℤ) ≤
      10 ^ 14 * heldAfter prior [] a + dust (gross a events) supply

variable {prior events token source}

theorem heldAfter_eq {a : Address} (ha : a ≠ ZERO_ADDRESS) (done : List TransferEvent) : heldAfter prior done a =
    heldAfter prior [] a + gross a done - Ledger.sent a (done.map TransferEvent.transfer) := by
  unfold heldAfter gross
  rw [List.append_nil, List.map_append, Ledger.balance_append, Ledger.balance_eq_received_sub_sent ha (done.map _)]
  ring

theorem gross_append (a : Address) (done rest : List TransferEvent) :
    gross a (done ++ rest) = gross a done + gross a rest := by
  unfold gross
  rw [List.map_append, Ledger.received_append]

/-- A share of the supply, by the amount it comes from. -/
theorem pct_mul_le_iff {amount supply : Nat} (held : ℤ) :
    pctOf amount supply * supply ≤ 100 * held ↔
      (amount : ℤ) * 10 ^ 14 ≤ 10 ^ 14 * held + dust amount supply := by
  have hdiv : (amount * 100 * 10 ^ 12 / supply) * supply + dust amount supply = amount * 10 ^ 14 := by
    rw [dust, Nat.mul_comm _ supply, show amount * 100 * 10 ^ 12 = amount * 10 ^ 14 by ring]
    exact Nat.div_add_mod _ _
  have hint : (amount : ℤ) * 10 ^ 14 ≤ 10 ^ 14 * held + dust amount supply ↔
      ((amount * 100 * 10 ^ 12 / supply * supply : Nat) : ℤ) ≤ 10 ^ 14 * held := by
    have hcast : ((amount * 100 * 10 ^ 12 / supply * supply : Nat) : ℤ) + (dust amount supply : ℤ) =
        (amount : ℤ) * 10 ^ 14 := by exact_mod_cast hdiv
    omega
  rw [hint, pctOf, div_mul_eq_mul_div, div_le_iff₀ (by positivity)]
  have hright : (100 * held * 10 ^ 12 : ℚ) = ((10 ^ 14 * held : ℤ) : ℚ) := by
    push_cast
    ring
  rw [hright, ← Nat.cast_mul, ← Int.cast_natCast, Int.cast_le]

theorem pct_le_hundred_iff {amount supply : Nat} (hpos : 0 < supply) :
    pctOf amount supply ≤ 100 ↔ amount * 10 ^ 14 < (10 ^ 14 + 1) * supply := by
  have hright : (100 * 10 ^ 12 : ℚ) = ((10 ^ 14 : Nat) : ℚ) := by norm_num
  rw [pctOf, div_le_iff₀ (by positivity), hright, Nat.cast_le, ← Nat.lt_succ_iff, Nat.div_lt_iff_lt_mul hpos,
    show amount * 100 * 10 ^ 12 = amount * 10 ^ 14 by ring]

/-- The condition on the recipient is that its percentage is one it held. -/
theorem notPassedOn_iff {supply : Nat} (hpos : 0 < supply) {a : Address} (ha : a ≠ ZERO_ADDRESS) :
    NotPassedOn prior events supply a ↔
      pctOf (gross a events) supply ≤ 100 ∧
        ∃ done, done <+: events ∧
          pctOf (gross a events) supply * supply ≤ 100 * heldAfter prior done a := by
  have hmoment : ∀ done rest, events = done ++ rest →
      (10 ^ 14 * (Ledger.sent a (done.map TransferEvent.transfer) + gross a rest : ℤ) ≤
          10 ^ 14 * heldAfter prior [] a + dust (gross a events) supply ↔
        pctOf (gross a events) supply * supply ≤ 100 * heldAfter prior done a) := by
    intro done rest hsplit
    have hgross : (gross a events : ℤ) = gross a done + gross a rest := by
      rw [hsplit, gross_append]
      exact Nat.cast_add _ _
    rw [pct_mul_le_iff, heldAfter_eq ha done, hgross]
    constructor <;> intro h <;> linarith
  constructor
  · rintro ⟨hwithin, done, rest, hsplit, hle⟩
    exact ⟨(pct_le_hundred_iff hpos).mpr hwithin, done, ⟨rest, hsplit.symm⟩, (hmoment done rest hsplit).mp hle⟩
  · rintro ⟨hwithin, done, ⟨rest, hsplit⟩, hle⟩
    exact ⟨(pct_le_hundred_iff hpos).mp hwithin, done, rest, hsplit.symm, (hmoment done rest hsplit.symm).mpr hle⟩

theorem computeIndexFeatures_eq {receipt : List RpcLog} {supply : Nat} (hreceipt : Transfers token receipt events) :
    computeIndexFeatures (.ok receipt) (.ok supply) token (some source) =
      ⟨devbuyPct (devbuyAmount [source, ZERO_ADDRESS, token] events) supply,
        devbuyAddress [source, ZERO_ADDRESS, token] events, none, none⟩ := by
  have htop : topRecipient (receivedBy token [source, ZERO_ADDRESS, token] receipt) =
      (devbuyAddress [source, ZERO_ADDRESS, token] events, devbuyAmount [source, ZERO_ADDRESS, token] events) := by
    rw [receivedBy_filter, hreceipt]
    exact topRecipient_tally
  unfold computeIndexFeatures
  simp only [htop]

/-- The percentage of the dev buy is one that the recipient held, exactly if the one that received most did not get more
than there is and did not pass it on before it got the rest. -/
theorem devbuy_held_iff {receipt : List RpcLog} {supply : Nat} (h : Launch prior events token receipt supply) :
    Held prior events (computeIndexFeatures (.ok receipt) (.ok supply) token (some source)) supply ↔
      (0 < supply → ∀ a, devbuyAddress [source, ZERO_ADDRESS, token] events = some a →
        NotPassedOn prior events supply a) := by
  rw [computeIndexFeatures_eq h.transfers]
  by_cases hpos : 0 < supply
  · have hpct : devbuyPct (devbuyAmount [source, ZERO_ADDRESS, token] events) supply =
        some (pctOf (devbuyAmount [source, ZERO_ADDRESS, token] events) supply) :=
      if_pos hpos
    cases haddress : devbuyAddress [source, ZERO_ADDRESS, token] events with
    | none =>
      have hamount : devbuyAmount [source, ZERO_ADDRESS, token] events = 0 := by simp [devbuyAmount, haddress]
      refine iff_of_true ⟨?_, ?_⟩ ?_
      · intro pct hsome
        rw [hpct, hamount] at hsome
        obtain rfl := Option.some.inj hsome
        norm_num [pctOf]
      · intro pct a _ hnone
        cases hnone
      · intro _ a hnone
        cases hnone
    | some a =>
      have hamount : devbuyAmount [source, ZERO_ADDRESS, token] events = gross a events := by
        simp [devbuyAmount, haddress]
      have hzero : a ≠ ZERO_ADDRESS := by
        have hin := List.find?_some haddress
        simp only [decide_eq_true_eq] at hin
        rintro rfl
        exact hin.1 (by simp)
      rw [hpct, hamount]
      have hiff := @notPassedOn_iff prior events supply hpos a hzero
      constructor
      · intro hheld _ b hb
        obtain rfl := Option.some.inj hb
        exact hiff.mpr ⟨(hheld.percentage _ rfl).2, hheld.moment _ _ rfl rfl⟩
      · intro hall
        obtain ⟨hle, hmoment⟩ := hiff.mp (hall hpos a rfl)
        refine ⟨?_, ?_⟩
        · intro pct hsome
          obtain rfl := Option.some.inj hsome
          refine ⟨?_, hle⟩
          unfold pctOf
          positivity
        · intro pct b hsome hb
          obtain rfl := Option.some.inj hsome
          obtain rfl := Option.some.inj hb
          exact hmoment
  · have hpct : devbuyPct (devbuyAmount [source, ZERO_ADDRESS, token] events) supply = none := if_neg hpos
    rw [hpct]
    refine iff_of_true ⟨?_, ?_⟩ fun h => absurd h hpos
    · intro pct hnone
      cases hnone
    · intro pct a hnone
      cases hnone

end Shares

/-- The launchpad mints the supply in the launch transaction, and the creator buys from it. -/
def boughtOnce : List TransferEvent :=
  [⟨4, 0, 70#256, 0#160, 5#160, 1000#256⟩, ⟨4, 1, 70#256, 5#160, 2#160, 900#256⟩, ⟨4, 2, 70#256, 2#160, 1#160, 100#256⟩]

/-- The same tokens pass through one address twice. -/
def boughtTwice : List TransferEvent :=
  [⟨4, 0, 70#256, 0#160, 2#160, 1000#256⟩, ⟨4, 1, 70#256, 2#160, 1#160, 600#256⟩, ⟨4, 2, 70#256, 1#160, 2#160, 600#256⟩,
    ⟨4, 3, 70#256, 2#160, 1#160, 600#256⟩]

theorem launch_of_pays {events : List TransferEvent} {supply : Nat}
    (hpays : Ledger.pays ZERO_ADDRESS [] (events.map TransferEvent.transfer) = true)
    (hsupply : (supply : ℤ) = Ledger.supply ZERO_ADDRESS (events.map TransferEvent.transfer)) :
    Launch [] events 9#160 (events.map (TransferEvent.toLog 9#160)) supply := by
  refine ⟨Ledger.solvent_of_pays hpays, List.filter_eq_self.mpr ?_, hsupply⟩
  intro l hl
  obtain ⟨e, _, rfl⟩ := List.mem_map.mp hl
  exact decide_eq_true ⟨rfl, rfl⟩

theorem devbuy_held_once :
    Held [] boughtOnce (computeIndexFeatures (.ok (boughtOnce.map (TransferEvent.toLog 9#160))) (.ok 1000) 9#160
        (some 2#160)) 1000 ↔
      (0 < 1000 → ∀ a, devbuyAddress [2#160, ZERO_ADDRESS, 9#160] boughtOnce = some a →
        NotPassedOn [] boughtOnce 1000 a) :=
  devbuy_held_iff (launch_of_pays (by decide +kernel) (by decide +kernel))

/-- 120 percent of the supply. -/
theorem devbuy_passed_twice :
    Launch [] boughtTwice 9#160 (boughtTwice.map (TransferEvent.toLog 9#160)) 1000 ∧
      (computeIndexFeatures (.ok (boughtTwice.map (TransferEvent.toLog 9#160))) (.ok 1000) 9#160
        (some 2#160)).creatorDevbuyPct = some 120 ∧
      ¬ Held [] boughtTwice (computeIndexFeatures (.ok (boughtTwice.map (TransferEvent.toLog 9#160))) (.ok 1000) 9#160
        (some 2#160)) 1000 := by
  have hpct : (computeIndexFeatures (.ok (boughtTwice.map (TransferEvent.toLog 9#160))) (.ok 1000) 9#160
      (some 2#160)).creatorDevbuyPct = some 120 := by
    decide +kernel
  refine ⟨launch_of_pays (by decide +kernel) (by decide +kernel), hpct, ?_⟩
  intro hheld
  have hle := (hheld.percentage 120 hpct).2
  norm_num at hle

end LaunchAuditor.Proofs.DevBuy
