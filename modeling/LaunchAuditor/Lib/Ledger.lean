import Mathlib.Algebra.BigOperators.Group.Finset.Basic
import Mathlib.Algebra.BigOperators.Group.Finset.Piecewise
import Mathlib.Algebra.BigOperators.Group.List.Basic
import Mathlib.Algebra.Order.BigOperators.Group.Finset
import Mathlib.Algebra.Ring.Int.Defs
import Mathlib.Order.Bounds.Basic
import Mathlib.Tactic.Ring

/-! The ledger of a token that is only moved. One address stands for the outside:
what comes from it is minted, what goes to it is burned, and it holds nothing. -/

namespace Ledger

structure Transfer (α : Type) where
  source : α
  target : α
  value : Nat
  deriving DecidableEq

section Balances
variable {α : Type} [DecidableEq α]

/-- What a transfer brings to some addresses, less what it takes from them. -/
def flow (s : Finset α) (t : Transfer α) : ℤ :=
  (if t.target ∈ s then (t.value : ℤ) else 0) - if t.source ∈ s then (t.value : ℤ) else 0

variable (outside : α)

def balance (history : List (Transfer α)) (a : α) : ℤ :=
  if a = outside then 0 else (history.map (flow {a})).sum

/-- What some addresses hold together. -/
def held (s : Finset α) (history : List (Transfer α)) : ℤ := ∑ a ∈ s, balance outside history a

/-- At no point has an address spent what it did not have. -/
def Solvent (history : List (Transfer α)) : Prop := ∀ earlier, earlier <+: history → ∀ a, 0 ≤ balance outside earlier a

theorem flow_eq_sum (s : Finset α) (t : Transfer α) : flow s t = ∑ a ∈ s, flow {a} t := by
  simp only [flow, Finset.mem_singleton, Finset.sum_sub_distrib]
  rw [Finset.sum_ite_eq, Finset.sum_ite_eq]

theorem sum_flow (s : Finset α) (history : List (Transfer α)) :
    ∑ a ∈ s, (history.map (flow {a})).sum = (history.map (flow s)).sum := by
  induction history with
  | nil => simp
  | cons t history ih =>
    simp only [List.map_cons, List.sum_cons, Finset.sum_add_distrib, ih]
    rw [← flow_eq_sum]

variable {outside}

/-- Transfers among the addresses cancel, and the outside never counts. -/
theorem held_eq (s : Finset α) (history : List (Transfer α)) :
    held outside s history = (history.map (flow (s.erase outside))).sum := by
  have houtside : balance outside history outside = 0 := if_pos rfl
  rw [held, ← Finset.sum_erase s houtside, ← sum_flow]
  apply Finset.sum_congr rfl
  intro a ha
  exact if_neg (Finset.ne_of_mem_erase ha)

theorem held_append (s : Finset α) (before after : List (Transfer α)) :
    held outside s (before ++ after) = held outside s before + (after.map (flow (s.erase outside))).sum := by
  rw [held_eq, held_eq, List.map_append, List.sum_append]

theorem held_nonneg {s : Finset α} {history earlier : List (Transfer α)} (h : Solvent outside history)
    (he : earlier <+: history) : 0 ≤ held outside s earlier :=
  Finset.sum_nonneg fun a _ => h earlier he a

/-- An account book that lists the outside as a holder differs by what went there. -/
theorem flow_eq (s : Finset α) (t : Transfer α) :
    flow s t = flow (s.erase outside) t + if outside ∈ s then flow {outside} t else 0 := by
  by_cases h : outside ∈ s
  · rw [if_pos h, flow_eq_sum s, flow_eq_sum (s.erase outside), Finset.sum_erase_add s _ h]
  · rw [if_neg h, Finset.erase_eq_of_notMem h, add_zero]

theorem flow_singleton_eq_zero {a : α} {t : Transfer α} :
    flow {a} t = 0 ↔ t.value = 0 ∨ (t.source = a ↔ t.target = a) := by
  simp only [flow, Finset.mem_singleton]
  by_cases hs : t.source = a <;> by_cases ht : t.target = a <;> simp [hs, ht]

theorem balance_snoc (history : List (Transfer α)) (t : Transfer α) (a : α) :
    balance outside (history ++ [t]) a = balance outside history a + if a = outside then 0 else flow {a} t := by
  unfold balance
  split
  · rfl
  · simp

theorem Solvent.snoc {history : List (Transfer α)} {t : Transfer α} (h : Solvent outside history)
    (ht : t.source = outside ∨ (t.value : ℤ) ≤ balance outside history t.source) : Solvent outside (history ++ [t]) := by
  intro earlier he a
  rcases List.prefix_concat_iff.mp he with rfl | he
  · have hbefore := h history List.prefix_rfl a
    rw [balance_snoc]
    by_cases ha : a = outside
    · rw [if_pos ha]
      omega
    · rw [if_neg ha]
      by_cases hs : t.source = a
      · rcases ht with ht | ht
        · exact absurd (hs.symm.trans ht) ha
        · rw [hs] at ht
          simp only [flow, Finset.mem_singleton, hs, if_true]
          split <;> omega
      · simp only [flow, Finset.mem_singleton, hs, if_false]
        split <;> omega
  · exact h earlier he a

theorem balance_append (before after : List (Transfer α)) (a : α) :
    balance outside (before ++ after) a = balance outside before a + balance outside after a := by
  unfold balance
  split
  · rfl
  · simp

variable (outside) in
/-- What was minted, less what was burned. -/
def supply (history : List (Transfer α)) : ℤ := -(history.map (flow {outside})).sum

/-- All the addresses together hold what was minted and not burned. -/
theorem held_eq_supply {s : Finset α} {history : List (Transfer α)}
    (hs : ∀ t ∈ history, t.source ∈ s ∧ t.target ∈ s) : held outside s history = supply outside history := by
  rw [held_eq, supply, List.sum_neg, List.map_map]
  congr 1
  apply List.map_congr_left
  intro t ht
  obtain ⟨hsource, htarget⟩ := hs t ht
  simp only [Function.comp_apply, flow, Finset.mem_erase, Finset.mem_singleton, hsource, htarget, and_true]
  by_cases hso : t.source = outside <;> by_cases hta : t.target = outside <;> simp [hso, hta]

theorem held_le_supply {history : List (Transfer α)} (h : Solvent outside history) (s : Finset α) :
    held outside s history ≤ supply outside history := by
  have hall := @held_eq_supply α _ outside
    (s ∪ ((history.map Transfer.source).toFinset ∪ (history.map Transfer.target).toFinset)) history (by
      intro t ht
      simp only [Finset.mem_union, List.mem_toFinset]
      exact ⟨Or.inr (Or.inl (List.mem_map_of_mem ht)), Or.inr (Or.inr (List.mem_map_of_mem ht))⟩)
  rw [← hall]
  exact Finset.sum_le_sum_of_subset_of_nonneg Finset.subset_union_left fun a _ _ => h history List.prefix_rfl a

/-- Nothing is held before something is minted. -/
theorem Solvent.balance_eq_zero {history : List (Transfer α)} (h : Solvent outside history)
    (hmint : ∀ t ∈ history, t.source = outside → t.value = 0) (a : α) : balance outside history a = 0 := by
  induction history using List.reverseRecOn generalizing a with
  | nil => simp [balance]
  | append_singleton history t ih =>
    have hbefore : ∀ b, balance outside history b = 0 :=
      ih (fun earlier he => h earlier (he.trans (List.prefix_append _ _))) fun u hu => hmint u (List.mem_append_left _ hu)
    rw [balance_snoc, hbefore, zero_add]
    split
    · rfl
    · by_cases hout : t.source = outside
      · exact flow_singleton_eq_zero.mpr (Or.inl (hmint t (by simp) hout))
      · -- the source has nothing to spend
        have hsource := h _ List.prefix_rfl t.source
        rw [balance_snoc, hbefore, zero_add, if_neg hout] at hsource
        rw [flow_singleton_eq_zero]
        simp only [flow, Finset.mem_singleton, if_true] at hsource
        split at hsource
        · rename_i htarget
          exact Or.inr (by rw [htarget])
        · exact Or.inl (by omega)

/-- All that ever came to an address. -/
def received (a : α) (history : List (Transfer α)) : Nat :=
  (history.map fun t => if t.target = a then t.value else 0).sum

/-- All that ever left it. -/
def sent (a : α) (history : List (Transfer α)) : Nat := (history.map fun t => if t.source = a then t.value else 0).sum

theorem received_append (a : α) (before after : List (Transfer α)) :
    received a (before ++ after) = received a before + received a after := by
  simp [received]

theorem balance_eq_received_sub_sent {a : α} (ha : a ≠ outside) (history : List (Transfer α)) :
    balance outside history a = received a history - sent a history := by
  unfold balance received sent
  rw [if_neg ha]
  induction history with
  | nil => simp
  | cons t history ih =>
    simp only [List.map_cons, List.sum_cons, ih, flow, Finset.mem_singleton]
    split <;> split <;> push_cast <;> ring

variable (outside) in
/-- Every transfer is paid from what its source then has. -/
def pays (before : List (Transfer α)) : List (Transfer α) → Bool
  | [] => true
  | t :: rest =>
    (decide (t.source = outside) || decide ((t.value : ℤ) ≤ balance outside before t.source)) &&
      pays (before ++ [t]) rest

theorem solvent_append {before rest : List (Transfer α)} (h : Solvent outside before)
    (hp : pays outside before rest = true) : Solvent outside (before ++ rest) := by
  induction rest generalizing before with
  | nil => rwa [List.append_nil]
  | cons t rest ih =>
    simp only [pays, Bool.and_eq_true, Bool.or_eq_true, decide_eq_true_eq] at hp
    simpa using ih (h.snoc hp.1) hp.2

theorem solvent_of_pays {history : List (Transfer α)} (h : pays outside [] history = true) :
    Solvent outside history := by
  have hstart : Solvent outside ([] : List (Transfer α)) := by
    intro earlier he a
    rw [List.prefix_nil.mp he]
    simp [balance]
  exact solvent_append hstart h

end Balances

section Totals

/-- The values a running total takes, its start at 0 included. -/
def totals (changes : List ℤ) : Set ℤ := {x | ∃ earlier, earlier <+: changes ∧ x = earlier.sum}

theorem sum_mem_totals (changes : List ℤ) : changes.sum ∈ totals changes := ⟨changes, List.prefix_rfl, rfl⟩

theorem zero_mem_totals (changes : List ℤ) : 0 ∈ totals changes := ⟨[], List.nil_prefix, rfl⟩

@[simp] theorem totals_nil : totals [] = {0} := by
  ext x
  simp [totals, List.prefix_nil]

theorem totals_snoc (changes : List ℤ) (d : ℤ) :
    totals (changes ++ [d]) = insert (changes.sum + d) (totals changes) := by
  ext x
  simp only [totals, List.prefix_concat_iff, Set.mem_ofPred_eq, Set.mem_insert_iff]
  constructor
  · rintro ⟨earlier, he | he, rfl⟩
    · exact Or.inl (by simp [he])
    · exact Or.inr ⟨earlier, he, rfl⟩
  · rintro (rfl | ⟨earlier, he, rfl⟩)
    · exact ⟨_, Or.inl rfl, by simp⟩
    · exact ⟨earlier, Or.inr he, rfl⟩

theorem isGreatest_totals_snoc {changes : List ℤ} {p : ℤ} (h : IsGreatest (totals changes) p) (d : ℤ) :
    IsGreatest (totals (changes ++ [d])) (max p (changes.sum + d)) := by
  rw [totals_snoc, max_comm]
  exact h.insert _

/-- Steps that change nothing may be left out. -/
theorem totals_filter {α : Type} {f : α → ℤ} {p : α → Bool} (hp : ∀ a, p a = false → f a = 0) (xs : List α) :
    ((xs.filter p).map f).sum = (xs.map f).sum ∧ totals ((xs.filter p).map f) = totals (xs.map f) := by
  induction xs using List.reverseRecOn with
  | nil => exact ⟨rfl, rfl⟩
  | append_singleton xs x ih =>
    obtain ⟨hsum, htotals⟩ := ih
    rw [List.filter_append, List.map_append, List.map_append]
    cases hx : p x with
    | true =>
      have hone : [x].filter p = [x] := by simp [hx]
      rw [hone, List.map_singleton, totals_snoc, totals_snoc, hsum, htotals, List.sum_append, List.sum_append, hsum]
      exact ⟨rfl, rfl⟩
    | false =>
      have hnone : [x].filter p = [] := by simp [hx]
      rw [hnone, List.map_nil, List.append_nil, List.map_singleton, hp x hx, totals_snoc, add_zero, hsum, htotals,
        Set.insert_eq_of_mem (sum_mem_totals _)]
      simp

end Totals

end Ledger
