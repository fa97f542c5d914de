import Mathlib.Algebra.BigOperators.Group.Finset.Basic
import Mathlib.Algebra.Order.BigOperators.Group.Finset
import Mathlib.Data.Finset.Card
import Mathlib.Order.Bounds.Basic

/-! The best choice of at most so many of some values: the first ones of the descending list. -/

namespace Largest

variable {α M : Type} [AddCommMonoid M] (value : α → M)

/-- The sums of at most `k` of the candidates. -/
def sums (k : Nat) (candidates : Set α) : Set M :=
  {x | ∃ s : Finset α, s.card ≤ k ∧ (∀ a ∈ s, a ∈ candidates) ∧ x = ∑ a ∈ s, value a}

variable {value}

theorem sum_take_mem [DecidableEq α] {xs : List α} (hnodup : xs.Nodup) (k : Nat) :
    ((xs.take k).map value).sum ∈ sums value k {a | a ∈ xs} := by
  have htake : (xs.take k).Nodup := hnodup.sublist (List.take_sublist k xs)
  refine ⟨(xs.take k).toFinset, ?_, ?_, ?_⟩
  · exact (List.toFinset_card_le _).trans (List.length_take_le k xs)
  · intro a ha
    exact List.mem_of_mem_take (List.mem_toFinset.mp ha)
  · exact (List.sum_toFinset value htake).symm

variable [LinearOrder M] [IsOrderedAddMonoid M] [DecidableEq α]

/-- No choice beats the first ones. -/
theorem sum_le_take {xs : List α} (hsorted : xs.Pairwise fun a b => value b ≤ value a) (hnonneg : ∀ a ∈ xs, 0 ≤ value a)
    {k : Nat} {s : Finset α} (hs : ∀ a ∈ s, a ∈ xs) (hk : s.card ≤ k) :
    ∑ a ∈ s, value a ≤ ((xs.take k).map value).sum := by
  induction xs generalizing k s with
  | nil =>
    have hempty : s = ∅ := Finset.eq_empty_of_forall_notMem fun a ha => List.not_mem_nil (hs a ha)
    simp [hempty]
  | cons x xs ih =>
    obtain ⟨hx, hrest⟩ := List.pairwise_cons.mp hsorted
    have hnonneg' : ∀ a ∈ xs, 0 ≤ value a := fun a ha => hnonneg a (List.mem_cons_of_mem x ha)
    cases k with
    | zero => simp [Finset.card_eq_zero.mp (Nat.le_zero.mp hk)]
    | succ k =>
      rw [List.take_succ_cons, List.map_cons, List.sum_cons]
      rcases s.eq_empty_or_nonempty with rfl | ⟨b, hb⟩
      · rw [Finset.sum_empty]
        refine add_nonneg (hnonneg x List.mem_cons_self) (List.sum_nonneg ?_)
        intro y hy
        obtain ⟨a, ha, rfl⟩ := List.mem_map.mp hy
        exact hnonneg' a (List.mem_of_mem_take ha)
      · -- the head is in the choice, or may take the place of any member
        obtain ⟨c, hc, hcx, hothers⟩ : ∃ c ∈ s, value c ≤ value x ∧ ∀ a ∈ s.erase c, a ∈ xs := by
          by_cases hxs : x ∈ s
          · refine ⟨x, hxs, le_refl _, ?_⟩
            intro a ha
            obtain ⟨hne, ha⟩ := Finset.mem_erase.mp ha
            exact (List.mem_cons.mp (hs a ha)).resolve_left hne
          · have hin : ∀ a ∈ s, a ∈ xs := by
              intro a ha
              refine (List.mem_cons.mp (hs a ha)).resolve_left ?_
              rintro rfl
              exact hxs ha
            exact ⟨b, hb, hx b (hin b hb), fun a ha => hin a (Finset.mem_of_mem_erase ha)⟩
        rw [← Finset.add_sum_erase s value hc]
        refine add_le_add hcx (ih hrest hnonneg' hothers ?_)
        rw [Finset.card_erase_of_mem hc]
        omega

theorem isGreatest_take {xs : List α} (hnodup : xs.Nodup) (hsorted : xs.Pairwise fun a b => value b ≤ value a)
    (hnonneg : ∀ a ∈ xs, 0 ≤ value a) (k : Nat) :
    IsGreatest (sums value k {a | a ∈ xs}) ((xs.take k).map value).sum := by
  refine ⟨sum_take_mem hnodup k, ?_⟩
  rintro y ⟨s, hk, hs, rfl⟩
  exact sum_le_take hsorted hnonneg hs hk

end Largest
