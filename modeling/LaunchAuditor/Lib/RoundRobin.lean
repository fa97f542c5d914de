import Mathlib.Algebra.BigOperators.Group.Finset.Basic
import Mathlib.Algebra.GroupWithZero.Nat
import Mathlib.Algebra.Order.BigOperators.Group.Finset

/-! Dealing from several lists in turn. What is dealt carries the number of the list it is from. -/

namespace RoundRobin

variable {α : Type}

/-- What list `j` has contributed, in the order of the deal. -/
def ofGroup (j : Nat) (out : List (Nat × α)) : List α := (out.filter (·.1 = j)).map Prod.snd

/-- Every element with the number of its list, counted from `k`. -/
def mark (k : Nat) : List (List α) → List (List (Nat × α))
  | [] => []
  | g :: groups => g.map (k, ·) :: mark (k + 1) groups

/-- The part of `g` that is dealt in `round` rounds, when the next one has come as far as `place`. -/
def given (round place j : Nat) (g : List α) : List α := g.take (if j < place then round + 1 else round)

/-- A deal in the middle of a round. -/
structure Dealt (groups : List (List α)) (round place : Nat) (out : List (Nat × α)) : Prop where
  marks : ∀ e ∈ out, e.1 < groups.length
  gives : ∀ j g, groups[j]? = some g → ofGroup j out = given round place j g

/-- At most `limit` elements, from each list a prefix, and evenly: of two lists one contributes
at most one element more, unless nothing is left of the other. -/
structure Shares (groups : List (List α)) (limit : Nat) (out : List (Nat × α)) : Prop where
  length : out.length = min limit (groups.map List.length).sum
  marks : ∀ e ∈ out, e.1 < groups.length
  inOrder : ∀ j g, groups[j]? = some g → ofGroup j out <+: g
  even : ∀ i j g, groups[j]? = some g →
    (ofGroup i out).length ≤ (ofGroup j out).length + 1 ∨ ofGroup j out = g

@[simp] theorem ofGroup_nil (j : Nat) : ofGroup j ([] : List (Nat × α)) = [] := rfl

theorem ofGroup_push_self (j : Nat) (out : List (Nat × α)) (a : α) :
    ofGroup j (out ++ [(j, a)]) = ofGroup j out ++ [a] := by
  simp [ofGroup]

theorem ofGroup_push_other {j k : Nat} (h : k ≠ j) (out : List (Nat × α)) (a : α) :
    ofGroup j (out ++ [(k, a)]) = ofGroup j out := by
  simp [ofGroup, h]

theorem ofGroup_length (j : Nat) (out : List (Nat × α)) : (ofGroup j out).length = (out.map Prod.fst).count j := by
  induction out with
  | nil => rfl
  | cons e out ih =>
    rw [List.map_cons, List.count_cons, ← ih]
    by_cases h : e.1 = j
    · simp [ofGroup, h]
    · simp [ofGroup, h]

/-- A mark that no list has: nothing is dealt under it. -/
theorem ofGroup_eq_nil {j n : Nat} {out : List (Nat × α)} (hmarks : ∀ e ∈ out, e.1 < n) (hj : n ≤ j) :
    ofGroup j out = [] := by
  have hnone : out.filter (fun e => decide (e.1 = j)) = [] := by
    rw [List.filter_eq_nil_iff]
    intro e he
    have := hmarks e he
    simp only [decide_eq_true_eq]
    omega
  rw [ofGroup, hnone, List.map_nil]

theorem mark_map_snd (k : Nat) (groups : List (List α)) : (mark k groups).map (List.map Prod.snd) = groups := by
  induction groups generalizing k with
  | nil => rfl
  | cons g groups ih =>
    rw [mark, List.map_cons, ih, List.map_map]
    exact congrArg (· :: groups) (List.map_id g)

/-- The elements dealt are those the lists have contributed. -/
theorem length_eq_sum {n : Nat} {out : List (Nat × α)} (hmarks : ∀ e ∈ out, e.1 < n) :
    out.length = ∑ j ∈ Finset.range n, (ofGroup j out).length := by
  have hrange : ∀ j ∈ (out.map Prod.fst : Multiset Nat), j ∈ Finset.range n := by
    intro j hj
    obtain ⟨e, he, rfl⟩ := List.mem_map.mp (Multiset.mem_coe.mp hj)
    exact Finset.mem_range.mpr (hmarks e he)
  have hcard := Multiset.sum_count_eq_card hrange
  rw [Multiset.coe_card, List.length_map] at hcard
  rw [← hcard]
  refine Finset.sum_congr rfl fun j _ => ?_
  rw [ofGroup_length, Multiset.coe_count]

theorem sum_length (groups : List (List α)) :
    ∑ j ∈ Finset.range groups.length, (groups.getD j []).length = (groups.map List.length).sum := by
  induction groups with
  | nil => rfl
  | cons g groups ih =>
    rw [List.length_cons, Finset.sum_range_succ', List.map_cons, List.sum_cons, Nat.add_comm]
    exact congrArg (g.length + ·) ih

namespace Dealt

variable {groups : List (List α)} {round place : Nat} {out : List (Nat × α)}

theorem start (groups : List (List α)) : Dealt groups 0 0 [] where
  marks := by simp
  gives := by simp [given]

/-- The list whose turn it is has one more element. -/
theorem push (h : Dealt groups round place out) {g : List α} (hg : groups[place]? = some g) {a : α}
    (ha : g[round]? = some a) : Dealt groups round (place + 1) (out ++ [(place, a)]) where
  marks := by
    intro e he
    rcases List.mem_append.mp he with he | he
    · exact h.marks e he
    · rw [List.mem_singleton.mp he]
      exact (List.getElem?_eq_some_iff.mp hg).1
  gives := by
    intro j g' hg'
    by_cases hj : place = j
    · subst hj
      obtain rfl : g = g' := Option.some.inj (hg.symm.trans hg')
      have htake : g.take (round + 1) = g.take round ++ [a] := by rw [List.take_add_one, ha, Option.toList_some]
      rw [ofGroup_push_self, h.gives place g hg, given, given, if_neg (Nat.lt_irrefl place),
        if_pos (Nat.lt_succ_self place), htake]
    · have hlt : j < place + 1 ↔ j < place := by omega
      rw [ofGroup_push_other hj, h.gives j g' hg', given, given]
      simp only [hlt]

/-- It has none, and the turn goes on. -/
theorem skip (h : Dealt groups round place out) {g : List α} (hg : groups[place]? = some g)
    (ha : g[round]? = none) : Dealt groups round (place + 1) out where
  marks := h.marks
  gives := by
    intro j g' hg'
    rw [h.gives j g' hg']
    by_cases hj : place = j
    · subst hj
      obtain rfl : g = g' := Option.some.inj (hg.symm.trans hg')
      have hlen : g.length ≤ round := List.getElem?_eq_none_iff.mp ha
      rw [given, given, if_neg (Nat.lt_irrefl place), if_pos (Nat.lt_succ_self place), List.take_of_length_le hlen,
        List.take_of_length_le (by omega)]
    · have hlt : j < place + 1 ↔ j < place := by omega
      simp only [given, hlt]

/-- A round that is over. -/
theorem wrap (h : Dealt groups round groups.length out) : Dealt groups (round + 1) 0 out where
  marks := h.marks
  gives := by
    intro j g hg
    have hj : j < groups.length := (List.getElem?_eq_some_iff.mp hg).1
    rw [h.gives j g hg, given, given, if_pos hj, if_neg (Nat.not_lt_zero j)]

theorem inOrder (h : Dealt groups round place out) {j : Nat} {g : List α} (hg : groups[j]? = some g) :
    ofGroup j out <+: g := by
  rw [h.gives j g hg]
  exact List.take_prefix _ g

/-- No list is more than one round ahead. -/
theorem length_ofGroup_le (h : Dealt groups round place out) (i : Nat) : (ofGroup i out).length ≤ round + 1 := by
  cases hg : groups[i]? with
  | none =>
    rw [ofGroup_eq_nil h.marks (List.getElem?_eq_none_iff.mp hg)]
    exact Nat.zero_le _
  | some g =>
    rw [h.gives i g hg, given, List.length_take]
    split
    · exact Nat.min_le_left ..
    · exact Nat.le_succ_of_le (Nat.min_le_left ..)

theorem even (h : Dealt groups round place out) (i : Nat) {j : Nat} {g : List α} (hg : groups[j]? = some g) :
    (ofGroup i out).length ≤ (ofGroup j out).length + 1 ∨ ofGroup j out = g := by
  have hi := h.length_ofGroup_le i
  have hj := h.gives j g hg
  have hdealt : round ≤ if j < place then round + 1 else round := by split <;> omega
  by_cases hlen : g.length ≤ round
  · exact Or.inr (hj.trans (List.take_of_length_le (Nat.le_trans hlen hdealt)))
  · left
    rw [hj, given, List.length_take]
    omega

theorem getD_inOrder (h : Dealt groups round place out) {j : Nat} (hj : j < groups.length) :
    (ofGroup j out).length ≤ (groups.getD j []).length := by
  have hg : groups[j]? = some (groups.getD j []) := by simp [hj]
  exact (h.inOrder hg).length_le

theorem length_le (h : Dealt groups round place out) : out.length ≤ (groups.map List.length).sum := by
  rw [length_eq_sum h.marks, ← sum_length]
  exact Finset.sum_le_sum fun j hj => h.getD_inOrder (Finset.mem_range.mp hj)

/-- After as many rounds as the longest list has elements, everything is dealt. -/
theorem length_eq (h : Dealt groups round place out) (hshort : ∀ g ∈ groups, g.length ≤ round) :
    out.length = (groups.map List.length).sum := by
  refine Nat.le_antisymm h.length_le ?_
  rw [length_eq_sum h.marks, ← sum_length]
  refine Finset.sum_le_sum fun j hj => ?_
  have hj : j < groups.length := Finset.mem_range.mp hj
  have hg : groups[j]? = some (groups.getD j []) := by simp [hj]
  have hlen : (groups.getD j []).length ≤ round := hshort _ (List.mem_of_getElem? hg)
  rw [h.gives j _ hg, given, List.length_take]
  split <;> omega

/-- A deal that ends: the limit is reached, or nothing is left. -/
theorem shares (h : Dealt groups round place out) {limit : Nat} (hlimit : out.length ≤ limit)
    (hend : out.length = limit ∨ ∀ g ∈ groups, g.length ≤ round) : Shares groups limit out where
  length := by
    have htotal := h.length_le
    rcases hend with hfull | hshort
    · omega
    · have := h.length_eq hshort
      omega
  marks := h.marks
  inOrder := fun _ _ => h.inOrder
  even := fun i _ _ => h.even i

end Dealt

namespace Shares

variable {groups : List (List α)} {limit : Nat} {out : List (Nat × α)}

theorem min_sum_take (groups : List (List α)) (limit : Nat) :
    min limit ((groups.map (List.take limit)).map List.length).sum = min limit (groups.map List.length).sum := by
  induction groups with
  | nil => rfl
  | cons g groups ih =>
    simp only [List.map_cons, List.sum_cons, List.length_take]
    omega

/-- A list cut at the limit is as good as the whole one. -/
theorem of_take (h : Shares (groups.map (List.take limit)) limit out) : Shares groups limit out where
  length := h.length.trans (min_sum_take groups limit)
  marks := by simpa using h.marks
  inOrder := by
    intro j g hg
    have hcut := h.inOrder j (g.take limit) (by rw [List.getElem?_map, hg, Option.map_some])
    exact hcut.trans (List.take_prefix limit g)
  even := by
    intro i j g hg
    rcases h.even i j (g.take limit) (by rw [List.getElem?_map, hg, Option.map_some]) with hle | hall
    · exact Or.inl hle
    · by_cases hlen : g.length ≤ limit
      · exact Or.inr (hall.trans (List.take_of_length_le hlen))
      · -- the list that was cut has filled the deal by itself
        left
        have hj : (ofGroup j out).length = limit := by rw [hall, List.length_take]; omega
        have hi : (ofGroup i out).length ≤ out.length := by
          rw [ofGroup, List.length_map]
          exact List.length_filter_le ..
        have hout := h.length
        omega

end Shares

end RoundRobin
