import LaunchAuditor.Lib.OrderedMap
import Mathlib.Algebra.BigOperators.Group.List.Basic
import Mathlib.Algebra.Order.Field.Rat
import Mathlib.Data.List.Sort
import Mathlib.Data.List.TakeWhile
import Mathlib.Tactic.FieldSimp
import Mathlib.Tactic.Linarith
import Mathlib.Tactic.Ring

/-! Ranks with ties, and the share of pairs that two samples are in order in. -/

namespace Midranks

variable {α : Type} [LinearOrder α]

/-- The groups of equal values of a sorted list, each with its average rank; `i` entries come before the list. -/
def assign : (fuel i : Nat) → List (α × Nat) → List (Nat × ℚ)
  | 0, _, _ => []
  | _ + 1, _, [] => []
  | fuel + 1, i, a :: rest =>
    let group := a :: rest.takeWhile fun b => b.1 = a.1
    -- the last of the group is at `i + group.length - 1`
    let avg : ℚ := ((i + (i + group.length - 1) : ℕ) : ℚ) / 2 + 1
    group.map (fun b => (b.2, avg)) ++ assign fuel (i + group.length) (rest.dropWhile fun b => b.1 = a.1)

/-- The average rank of every value, from 1. -/
def midranks (values : List α) : List ℚ :=
  let order := values.zipIdx.insertionSort fun a b => a.1 ≤ b.1
  let ranks := assign order.length 0 order
  (List.range values.length).map fun k => (ranks.lookup k).getD 0

def below (v : α) (values : List α) : Nat := values.countP fun w => w < v

def level (v : α) (values : List α) : Nat := values.countP fun w => w = v

/-- The rank of a value: after all the smaller ones, and in the middle of its equals. -/
def rank (v : α) (values : List α) : ℚ := below v values + ((level v values : ℚ) + 1) / 2

section Sorted

/-- What comes after the equals of the first is larger. -/
theorem dropWhile_larger {a : α × Nat} {rest : List (α × Nat)} (h : (a :: rest).Pairwise fun a b => a.1 ≤ b.1) :
    ∀ b ∈ rest.dropWhile (fun b => decide (b.1 = a.1)), a.1 < b.1 := by
  induction rest with
  | nil => exact fun b hb => nomatch hb
  | cons c rest ih =>
    obtain ⟨hle, hsorted⟩ := List.pairwise_cons.mp h
    by_cases hc : c.1 = a.1
    · rw [List.dropWhile_cons_of_pos (by simpa using hc)]
      apply ih
      exact List.pairwise_cons.mpr ⟨fun b hb => hle b (List.mem_cons_of_mem c hb), (List.pairwise_cons.mp hsorted).2⟩
    · rw [List.dropWhile_cons_of_neg (by simpa using hc)]
      have hlt : a.1 < c.1 := lt_of_le_of_ne (hle c List.mem_cons_self) (Ne.symm hc)
      intro b hb
      rcases List.mem_cons.mp hb with rfl | hb
      · exact hlt
      · exact lt_of_lt_of_le hlt ((List.pairwise_cons.mp hsorted).1 b hb)

theorem below_append (v : α) (xs ys : List α) : below v (xs ++ ys) = below v xs + below v ys := List.countP_append

theorem level_append (v : α) (xs ys : List α) : level v (xs ++ ys) = level v xs + level v ys := List.countP_append

theorem below_zero {v : α} {values : List α} (h : ∀ w ∈ values, v ≤ w) : below v values = 0 := by
  rw [below, List.countP_eq_zero]
  intro w hw
  simpa using h w hw

theorem below_all {v : α} {values : List α} (h : ∀ w ∈ values, w < v) : below v values = values.length := by
  rw [below, List.countP_eq_length]
  intro w hw
  simpa using h w hw

theorem level_zero {v : α} {values : List α} (h : ∀ w ∈ values, w ≠ v) : level v values = 0 := by
  rw [level, List.countP_eq_zero]
  intro w hw
  simpa using h w hw

theorem level_all {v : α} {values : List α} (h : ∀ w ∈ values, w = v) : level v values = values.length := by
  rw [level, List.countP_eq_length]
  intro w hw
  simpa using h w hw

/-- Of a sorted list every entry gets its rank. -/
theorem assign_eq (fuel i : Nat) (l : List (α × Nat)) (hfuel : l.length ≤ fuel) (h : l.Pairwise fun a b => a.1 ≤ b.1) :
    assign fuel i l = l.map fun a => (a.2, (i : ℚ) + rank a.1 (l.map Prod.fst)) := by
  induction fuel generalizing i l with
  | zero =>
    rw [List.length_eq_zero_iff.mp (Nat.le_zero.mp hfuel)]
    rfl
  | succ fuel ih =>
    cases l with
    | nil => rfl
    | cons a rest =>
      have hlarger := dropWhile_larger h
      have hequal : ∀ b ∈ rest.takeWhile (fun b => decide (b.1 = a.1)), b.1 = a.1 :=
        fun b hb => by simpa using List.mem_takeWhile_imp hb
      have hsplit : rest = rest.takeWhile (fun b => decide (b.1 = a.1)) ++ rest.dropWhile (fun b => decide (b.1 = a.1)) :=
        List.takeWhile_append_dropWhile.symm
      unfold assign
      dsimp only
      generalize rest.takeWhile (fun b => decide (b.1 = a.1)) = equals at *
      generalize rest.dropWhile (fun b => decide (b.1 = a.1)) = later at *
      subst hsplit
      have hgroup : ∀ w ∈ (a :: equals).map Prod.fst, w = a.1 := by
        intro w hw
        obtain ⟨b, hb, rfl⟩ := List.mem_map.mp hw
        rcases List.mem_cons.mp hb with rfl | hb
        · rfl
        · exact hequal b hb
      have hlater : ∀ w ∈ later.map Prod.fst, a.1 < w := by
        intro w hw
        obtain ⟨b, hb, rfl⟩ := List.mem_map.mp hw
        exact hlarger b hb
      have hrest := ih (i + (a :: equals).length) later (by simp at hfuel ⊢; omega)
        ((List.pairwise_cons.mp h).2.sublist (List.sublist_append_right equals later))
      rw [hrest, ← List.cons_append, List.map_append, List.map_append]
      congr 1
      · apply List.map_congr_left
        intro b hb
        have hb' : b.1 = a.1 := hgroup b.1 (List.mem_map_of_mem hb)
        have hbelow : below b.1 ((a :: equals).map Prod.fst ++ later.map Prod.fst) = 0 := by
          rw [hb']
          apply below_zero
          intro w hw
          rcases List.mem_append.mp hw with hw | hw
          · exact (hgroup w hw).ge
          · exact (hlater w hw).le
        have hlevel : level b.1 ((a :: equals).map Prod.fst ++ later.map Prod.fst) = (a :: equals).length := by
          rw [hb', level_append, level_all hgroup, level_zero fun w hw => (hlater w hw).ne', List.length_map, Nat.add_zero]
        rw [rank, hbelow, hlevel, List.length_cons, Nat.add_sub_assoc (by omega)]
        push_cast
        congr 1
        ring
      · apply List.map_congr_left
        intro b hb
        have hb' : a.1 < b.1 := hlarger b hb
        have hbelow : below b.1 ((a :: equals).map Prod.fst) = (a :: equals).length := by
          rw [below_all, List.length_map]
          intro w hw
          rw [hgroup w hw]
          exact hb'
        have hlevel : level b.1 ((a :: equals).map Prod.fst) = 0 := by
          apply level_zero
          intro w hw
          rw [hgroup w hw]
          exact hb'.ne
        rw [rank, rank, below_append, level_append, hbelow, hlevel]
        push_cast
        congr 1
        ring

end Sorted

theorem rank_perm {xs ys : List α} (h : xs.Perm ys) (v : α) : rank v xs = rank v ys := by
  unfold rank below level
  rw [h.countP_eq, h.countP_eq]

/-- The algorithm gives every value its rank. -/
theorem midranks_eq (values : List α) : midranks values = values.map fun v => rank v values := by
  have htotal : Std.Total fun a b : α × Nat => a.1 ≤ b.1 := ⟨fun a b => le_total a.1 b.1⟩
  have htrans : IsTrans (α × Nat) fun a b => a.1 ≤ b.1 := ⟨fun _ _ _ hab hbc => le_trans hab hbc⟩
  unfold midranks
  dsimp only
  have hsorted := List.pairwise_insertionSort (fun a b : α × Nat => a.1 ≤ b.1) values.zipIdx
  have hperm := List.perm_insertionSort (fun a b : α × Nat => a.1 ≤ b.1) values.zipIdx
  generalize values.zipIdx.insertionSort (fun a b : α × Nat => a.1 ≤ b.1) = order at *
  have hvalues : (order.map Prod.fst).Perm values := by
    have hmap := hperm.map Prod.fst
    rwa [List.zipIdx_map_fst] at hmap
  have hassign : assign order.length 0 order = order.map fun a => (a.2, rank a.1 values) := by
    rw [assign_eq order.length 0 order (Nat.le_refl _) hsorted]
    apply List.map_congr_left
    intro a _
    rw [rank_perm hvalues, Nat.cast_zero, zero_add]
  have hkeys : (OrderedMap.keys (order.map fun a => (a.2, rank a.1 values))).Nodup := by
    have hmap := hperm.map Prod.snd
    rw [List.zipIdx_map_snd] at hmap
    have hkeys : OrderedMap.keys (order.map fun a => (a.2, rank a.1 values)) = order.map Prod.snd := by
      rw [OrderedMap.keys, List.map_map]
      rfl
    rw [hkeys, hmap.nodup_iff]
    exact List.nodup_range'
  apply List.ext_getElem
  · simp
  · intro k hk hk'
    have hlt : k < values.length := by simpa using hk'
    have hentry : (k, rank values[k] values) ∈ order.map fun a => (a.2, rank a.1 values) := by
      have hmem : (values[k], k) ∈ order := by
        rw [hperm.mem_iff]
        exact List.mem_zipIdx_iff_getElem?.mpr (List.getElem?_eq_getElem hlt)
      exact List.mem_map_of_mem (f := fun a => (a.2, rank a.1 values)) hmem
    rw [List.getElem_map, List.getElem_map, List.getElem_range, hassign, (OrderedMap.mem_iff_lookup hkeys).mp hentry,
      Option.getD_some]

/-- Whether the first of two is the larger, half for a tie. -/
def inOrder (p n : α) : ℚ := if n < p then 1 else if n = p then 1 / 2 else 0

def pairSum (pos neg : List α) : ℚ := (pos.map fun p => (neg.map (inOrder p)).sum).sum

/-- The share of the pairs that are in order. -/
def auc (pos neg : List α) : ℚ := pairSum pos neg / (pos.length * neg.length)

theorem inOrder_add (p q : α) : inOrder p q + inOrder q p = 1 := by
  unfold inOrder
  rcases lt_trichotomy p q with h | h | h
  · rw [if_neg h.not_gt, if_neg h.ne', if_pos h, zero_add]
  · subst h
    norm_num
  · rw [if_pos h, if_neg h.not_gt, if_neg h.ne', add_zero]

/-- The rank of a value counts the pairs it makes. -/
theorem rank_eq_sum (v : α) (values : List α) : rank v values = (values.map (inOrder v)).sum + 1 / 2 := by
  have hsum : (below v values : ℚ) + level v values / 2 = (values.map (inOrder v)).sum := by
    induction values with
    | nil => simp [below, level]
    | cons w values ih =>
      rw [List.map_cons, List.sum_cons, ← ih]
      unfold below level inOrder
      rw [List.countP_cons, List.countP_cons]
      by_cases hlt : w < v
      · simp [hlt, hlt.ne]
        ring
      · by_cases heq : w = v
        · simp [heq]
          ring
        · simp [hlt, heq]
  rw [← hsum, rank]
  ring

theorem sum_map_add_const {β : Type} (xs : List β) (f : β → ℚ) (c : ℚ) :
    (xs.map fun x => f x + c).sum = (xs.map f).sum + xs.length * c := by
  induction xs with
  | nil => simp
  | cons x xs ih =>
    simp only [List.map_cons, List.sum_cons, List.length_cons]
    rw [ih]
    push_cast
    ring

theorem pairSum_append (pos xs ys : List α) : pairSum pos (xs ++ ys) = pairSum pos xs + pairSum pos ys := by
  unfold pairSum
  rw [← List.sum_map_add]
  simp

/-- Within one sample half of the pairs are in order. -/
theorem pairSum_self (xs : List α) : pairSum xs xs = (xs.length : ℚ) ^ 2 / 2 := by
  induction xs with
  | nil => simp [pairSum]
  | cons x xs ih =>
    have hcross : (xs.map (inOrder x)).sum + (xs.map fun p => inOrder p x).sum = xs.length := by
      rw [← List.sum_map_add]
      simp [inOrder_add]
    have hdiag : inOrder x x = 1 / 2 := by simp [inOrder]
    have hsplit : pairSum (x :: xs) (x :: xs) =
        inOrder x x + (xs.map (inOrder x)).sum + ((xs.map fun p => inOrder p x).sum + pairSum xs xs) := by
      unfold pairSum
      simp only [List.map_cons, List.sum_cons]
      rw [List.sum_map_add]
    rw [hsplit, ih, hdiag, List.length_cons]
    push_cast
    linarith

/-- The rank-sum identity. -/
theorem rankSum_eq (pos neg : List α) :
    (pos.map fun p => rank p (pos ++ neg)).sum = pairSum pos neg + pos.length * (pos.length + 1) / 2 := by
  have hranks : (pos.map fun p => rank p (pos ++ neg)).sum = pairSum pos (pos ++ neg) + pos.length * (1 / 2) := by
    rw [pairSum, ← sum_map_add_const]
    apply congrArg List.sum
    apply List.map_congr_left
    intro p _
    exact rank_eq_sum p (pos ++ neg)
  rw [hranks, pairSum_append, pairSum_self]
  ring

end Midranks
