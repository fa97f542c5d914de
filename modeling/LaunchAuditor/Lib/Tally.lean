import LaunchAuditor.Lib.OrderedMap
import Mathlib.Algebra.BigOperators.Group.List.Basic
import Mathlib.Algebra.GroupWithZero.Nat
import Mathlib.Algebra.Order.Monoid.Defs

/-! What the rows of a table that meet a condition add up to. -/

namespace Tally

variable {ρ M : Type} [AddCommMonoid M] (f : ρ → M)

def tally (p : ρ → Bool) (rows : List ρ) : M := ((rows.filter p).map f).sum

variable {f} {p q : ρ → Bool}

theorem tally_cons (r : ρ) (rows : List ρ) : tally f p (r :: rows) = (if p r then f r else 0) + tally f p rows := by
  unfold tally
  cases hp : p r with
  | true => simp [hp]
  | false => simp [hp]

theorem tally_append (xs ys : List ρ) : tally f p (xs ++ ys) = tally f p xs + tally f p ys := by
  simp [tally]

/-- A change of the rows that leaves their figures alone. -/
theorem tally_map {g : ρ → ρ} (hg : ∀ r, f (g r) = f r) (rows : List ρ) :
    tally f p (rows.map g) = tally f (fun r => p (g r)) rows := by
  induction rows with
  | nil => rfl
  | cons r rows ih => rw [List.map_cons, tally_cons, tally_cons, ih, hg]

theorem tally_congr {rows : List ρ} (h : ∀ r ∈ rows, p r = q r) : tally f p rows = tally f q rows := by
  unfold tally
  rw [List.filter_congr h]

theorem tally_none {rows : List ρ} (h : ∀ r ∈ rows, p r = false) : tally f p rows = 0 := by
  have hempty : rows.filter p = [] := List.filter_eq_nil_iff.mpr fun r hr => by simp [h r hr]
  simp [tally, hempty]

/-- Two conditions that no row meets both of. -/
theorem tally_or {rows : List ρ} (h : ∀ r ∈ rows, p r = true → q r = false) :
    tally f (fun r => p r || q r) rows = tally f p rows + tally f q rows := by
  induction rows with
  | nil => simp [tally]
  | cons r rows ih =>
    have hrest := ih fun x hx => h x (List.mem_cons_of_mem _ hx)
    rw [tally_cons, tally_cons, tally_cons, hrest]
    cases hp : p r with
    | true =>
      rw [h r List.mem_cons_self hp]
      simp [add_assoc]
    | false =>
      cases hq : q r with
      | true => simp [add_left_comm]
      | false => simp

/-- More rows with figures that are not negative. -/
theorem tally_le {M : Type} [AddCommMonoid M] [PartialOrder M] [IsOrderedAddMonoid M] {f : ρ → M} {p q : ρ → Bool}
    {rows : List ρ} (hf : ∀ r ∈ rows, 0 ≤ f r) (h : ∀ r ∈ rows, p r = true → q r = true) :
    tally f p rows ≤ tally f q rows := by
  induction rows with
  | nil => exact le_rfl
  | cons r rows ih =>
    have hrest := ih (fun x hx => hf x (List.mem_cons_of_mem _ hx)) (fun x hx => h x (List.mem_cons_of_mem _ hx))
    rw [tally_cons, tally_cons]
    apply add_le_add _ hrest
    cases hp : p r with
    | true => simp [h r List.mem_cons_self hp]
    | false =>
      cases q r with
      | true => simpa using hf r List.mem_cons_self
      | false => exact le_rfl

end Tally

namespace Counts
open Tally

variable {κ : Type} [DecidableEq κ]

def increment (k : κ) (counts : List (κ × Nat)) : List (κ × Nat) := OrderedMap.alter k (fun n => n.getD 0 + 1) counts

/-- Every key is counted as often as it comes. -/
def count (keys : List κ) : List (κ × Nat) := keys.foldl (fun counts k => increment k counts) []

def counter (counts : List (κ × Nat)) (k : κ) : Nat := (counts.lookup k).getD 0

/-- The sum of the counters whose keys meet a condition. -/
def total (counts : List (κ × Nat)) (p : κ → Bool) : Nat := tally Prod.snd (fun e => p e.1) counts

theorem counter_increment (k l : κ) (counts : List (κ × Nat)) :
    counter (increment k counts) l = counter counts l + if l = k then 1 else 0 := by
  unfold counter increment
  rw [OrderedMap.lookup_alter]
  by_cases h : l = k
  · subst h
    simp
  · simp [h]

theorem total_increment (k : κ) (counts : List (κ × Nat)) (p : κ → Bool) :
    total (increment k counts) p = total counts p + if p k then 1 else 0 := by
  unfold total increment
  induction counts with
  | nil =>
    change tally Prod.snd _ [(k, 1)] = _
    rw [tally_cons, Nat.add_comm]
  | cons e counts ih =>
    obtain ⟨l, n⟩ := e
    unfold OrderedMap.alter
    by_cases h : l = k
    · subst h
      rw [if_pos rfl, tally_cons, tally_cons]
      cases p l with
      | true => simp; omega
      | false => simp
    · rw [if_neg h, tally_cons, tally_cons, ih, Nat.add_assoc]

theorem counter_count (keys : List κ) (k : κ) : counter (count keys) k = keys.countP fun l => decide (l = k) := by
  have hfold : ∀ counts : List (κ × Nat), counter (keys.foldl (fun counts k => increment k counts) counts) k =
      counter counts k + keys.countP fun l => decide (l = k) := by
    induction keys with
    | nil => simp
    | cons l keys ih =>
      intro counts
      rw [List.foldl_cons, ih, counter_increment, List.countP_cons]
      by_cases h : l = k
      · subst h
        simp
        omega
      · simp [h, Ne.symm h]
  rw [count, hfold]
  simp [counter]

theorem total_count (keys : List κ) (p : κ → Bool) : total (count keys) p = keys.countP p := by
  have hfold : ∀ counts : List (κ × Nat), total (keys.foldl (fun counts k => increment k counts) counts) p =
      total counts p + keys.countP p := by
    induction keys with
    | nil => simp
    | cons l keys ih =>
      intro counts
      rw [List.foldl_cons, ih, total_increment, List.countP_cons]
      omega
  rw [count, hfold]
  simp [total, tally]

/-- Entries that each add one, or nothing. -/
theorem countP_flatMap_one {α β : Type} {p : β → Bool} {q : α → Bool} {g : α → List β} {xs : List α}
    (h : ∀ x ∈ xs, (g x).countP p = if q x then 1 else 0) : (xs.flatMap g).countP p = xs.countP q := by
  induction xs with
  | nil => rfl
  | cons x xs ih =>
    rw [List.flatMap_cons, List.countP_append, List.countP_cons, h x List.mem_cons_self,
      ih fun y hy => h y (List.mem_cons_of_mem x hy), Nat.add_comm]

/-- Rows counted part by part, by a key. -/
theorem sum_countP_parts {α : Type} (key : α → κ) (p : α → Bool) {ks : List κ} (h : ks.Nodup) (rows : List α) :
    (ks.map fun k => rows.countP fun r => decide (key r = k) && p r).sum = rows.countP fun r => decide (key r ∈ ks) && p r := by
  induction ks with
  | nil => simp
  | cons k ks ih =>
    obtain ⟨hk, hks⟩ := List.nodup_cons.mp h
    rw [List.map_cons, List.sum_cons, ih hks]
    clear ih
    induction rows with
    | nil => rfl
    | cons r rows ihr =>
      rw [List.countP_cons, List.countP_cons, List.countP_cons, ← ihr]
      by_cases he : key r = k
      · -- a row of this part is in no other
        have hout : key r ∉ ks := he ▸ hk
        simp [he, hk]
        omega
      · simp [he]
        omega

end Counts
