import Mathlib.Algebra.GroupWithZero.Nat
import Mathlib.Data.List.Perm.Basic
import Mathlib.Data.List.Basic

/-! A list of slots of which one is replaced at a time. -/

namespace Slots

variable {α β : Type} {xs : List α} {i : Nat} {x : α}

theorem split (h : xs[i]? = some x) : ∃ before after, xs = before ++ x :: after ∧
    ∀ y, xs.set i y = before ++ y :: after := by
  induction xs generalizing i with
  | nil => simp at h
  | cons a xs ih =>
    cases i with
    | zero =>
      obtain rfl : a = x := by simpa using h
      exact ⟨[], xs, rfl, fun _ => rfl⟩
    | succ i =>
      obtain ⟨before, after, hxs, hset⟩ := ih (by simpa using h)
      exact ⟨a :: before, after, by rw [hxs]; rfl, fun y => by rw [List.set_cons_succ, hset]; rfl⟩

theorem mem_set {z : α} (h : xs[i]? = some x) (hx : z ≠ x) (y : α) : z ∈ xs.set i y ↔ z ∈ xs ∨ z = y := by
  obtain ⟨before, after, hxs, hset⟩ := split h
  rw [hset, hxs]
  simp only [List.mem_append, List.mem_cons, hx, false_or]
  constructor
  · rintro (hz | hz | hz)
    · exact .inl (.inl hz)
    · exact .inr hz
    · exact .inl (.inr hz)
  · rintro ((hz | hz) | hz)
    · exact .inl hz
    · exact .inr (.inr hz)
    · exact .inr (.inl hz)

/-- What holds of every slot when one of them is replaced, from what that one needs. -/
theorem forall_set {P : α → Prop} {Q : Prop} (h : xs[i]? = some x) {y : α} (hy : P y ↔ P x ∧ Q) :
    (∀ z ∈ xs.set i y, P z) ↔ (∀ z ∈ xs, P z) ∧ Q := by
  obtain ⟨before, after, hxs, hset⟩ := split h
  rw [hset, hxs]
  simp only [List.forall_mem_append, List.forall_mem_cons, hy]
  constructor
  · exact fun ⟨hb, ⟨hx, hq⟩, ha⟩ => ⟨⟨hb, hx, ha⟩, hq⟩
  · exact fun ⟨⟨hb, hx, ha⟩, hq⟩ => ⟨hb, ⟨hx, hq⟩, ha⟩

/-- A sum over the slots changes by what the slot held and holds. -/
theorem sum_set (f : α → Nat) (h : xs[i]? = some x) (y : α) :
    ((xs.set i y).map f).sum + f x = (xs.map f).sum + f y := by
  obtain ⟨before, after, hxs, hset⟩ := split h
  rw [hset, hxs]
  simp only [List.map_append, List.map_cons, List.sum_append, List.sum_cons]
  omega

/-- So do the contents of the slots, up to their order. -/
theorem flatMap_set_perm (g : α → List β) (h : xs[i]? = some x) (y : α) :
    (g x ++ (xs.set i y).flatMap g).Perm (g y ++ xs.flatMap g) := by
  obtain ⟨before, after, hxs, hset⟩ := split h
  rw [hset, hxs]
  simp only [List.flatMap_append, List.flatMap_cons]
  calc (g x ++ (before.flatMap g ++ (g y ++ after.flatMap g))).Perm
        (g x ++ (g y ++ (before.flatMap g ++ after.flatMap g))) :=
      (List.perm_append_comm_assoc _ _ _).append_left _
    _ |>.Perm (g y ++ (g x ++ (before.flatMap g ++ after.flatMap g))) := List.perm_append_comm_assoc _ _ _
    _ |>.Perm (g y ++ (before.flatMap g ++ (g x ++ after.flatMap g))) :=
      (List.perm_append_comm_assoc _ _ _).append_left _

end Slots

namespace Pieces

variable {α β : Type}

/-- Sums that agree although no term of the one exceeds that of the other agree term by term. -/
theorem sum_eq_of_le {xs : List α} {f g : α → Nat} (hle : ∀ x ∈ xs, f x ≤ g x)
    (h : (xs.map f).sum = (xs.map g).sum) : ∀ x ∈ xs, f x = g x := by
  have htotal : ∀ ys : List α, (∀ x ∈ ys, f x ≤ g x) → (ys.map f).sum ≤ (ys.map g).sum := by
    intro ys hys
    induction ys with
    | nil => exact Nat.le_refl _
    | cons y ys ih =>
      obtain ⟨hy, hys⟩ := List.forall_mem_cons.mp hys
      simp only [List.map_cons, List.sum_cons]
      exact Nat.add_le_add hy (ih hys)
  induction xs with
  | nil => simp
  | cons x xs ih =>
    obtain ⟨hx, hxs⟩ := List.forall_mem_cons.mp hle
    have hrest := htotal xs hxs
    simp only [List.map_cons, List.sum_cons] at h
    exact List.forall_mem_cons.mpr ⟨by omega, ih hxs (by omega)⟩

/-- Pieces that are parts of other pieces make up the same list only if they are the same. -/
theorem flatMap_eq_iff {xs : List α} {f g : α → List β} (hpart : ∀ x ∈ xs, (f x).Sublist (g x)) :
    xs.flatMap f = xs.flatMap g ↔ ∀ x ∈ xs, f x = g x := by
  constructor
  · intro h x hx
    have hlen := congrArg List.length h
    rw [List.length_flatMap, List.length_flatMap] at hlen
    exact (hpart x hx).eq_of_length (sum_eq_of_le (fun y hy => (hpart y hy).length_le) hlen x hx)
  · intro h
    simp only [List.flatMap]
    rw [List.map_congr_left h]

/-- The pieces between two places. -/
theorem slice_flatMap (xs : List α) (f : α → List β) {first last : Nat} (h : first ≤ last) :
    ((xs.take last).drop first).flatMap f =
      (List.range' first (last - first)).flatMap fun n => (xs[n]?.map f).getD [] := by
  obtain ⟨k, rfl⟩ := Nat.exists_eq_add_of_le h
  rw [Nat.add_sub_cancel_left]
  clear h
  induction k generalizing first with
  | zero =>
    have hlen : (xs.take first).length ≤ first := by
      rw [List.length_take]
      omega
    simp [List.drop_eq_nil_of_le hlen]
  | succ k ih =>
    rw [List.range'_succ, List.flatMap_cons, show first + (k + 1) = first + 1 + k by omega, ← ih]
    cases hx : xs[first]? with
    | none =>
      have hlen : xs.length ≤ first := by simpa using hx
      have hdrop : ∀ m, first ≤ m → (xs.take (first + 1 + k)).drop m = [] := by
        intro m hm
        apply List.drop_eq_nil_of_le
        rw [List.length_take]
        omega
      simp [hdrop first (Nat.le_refl _), hdrop (first + 1) (Nat.le_succ _)]
    | some x =>
      obtain ⟨hlt, hget⟩ := List.getElem?_eq_some_iff.mp hx
      have htake : first < (xs.take (first + 1 + k)).length := by
        rw [List.length_take]
        omega
      rw [List.drop_eq_getElem_cons htake, List.getElem_take, hget]
      simp

/-- A stretch of places as a choice among all of them. -/
theorem range'_flatMap_eq (f : Nat → List β) {first last : Nat} (h : first ≤ last) :
    (List.range' first (last - first)).flatMap f =
      (List.range last).flatMap fun n => if first ≤ n then f n else [] := by
  have hsplit : List.range last = List.range' 0 first ++ List.range' first (last - first) := by
    have happend := @List.range'_append_1 0 first (last - first)
    rw [Nat.zero_add, Nat.add_sub_cancel' h] at happend
    rw [List.range_eq_range', happend]
  have hbelow : ((List.range' 0 first).flatMap fun n => if first ≤ n then f n else []) = [] := by
    refine List.flatMap_eq_nil_iff.mpr fun n hn => if_neg ?_
    have := List.mem_range'_1.mp hn
    omega
  rw [hsplit, List.flatMap_append, hbelow, List.nil_append]
  simp only [List.flatMap]
  refine congrArg List.flatten (List.map_congr_left fun n hn => ?_)
  rw [if_pos (List.mem_range'_1.mp hn).1]

end Pieces
