import Mathlib.Data.List.DropRight
import Mathlib.Data.List.Pairwise
import Mathlib.Order.Lattice

/-! A list kept in the order of a key, where a new element goes behind all elements
of its own key. With a rank that says who came first the order is strict. -/

namespace StableQueue

variable {α κ : Type} [LinearOrder κ] (key : α → κ) (rank : α → Nat)

/-- Walk left from the end past every element of a greater key. -/
def insert (a : α) (xs : List α) : List α :=
  xs.rdropWhile (fun x => key a < key x) ++ a :: xs.rtakeWhile (fun x => key a < key x)

/-- Smaller keys first, and of one key the smaller rank. -/
def Before (a b : α) : Prop := key a < key b ∨ (key a = key b ∧ rank a < rank b)

variable {key rank}

theorem Before.key_le {a b : α} (h : Before key rank a b) : key a ≤ key b := by
  rcases h with h | ⟨h, _⟩
  · exact h.le
  · exact h.le

theorem insert_perm (a : α) (xs : List α) : (insert key a xs).Perm (a :: xs) := by
  have hsplit : xs.rdropWhile (fun x => key a < key x) ++ xs.rtakeWhile (fun x => key a < key x) = xs :=
    List.rdropWhile_append_rtakeWhile ..
  have hmiddle : (insert key a xs).Perm
      (a :: (xs.rdropWhile (fun x => key a < key x) ++ xs.rtakeWhile (fun x => key a < key x))) :=
    List.perm_middle
  rwa [hsplit] at hmiddle

/-- What stands in front of the new element has a key at most its own. -/
theorem front_le {a x : α} {xs : List α} (h : xs.Pairwise (Before key rank))
    (hx : x ∈ xs.rdropWhile fun x => key a < key x) : key x ≤ key a := by
  have hne := List.ne_nil_of_mem hx
  have hlast := List.rdropWhile_last_not (fun x => decide (key a < key x)) xs hne
  have hfront : (xs.rdropWhile fun x => key a < key x).Pairwise fun x y => key x ≤ key y :=
    (h.sublist (List.rdropWhile_prefix _ _).sublist).imp Before.key_le
  calc key x ≤ key ((xs.rdropWhile fun x => key a < key x).getLast hne) := hfront.rel_getLast hx
    _ ≤ key a := by simpa using hlast

/-- A latecomer keeps the order strict. -/
theorem insert_pairwise {a : α} {xs : List α} (h : xs.Pairwise (Before key rank)) (ha : ∀ x ∈ xs, rank x < rank a) :
    (insert key a xs).Pairwise (Before key rank) := by
  have hsplit : xs.rdropWhile (fun x => key a < key x) ++ xs.rtakeWhile (fun x => key a < key x) = xs :=
    List.rdropWhile_append_rtakeWhile ..
  have hparts := h
  rw [← hsplit, List.pairwise_append] at hparts
  obtain ⟨hfront, hback, hcross⟩ := hparts
  refine List.pairwise_append.mpr ⟨hfront, List.pairwise_cons.mpr ⟨?_, hback⟩, ?_⟩
  · intro y hy
    have hlt := List.mem_rtakeWhile_imp hy
    exact Or.inl (by simpa using hlt)
  · intro x hx y hy
    rcases List.mem_cons.mp hy with rfl | hy
    · rcases (front_le h hx).lt_or_eq with hlt | heq
      · exact Or.inl hlt
      · exact Or.inr ⟨heq, ha x ((List.rdropWhile_prefix _ _).subset hx)⟩
    · exact hcross x hx y hy

/-- The head comes before everything else. -/
theorem head_before {a b : α} {xs : List α} (h : (a :: xs).Pairwise (Before key rank)) (hb : b ∈ a :: xs) :
    b = a ∨ Before key rank a b := by
  rcases List.mem_cons.mp hb with rfl | hb
  · exact Or.inl rfl
  · exact Or.inr ((List.pairwise_cons.mp h).1 b hb)

end StableQueue
