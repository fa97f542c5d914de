import Mathlib.Data.List.Sort
import Mathlib.Order.Basic

/-! Pages of a table in descending order of a key, each from below the last key of the page before.
Rows above all the keys there may be added while the pages are read. -/

namespace Keyset

variable {α κ : Type} [LinearOrder κ] (key : α → κ)

/-- The greatest key first. -/
def ordered (rows : List α) : List α := rows.insertionSort fun a b => key b ≤ key a

/-- Everything is below no key. -/
def below (before : Option κ) (rows : List α) : List α := rows.filter fun a => before.all fun c => decide (key a < c)

def page (limit : Nat) (before : Option κ) (rows : List α) : List α := (ordered key (below key before rows)).take limit

/-- A full page has a next one. -/
def next (limit : Nat) (rows : List α) : Option κ := if rows.length = limit then rows.getLast?.map key else none

/-- The pages from the `k`-th request on, each with the rows and the limit of its time. -/
def walk (rows : Nat → List α) (limits : Nat → Nat) : Nat → Nat → Option κ → Option (List (List α))
  | 0, _, _ => none
  | fuel + 1, k, before =>
    let p := page key (limits k) before (rows k)
    match next key (limits k) p with
    | none => some [p]
    | some c => (walk rows limits fuel (k + 1) (some c)).map fun pages => p :: pages

/-- The later rows have the keys of the earlier ones, and others above them. -/
def Grown (earlier later : List α) : Prop :=
  ∃ new : List κ, (later.map key).Perm (earlier.map key ++ new) ∧ ∀ a ∈ earlier, ∀ c ∈ new, key a < c

/-- The keys that a request can still see, in their order. -/
def keysBelow (before : Option κ) (rows : List α) : List κ := (ordered key (below key before rows)).map key

variable {key} {rows earlier later : List α} {before : Option κ}

theorem Grown.refl (rows : List α) : Grown key rows rows := ⟨[], by simp, by simp⟩

theorem Grown.trans (h : Grown key earlier rows) (h' : Grown key rows later) : Grown key earlier later := by
  obtain ⟨new, hperm, habove⟩ := h
  obtain ⟨new', hperm', habove'⟩ := h'
  refine ⟨new ++ new', ?_, ?_⟩
  · rw [← List.append_assoc]
    exact hperm'.trans (hperm.append_right new')
  · intro a ha c hc
    rcases List.mem_append.mp hc with hc | hc
    · exact habove a ha c hc
    · have hkey : key a ∈ rows.map key := hperm.mem_iff.mpr (List.mem_append_left _ (List.mem_map_of_mem ha))
      obtain ⟨b, hb, heq⟩ := List.mem_map.mp hkey
      rw [← heq]
      exact habove' b hb c hc

theorem grown_from {rows : Nat → List α} (h : ∀ k, Grown key (rows k) (rows (k + 1))) (k : Nat) :
    Grown key (rows 0) (rows k) := by
  induction k with
  | zero => exact Grown.refl _
  | succ k ih => exact ih.trans (h k)

theorem keysBelow_perm (key : α → κ) (before : Option κ) (rows : List α) :
    (keysBelow key before rows).Perm ((rows.map key).filter fun c' => before.all fun c => decide (c' < c)) := by
  rw [List.filter_map]
  exact (List.perm_insertionSort _ _).map key

theorem keysBelow_sorted (before : Option κ) (rows : List α) :
    (keysBelow key before rows).Pairwise fun c c' => c' ≤ c := by
  rw [keysBelow, List.pairwise_map]
  exact List.pairwise_insertionSort _ _

/-- Sorted keys are the ones of their multiset. -/
theorem keysBelow_eq {keys : List κ} (hsorted : keys.Pairwise fun c c' => c' < c)
    (hperm : ((rows.map key).filter fun c' => before.all fun c => decide (c' < c)).Perm keys) :
    keysBelow key before rows = keys := by
  have hle : keys.Pairwise fun c c' : κ => c' ≤ c := hsorted.imp le_of_lt
  exact ((keysBelow_perm key before rows).trans hperm).eq_of_pairwise (fun _ _ _ _ h h' => le_antisymm h' h)
    (keysBelow_sorted before rows) hle

/-- The keys of the start, the greatest first. -/
theorem keysBelow_none_perm (key : α → κ) (rows : List α) : (keysBelow key none rows).Perm (rows.map key) := by
  simpa using keysBelow_perm key none rows

theorem keysBelow_none_sorted (hnodup : (rows.map key).Nodup) :
    (keysBelow key none rows).Pairwise fun c c' => c' < c := by
  have hne : (keysBelow key none rows).Pairwise (· ≠ ·) := (keysBelow_none_perm key rows).nodup_iff.mpr hnodup
  exact ((keysBelow_sorted none rows).and hne).imp fun h => lt_of_le_of_ne h.1 h.2.symm

theorem filter_lt_of_sorted {seen rest : List κ} {c : κ} (h : (seen ++ c :: rest).Pairwise fun c c' => c' < c) :
    ((seen ++ c :: rest).filter fun c' => decide (c' < c)) = rest := by
  obtain ⟨_, hrest, hseen⟩ := List.pairwise_append.mp h
  have hnone : (seen.filter fun c' => decide (c' < c)) = [] := by
    apply List.filter_eq_nil_iff.mpr
    intro c' hc'
    simpa using le_of_lt (hseen c' hc' c List.mem_cons_self)
  have hall : (rest.filter fun c' => decide (c' < c)) = rest := by
    apply List.filter_eq_self.mpr
    intro c' hc'
    simpa using (List.pairwise_cons.mp hrest).1 c' hc'
  rw [List.filter_append, hnone, List.nil_append, List.filter_cons_of_neg (by simp), hall]

/-- What is below a key of the start does not change. -/
theorem keysBelow_grown {seen rest : List κ} {c : κ} (hnodup : (earlier.map key).Nodup) (h : Grown key earlier later)
    (hkeys : keysBelow key none earlier = seen ++ c :: rest) : keysBelow key (some c) later = rest := by
  obtain ⟨new, hperm, habove⟩ := h
  have hsorted := keysBelow_none_sorted hnodup
  have hstart := keysBelow_none_perm key earlier
  rw [hkeys] at hsorted hstart
  have hnew : (new.filter fun c' => decide (c' < c)) = [] := by
    apply List.filter_eq_nil_iff.mpr
    intro c' hc'
    have hc : c ∈ earlier.map key := hstart.mem_iff.mp (by simp)
    obtain ⟨a, ha, rfl⟩ := List.mem_map.mp hc
    simpa using le_of_lt (habove a ha c' hc')
  apply keysBelow_eq (List.pairwise_cons.mp (List.pairwise_append.mp hsorted).2.1).2
  have hfilter := hperm.filter fun c' => decide (c' < c)
  rw [List.filter_append, hnew, List.append_nil] at hfilter
  refine hfilter.trans ?_
  have hfilter' := (hstart.filter fun c' => decide (c' < c)).symm
  rwa [filter_lt_of_sorted hsorted] at hfilter'

theorem page_keys (key : α → κ) (limit : Nat) (before : Option κ) (rows : List α) :
    (page key limit before rows).map key = (keysBelow key before rows).take limit := by
  rw [page, keysBelow, List.map_take]

/-- The last page holds all that is left, and another one less than that. -/
theorem next_cases (key : α → κ) {limit : Nat} (hlimit : 0 < limit) (before : Option κ) (rows : List α) :
    (next key limit (page key limit before rows) = none ∧
      (page key limit before rows).map key = keysBelow key before rows) ∨
    ∃ c seen rest, next key limit (page key limit before rows) = some c ∧
      keysBelow key before rows = seen ++ c :: rest ∧ (page key limit before rows).map key = seen ++ [c] := by
  have hkeys := page_keys key limit before rows
  by_cases hfull : (page key limit before rows).length = limit
  · right
    have hne : page key limit before rows ≠ [] := by
      intro hnil
      rw [hnil] at hfull
      exact absurd hfull.symm (Nat.ne_of_gt hlimit)
    refine ⟨key ((page key limit before rows).getLast hne), ((page key limit before rows).dropLast).map key,
      (keysBelow key before rows).drop limit, ?_, ?_, ?_⟩
    · rw [next, if_pos hfull, List.getLast?_eq_some_getLast hne, Option.map_some]
    · calc keysBelow key before rows
          = (page key limit before rows).map key ++ (keysBelow key before rows).drop limit := by
            rw [hkeys, List.take_append_drop]
        _ = _ := by
            conv_lhs => rw [← List.dropLast_append_getLast hne]
            simp
    · conv_lhs => rw [← List.dropLast_append_getLast hne]
      simp
  · left
    have hlength : (page key limit before rows).length = min limit (keysBelow key before rows).length := by
      rw [← List.length_map key, hkeys, List.length_take]
    refine ⟨if_neg hfull, ?_⟩
    rw [hkeys, List.take_of_length_le (by omega)]

/-- The walk from the rest of the keys on, by the number of requests it may still make. -/
theorem walk_from {rows : Nat → List α} {limits : Nat → Nat} (hlimits : ∀ k, 0 < limits k)
    (hnodup : ((rows 0).map key).Nodup) (hgrown : ∀ k, Grown key (rows k) (rows (k + 1))) (fuel : Nat) :
    ∀ (k : Nat) (before : Option κ) (seen rest : List κ), keysBelow key none (rows 0) = seen ++ rest →
      keysBelow key before (rows k) = rest → rest.length < fuel →
      ∃ pages, walk key rows limits fuel k before = some pages ∧ pages.flatten.map key = rest := by
  induction fuel with
  | zero =>
    intro k before seen rest hstart hrest hfuel
    exact absurd hfuel (Nat.not_lt_zero _)
  | succ fuel ih =>
    intro k before seen rest hstart hrest hfuel
    rw [walk]
    rcases next_cases key (hlimits k) before (rows k) with ⟨hnone, hall⟩ | ⟨c, taken, left, hsome, hsplit, htaken⟩
    · rw [hnone]
      exact ⟨_, rfl, by rw [List.flatten_singleton, hall, hrest]⟩
    · rw [hsome]
      have hrest' : rest = taken ++ c :: left := hrest ▸ hsplit
      have hstart' : keysBelow key none (rows 0) = (seen ++ taken) ++ c :: left := by
        rw [hstart, hrest', List.append_assoc]
      have hbelow := keysBelow_grown hnodup (grown_from hgrown (k + 1)) hstart'
      have hlength : left.length < fuel := by
        rw [hrest'] at hfuel
        simp at hfuel
        omega
      obtain ⟨pages, hwalk, hpages⟩ := ih (k + 1) (some c) (seen ++ taken ++ [c]) left (by simp [hstart']) hbelow hlength
      refine ⟨page key (limits k) before (rows k) :: pages, by simp [hwalk], ?_⟩
      rw [List.flatten_cons, List.map_append, hpages, htaken, hrest']
      simp

/-- The walk ends, and its pages hold the keys of the start in their order. -/
theorem walk_complete {rows : Nat → List α} {limits : Nat → Nat} (hlimits : ∀ k, 0 < limits k)
    (hnodup : ((rows 0).map key).Nodup) (hgrown : ∀ k, Grown key (rows k) (rows (k + 1))) {fuel : Nat}
    (hfuel : (rows 0).length < fuel) :
    ∃ pages, walk key rows limits fuel 0 none = some pages ∧ pages.flatten.map key = keysBelow key none (rows 0) := by
  refine walk_from hlimits hnodup hgrown fuel 0 none [] _ rfl rfl ?_
  rwa [(keysBelow_none_perm key (rows 0)).length_eq, List.length_map]

end Keyset
