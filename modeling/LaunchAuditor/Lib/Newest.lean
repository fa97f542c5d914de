import Mathlib.Data.List.Basic

/-! The first row of an order by a descending key: a row of the greatest key, where
the choice among several of them is left open. -/

namespace Newest

variable {ρ : Type} (key : ρ → Int)

def candidates (rows : List ρ) : List ρ := rows.filter fun r => rows.all fun x => key x ≤ key r

/-- `tie` stands for the choice among the candidates. -/
def newest (tie : Nat) (rows : List ρ) : Option ρ :=
  (candidates key rows)[tie % (candidates key rows).length]?

variable {key}

theorem mem_candidates {rows : List ρ} {r : ρ} :
    r ∈ candidates key rows ↔ r ∈ rows ∧ ∀ x ∈ rows, key x ≤ key r := by
  simp [candidates, List.mem_filter]

theorem newest_mem {tie : Nat} {rows : List ρ} {r : ρ} (h : newest key tie rows = some r) :
    r ∈ rows ∧ ∀ x ∈ rows, key x ≤ key r :=
  mem_candidates.mp (List.mem_of_getElem? h)

theorem exists_candidate (key : ρ → Int) {rows : List ρ} (hne : rows ≠ []) : ∃ r, r ∈ candidates key rows := by
  induction rows with
  | nil => exact absurd rfl hne
  | cons a rows ih =>
    by_cases hr : rows = []
    · subst hr
      exact ⟨a, mem_candidates.mpr ⟨List.mem_cons_self, by simp⟩⟩
    · obtain ⟨b, hb⟩ := ih hr
      obtain ⟨hbm, hbmax⟩ := mem_candidates.mp hb
      rcases Int.le_total (key a) (key b) with hab | hab
      · refine ⟨b, mem_candidates.mpr ⟨List.mem_cons_of_mem _ hbm, ?_⟩⟩
        intro x hx
        rcases List.mem_cons.mp hx with rfl | hx
        · exact hab
        · exact hbmax x hx
      · refine ⟨a, mem_candidates.mpr ⟨List.mem_cons_self, ?_⟩⟩
        intro x hx
        rcases List.mem_cons.mp hx with rfl | hx
        · exact Int.le_refl _
        · exact Int.le_trans (hbmax x hx) hab

theorem newest_eq_none {tie : Nat} {rows : List ρ} : newest key tie rows = none ↔ rows = [] := by
  constructor
  · intro h
    by_contra hne
    obtain ⟨r, hr⟩ := exists_candidate key hne
    have hpos : 0 < (candidates key rows).length := List.length_pos_of_mem hr
    exact absurd (List.getElem?_eq_none_iff.mp h) (Nat.not_le.mpr (Nat.mod_lt tie hpos))
  · intro h
    subst h
    rfl

/-- A row with a strictly greater key than all before it is the one found. -/
theorem newest_snoc {tie : Nat} {rows : List ρ} {r : ρ} (h : ∀ x ∈ rows, key x < key r) :
    newest key tie (rows ++ [r]) = some r := by
  cases hn : newest key tie (rows ++ [r]) with
  | none =>
    have hnil := newest_eq_none.mp hn
    simp at hnil
  | some b =>
    obtain ⟨hm, hmax⟩ := newest_mem hn
    rcases List.mem_append.mp hm with hb | hb
    · have h1 := h b hb
      have h2 := hmax r (by simp)
      omega
    · rw [List.mem_singleton.mp hb]

end Newest
