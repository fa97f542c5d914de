import Mathlib.Data.List.Basic
import Mathlib.Data.List.Nodup

/-! Rows that name a predecessor by its hash. `Linked` is the shape in order of
insertion, `OneChain` what can be seen of an unordered collection of rows. -/

namespace HashChain

variable {ρ η : Type} (prev hash : ρ → η) (genesis : η)

/-- The hash the next row has to name. -/
def tip (rows : List ρ) : η := (rows.getLast?.map hash).getD genesis

inductive Linked : List ρ → Prop
  | nil : Linked []
  | snoc {rows : List ρ} {r : ρ} (h : Linked rows) (hr : prev r = tip hash genesis rows) : Linked (rows ++ [r])

/-- How many rows point to `h`. -/
def pointers [DecidableEq η] (rows : List ρ) (h : η) : Nat := rows.countP (fun r => prev r = h)

/-- One row points to the genesis hash and every other one to a row of its own. -/
structure OneChain [DecidableEq η] (rows : List ρ) : Prop where
  start : rows ≠ [] → pointers prev rows genesis = 1
  parents : ∀ r ∈ rows, prev r ≠ genesis → ∃ p ∈ rows, hash p = prev r ∧ pointers prev rows (hash p) = 1

variable {prev hash genesis}

theorem tip_snoc (rows : List ρ) (r : ρ) : tip hash genesis (rows ++ [r]) = hash r := by
  simp [tip]

/-- Read in order, the pointers are the hashes one place later. -/
theorem Linked.shift {rows : List ρ} (h : Linked prev hash genesis rows) :
    rows.map prev ++ [tip hash genesis rows] = genesis :: rows.map hash := by
  induction h with
  | nil => rfl
  | @snoc rows r h hr ih =>
    calc (rows ++ [r]).map prev ++ [tip hash genesis (rows ++ [r])]
        = (rows.map prev ++ [tip hash genesis rows]) ++ [hash r] := by
          rw [tip_snoc, List.map_append, ← hr]
          rfl
      _ = genesis :: (rows ++ [r]).map hash := by
          rw [ih, List.map_append]
          rfl

variable {rows : List ρ}

/-- Distinct hashes make the pointers of a linked list distinct, the tip included. -/
theorem Linked.prevs_nodup (h : Linked prev hash genesis rows) (hh : (rows.map hash).Nodup)
    (hg : genesis ∉ rows.map hash) : (rows.map prev ++ [tip hash genesis rows]).Nodup := by
  rw [h.shift]
  exact List.nodup_cons.mpr ⟨hg, hh⟩

/-- A row that points to a known hash other than the tip shares its parent. -/
theorem Linked.fork {r : ρ} (h : Linked prev hash genesis rows)
    (hknown : prev r = genesis ∨ ∃ p ∈ rows, prev r = hash p) (htip : prev r ≠ tip hash genesis rows) :
    ¬ ((rows ++ [r]).map prev).Nodup := by
  have hm : prev r ∈ genesis :: rows.map hash := by
    rcases hknown with he | ⟨p, hp, he⟩
    · exact he ▸ List.mem_cons_self
    · exact he ▸ List.mem_cons_of_mem _ (List.mem_map_of_mem hp)
  rw [← h.shift] at hm
  rcases List.mem_append.mp hm with hm | hm
  · intro hn
    rw [List.map_append] at hn
    exact (List.nodup_append.mp hn).2.2 _ hm _ (List.mem_singleton_self _) rfl
  · exact absurd (List.mem_singleton.mp hm) htip

/-- In a linked list equal hashes of rows with equal pointers cannot occur twice:
the first repetition would repeat a pointer. -/
theorem Linked.hashes_nodup (h : Linked prev hash genesis rows)
    (hcol : ∀ r ∈ rows, ∀ r' ∈ rows, hash r = hash r' → prev r = prev r')
    (hg : ∀ r ∈ rows, hash r ≠ genesis) : (rows.map hash).Nodup := by
  induction h with
  | nil => exact List.nodup_nil
  | @snoc rows r h hr ih =>
    have hmem : ∀ p ∈ rows, p ∈ rows ++ [r] := fun p hp => List.mem_append_left _ hp
    have hlast : r ∈ rows ++ [r] := List.mem_append_right _ (List.mem_singleton_self _)
    have hh := ih (fun a ha b hb => hcol a (hmem a ha) b (hmem b hb)) (fun a ha => hg a (hmem a ha))
    have hgen : genesis ∉ rows.map hash := by
      intro hm
      obtain ⟨p, hp, he⟩ := List.mem_map.mp hm
      exact hg p (hmem p hp) he
    rw [List.map_append]
    refine hh.append (List.nodup_singleton _) ?_
    intro a ha hb
    obtain ⟨p, hp, rfl⟩ := List.mem_map.mp ha
    have he : hash p = hash r := by simpa using hb
    have hprev : prev p = tip hash genesis rows := (hcol p (hmem p hp) r hlast he).trans hr
    exact (List.nodup_append.mp (h.prevs_nodup hh hgen)).2.2 _ (List.mem_map_of_mem hp) _
      (List.mem_singleton_self _) hprev

/-- A row points to the row just before it. -/
theorem Linked.adjacent (h : Linked prev hash genesis rows) {xs ys : List ρ} {p r : ρ}
    (he : rows = xs ++ p :: r :: ys) : prev r = hash p := by
  have hs := h.shift
  rw [he] at hs
  have hat := congrArg (fun l => l[xs.length + 1]?) hs
  simpa [List.getElem?_append_right] using hat

/-- The oldest row points to the genesis hash. -/
theorem Linked.first (h : Linked prev hash genesis rows) {r : ρ} (hr : rows.head? = some r) : prev r = genesis := by
  have hs := h.shift
  obtain ⟨rest, rfl⟩ := List.head?_eq_some_iff.mp hr
  rw [List.map_cons, List.cons_append] at hs
  exact (List.cons.inj hs).1

variable [DecidableEq η]

theorem pointers_eq_count (rows : List ρ) (h : η) : pointers prev rows h = (rows.map prev).count h := by
  rw [pointers, List.count, List.countP_map]
  rfl

theorem OneChain.nodup {rows : List ρ} (h : OneChain prev hash genesis rows) : (rows.map prev).Nodup := by
  apply List.nodup_iff_count_le_one.mpr
  intro a
  by_cases hm : a ∈ rows.map prev
  · rw [← pointers_eq_count]
    obtain ⟨r, hr, rfl⟩ := List.mem_map.mp hm
    by_cases hg : prev r = genesis
    · rw [hg]
      exact Nat.le_of_eq (h.start (List.ne_nil_of_mem hr))
    · obtain ⟨p, -, he, hc⟩ := h.parents r hr hg
      rw [← he]
      exact Nat.le_of_eq hc
  · rw [List.count_eq_zero_of_not_mem hm]
    omega

/-- Two rows with one parent stay two rows with one parent. -/
theorem not_oneChain_append {rows : List ρ} (h : ¬ (rows.map prev).Nodup) (more : List ρ) :
    ¬ OneChain prev hash genesis (rows ++ more) := by
  intro hone
  have hn := hone.nodup
  rw [List.map_append] at hn
  exact h hn.of_append_left

theorem Linked.oneChain (h : Linked prev hash genesis rows) (hh : (rows.map hash).Nodup)
    (hg : genesis ∉ rows.map hash) : OneChain prev hash genesis rows := by
  have hn : (rows.map prev).Nodup := (h.prevs_nodup hh hg).of_append_left
  have hcount : ∀ a ∈ rows.map prev, pointers prev rows a = 1 := by
    intro a ha
    rw [pointers_eq_count]
    exact List.count_eq_one_of_mem hn ha
  have hs := h.shift
  refine ⟨?_, ?_⟩
  · intro hne
    obtain ⟨r, rest, rfl⟩ := List.exists_cons_of_ne_nil hne
    refine hcount _ ?_
    rw [List.map_cons, List.cons_append] at hs
    rw [← (List.cons.inj hs).1]
    exact List.mem_cons_self
  · intro r hr hne
    have hm : prev r ∈ genesis :: rows.map hash := hs ▸ List.mem_append_left _ (List.mem_map_of_mem hr)
    rcases List.mem_cons.mp hm with he | hm
    · exact absurd he hne
    · obtain ⟨p, hp, he⟩ := List.mem_map.mp hm
      exact ⟨p, hp, he, he ▸ hcount _ (List.mem_map_of_mem hr)⟩

end HashChain
