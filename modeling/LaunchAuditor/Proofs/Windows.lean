import LaunchAuditor.Lib.Tally
import LaunchAuditor.Metabolism.Runner
import Mathlib.Algebra.Group.Prod
import Mathlib.Tactic.Linarith

namespace LaunchAuditor.Proofs.Windows
open Db Metabolism Runner Tally

/-- One request and its estimate. -/
def figures (r : MetabolismSpend) : Nat × ℚ := (1, r.estimatedCostUsd.getD 0)

def stampedBy (epochId : String) (r : MetabolismSpend) : Bool := r.epochId == some epochId

theorem tally_figures (p : MetabolismSpend → Bool) (rows : SpendTable) :
    tally figures p rows =
      ((rows.filter p).length, ((rows.filter p).filterMap MetabolismSpend.estimatedCostUsd).sum) := by
  unfold tally
  induction rows.filter p with
  | nil => rfl
  | cons r rows ih =>
    rw [List.map_cons, List.sum_cons, ih, List.filterMap_cons]
    cases he : r.estimatedCostUsd with
    | none => simp [figures, he, add_comm]
    | some x => simp [figures, he, add_comm]

/-- A whole number of millionths of a dollar, as `estimateCostUsd` rounds an estimate to. -/
def Micros (x : ℚ) : Prop := ∃ n : ℕ, x = n / 1000000

theorem Micros.add {x y : ℚ} (hx : Micros x) (hy : Micros y) : Micros (x + y) := by
  obtain ⟨m, rfl⟩ := hx
  obtain ⟨n, rfl⟩ := hy
  exact ⟨m + n, by push_cast; ring⟩

theorem Micros.r6_eq {x : ℚ} (h : Micros x) : r6 (max 0 x) = x := by
  obtain ⟨n, rfl⟩ := h
  have hpos : (0 : ℚ) ≤ (n : ℚ) / 1000000 := by positivity
  rw [max_eq_right hpos]
  have hwhole : (n : ℚ) / 1000000 * (1000000 : ℕ) = (n : ℤ) := by
    push_cast
    ring
  have hround : Js.mathRound ((n : ℚ) / 1000000 * (1000000 : ℕ)) = n := by
    rw [hwhole]
    unfold Js.mathRound
    rw [Int.floor_eq_iff]
    constructor
    · linarith
    · linarith
  unfold r6 Js.roundTo
  rw [hround]
  norm_num

theorem micros_r6 {x : ℚ} (h : 0 ≤ x) : Micros (r6 x) := by
  have hx : 0 ≤ x * (1000000 : ℕ) := mul_nonneg h (by positivity)
  have hround : 0 ≤ Js.mathRound (x * (1000000 : ℕ)) := by
    apply Int.floor_nonneg.mpr
    linarith
  obtain ⟨n, hn⟩ := Int.eq_ofNat_of_zero_le hround
  refine ⟨n, ?_⟩
  unfold r6 Js.roundTo
  rw [hn]
  norm_num

theorem tally_micros {rows : SpendTable} (h : ∀ r ∈ rows, ∀ x, r.estimatedCostUsd = some x → Micros x)
    (p : MetabolismSpend → Bool) : Micros (tally figures p rows).2 := by
  induction rows with
  | nil => exact ⟨0, by simp [tally]⟩
  | cons r rows ih =>
    have hrest := ih fun x hx => h x (List.mem_cons_of_mem _ hx)
    rw [tally_cons]
    split
    · refine Micros.add ?_ hrest
      cases he : r.estimatedCostUsd with
      | none => exact ⟨0, by simp [figures, he]⟩
      | some x =>
        have hx : Micros x := h r List.mem_cons_self x he
        simpa [figures, he] using hx
    · simpa using hrest

theorem windowEstimate_eq (since until' : Int) (rows : SpendTable) :
    windowEstimate since until' rows =
      ⟨(tally figures (inWindow since until') rows).2, (tally figures (inWindow since until') rows).1⟩ := by
  rw [tally_figures]
  rfl

/-- What `recordSpend` appends, if anything. -/
theorem recordSpend_appends (entry : SpendEntry) (newId : String) (now : Int) (rows : SpendTable) :
    (recordSpend entry newId now rows).1 = rows ∨
      ∃ row, (recordSpend entry newId now rows).1 = rows ++ [row] ∧ row.id = newId ∧ row.epochId = none ∧
        row.estimatedCostUsd = entry.estimatedCostUsd := by
  unfold recordSpend
  split
  · exact Or.inl rfl
  · split
    · exact Or.inl rfl
    · dsimp only
      split
      · exact Or.inl rfl
      · exact Or.inr ⟨_, rfl, rfl, rfl, rfl⟩

theorem lastEpochs_mem {epochs : List MetabolismEpoch} {p : MetabolismEpoch} (h : (lastEpochs epochs).1 = some p) :
    p ∈ epochs ∧ ∀ e ∈ epochs, e.atMs ≤ p.atMs := by
  have hmem : ∀ e, e ∈ epochs.reverse.insertionSort (fun a b => a.atMs ≥ b.atMs) ↔ e ∈ epochs := by
    intro e
    rw [List.mem_insertionSort, List.mem_reverse]
  have htotal : Std.Total fun a b : MetabolismEpoch => a.atMs ≥ b.atMs := ⟨fun a b => le_total b.atMs a.atMs⟩
  have htrans : IsTrans MetabolismEpoch fun a b => a.atMs ≥ b.atMs := ⟨fun _ _ _ hab hbc => le_trans hbc hab⟩
  have hsorted := List.pairwise_insertionSort (fun a b : MetabolismEpoch => a.atMs ≥ b.atMs) epochs.reverse
  unfold lastEpochs at h
  cases hs : epochs.reverse.insertionSort (fun a b => a.atMs ≥ b.atMs) with
  | nil =>
    rw [hs] at h
    cases h
  | cons first rest =>
    rw [hs] at h hsorted
    obtain rfl : first = p := Option.some.inj h
    refine ⟨(hmem first).mp (hs ▸ List.mem_cons_self), ?_⟩
    intro e he
    rcases List.mem_cons.mp (hs ▸ (hmem e).mpr he) with rfl | hrest
    · exact le_rfl
    · exact (List.pairwise_cons.mp hsorted).1 e hrest

theorem lastEpochs_none {epochs : List MetabolismEpoch} (h : (lastEpochs epochs).1 = none) : epochs = [] := by
  unfold lastEpochs at h
  have hlen : (epochs.reverse.insertionSort fun a b => a.atMs ≥ b.atMs).length = 0 := by
    have hle := List.getElem?_eq_none_iff.mp h
    omega
  rw [List.length_insertionSort, List.length_reverse] at hlen
  exact List.length_eq_zero_iff.mp hlen

/-- The window starts at the last epoch when there is one. -/
def StartsAtLast (epochs : List MetabolismEpoch) (w : EpochWindow) : Prop :=
  epochs = [] ∨ ∃ p ∈ epochs, p.atMs = w.windowStart ∧ ∀ e ∈ epochs, e.atMs ≤ p.atMs

theorem epochWindow_starts (cfg : RunnerConfig) (t : Tick) (epochs : List MetabolismEpoch) (epochAt : Int) :
    StartsAtLast epochs (epochWindow cfg t epochs epochAt) := by
  cases hl : (lastEpochs epochs).1 with
  | none => exact Or.inl (lastEpochs_none hl)
  | some p =>
    obtain ⟨hp, hmax⟩ := lastEpochs_mem hl
    refine Or.inr ⟨p, hp, ?_, hmax⟩
    simp [epochWindow, hl]

/-- The rows that meet `p` get the id of the epoch, and nothing of what the epochs count is
changed. -/
structure Stamping (epochId : String) (p : MetabolismSpend → Bool) (g : MetabolismSpend → MetabolismSpend) : Prop where
  id : ∀ r, (g r).id = r.id
  atMs : ∀ r, (g r).atMs = r.atMs
  estimate : ∀ r, (g r).estimatedCostUsd = r.estimatedCostUsd
  epochId : ∀ r, (g r).epochId = if p r then some epochId else r.epochId

theorem stampWindow_stamping (since until' : Int) (epochId : String) (rows : SpendTable) :
    ∃ g, Stamping epochId (inWindow since until') g ∧ stampWindow since until' epochId rows = rows.map g := by
  refine ⟨_, ?_, rfl⟩
  constructor
  all_goals
    intro r
    split <;> rfl

theorem stampRow_stamping (id : String) (estimated : Option ℚ) (epochId : String) (factor : ℚ) (rows : SpendTable) :
    ∃ g, Stamping epochId (fun r => r.id == id) g ∧ stampRow id estimated epochId factor rows = rows.map g := by
  refine ⟨_, ?_, rfl⟩
  constructor
  all_goals
    intro r
    by_cases hid : r.id = id
    · cases estimated <;> simp [hid]
    · simp [hid]

section Stamping
variable {epochId : String} {p : MetabolismSpend → Bool} {g : MetabolismSpend → MetabolismSpend}

theorem Stamping.figures_eq (h : Stamping epochId p g) (r : MetabolismSpend) : figures (g r) = figures r := by
  simp [figures, h.estimate]

theorem Stamping.unstamped (h : Stamping epochId p g) {r : MetabolismSpend} :
    (g r).epochId = none ↔ p r = false ∧ r.epochId = none := by
  rw [h.epochId]
  cases p r with
  | true => simp
  | false => simp

/-- The rows of another epoch are the same. -/
theorem Stamping.tally_other (h : Stamping epochId p g) {rows : SpendTable}
    (hfree : ∀ r ∈ rows, p r = true → r.epochId = none) {other : String} (hne : other ≠ epochId) :
    tally figures (stampedBy other) (rows.map g) = tally figures (stampedBy other) rows := by
  rw [tally_map h.figures_eq]
  apply tally_congr
  intro r hr
  unfold stampedBy
  rw [h.epochId]
  cases hp : p r with
  | true => simp [hfree r hr hp, hne.symm]
  | false => rfl

/-- Those of the epoch have become more by the rows stamped. -/
theorem Stamping.tally_own (h : Stamping epochId p g) {rows : SpendTable}
    (hfree : ∀ r ∈ rows, p r = true → r.epochId = none) :
    tally figures (stampedBy epochId) (rows.map g) =
      tally figures (stampedBy epochId) rows + tally figures p rows := by
  rw [tally_map h.figures_eq, add_comm, ← tally_or]
  · apply tally_congr
    intro r _
    unfold stampedBy
    rw [h.epochId]
    cases p r with
    | true => simp
    | false => simp
  · intro r hr hp
    simp [stampedBy, hfree r hr hp]

end Stamping

end LaunchAuditor.Proofs.Windows
