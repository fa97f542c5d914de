import LaunchAuditor.Leaderboard.Scorer

/-! Which cells and comparisons a leaderboard holds, and the rows behind each. -/

namespace LaunchAuditor.Leaderboard
open Scoring

/-- The rows of a section for an outcome key. -/
def sectionRows (rows : List ScoreRow) (s : SplitBy × String) (key : OutcomeKey) : List ScoreRow :=
  keyRows (splitRows rows s.1 s.2) key

/-- A forecaster's rows for the observations that the other one has too. -/
def paired (own other : List ScoreRow) : List ScoreRow :=
  own.filter fun r => decide (r.obsId ∈ other.map ScoreRow.obsId)

/-- The distinct observations of the rows. -/
def observations (rows : List ScoreRow) : Nat := (Js.setOf (rows.map ScoreRow.obsId)).length

variable {math : Numerics} {rows own other okRows : List ScoreRow} {opts : ScoreOptions}

theorem mem_outcomeCells {baselines : List String} {thresholds : List ℚ} {c : ForecasterCell} :
    c ∈ outcomeCells math okRows baselines thresholds ↔
      ∃ f ∈ okRows.map ScoreRow.forecaster, cell math f (peerRows okRows f) okRows baselines thresholds = c := by
  unfold outcomeCells
  rw [List.mem_insertionSort, List.mem_map]
  simp only [Js.mem_setOf]

/-- Something holds of every cell, with its section and its key, when it does of the cells as they are made. -/
theorem forall_cells (P : SplitBy × String → OutcomeKey → ForecasterCell → Prop) :
    (∀ sec ∈ (scoreBenchmark math rows opts).sections, ∀ k ∈ sec.byOutcome, ∀ c ∈ k.2,
        P (sec.splitBy, sec.splitValue) k.1 c) ↔
      ∀ s ∈ splits rows, ∀ key, ∀ f ∈ (sectionRows rows s key).map ScoreRow.forecaster,
        P s key (cell math f (peerRows (sectionRows rows s key) f) (sectionRows rows s key) opts.baselines
          opts.thresholds) := by
  constructor
  · intro h s hs key f hf
    have hkey : key ∈ (splitRows rows s.1 s.2).map ScoreRow.outcomeKey := by
      obtain ⟨r, hr, _⟩ := List.mem_map.mp hf
      obtain ⟨hmem, he⟩ := List.mem_filter.mp hr
      exact List.mem_map.mpr ⟨r, hmem, of_decide_eq_true he⟩
    have hsection : sectionFor math s.1 s.2 (splitRows rows s.1 s.2) opts.baselines opts.thresholds ∈
        (scoreBenchmark math rows opts).sections := List.mem_map.mpr ⟨s, hs, rfl⟩
    have hentry : (key, outcomeCells math (sectionRows rows s key) opts.baselines opts.thresholds) ∈
        (sectionFor math s.1 s.2 (splitRows rows s.1 s.2) opts.baselines opts.thresholds).byOutcome :=
      List.mem_map.mpr ⟨key, (Js.mem_setOf _ _).mpr hkey, rfl⟩
    exact h _ hsection _ hentry _ (mem_outcomeCells.mpr ⟨f, hf, rfl⟩)
  · intro h sec hsec k hk c hc
    obtain ⟨s, hs, rfl⟩ := List.mem_map.mp hsec
    obtain ⟨key, _, rfl⟩ := List.mem_map.mp hk
    obtain ⟨f, hf, rfl⟩ := mem_outcomeCells.mp hc
    exact h s hs key f hf

theorem cell_forecaster (f : String) (baselines : List String) (thresholds : List ℚ) :
    (cell math f own okRows baselines thresholds).forecaster = f := by
  unfold cell
  split
  · rfl
  · rfl

/-- A comparison is made in a cell of sufficient size, with every baseline but the forecaster itself that has rows. -/
theorem mem_comparisons {f : String} {baselines : List String} {thresholds : List ℚ} {cmp : Comparison} :
    cmp ∈ (cell math f own okRows baselines thresholds).comparisons ↔
      MIN_FOR_METRICS ≤ own.length ∧ ∃ base ∈ baselines, base ≠ f ∧ peerRows okRows base ≠ [] ∧
        comparison math (aurocIn Js.double (own.map ScoreRow.prob) (own.map ScoreRow.label)) own (peerRows okRows base) base = cmp := by
  unfold cell
  split
  · rename_i hsmall
    refine iff_of_false (fun h => nomatch h) ?_
    exact fun h => absurd h.1 (Nat.not_le.mpr hsmall)
  · rename_i hlarge
    have hsize : MIN_FOR_METRICS ≤ own.length := Nat.not_lt.mp hlarge
    simp only [sufficientCell, comparisons, List.mem_filterMap]
    constructor
    · rintro ⟨base, hbase, he⟩
      split at he
      · cases he
      · rename_i hother
        rw [not_or] at hother
        exact ⟨hsize, base, hbase, hother.1, hother.2, Option.some.inj he⟩
    · rintro ⟨_, base, hbase, hne, hrows, he⟩
      exact ⟨base, hbase, (if_neg (not_or.mpr ⟨hne, hrows⟩)).trans (congrArg some he)⟩

theorem comparison_mem (math : Numerics) {f base : String} {baselines : List String} (thresholds : List ℚ)
    (hsize : MIN_FOR_METRICS ≤ own.length) (hbase : base ∈ baselines) (hne : base ≠ f) (hrows : peerRows okRows base ≠ []) :
    comparison math (aurocIn Js.double (own.map ScoreRow.prob) (own.map ScoreRow.label)) own (peerRows okRows base) base ∈
      (cell math f own okRows baselines thresholds).comparisons :=
  mem_comparisons.mpr ⟨hsize, base, hbase, hne, hrows, rfl⟩

theorem comparison_vs (auc : Option ℚ) (base : String) : (comparison math auc own other base).vs = base := by
  unfold comparison
  dsimp only
  split
  · rfl
  · rfl

/-- A forecaster with rows enough has a cell. -/
theorem mem_forecasters {f : String} (hsize : MIN_FOR_METRICS ≤ (peerRows okRows f).length) :
    f ∈ okRows.map ScoreRow.forecaster := by
  have hne : peerRows okRows f ≠ [] := by
    rintro hempty
    rw [hempty] at hsize
    exact absurd hsize (by decide)
  obtain ⟨r, hr⟩ := List.exists_mem_of_ne_nil _ hne
  obtain ⟨hmem, he⟩ := List.mem_filter.mp hr
  exact List.mem_map.mpr ⟨r, hmem, of_decide_eq_true he⟩

theorem rowOf_isSome (rows : List ScoreRow) (obsId : String) :
    (rowOf rows obsId).isSome = true ↔ obsId ∈ rows.map ScoreRow.obsId := by
  rw [rowOf, List.find?_isSome]
  simp

/-- The rows that find a partner. -/
theorem partnered (own other : List ScoreRow) :
    (own.filterMap fun r => (rowOf other r.obsId).map fun m => (r, m)).map Prod.fst = paired own other := by
  induction own with
  | nil => rfl
  | cons r own ih =>
    unfold paired at ih ⊢
    by_cases h : r.obsId ∈ other.map ScoreRow.obsId
    · obtain ⟨m, hm⟩ := Option.isSome_iff_exists.mp ((rowOf_isSome other r.obsId).mpr h)
      rw [List.filter_cons_of_pos (by simpa using h), ← ih, List.filterMap_cons_some (by rw [hm]; rfl), List.map_cons]
    · have hnone : rowOf other r.obsId = none := by
        rw [← Option.not_isSome_iff_eq_none, rowOf_isSome]
        exact h
      rw [List.filter_cons_of_neg (by simpa using h), ← ih, List.filterMap_cons_none (by rw [hnone]; rfl)]

/-- The test compares the paired rows. -/
theorem alignByObs_y (own other : List ScoreRow) : (alignByObs own other).y = (paired own other).map ScoreRow.label := by
  rw [← partnered, List.map_map]
  rfl

theorem alignByObs_pa (own other : List ScoreRow) : (alignByObs own other).pa = (paired own other).map ScoreRow.prob := by
  rw [← partnered, List.map_map]
  rfl

theorem alignByObs_pb_length (own other : List ScoreRow) :
    (alignByObs own other).pb.length = (paired own other).length := by
  rw [← partnered]
  simp [alignByObs]

/-- The rows with the label. -/
def labelled (y : Bool) (rows : List ScoreRow) : List ScoreRow := rows.filter fun r => r.label == y

theorem countTrue_labels (rows : List ScoreRow) : countTrue (rows.map ScoreRow.label) = (labelled true rows).length := by
  rw [countTrue, List.countP_map, labelled, ← List.countP_eq_length_filter]
  apply List.countP_congr
  intro r _
  simp

theorem labelled_length (rows : List ScoreRow) :
    (labelled true rows).length + (labelled false rows).length = rows.length := by
  unfold labelled
  rw [← List.countP_eq_length_filter, ← List.countP_eq_length_filter,
    List.length_eq_countP_add_countP (fun r => r.label == true)]
  congr 1
  apply List.countP_congr
  intro r _
  cases r.label <;> simp

/-- A test has a result when each label is there twice among the paired rows. -/
theorem fastDeLong_isSome (fl : ℚ → ℚ) (math : Numerics) (own other : List ScoreRow) :
    (fastDeLongIn fl math (alignByObs own other).pa (alignByObs own other).pb (alignByObs own other).y).isSome = true ↔
      2 ≤ (labelled true (paired own other)).length ∧ 2 ≤ (labelled false (paired own other)).length := by
  have hsum := labelled_length (paired own other)
  unfold fastDeLongIn
  rw [alignByObs_y, alignByObs_pa, alignByObs_pb_length, List.length_map, List.length_map, countTrue_labels,
    if_neg (by simp)]
  dsimp only
  split
  · rename_i h
    refine iff_of_false (by simp) ?_
    omega
  · rename_i h
    exact iff_of_true rfl (by omega)

def key6h : OutcomeKey := ⟨.INSIDER_EXIT, "6h"⟩

end LaunchAuditor.Leaderboard
