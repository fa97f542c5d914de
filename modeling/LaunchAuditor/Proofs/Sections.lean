import LaunchAuditor.Leaderboard.Cells
import LaunchAuditor.Proofs.Accounting
import LaunchAuditor.Scorer.Snapshot

namespace LaunchAuditor.Proofs.Sections
open Scoring Leaderboard

/-- The sum of a figure over the cells of a forecaster for an outcome. -/
def sectionFigure (figure : ForecasterCell → Nat) (sec : BenchmarkSection) (key : OutcomeKey) (f : String) : Nat :=
  ((((sec.byOutcome.filter fun k => decide (k.1 = key)).flatMap Prod.snd).filter fun c =>
    decide (c.forecaster = f)).map figure).sum

/-- The sum over the sections of a split. -/
def splitFigure (figure : ForecasterCell → Nat) (b : Benchmark) (by_ : SplitBy) (key : OutcomeKey) (f : String) : Nat :=
  ((b.sections.filter fun sec => decide (sec.splitBy = by_)).map fun sec => sectionFigure figure sec key f).sum

def isFor (key : OutcomeKey) (f : String) (r : ScoreRow) : Bool := decide (r.outcomeKey = key ∧ r.forecaster = f)

/-- The figure counts the rows of a cell that meet a condition. -/
def CountsRows (math : Numerics) (figure : ForecasterCell → Nat) (q : ScoreRow → Bool) : Prop :=
  ∀ f rows okRows baselines thresholds, figure (cell math f rows okRows baselines thresholds) = rows.countP q

variable {math : Numerics} {figure : ForecasterCell → Nat} {q : ScoreRow → Bool} {rows : List ScoreRow}

theorem n_countsRows (math : Numerics) : CountsRows math ForecasterCell.n fun _ => true := by
  intro f rows okRows baselines thresholds
  unfold cell
  split
  · simp [insufficientCell]
  · simp [sufficientCell]

theorem positives_countsRows (math : Numerics) : CountsRows math ForecasterCell.positives ScoreRow.label := by
  intro f rows okRows baselines thresholds
  have hcount : countTrue (rows.map ScoreRow.label) = rows.countP ScoreRow.label := by
    simp [countTrue, List.countP_map, Function.comp_def]
  unfold cell
  split
  · exact hcount
  · exact hcount

/-- Of things made for distinct keys, one is for the key. -/
theorem filter_made {α κ : Type} [DecidableEq κ] (key : α → κ) (make : κ → α) (h : ∀ k, key (make k) = k) {ks : List κ}
    (hks : ks.Nodup) (k : κ) :
    (ks.map make).filter (fun a => decide (key a = k)) = if k ∈ ks then [make k] else [] := by
  rw [List.filter_map]
  have htest : ((fun a => decide (key a = k)) ∘ make) = fun l => l == k := by
    funext l
    rw [Function.comp, h]
    rfl
  rw [htest, List.filter_beq]
  by_cases hk : k ∈ ks
  · simp [hk, List.count_eq_one_of_mem hks hk]
  · simp [hk, List.count_eq_zero_of_not_mem hk]

theorem cells_figure (hfigure : CountsRows math figure q) (okRows : List ScoreRow) (baselines : List String)
    (thresholds : List ℚ) (f : String) :
    (((outcomeCells math okRows baselines thresholds).filter fun c => decide (c.forecaster = f)).map figure).sum =
      okRows.countP fun r => decide (r.forecaster = f) && q r := by
  have hperm := List.perm_insertionSort (fun a b : ForecasterCell => b.auroc.getD 0 ≤ a.auroc.getD 0)
    ((Js.setOf (okRows.map ScoreRow.forecaster)).map fun f =>
      cell math f (peerRows okRows f) okRows baselines thresholds)
  unfold outcomeCells
  rw [((hperm.filter fun c => decide (c.forecaster = f)).map figure).sum_eq,
    filter_made ForecasterCell.forecaster _ (fun f => cell_forecaster f baselines thresholds) (Js.setOf_nodup _) f]
  have hrows : (peerRows okRows f).countP q = okRows.countP fun r => decide (r.forecaster = f) && q r := by
    rw [peerRows, List.countP_filter]
    apply List.countP_congr
    intro r _
    simp [and_comm]
  split
  · rw [List.map_singleton, List.sum_singleton, hfigure, hrows]
  · rename_i hf
    have hnone : peerRows okRows f = [] := by
      rw [peerRows, List.filter_eq_nil_iff]
      intro r hr he
      exact hf ((Js.mem_setOf _ _).mpr (List.mem_map.mpr ⟨r, hr, of_decide_eq_true he⟩))
    rw [← hrows, hnone]
    rfl

theorem section_figure (hfigure : CountsRows math figure q) (by_ : SplitBy) (value : String) (rows : List ScoreRow)
    (baselines : List String) (thresholds : List ℚ) (key : OutcomeKey) (f : String) :
    sectionFigure figure (sectionFor math by_ value rows baselines thresholds) key f =
      rows.countP fun r => isFor key f r && q r := by
  unfold sectionFigure sectionFor
  dsimp only
  rw [filter_made Prod.fst _ (fun _ => rfl) (Js.setOf_nodup _) key]
  have hrows : (keyRows rows key).countP (fun r => decide (r.forecaster = f) && q r) =
      rows.countP fun r => isFor key f r && q r := by
    rw [keyRows, List.countP_filter]
    apply List.countP_congr
    intro r _
    simp only [isFor, Bool.and_eq_true, decide_eq_true_eq]
    tauto
  split
  · rw [List.flatMap_singleton, cells_figure hfigure, hrows]
  · rename_i hkey
    have hnone : keyRows rows key = [] := by
      rw [keyRows, List.filter_eq_nil_iff]
      intro r hr he
      exact hkey ((Js.mem_setOf _ _).mpr (List.mem_map.mpr ⟨r, hr, of_decide_eq_true he⟩))
    rw [← hrows, hnone]
    rfl

theorem sortedSet_nodup (values : List String) : (sortedSet values).Nodup :=
  (List.perm_insertionSort _ _).nodup_iff.mpr (Js.setOf_nodup values)

theorem mem_sortedSet {values : List String} {v : String} : v ∈ sortedSet values ↔ v ∈ values := by
  rw [sortedSet, List.mem_insertionSort, Js.mem_setOf]

/-- Rows told apart by a column are all of them together. -/
theorem column_figure (column : ScoreRow → String) (p : ScoreRow → Bool) (rows : List ScoreRow) :
    ((sortedSet (rows.map column)).map fun v => (rows.filter fun r => decide (column r = v)).countP p).sum =
      rows.countP p := by
  have hparts := Counts.sum_countP_parts column p (sortedSet_nodup (rows.map column)) rows
  simp only [List.countP_filter, Bool.and_comm (p _)]
  rw [hparts]
  apply List.countP_congr
  intro r hr
  have hmem : column r ∈ sortedSet (rows.map column) := mem_sortedSet.mpr (List.mem_map_of_mem hr)
  simp [hmem]

/-- Whichever way the table is split, its cells count the rows. -/
theorem split_figure (hfigure : CountsRows math figure q) (rows : List ScoreRow) (opts : ScoreOptions) (by_ : SplitBy)
    (key : OutcomeKey) (f : String) :
    splitFigure figure (scoreBenchmark math rows opts) by_ key f = rows.countP fun r => isFor key f r && q r := by
  unfold splitFigure scoreBenchmark
  dsimp only
  have htest : ((fun sec => decide (sec.splitBy = by_)) ∘ fun s : SplitBy × String =>
      sectionFor math s.1 s.2 (splitRows rows s.1 s.2) opts.baselines opts.thresholds) = fun s => decide (s.1 = by_) := rfl
  have hsection : ((fun sec => sectionFigure figure sec key f) ∘ fun s : SplitBy × String =>
      sectionFor math s.1 s.2 (splitRows rows s.1 s.2) opts.baselines opts.thresholds) =
        fun s => (splitRows rows s.1 s.2).countP fun r => isFor key f r && q r :=
    funext fun s => section_figure hfigure s.1 s.2 _ _ _ key f
  rw [List.filter_map, List.map_map, htest, hsection]
  unfold splits
  rw [List.cons_append, List.filter_cons, List.filter_append, List.filter_map, List.filter_map]
  cases by_ with
  | all => simp [Function.comp_def, splitRows]
  | trigger =>
    rw [← column_figure ScoreRow.trigger _ rows]
    simp [Function.comp_def, splitRows]
  | source =>
    rw [← column_figure ScoreRow.source _ rows]
    simp [Function.comp_def, splitRows]

/-- An outcome has one entry in a section, and a forecaster one cell in that. -/
theorem section_once (by_ : SplitBy) (value : String) (rows : List ScoreRow) (baselines : List String)
    (thresholds : List ℚ) :
    let sec := sectionFor math by_ value rows baselines thresholds
    (sec.byOutcome.map Prod.fst).Nodup ∧ ∀ k ∈ sec.byOutcome, (k.2.map ForecasterCell.forecaster).Nodup := by
  intro sec
  constructor
  · have hkeys : sec.byOutcome.map Prod.fst = Js.setOf (rows.map ScoreRow.outcomeKey) := by
      simp [sec, sectionFor, Function.comp_def]
    rw [hkeys]
    exact Js.setOf_nodup _
  · intro k hk
    obtain ⟨key, _, rfl⟩ := List.mem_map.mp hk
    dsimp only
    unfold outcomeCells
    apply ((List.perm_insertionSort _ _).map ForecasterCell.forecaster).nodup_iff.mpr
    rw [List.map_map]
    have hnames : (ForecasterCell.forecaster ∘ fun f =>
        cell math f (peerRows (keyRows rows key) f) (keyRows rows key) baselines thresholds) = fun f => f :=
      funext fun f => cell_forecaster f baselines thresholds
    rw [hnames, List.map_id']
    exact Js.setOf_nodup _

open Db Scorer Accounting

theorem text_injective {f g : ForecasterKind} (h : f.text = g.text) : f = g := by
  cases f <;> cases g <;> first | rfl | exact absurd h (by decide)

theorem published_count (result : CollectResult) (key : OutcomeKey) (f : ForecasterKind) :
    (result.rows.map ScoreRow.published).countP (isFor key f.text) = rowsOf result key f := by
  rw [List.countP_map, rowsOf]
  apply List.countP_congr
  intro r _
  have hnames : r.published.outcomeKey = key ∧ r.published.forecaster = f.text ↔ r.outcomeKey = key ∧ r.forecaster = f :=
    and_congr_right fun _ => ⟨text_injective, congrArg ForecasterKind.text⟩
  rw [Function.comp, isFor, decide_eq_true_iff, decide_eq_true_iff]
  exact hnames

/-- Eligible pairs are the rows. -/
theorem rows_total (db : WorkerDb) (maps : ScannerMaps) (opts : CollectOptions) :
    (collectScoreRows db maps opts).rows.length =
      Counts.total (collectScoreRows db maps opts).exclusions fun k => decide (k.2.2 = .eligible) := by
  rw [exclusions_eq, Counts.total_count, List.countP_map, collectScoreRows]
  dsimp only
  rw [List.length_filterMap_eq_countP]
  apply List.countP_congr
  intro p _
  by_cases hcls : p.cls = .eligible
  · simp [hcls]
  · simp [hcls]

/-- A published table adds up: by trigger and by source the cells of a forecaster count the same rows and positives
as in the section of all rows, as many as its counter of eligible pairs says; every such counter is in the table. -/
theorem table_reconciles (math : Numerics) (maps : ScannerMaps) (blockTimeOf : Nat → Option Int) (score : ScoreOptions)
    (scope : Scope) (db : WorkerDb) :
    let scored := runScorer math maps blockTimeOf score scope db
    let table := scored.benchmark.toBenchmark
    (∀ by_ key f, splitFigure ForecasterCell.n table by_ key (ForecasterKind.text f) =
      Counts.counter scored.benchmark.exclusions (key, f, .eligible)) ∧
    (∀ by_ key f, splitFigure ForecasterCell.positives table by_ key f =
      splitFigure ForecasterCell.positives table .all key f) ∧
    (∀ sec ∈ table.sections, (sec.byOutcome.map Prod.fst).Nodup ∧
      ∀ k ∈ sec.byOutcome, (k.2.map ForecasterCell.forecaster).Nodup) ∧
    scored.rowCount = Counts.total scored.benchmark.exclusions fun k => decide (k.2.2 = .eligible) := by
  intro scored table
  have htable : table = scoreBenchmark math
      ((collectScoreRows db maps ⟨scope, blockTimeOf⟩).rows.map ScoreRow.published) score := rfl
  refine ⟨?_, ?_, ?_, ?_⟩
  · intro by_ key f
    rw [htable, split_figure (n_countsRows math)]
    simp only [Bool.and_true]
    exact (published_count _ key f).trans (rowsOf_eq db maps ⟨scope, blockTimeOf⟩ key f)
  · intro by_ key f
    rw [htable, split_figure (positives_countsRows math), split_figure (positives_countsRows math)]
  · intro sec hsec
    obtain ⟨s, _, rfl⟩ := List.mem_map.mp hsec
    exact section_once s.1 s.2 _ _ _
  · exact rows_total db maps ⟨scope, blockTimeOf⟩

end LaunchAuditor.Proofs.Sections
