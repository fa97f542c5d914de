import LaunchAuditor.Leaderboard.Cells

namespace LaunchAuditor.Proofs.MinSample
open Scoring Leaderboard

/-- A metric of the cell is published. -/
def publishes (c : ForecasterCell) : Bool :=
  c.auroc.isSome || c.auprc.isSome || c.logLoss.isSome || c.brier.isSome || c.brierSkill.isSome || c.ece.isSome ||
    c.pr.any fun e => e.precision.isSome || e.recall.isSome

/-- A figure of the comparison is published. -/
def compares (cmp : Comparison) : Bool := cmp.aucDiff.isSome || cmp.z.isSome || cmp.p.isSome

variable (size : List ScoreRow → Nat)

/-- What a cell publishes rests on enough rows, and so does each comparison. -/
def CellRests (rows : List ScoreRow) (s : SplitBy × String) (key : OutcomeKey) (c : ForecasterCell) : Prop :=
  let own := peerRows (sectionRows rows s key) c.forecaster
  (publishes c = true → MIN_FOR_METRICS ≤ size own) ∧
    ∀ cmp ∈ c.comparisons, compares cmp = true →
      MIN_FOR_METRICS ≤ size (paired own (peerRows (sectionRows rows s key) cmp.vs))

def EnoughBehind (rows : List ScoreRow) (b : Benchmark) : Prop :=
  ∀ sec ∈ b.sections, ∀ k ∈ sec.byOutcome, ∀ c ∈ k.2, CellRests size rows (sec.splitBy, sec.splitValue) k.1 c

/-- In every section, a forecaster with rows enough has observations enough, and shares enough of them with every
baseline that it shares two positives and two negatives with. -/
def Overlapping (rows : List ScoreRow) (baselines : List String) : Prop :=
  ∀ s ∈ splits rows, ∀ key f,
    let own := peerRows (sectionRows rows s key) f
    MIN_FOR_METRICS ≤ own.length → MIN_FOR_METRICS ≤ size own ∧
      ∀ base ∈ baselines, base ≠ f →
        let shared := paired own (peerRows (sectionRows rows s key) base)
        2 ≤ (labelled true shared).length → 2 ≤ (labelled false shared).length → MIN_FOR_METRICS ≤ size shared

variable {size} {math : Numerics} {own okRows : List ScoreRow} {f : String} {baselines : List String} {thresholds : List ℚ}

/-- A cell of sufficient size always has a Brier score. -/
theorem cell_publishes_iff (f : String) (baselines : List String) (thresholds : List ℚ) :
    publishes (cell math f own okRows baselines thresholds) = true ↔ MIN_FOR_METRICS ≤ own.length := by
  unfold cell
  split
  · rename_i hsmall
    exact iff_of_false (by simp [publishes, insufficientCell]) (Nat.not_le.mpr hsmall)
  · rename_i hlarge
    have hsize : MIN_FOR_METRICS ≤ own.length := Nat.not_lt.mp hlarge
    have hbrier : (brierScore (own.map ScoreRow.prob) (own.map ScoreRow.label)).isSome = true := by
      have hpos : own.length ≠ 0 := by
        unfold MIN_FOR_METRICS at hsize
        omega
      have hmatched : mismatched (own.map ScoreRow.prob) (own.map ScoreRow.label) = false := by simp [mismatched, hpos]
      simp [brierScore, hmatched]
    refine iff_of_true ?_ hsize
    simp [publishes, sufficientCell, nullableRound, hbrier]

theorem compares_iff (auc : Option ℚ) (bRows : List ScoreRow) (base : String) :
    compares (comparison math auc own bRows base) = true ↔
      2 ≤ (labelled true (paired own bRows)).length ∧ 2 ≤ (labelled false (paired own bRows)).length := by
  rw [← fastDeLong_isSome Js.double math]
  unfold comparison
  dsimp only
  cases fastDeLongIn Js.double math (alignByObs own bRows).pa (alignByObs own bRows).pb (alignByObs own bRows).y with
  | none => simp [compares]
  | some dl => simp [compares]

theorem cellRests_iff (rows : List ScoreRow) (s : SplitBy × String) (key : OutcomeKey) (f : String) :
    let okRows := sectionRows rows s key
    let own := peerRows okRows f
    CellRests size rows s key (cell math f own okRows baselines thresholds) ↔
      (MIN_FOR_METRICS ≤ own.length → MIN_FOR_METRICS ≤ size own ∧
        ∀ base ∈ baselines, base ≠ f →
          let shared := paired own (peerRows okRows base)
          2 ≤ (labelled true shared).length → 2 ≤ (labelled false shared).length → MIN_FOR_METRICS ≤ size shared) := by
  intro okRows own
  unfold CellRests
  rw [cell_publishes_iff, cell_forecaster]
  constructor
  · rintro ⟨hown, hcmp⟩ hsize
    refine ⟨hown hsize, ?_⟩
    intro base hbase hne shared hpos hneg
    have hrows : peerRows okRows base ≠ [] := by
      intro hempty
      have hshared : shared = [] := by simp [shared, paired, hempty]
      rw [hshared] at hpos
      simp [labelled] at hpos
    have hrest := hcmp _ (comparison_mem math thresholds hsize hbase hne hrows) ((compares_iff _ _ _).mpr ⟨hpos, hneg⟩)
    rwa [comparison_vs] at hrest
  · intro h
    refine ⟨fun hsize => (h hsize).1, ?_⟩
    intro cmp hcmp hcompares
    obtain ⟨hsize, base, hbase, hne, _, rfl⟩ := mem_comparisons.mp hcmp
    obtain ⟨hpos, hneg⟩ := (compares_iff _ _ _).mp hcompares
    rw [comparison_vs]
    exact (h hsize).2 base hbase hne hpos hneg

theorem enoughBehind_iff (size : List ScoreRow → Nat) (math : Numerics) (rows : List ScoreRow) (opts : ScoreOptions) :
    EnoughBehind size rows (scoreBenchmark math rows opts) ↔ Overlapping size rows opts.baselines := by
  unfold EnoughBehind Overlapping
  rw [forall_cells]
  constructor
  · intro h s hs key f own hsize
    have hf : f ∈ (sectionRows rows s key).map ScoreRow.forecaster := mem_forecasters hsize
    exact (cellRests_iff rows s key f).mp (h s hs key f hf) hsize
  · intro h s hs key f _
    exact (cellRests_iff rows s key f).mpr (h s hs key f)

/-- The rule holds exactly of the rows that overlap enough, whether observations are told apart by their ids or each row
counts as one. -/
theorem min_sample_iff (math : Numerics) (rows : List ScoreRow) (opts : ScoreOptions) :
    (EnoughBehind observations rows (scoreBenchmark math rows opts) ↔ Overlapping observations rows opts.baselines) ∧
      (EnoughBehind List.length rows (scoreBenchmark math rows opts) ↔ Overlapping List.length rows opts.baselines) :=
  ⟨enoughBehind_iff observations math rows opts, enoughBehind_iff List.length math rows opts⟩

def assessed (forecaster : String) (prob : ℚ) (i : Nat) : ScoreRow :=
  ⟨"o" ++ toString i, forecaster, key6h, "T10", "clanker", prob, i % 2 = 0⟩

/-- A hundred observations of one forecaster, four of them with a baseline. -/
def fourShared : List ScoreRow :=
  (List.range 100).map (assessed "assessor" (6 / 10)) ++ (List.range 4).map (assessed "base_rate" (5 / 10))

def plainNumerics : Numerics := ⟨⟨id, id⟩, id⟩

/-- A test on four observations is published of them. -/
theorem fourShared_compared (size : List ScoreRow → Nat)
    (hfew : size (paired (peerRows (keyRows fourShared key6h) "assessor") (peerRows (keyRows fourShared key6h) "base_rate")) <
      MIN_FOR_METRICS) :
    ¬ ∀ math rows opts, EnoughBehind size rows (scoreBenchmark math rows opts) := by
  intro h
  have hover : Overlapping size fourShared DEFAULT_BASELINES :=
    (enoughBehind_iff size plainNumerics fourShared ⟨DEFAULT_THRESHOLDS, DEFAULT_BASELINES, 0⟩).mp (h _ _ _)
  have hown := hover (.all, "all") List.mem_cons_self key6h "assessor" (by decide +kernel)
  have hshared := hown.2 "base_rate" (by decide) (by decide) (by decide +kernel) (by decide +kernel)
  exact absurd hfew (Nat.not_lt.mpr hshared)

theorem four_shared :
    (¬ ∀ math rows opts, EnoughBehind observations rows (scoreBenchmark math rows opts)) ∧
      ¬ ∀ math rows opts, EnoughBehind List.length rows (scoreBenchmark math rows opts) :=
  ⟨fourShared_compared observations (by decide +kernel), fourShared_compared List.length (by decide +kernel)⟩

end LaunchAuditor.Proofs.MinSample
