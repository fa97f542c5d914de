import LaunchAuditor.Scorer.Forecasts

namespace LaunchAuditor.Proofs.Baselines
open Chain Outcomes Scoring Db Scorer

/-- The observations that a forecaster has a row for in a cell. -/
def obsOf (rows : List ScoreRow) (f : ForecasterKind) (key : OutcomeKey) : Set ObsKey :=
  fun k => ∃ r ∈ rows, r.forecaster = f ∧ r.outcomeKey = key ∧ r.obsId = k

/-- Both baselines are scored on what det_v0 is scored on, in each cell. -/
def Comparable (rows : List ScoreRow) : Prop :=
  ∀ key, obsOf rows .base_rate key = obsOf rows .det_v0 key ∧ obsOf rows .base_rate_fixed key = obsOf rows .det_v0 key

/-- The oldest forecast of det_v0 is eligible when any is, or the database has eligible reports under the names of
both baselines; and it has none under either where no forecast of det_v0 is eligible. -/
def OldestDecides (db : WorkerDb) (opts : CollectOptions) : Prop :=
  ∀ k key, (labelOf db opts k key).isSome = true →
    (.eligible ∈ classes db opts .det_v0 k key → (classes db opts .det_v0 k key).head? = some .eligible ∨
      .eligible ∈ classes db opts .base_rate k key ∧ .eligible ∈ classes db opts .base_rate_fixed k key) ∧
    (.eligible ∈ classes db opts .base_rate k key ∨ .eligible ∈ classes db opts .base_rate_fixed k key →
      .eligible ∈ classes db opts .det_v0 k key)

variable {db : WorkerDb} {maps : ScannerMaps} {opts : CollectOptions} {f : ForecasterKind} {k : ObsKey} {key : OutcomeKey}

/-- A row is an eligible pair. -/
theorem mem_obsOf : k ∈ obsOf (collectScoreRows db maps opts).rows f key ↔
    ∃ p ∈ collectPairs db maps opts, ScorePair.isFor f k key p = true ∧ p.cls = .eligible := by
  unfold collectScoreRows
  constructor
  · rintro ⟨r, hr, hf, hkey, hk⟩
    obtain ⟨p, hp, hrow⟩ := List.mem_filterMap.mp hr
    by_cases hcls : p.cls = .eligible
    · rw [if_pos hcls] at hrow
      obtain rfl := Option.some.inj hrow
      exact ⟨p, hp, by simp [ScorePair.isFor, hf, hkey, hk], hcls⟩
    · rw [if_neg hcls] at hrow
      cases hrow
  · rintro ⟨p, hp, hfor, hcls⟩
    rw [ScorePair.isFor, decide_eq_true_eq] at hfor
    exact ⟨p.toScoreRow, List.mem_filterMap.mpr ⟨p, hp, if_pos hcls⟩, hfor.1, hfor.2.2, hfor.2.1⟩

theorem mem_fromReports : (∃ p ∈ fromReports db opts, ScorePair.isFor f k key p = true ∧ p.cls = .eligible) ↔
    (labelOf db opts k key).isSome = true ∧ .eligible ∈ classes db opts f k key := by
  have hfilter : (∃ p ∈ fromReports db opts, ScorePair.isFor f k key p = true ∧ p.cls = .eligible) ↔
      .eligible ∈ ((fromReports db opts).filter (ScorePair.isFor f k key)).map ScorePair.cls := by
    simp only [List.mem_map, List.mem_filter, and_assoc]
  rw [hfilter]
  cases hlabel : labelOf db opts k key with
  | none => simp [fromReports_unlabelled hlabel]
  | some label => simp [fromReports_classes hlabel]

/-- Only reports bring rows of det_v0. -/
theorem mem_obsOf_det : k ∈ obsOf (collectScoreRows db maps opts).rows .det_v0 key ↔
    (labelOf db opts k key).isSome = true ∧ .eligible ∈ classes db opts .det_v0 k key := by
  rw [mem_obsOf, ← mem_fromReports, collectPairs_eq]
  constructor
  · rintro ⟨p, hp, hfor, hcls⟩
    have hdet : p.forecaster = .det_v0 := by
      rw [ScorePair.isFor, decide_eq_true_eq] at hfor
      exact hfor.1
    rcases List.mem_append.mp hp with hp | hp
    · rcases List.mem_append.mp hp with hp | hp
      · exact ⟨p, hp, hfor, hcls⟩
      · obtain ⟨a, _, hp⟩ := List.mem_flatMap.mp hp
        obtain ⟨l, _, hp⟩ := List.mem_flatMap.mp hp
        rcases (mem_baseCell hp).1 with h | h
        · rw [hdet] at h
          cases h
        · rw [hdet] at h
          cases h
    · obtain ⟨feature, _, hp⟩ := List.mem_flatMap.mp hp
      rcases featurePairs_forecaster hp with h | h
      · rw [hdet] at h
        cases h
      · rw [hdet] at h
        cases h
  · rintro ⟨p, hp, hfor, hcls⟩
    exact ⟨p, List.mem_append_left _ (List.mem_append_left _ hp), hfor, hcls⟩

/-- A baseline has a row where the oldest forecast of det_v0 is eligible, or where a report is stored under its name. -/
theorem mem_obsOf_base (hf : f = .base_rate ∨ f = .base_rate_fixed) :
    k ∈ obsOf (collectScoreRows db maps opts).rows f key ↔ (labelOf db opts k key).isSome = true ∧
      ((classes db opts .det_v0 k key).head? = some .eligible ∨ .eligible ∈ classes db opts f k key) := by
  have hhead : (labelOf db opts k key).isSome = true ∧ refClass (fromReports db opts) k key = .eligible ↔
      (labelOf db opts k key).isSome = true ∧ (classes db opts .det_v0 k key).head? = some .eligible := by
    apply and_congr_right
    intro hlabel
    obtain ⟨label, hlabel⟩ := Option.isSome_iff_exists.mp hlabel
    rw [refClass_eq hlabel]
    unfold REFERENCE_FORECASTER
    cases (classes db opts .det_v0 k key).head? with
    | none => simp
    | some cls => simp
  rw [mem_obsOf, collectPairs_eq, and_or_left, ← hhead, ← mem_basePairs hf, ← mem_fromReports]
  constructor
  · rintro ⟨p, hp, hfor, hcls⟩
    rcases List.mem_append.mp hp with hp | hp
    · rcases List.mem_append.mp hp with hp | hp
      · exact Or.inr ⟨p, hp, hfor, hcls⟩
      · exact Or.inl ⟨p, hp, hfor, hcls⟩
    · obtain ⟨feature, _, hp⟩ := List.mem_flatMap.mp hp
      rw [ScorePair.isFor, decide_eq_true_eq] at hfor
      rcases featurePairs_forecaster hp with h | h
      · rcases hf with rfl | rfl
        · exact absurd (hfor.1.symm.trans h) (by decide)
        · exact absurd (hfor.1.symm.trans h) (by decide)
      · rcases hf with rfl | rfl
        · exact absurd (hfor.1.symm.trans h) (by decide)
        · exact absurd (hfor.1.symm.trans h) (by decide)
  · rintro (⟨p, hp, hfor, hcls⟩ | ⟨p, hp, hfor, hcls⟩)
    · exact ⟨p, List.mem_append_left _ (List.mem_append_right _ hp), hfor, hcls⟩
    · exact ⟨p, List.mem_append_left _ (List.mem_append_left _ hp), hfor, hcls⟩

/-- The baselines are comparable exactly when det_v0's oldest forecasts decide. -/
theorem comparable_iff (db : WorkerDb) (maps : ScannerMaps) (opts : CollectOptions) :
    Comparable (collectScoreRows db maps opts).rows ↔ OldestDecides db opts := by
  have hoff : ∀ f, f = .base_rate ∨ f = .base_rate_fixed → ∀ key,
      (obsOf (collectScoreRows db maps opts).rows f key = obsOf (collectScoreRows db maps opts).rows .det_v0 key ↔
        ∀ k, (labelOf db opts k key).isSome = true →
          ((classes db opts .det_v0 k key).head? = some .eligible ∨ .eligible ∈ classes db opts f k key ↔
            .eligible ∈ classes db opts .det_v0 k key)) := by
    intro f hf key
    rw [Set.ext_iff]
    apply forall_congr'
    intro k
    rw [mem_obsOf_base hf, mem_obsOf_det, and_congr_right_iff]
  have hfirst : ∀ k key, (classes db opts .det_v0 k key).head? = some .eligible →
      .eligible ∈ classes db opts .det_v0 k key := fun k key h => List.mem_of_head? h
  constructor
  · intro h k key hlabel
    have hbase := ((hoff .base_rate (Or.inl rfl) key).mp (h key).1) k hlabel
    have hfixed := ((hoff .base_rate_fixed (Or.inr rfl) key).mp (h key).2) k hlabel
    constructor
    · intro hdet
      rcases hbase.mpr hdet with hhead | hb
      · exact Or.inl hhead
      · rcases hfixed.mpr hdet with hhead | hx
        · exact Or.inl hhead
        · exact Or.inr ⟨hb, hx⟩
    · rintro (hb | hx)
      · exact hbase.mp (Or.inr hb)
      · exact hfixed.mp (Or.inr hx)
  · intro h key
    constructor
    · apply (hoff .base_rate (Or.inl rfl) key).mpr
      intro k hlabel
      obtain ⟨hdet, hstored⟩ := h k key hlabel
      constructor
      · rintro (hhead | hb)
        · exact hfirst k key hhead
        · exact hstored (Or.inl hb)
      · exact fun hd => (hdet hd).imp id And.left
    · apply (hoff .base_rate_fixed (Or.inr rfl) key).mpr
      intro k hlabel
      obtain ⟨hdet, hstored⟩ := h k key hlabel
      constructor
      · rintro (hhead | hx)
        · exact hfirst k key hhead
        · exact hstored (Or.inr hx)
      · exact fun hd => (hdet hd).imp id And.right

def assessedAgain : WorkerDb :=
  { WorkerDb.empty with
    outcomes := [exitOutcome 1#160 3600000 true]
    reports := [exitReport 1#160 .det_v0 .launch 3600000 none, exitReport 1#160 .det_v0 .on_demand 3630000 (some "c1")]
    commits := [⟨"c1", some 100⟩] }

/-- The second report has a row, and there is no baseline to hold against it. -/
theorem baselines_missing : ¬ ∀ db maps opts, Comparable (collectScoreRows db maps opts).rows := by
  intro h
  have hsame := (h assessedAgain ⟨fun _ => [], fun _ => []⟩ minuteLater ⟨.INSIDER_EXIT, "72h"⟩).1
  generalize hrows : (collectScoreRows assessedAgain ⟨fun _ => [], fun _ => []⟩ minuteLater).rows = rows at hsame
  have hdet : rows.map (fun r => (r.forecaster, r.outcomeKey, r.obsId)) =
      [(.det_v0, ⟨.INSIDER_EXIT, "72h"⟩, ⟨4663, 1#160, 3600000⟩)] := by
    rw [← hrows]
    decide +kernel
  obtain ⟨r, rfl⟩ := List.length_eq_one_iff.mp (show rows.length = 1 by simpa using congrArg List.length hdet)
  simp only [List.map_cons, List.map_nil, List.cons.injEq, Prod.mk.injEq, and_true] at hdet
  have hmem : (⟨4663, 1#160, 3600000⟩ : ObsKey) ∈ obsOf [r] .base_rate ⟨.INSIDER_EXIT, "72h"⟩ := by
    rw [hsame]
    exact ⟨r, List.mem_singleton_self r, hdet.1, hdet.2.1, hdet.2.2⟩
  obtain ⟨q, hq, hf, _⟩ := hmem
  rw [List.mem_singleton.mp hq, hdet.1] at hf
  cases hf

end LaunchAuditor.Proofs.Baselines
