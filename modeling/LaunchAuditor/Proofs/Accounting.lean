import LaunchAuditor.Lib.Tally
import LaunchAuditor.Proofs.Pipeline
import LaunchAuditor.Scorer.Forecasts

namespace LaunchAuditor.Proofs.Accounting
open Chain Outcomes Scoring Db Scorer Pipeline

/-- The rows of a forecaster for an outcome key. -/
def rowsOf (result : CollectResult) (key : OutcomeKey) (f : ForecasterKind) : Nat :=
  result.rows.countP fun r => decide (r.outcomeKey = key ∧ r.forecaster = f)

def eligibleCount (result : CollectResult) (key : OutcomeKey) (f : ForecasterKind) : Nat :=
  Counts.counter result.exclusions (key, f, .eligible)

/-- The sum over all classes. -/
def allClasses (result : CollectResult) (key : OutcomeKey) (f : ForecasterKind) : Nat :=
  Counts.total result.exclusions fun k => decide (k.1 = key ∧ k.2.1 = f)

/-- The anchors with a resolved label for the key. -/
def resolvedAnchors (db : WorkerDb) (scope : Scope) (key : OutcomeKey) : List ObsKey :=
  Js.setOf ((db.outcomes.filter fun o =>
    outcomeWhere scope o && decide ((⟨o.label, o.horizon⟩ : OutcomeKey) = key)).map obsKeyOf)

/-- The validated reports under the forecaster's name that give the key a probability at such an anchor. -/
def resolvedReports (db : WorkerDb) (scope : Scope) (key : OutcomeKey) (f : ForecasterKind) : Nat :=
  db.reports.countP fun r =>
    r.validatorPassed && decide (r.forecaster = f ∧ reportObs r ∈ resolvedAnchors db scope key) && (probOf r key).isSome

def BASELINES : List ForecasterKind := [.base_rate, .base_rate_fixed]

/-- The pair is the forecaster's, for the key. -/
def counts (key : OutcomeKey) (f : ForecasterKind) (p : ScorePair) : Bool := decide (p.outcomeKey = key ∧ p.forecaster = f)

variable {db : WorkerDb} {maps : ScannerMaps} {opts : CollectOptions} {f : ForecasterKind} {k : ObsKey} {key : OutcomeKey}

theorem exclusions_eq (db : WorkerDb) (maps : ScannerMaps) (opts : CollectOptions) :
    (collectScoreRows db maps opts).exclusions =
      Counts.count ((collectPairs db maps opts).map fun p => (p.outcomeKey, p.forecaster, p.cls)) := by
  rw [Counts.count, List.foldl_map]
  rfl

/-- Every eligible pair is a row, and nothing else is. -/
theorem rowsOf_eq (db : WorkerDb) (maps : ScannerMaps) (opts : CollectOptions) (key : OutcomeKey) (f : ForecasterKind) :
    rowsOf (collectScoreRows db maps opts) key f = eligibleCount (collectScoreRows db maps opts) key f := by
  unfold eligibleCount
  rw [exclusions_eq, Counts.counter_count, List.countP_map, rowsOf, collectScoreRows]
  dsimp only
  rw [List.countP_filterMap]
  apply List.countP_congr
  intro p _
  by_cases hcls : p.cls = .eligible
  · simp [hcls]
  · simp [hcls]

theorem allClasses_eq (db : WorkerDb) (maps : ScannerMaps) (opts : CollectOptions) (key : OutcomeKey) (f : ForecasterKind) :
    allClasses (collectScoreRows db maps opts) key f = (collectPairs db maps opts).countP (counts key f) := by
  unfold allClasses
  rw [exclusions_eq, Counts.total_count, List.countP_map]
  rfl

/-- An observation has a label for the key when one of its outcomes is of that key. -/
theorem labelled_iff (outcomes : List Outcome) (k : ObsKey) (key : OutcomeKey) :
    (((observations outcomes).lookup k).bind fun e => e.labels.lookup key).isSome = true ↔
      ∃ o ∈ outcomes, obsKeyOf o = k ∧ (⟨o.label, o.horizon⟩ : OutcomeKey) = key := by
  have hfold : ∀ obs : List (ObsKey × ResolvedObs),
      (((outcomes.foldl (fun obs o => OrderedMap.alter (obsKeyOf o) (labelObs o) obs) obs).lookup k).bind
        fun e => e.labels.lookup key).isSome = true ↔
        ((obs.lookup k).bind fun e => e.labels.lookup key).isSome = true ∨
          ∃ o ∈ outcomes, obsKeyOf o = k ∧ (⟨o.label, o.horizon⟩ : OutcomeKey) = key := by
    induction outcomes with
    | nil => simp
    | cons o outcomes ih =>
      intro obs
      rw [List.foldl_cons, ih, OrderedMap.lookup_alter]
      by_cases hk : k = obsKeyOf o
      · subst hk
        rw [if_pos rfl]
        unfold labelObs
        dsimp only
        rw [Option.bind_some, OrderedMap.lookup_set]
        by_cases hkey : key = ⟨o.label, o.horizon⟩
        · simp [hkey]
        · cases hold : obs.lookup (obsKeyOf o) with
          | none => simp [hkey, Ne.symm hkey]
          | some e => simp [hkey, Ne.symm hkey]
      · simp [hk, Ne.symm hk]
  rw [observations, hfold]
  simp

theorem labelOf_isSome : (labelOf db opts k key).isSome = true ↔ k ∈ resolvedAnchors db opts.scope key := by
  unfold labelOf scoredObs resolvedAnchors
  rw [labelled_iff, Js.mem_setOf, List.mem_map]
  simp only [List.mem_filter, Bool.and_eq_true, decide_eq_true_eq]
  constructor
  · rintro ⟨o, ⟨ho, hwhere⟩, hk, hkey⟩
    exact ⟨o, ⟨ho, hwhere, hkey⟩, hk⟩
  · rintro ⟨o, ⟨ho, hwhere, hkey⟩, hk⟩
    exact ⟨o, ⟨ho, hwhere⟩, hk, hkey⟩

/-- Each anchor has one observation. -/
theorem observations_count (db : WorkerDb) (scope : Scope) (key : OutcomeKey) :
    (scoredObs db scope).countP (fun a => (a.2.labels.lookup key).isSome) = (resolvedAnchors db scope key).length := by
  have hkeys := observations_nodup (db.outcomes.filter (outcomeWhere scope))
  have hperm : (((scoredObs db scope).filter fun a => (a.2.labels.lookup key).isSome).map Prod.fst).Perm
      (resolvedAnchors db scope key) := by
    have hnodup : (((scoredObs db scope).filter fun a => (a.2.labels.lookup key).isSome).map Prod.fst).Nodup :=
      hkeys.sublist (List.filter_sublist.map Prod.fst)
    apply (List.perm_ext_iff_of_nodup hnodup (Js.setOf_nodup _)).mpr
    intro k
    have hlabelled : (labelOf db ⟨scope, fun _ => none⟩ k key).isSome = true ↔ k ∈ resolvedAnchors db scope key :=
      labelOf_isSome
    change k ∈ _ ↔ k ∈ resolvedAnchors db scope key
    rw [← hlabelled]
    unfold labelOf
    constructor
    · intro hk
      obtain ⟨⟨k', e⟩, ha, rfl⟩ := List.mem_map.mp hk
      obtain ⟨hmem, hlabel⟩ := List.mem_filter.mp ha
      have hlookup : (scoredObs db scope).lookup k' = some e := mem_observations.mp hmem
      dsimp only
      rw [hlookup]
      exact hlabel
    · intro hlabel
      cases hlookup : (scoredObs db scope).lookup k with
      | none =>
        rw [hlookup] at hlabel
        cases hlabel
      | some e =>
        rw [hlookup] at hlabel
        exact List.mem_map.mpr ⟨(k, e), List.mem_filter.mpr ⟨mem_observations.mpr hlookup, hlabel⟩, rfl⟩
  rw [List.countP_eq_length_filter, ← List.length_map Prod.fst, hperm.length_eq]

/-- A report is counted once when it gives a labelled key a probability. -/
theorem reportPairs_count (r : Report) : (reportPairs db opts (scoredObs db opts.scope) r).countP (counts key f) =
    if r.forecaster = f ∧ (labelOf db opts (reportObs r) key).isSome = true ∧ (probOf r key).isSome = true then 1
    else 0 := by
  by_cases hf : r.forecaster = f
  · subst hf
    have hfor : ∀ p ∈ reportPairs db opts (scoredObs db opts.scope) r,
        counts key r.forecaster p = ScorePair.isFor r.forecaster (reportObs r) key p := by
      intro p hp
      obtain ⟨hobs, hf⟩ := mem_reportPairs hp
      simp [counts, ScorePair.isFor, hobs, hf]
    rw [List.countP_congr fun p hp => by rw [hfor p hp], List.countP_eq_length_filter, reportPairs_isFor,
      if_pos ⟨rfl, rfl⟩]
    cases labelOf db opts (reportObs r) key with
    | none => simp
    | some label =>
      unfold reportPair
      cases probOf r key with
      | none => simp
      | some prob => simp
  · rw [if_neg fun h => hf h.1, List.countP_eq_zero]
    intro p hp hcounts
    rw [counts, decide_eq_true_eq] at hcounts
    exact hf ((mem_reportPairs hp).2.symm.trans hcounts.2)

theorem fromReports_count (db : WorkerDb) (opts : CollectOptions) (key : OutcomeKey) (f : ForecasterKind) :
    (fromReports db opts).countP (counts key f) = resolvedReports db opts.scope key f := by
  have hone : ∀ r ∈ reportsInOrder db, (reportPairs db opts (scoredObs db opts.scope) r).countP (counts key f) =
      if decide (r.forecaster = f ∧ reportObs r ∈ resolvedAnchors db opts.scope key) && (probOf r key).isSome then 1
      else 0 := by
    intro r _
    simp [reportPairs_count, labelOf_isSome, and_assoc]
  unfold fromReports resolvedReports
  rw [Counts.countP_flatMap_one hone, reportsInOrder, (List.perm_insertionSort _ _).countP_eq, List.countP_filter]
  apply List.countP_congr
  intro r _
  simp only [Bool.and_eq_true]
  constructor
  · rintro ⟨⟨hcell, hprob⟩, hvalid⟩
    exact ⟨⟨hvalid, hcell⟩, hprob⟩
  · rintro ⟨⟨hvalid, hcell⟩, hprob⟩
    exact ⟨⟨hcell, hprob⟩, hvalid⟩

theorem baseCell_count (hf : f ∈ BASELINES) (refs : List ScorePair) (obs : List (ObsKey × ResolvedObs)) (e : ResolvedObs)
    (cell : OutcomeKey) (label : Bool) :
    (baseCell db obs refs e cell label).countP (counts key f) = if decide (cell = key) then 1 else 0 := by
  have hf' : f = .base_rate ∨ f = .base_rate_fixed := by simpa [BASELINES] using hf
  rcases hf' with rfl | rfl
  · simp [baseCell, counts, List.countP_cons]
  · simp [baseCell, counts, List.countP_cons]

/-- Of distinct keys one at most is the key. -/
theorem labels_count {labels : List (OutcomeKey × Bool)} (h : (OrderedMap.keys labels).Nodup) (key : OutcomeKey) :
    (labels.countP fun l => decide (l.1 = key)) = if (labels.lookup key).isSome then 1 else 0 := by
  have hcount : (labels.countP fun l => decide (l.1 = key)) = (OrderedMap.keys labels).count key := by
    rw [OrderedMap.keys, List.count, List.countP_map]
    rfl
  rw [hcount, h.count]
  by_cases hmem : key ∈ OrderedMap.keys labels
  · obtain ⟨y, hy⟩ := OrderedMap.mem_keys_iff.mp hmem
    simp [hmem, hy]
  · have hnone : labels.lookup key = none := by
      cases hlookup : labels.lookup key with
      | none => rfl
      | some y => exact absurd (OrderedMap.mem_keys_iff.mpr ⟨y, hlookup⟩) hmem
    simp [hmem, hnone]

/-- Each baseline is counted once an observation. -/
theorem basePairs_count (hf : f ∈ BASELINES) (db : WorkerDb) (scope : Scope) (refs : List ScorePair) :
    (basePairs db (scoredObs db scope) refs).countP (counts key f) = (resolvedAnchors db scope key).length := by
  rw [← observations_count, basePairs]
  apply Counts.countP_flatMap_one
  intro a ha
  rw [Counts.countP_flatMap_one fun l _ => baseCell_count hf refs _ a.2 l.1 l.2]
  exact labels_count (observations_entry ha).labels key

theorem basePairs_none (hf : f ∉ BASELINES) (obs : List (ObsKey × ResolvedObs)) (refs : List ScorePair) :
    (basePairs db obs refs).countP (counts key f) = 0 := by
  rw [List.countP_eq_zero]
  intro p hp hcounts
  rw [counts, decide_eq_true_eq] at hcounts
  apply hf
  rcases basePairs_forecaster hp with he | he
  · rw [← hcounts.2, he]
    decide
  · rw [← hcounts.2, he]
    decide

def SCANNERS : List ForecasterKind := [.scanhood, .goplus]

theorem scanners_none (hf : f ∉ SCANNERS) (obs : List (ObsKey × ResolvedObs)) (anchors : List (String × ObsKey))
    (refs : List ScorePair) : (db.features.flatMap (featurePairs db maps obs anchors refs)).countP (counts key f) = 0 := by
  rw [List.countP_eq_zero]
  intro p hp hcounts
  rw [counts, decide_eq_true_eq] at hcounts
  obtain ⟨feature, _, hp⟩ := List.mem_flatMap.mp hp
  apply hf
  rcases featurePairs_forecaster hp with he | he
  · rw [← hcounts.2, he]
    decide
  · rw [← hcounts.2, he]
    decide

/-- Who is no scanner is counted for its reports, and a baseline for the observations too. -/
theorem allClasses_of (hf : f ∉ SCANNERS) (db : WorkerDb) (maps : ScannerMaps) (opts : CollectOptions) (key : OutcomeKey) :
    allClasses (collectScoreRows db maps opts) key f = resolvedReports db opts.scope key f +
      if f ∈ BASELINES then (resolvedAnchors db opts.scope key).length else 0 := by
  rw [allClasses_eq, collectPairs_eq, List.countP_append, List.countP_append, scanners_none hf, fromReports_count,
    Nat.add_zero]
  by_cases hbase : f ∈ BASELINES
  · rw [basePairs_count hbase, if_pos hbase]
  · rw [basePairs_none hbase, if_neg hbase]

/-- The counters keep step with the rows, and leave nothing out. -/
theorem accounts (db : WorkerDb) (maps : ScannerMaps) (opts : CollectOptions) (key : OutcomeKey) :
    let result := collectScoreRows db maps opts
    (∀ f, rowsOf result key f = eligibleCount result key f) ∧
      (∀ f ∈ REPORT_FORECASTERS, allClasses result key f = resolvedReports db opts.scope key f) ∧
      ∀ f ∈ BASELINES, allClasses result key f =
        (resolvedAnchors db opts.scope key).length + resolvedReports db opts.scope key f := by
  refine ⟨rowsOf_eq db maps opts key, ?_, ?_⟩
  · intro f hf
    have hnot : ∀ f ∈ REPORT_FORECASTERS, f ∉ SCANNERS ∧ f ∉ BASELINES := by decide
    rw [allClasses_of (hnot f hf).1, if_neg (hnot f hf).2, Nat.add_zero]
  · intro f hf
    have hnot : ∀ f ∈ BASELINES, f ∉ SCANNERS := by decide
    rw [allClasses_of (hnot f hf), if_pos hf, Nat.add_comm]

/-- One observation, and a report that is stored under a baseline's name. -/
def storedBaseRate : WorkerDb :=
  { WorkerDb.empty with
    outcomes := [exitOutcome 1#160 3600000 true], reports := [exitReport 1#160 .base_rate .launch 3600000 none] }

theorem stored_base_rate_counted : ¬ ∀ db maps opts key, ∀ f ∈ BASELINES,
    allClasses (collectScoreRows db maps opts) key f = (resolvedAnchors db opts.scope key).length := by
  intro h
  have hcount := h storedBaseRate ⟨fun _ => [], fun _ => []⟩ minuteLater ⟨.INSIDER_EXIT, "72h"⟩ .base_rate (by decide)
  exact absurd hcount (by decide +kernel)

end LaunchAuditor.Proofs.Accounting
