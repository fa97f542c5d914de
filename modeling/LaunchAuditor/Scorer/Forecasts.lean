import LaunchAuditor.Scorer.Observations

/-! The pairs of one forecaster for one cell. -/

namespace LaunchAuditor.Scorer
open Chain Outcomes Scoring Db

theorem P_COL_keys : P_COL.map Prod.fst = ALL_OUTCOME_KEYS := by decide

/-- A report has a forecast for the cells of the grid only. -/
theorem probOf_key {r : Report} {key : OutcomeKey} {prob : ℚ} (h : probOf r key = some prob) :
    key ∈ ALL_OUTCOME_KEYS := by
  obtain ⟨col, hcol, _⟩ := Option.bind_eq_some_iff.mp h
  rw [← P_COL_keys]
  exact OrderedMap.mem_keys_iff.mpr ⟨col, hcol⟩

section Pairs
variable (db : WorkerDb) (opts : CollectOptions)

/-- The label of a cell, when one of its outcomes is resolved. -/
def labelOf (k : ObsKey) (key : OutcomeKey) : Option Bool :=
  ((scoredObs db opts.scope).lookup k).bind fun e => e.labels.lookup key

/-- The reports of the forecaster at the anchor that give a probability for the cell, oldest first. -/
def forecasts (f : ForecasterKind) (k : ObsKey) (key : OutcomeKey) : List Report :=
  (reportsInOrder db).filter fun r => decide (reportObs r = k) && decide (r.forecaster = f) && (probOf r key).isSome

/-- The classes of these reports. -/
def classes (f : ForecasterKind) (k : ObsKey) (key : OutcomeKey) : List Eligibility :=
  (forecasts db f k key).map fun r => reportClass db opts r key

/-- The pair is the forecaster's for the cell. -/
def ScorePair.isFor (f : ForecasterKind) (k : ObsKey) (key : OutcomeKey) (p : ScorePair) : Bool :=
  decide (p.forecaster = f ∧ p.obsId = k ∧ p.outcomeKey = key)

variable {db opts} {f : ForecasterKind} {k : ObsKey} {key : OutcomeKey}

theorem mem_reportsInOrder {r : Report} : r ∈ reportsInOrder db ↔ r ∈ db.reports ∧ r.validatorPassed = true := by
  rw [reportsInOrder, List.mem_insertionSort, List.mem_filter]

theorem labelOf_eq_some {label : Bool} : labelOf db opts k key = some label ↔
    ∃ e, (k, e) ∈ scoredObs db opts.scope ∧ (key, label) ∈ e.labels := by
  unfold labelOf
  rw [Option.bind_eq_some_iff]
  constructor
  · rintro ⟨e, he, hl⟩
    have hmem := mem_observations.mpr he
    exact ⟨e, hmem, (OrderedMap.mem_iff_lookup (observations_entry hmem).labels).mpr hl⟩
  · rintro ⟨e, he, hl⟩
    exact ⟨e, mem_observations.mp he, (OrderedMap.mem_iff_lookup (observations_entry he).labels).mp hl⟩

/-- Of the pairs that are made key by key, one key has at most its own. -/
theorem filterMap_key {g : OutcomeKey → Option ScorePair} (hg : ∀ l p, g l = some p → p.outcomeKey = l)
    {keys : List OutcomeKey} (hnodup : keys.Nodup) :
    (keys.filterMap g).filter (fun p => decide (p.outcomeKey = key)) = if key ∈ keys then (g key).toList else [] := by
  induction keys with
  | nil => rfl
  | cons l keys ih =>
    obtain ⟨hl, hkeys⟩ := List.nodup_cons.mp hnodup
    have hrest := ih hkeys
    rw [List.filterMap_cons]
    by_cases hkey : l = key
    · subst hkey
      rw [if_neg hl] at hrest
      rw [if_pos List.mem_cons_self]
      cases hgl : g l with
      | none => exact hrest
      | some p =>
        dsimp only
        rw [List.filter_cons, hrest, if_pos (by simpa using hg l p hgl)]
        rfl
    · have hmem : key ∈ l :: keys ↔ key ∈ keys := by
        rw [List.mem_cons]
        exact or_iff_right (Ne.symm hkey)
      simp only [hmem]
      cases hgl : g l with
      | none => exact hrest
      | some p =>
        have hp : ¬ p.outcomeKey = key := fun hp => hkey ((hg l p hgl).symm.trans hp)
        dsimp only
        rw [List.filter_cons, if_neg (by simpa using hp)]
        exact hrest

theorem mem_reportPairs {obs : List (ObsKey × ResolvedObs)} {r : Report} {p : ScorePair}
    (h : p ∈ reportPairs db opts obs r) : p.obsId = reportObs r ∧ p.forecaster = r.forecaster := by
  unfold reportPairs at h
  split at h
  · cases h
  · obtain ⟨key, _, hkey⟩ := List.mem_filterMap.mp h
    obtain ⟨label, _, hkey⟩ := Option.bind_eq_some_iff.mp hkey
    obtain ⟨prob, _, hkey⟩ := Option.bind_eq_some_iff.mp hkey
    obtain rfl := Option.some.inj hkey
    exact ⟨rfl, rfl⟩

/-- The pair of a report for a cell with the label. -/
def reportPair (db : WorkerDb) (opts : CollectOptions) (r : Report) (key : OutcomeKey) (label : Bool) : Option ScorePair :=
  (probOf r key).map fun prob =>
    ⟨⟨reportObs r, r.forecaster, key, r.trigger, sourceOf db r.launchId, prob, label⟩, reportClass db opts r key⟩

/-- What a report adds for one cell. -/
theorem reportPairs_isFor (r : Report) :
    (reportPairs db opts (scoredObs db opts.scope) r).filter (ScorePair.isFor f k key) =
      if reportObs r = k ∧ r.forecaster = f then ((labelOf db opts k key).bind (reportPair db opts r key)).toList else [] := by
  by_cases hr : reportObs r = k ∧ r.forecaster = f
  · obtain ⟨rfl, rfl⟩ := hr
    have htest : ∀ p ∈ reportPairs db opts (scoredObs db opts.scope) r,
        ScorePair.isFor r.forecaster (reportObs r) key p = decide (p.outcomeKey = key) := by
      intro p hp
      obtain ⟨hobs, hf⟩ := mem_reportPairs hp
      simp [ScorePair.isFor, hobs, hf]
    rw [List.filter_congr htest, if_pos ⟨rfl, rfl⟩]
    unfold reportPairs labelOf
    cases hobs : (scoredObs db opts.scope).lookup (reportObs r) with
    | none => rfl
    | some e =>
      dsimp only
      rw [filterMap_key ?_ ALL_OUTCOME_KEYS_nodup]
      · have hpair : ∀ label, (probOf r key).bind (fun prob => some (⟨⟨reportObs r, r.forecaster, key, r.trigger,
            sourceOf db r.launchId, prob, label⟩, reportClass db opts r key⟩ : ScorePair)) =
            reportPair db opts r key label := fun label => by
          unfold reportPair
          cases probOf r key <;> rfl
        by_cases hkey : key ∈ ALL_OUTCOME_KEYS
        · rw [if_pos hkey]
          congr 1
          exact congrArg (fun g => (e.labels.lookup key).bind g) (funext hpair)
        · have hnone : probOf r key = none := by
            cases hprob : probOf r key with
            | none => rfl
            | some prob => exact absurd (probOf_key hprob) hkey
          rw [if_neg hkey]
          cases hl : e.labels.lookup key with
          | none => simp [hl]
          | some label => simp [hl, reportPair, hnone]
      · intro l p hp
        obtain ⟨label, _, hp⟩ := Option.bind_eq_some_iff.mp hp
        obtain ⟨prob, _, hp⟩ := Option.bind_eq_some_iff.mp hp
        obtain rfl := Option.some.inj hp
        rfl
  · rw [if_neg hr, List.filter_eq_nil_iff]
    intro p hp hfor
    obtain ⟨hobs, hf⟩ := mem_reportPairs hp
    rw [ScorePair.isFor, decide_eq_true_eq] at hfor
    exact hr ⟨hobs.symm.trans hfor.2.1, hf.symm.trans hfor.1⟩

/-- The pairs of a forecaster for a labelled cell are its forecasts, oldest first. -/
theorem fromReports_isFor : (fromReports db opts).filter (ScorePair.isFor f k key) =
    match labelOf db opts k key with
    | none => []
    | some label => (forecasts db f k key).filterMap fun r => reportPair db opts r key label := by
  unfold fromReports forecasts
  rw [List.filter_flatMap]
  induction reportsInOrder db with
  | nil => cases labelOf db opts k key <;> rfl
  | cons r reports ih =>
    rw [List.flatMap_cons, ih, reportPairs_isFor]
    cases labelOf db opts k key with
    | none => simp
    | some label =>
      dsimp only
      rw [List.filter_cons, Option.bind_some]
      by_cases hr : reportObs r = k ∧ r.forecaster = f
      · rw [if_pos hr]
        cases hprob : probOf r key with
        | none => simp [reportPair, hprob]
        | some prob => simp [reportPair, hprob, hr.1, hr.2]
      · have htest : ¬ (decide (reportObs r = k) && decide (r.forecaster = f) && (probOf r key).isSome) = true := by
          simp only [Bool.and_eq_true, decide_eq_true_eq]
          exact fun h => hr h.1
        rw [if_neg hr, if_neg htest]
        rfl

/-- Their classes are those of its forecasts. -/
theorem fromReports_classes {label : Bool} (hlabel : labelOf db opts k key = some label) :
    ((fromReports db opts).filter (ScorePair.isFor f k key)).map ScorePair.cls = classes db opts f k key := by
  rw [fromReports_isFor, hlabel]
  unfold classes
  have hall : ∀ r ∈ forecasts db f k key, (probOf r key).isSome = true := by
    intro r hr
    have htest := (List.mem_filter.mp hr).2
    rw [Bool.and_eq_true] at htest
    exact htest.2
  generalize forecasts db f k key = reports at hall
  dsimp only
  induction reports with
  | nil => rfl
  | cons r reports ih =>
    obtain ⟨prob, hprob⟩ := Option.isSome_iff_exists.mp (hall r List.mem_cons_self)
    have hpair : reportPair db opts r key label = some ⟨⟨reportObs r, r.forecaster, key, r.trigger,
        sourceOf db r.launchId, prob, label⟩, reportClass db opts r key⟩ := by
      unfold reportPair
      rw [hprob]
      rfl
    rw [List.filterMap_cons, hpair, List.map_cons, List.map_cons, ih fun s hs => hall s (List.mem_cons_of_mem _ hs)]

theorem fromReports_unlabelled (hlabel : labelOf db opts k key = none) :
    (fromReports db opts).filter (ScorePair.isFor f k key) = [] := by
  rw [fromReports_isFor, hlabel]

/-- The class the computed forecasters take is that of the oldest forecast. -/
theorem refClass_eq {label : Bool} (hlabel : labelOf db opts k key = some label) :
    refClass (fromReports db opts) k key = (classes db opts REFERENCE_FORECASTER k key).head?.getD .uncommitted := by
  rw [← fromReports_classes hlabel, List.head?_map, List.head?_filter]
  rfl

end Pairs

section Computed
variable {db : WorkerDb} {opts : CollectOptions} {f : ForecasterKind} {k : ObsKey} {key : OutcomeKey}

section Scanners
variable {maps : ScannerMaps} {obs : List (ObsKey × ResolvedObs)} {anchors : List (String × ObsKey)} {refs : List ScorePair}
  {feature : Feature} {p : ScorePair}

/-- A scanner's pair is about the anchor of a stored launch, which was observed. -/
theorem mem_featurePairs (hp : p ∈ featurePairs db maps obs anchors refs feature) :
    (db.launch feature.launchId).isSome = true ∧ anchors.lookup feature.launchId = some p.obsId ∧
      (obs.lookup p.obsId).isSome = true ∧ (p.forecaster = .scanhood ∨ p.forecaster = .goplus) := by
  unfold featurePairs at hp
  split at hp
  · rename_i launch anchor hlaunch hanchor
    split at hp
    · cases hp
    · rename_i e hobs
      obtain ⟨l, _, hp⟩ := List.mem_flatMap.mp hp
      unfold scannerPair at hp
      rw [hlaunch, hanchor]
      rcases List.mem_append.mp hp with hp | hp
      · obtain ⟨prob, _, rfl⟩ := Option.map_eq_some_iff.mp (Option.mem_toList.mp hp)
        exact ⟨rfl, rfl, Option.isSome_of_eq_some hobs, Or.inl rfl⟩
      · obtain ⟨prob, _, rfl⟩ := Option.map_eq_some_iff.mp (Option.mem_toList.mp hp)
        exact ⟨rfl, rfl, Option.isSome_of_eq_some hobs, Or.inr rfl⟩
  · cases hp

/-- The scanners have pairs of their own only. -/
theorem featurePairs_forecaster (hp : p ∈ featurePairs db maps obs anchors refs feature) :
    p.forecaster = .scanhood ∨ p.forecaster = .goplus :=
  (mem_featurePairs hp).2.2.2

end Scanners

theorem mem_baseCell {obs : List (ObsKey × ResolvedObs)} {refs : List ScorePair} {e : ResolvedObs} {label : Bool}
    {p : ScorePair} (hp : p ∈ baseCell db obs refs e key label) :
    (p.forecaster = .base_rate ∨ p.forecaster = .base_rate_fixed) ∧ p.obsId = ⟨e.chainId, e.token, e.anchor⟩ ∧
      p.outcomeKey = key ∧ p.cls = refClass refs ⟨e.chainId, e.token, e.anchor⟩ key := by
  rcases List.mem_cons.mp hp with rfl | hp
  · exact ⟨Or.inl rfl, rfl, rfl, rfl⟩
  · rw [List.mem_singleton.mp hp]
    exact ⟨Or.inr rfl, rfl, rfl, rfl⟩

theorem basePairs_forecaster {obs : List (ObsKey × ResolvedObs)} {refs : List ScorePair} {p : ScorePair}
    (hp : p ∈ basePairs db obs refs) : p.forecaster = .base_rate ∨ p.forecaster = .base_rate_fixed := by
  obtain ⟨a, _, hp⟩ := List.mem_flatMap.mp hp
  obtain ⟨l, _, hp⟩ := List.mem_flatMap.mp hp
  exact (mem_baseCell hp).1

/-- A baseline has a pair for every labelled cell, in the reference forecaster's class. -/
theorem mem_basePairs (hf : f = .base_rate ∨ f = .base_rate_fixed) (refs : List ScorePair) (cls : Eligibility) :
    (∃ p ∈ basePairs db (scoredObs db opts.scope) refs, ScorePair.isFor f k key p = true ∧ p.cls = cls) ↔
      (labelOf db opts k key).isSome = true ∧ refClass refs k key = cls := by
  constructor
  · rintro ⟨p, hp, hfor, hcls⟩
    obtain ⟨a, ha, hp⟩ := List.mem_flatMap.mp hp
    obtain ⟨l, hl, hp⟩ := List.mem_flatMap.mp hp
    obtain ⟨_, hobs, hkey, hclass⟩ := mem_baseCell hp
    rw [ScorePair.isFor, decide_eq_true_eq] at hfor
    have hk : a.1 = k := (observations_entry ha).key.trans (hobs.symm.trans hfor.2.1)
    have hlabel : labelOf db opts k key = some l.2 := by
      rw [← hk, ← hfor.2.2, hkey]
      exact labelOf_eq_some.mpr ⟨a.2, ha, hl⟩
    rw [hlabel, ← hcls, hclass, ← hobs, hfor.2.1, ← hkey, hfor.2.2]
    exact ⟨rfl, rfl⟩
  · rintro ⟨hlabel, hclass⟩
    obtain ⟨label, hlabel⟩ := Option.isSome_iff_exists.mp hlabel
    obtain ⟨e, he, hl⟩ := labelOf_eq_some.mp hlabel
    have hk : k = ⟨e.chainId, e.token, e.anchor⟩ := (observations_entry he).key
    have hmem : ∀ p ∈ baseCell db (scoredObs db opts.scope) refs e key label,
        p ∈ basePairs db (scoredObs db opts.scope) refs := fun p hp =>
      List.mem_flatMap.mpr ⟨(k, e), he, List.mem_flatMap.mpr ⟨(key, label), hl, hp⟩⟩
    subst hk
    rcases hf with rfl | rfl
    · exact ⟨_, hmem _ List.mem_cons_self, by simp [ScorePair.isFor], hclass⟩
    · exact ⟨_, hmem _ (List.mem_cons_of_mem _ List.mem_cons_self), by simp [ScorePair.isFor], hclass⟩

end Computed

end LaunchAuditor.Scorer
