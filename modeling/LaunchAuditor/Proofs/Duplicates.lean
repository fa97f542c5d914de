import LaunchAuditor.Proofs.Completion
import LaunchAuditor.Scorer.Forecasts

namespace LaunchAuditor.Proofs.Duplicates
open Chain Outcomes Scoring Db Watcher Report Scorer Pipeline

/-- What a row stands for. -/
def rowKey (r : ScoreRow) : ForecasterKind × OutcomeKey × ObsKey := (r.forecaster, r.outcomeKey, r.obsId)

/-- Of the validated reports of one forecaster that forecast one labelled cell, one is eligible at most. -/
def OneForecast (db : WorkerDb) (opts : CollectOptions) : Prop :=
  ∀ f k key, (labelOf db opts k key).isSome = true → (classes db opts f k key).count .eligible ≤ 1

/-- The pair makes a row for the cell. -/
def scores (f : ForecasterKind) (k : ObsKey) (key : OutcomeKey) (p : ScorePair) : Bool :=
  decide (p.cls = .eligible) && ScorePair.isFor f k key p

variable {db : WorkerDb} {maps : ScannerMaps} {opts : CollectOptions} {f : ForecasterKind} {k : ObsKey} {key : OutcomeKey}

theorem scores_iff {p : ScorePair} : scores f k key p = true ↔
    p.cls = .eligible ∧ p.forecaster = f ∧ p.obsId = k ∧ p.outcomeKey = key := by
  simp [scores, ScorePair.isFor]

theorem count_rowKey (db : WorkerDb) (maps : ScannerMaps) (opts : CollectOptions) :
    ((collectScoreRows db maps opts).rows.map rowKey).count (f, key, k) =
      (collectPairs db maps opts).countP (scores f k key) := by
  unfold collectScoreRows
  dsimp only
  rw [List.count, List.countP_map, List.countP_filterMap]
  apply List.countP_congr
  intro p _
  by_cases hcls : p.cls = .eligible
  · simp only [hcls, if_true, Option.map_some, Option.getD_some, Function.comp_apply, rowKey, scores_iff, true_and,
      beq_iff_eq, Prod.mk.injEq]
    exact and_congr_right fun _ => and_comm
  · simp [hcls, scores]

theorem rows_nodup_iff (db : WorkerDb) (maps : ScannerMaps) (opts : CollectOptions) :
    ((collectScoreRows db maps opts).rows.map rowKey).Nodup ↔
      ∀ f k key, (collectPairs db maps opts).countP (scores f k key) ≤ 1 := by
  rw [List.nodup_iff_count_le_one]
  constructor
  · intro h f k key
    rw [← count_rowKey]
    exact h (f, key, k)
  · rintro h ⟨f, key, k⟩
    rw [count_rowKey]
    exact h f k key

theorem fromReports_scores (hlabel : (labelOf db opts k key).isSome = true) :
    (fromReports db opts).countP (scores f k key) = (classes db opts f k key).count .eligible := by
  obtain ⟨label, hlabel⟩ := Option.isSome_iff_exists.mp hlabel
  rw [← fromReports_classes hlabel, List.count, List.countP_map, List.countP_filter]
  apply List.countP_congr
  intro p _
  simp [scores]

theorem fromReports_scores_none (hlabel : labelOf db opts k key = none) :
    (fromReports db opts).countP (scores f k key) = 0 := by
  have hnil := fromReports_unlabelled (f := f) hlabel
  rw [List.countP_eq_zero]
  intro p hp hscores
  rw [scores, Bool.and_eq_true] at hscores
  exact List.filter_eq_nil_iff.mp hnil p hp hscores.2

theorem countP_pair_le_one {p : ScorePair → Bool} {x y : ScorePair} (h : ¬ (p x = true ∧ p y = true)) :
    [x, y].countP p ≤ 1 := by
  cases hx : p x with
  | false => simp [List.countP_cons, hx]; split <;> omega
  | true =>
    have hy : p y = false := by
      cases hy : p y with
      | false => rfl
      | true => exact absurd ⟨hx, hy⟩ h
    simp [hx, hy]

/-- A baseline has one row for a cell at most. -/
theorem basePairs_scores (refs : List ScorePair) :
    (basePairs db (scoredObs db opts.scope) refs).countP (scores f k key) ≤ 1 := by
  apply Keyed.countP_flatMap_le_one (observations_nodup _)
  · intro a ha
    apply Keyed.countP_flatMap_le_one (observations_entry ha).labels
    · intro l _
      apply countP_pair_le_one
      rintro ⟨htrailing, hfixed⟩
      rw [scores_iff] at htrailing hfixed
      have hsame := htrailing.2.1.trans hfixed.2.1.symm
      cases hsame
    · rintro l _ l' _ ⟨p, hp, hscores⟩ ⟨p', hp', hscores'⟩
      rw [scores_iff] at hscores hscores'
      exact (mem_baseCell hp).2.2.1.symm.trans (hscores.2.2.2.trans (hscores'.2.2.2.symm.trans (mem_baseCell hp').2.2.1))
  · have hobs : ∀ a ∈ scoredObs db opts.scope, (∃ p ∈ a.2.labels.flatMap fun l =>
        baseCell db (scoredObs db opts.scope) refs a.2 l.1 l.2, scores f k key p = true) → a.1 = k := by
      rintro a ha ⟨p, hp, hscores⟩
      obtain ⟨l, _, hp⟩ := List.mem_flatMap.mp hp
      rw [scores_iff] at hscores
      exact (observations_entry ha).key.trans ((mem_baseCell hp).2.1.symm.trans hscores.2.2.1)
    intro a ha b hb hhit hhit'
    exact (hobs a ha hhit).trans (hobs b hb hhit').symm

section Scanner
variable {forecaster : ForecasterKind} {probs probs' : List (OutcomeKey × ℚ)} {fetchedAt fetchedAt' : Option Int}
  {source : String} {refs : List ScorePair} {anchor : ObsKey} {e : ResolvedObs} {cell : OutcomeKey} {label : Bool}

theorem mem_scannerPair {p : ScorePair}
    (hp : p ∈ (scannerPair forecaster probs fetchedAt source refs anchor e cell label).toList) :
    p.forecaster = forecaster ∧ p.outcomeKey = cell := by
  unfold scannerPair at hp
  obtain ⟨prob, _, rfl⟩ := Option.map_eq_some_iff.mp (Option.mem_toList.mp hp)
  exact ⟨rfl, rfl⟩

theorem scannerPairs_key {p : ScorePair} (hp : p ∈
    (scannerPair .scanhood probs fetchedAt source refs anchor e cell label).toList ++
      (scannerPair .goplus probs' fetchedAt' source refs anchor e cell label).toList) : p.outcomeKey = cell := by
  rcases List.mem_append.mp hp with hp | hp
  · exact (mem_scannerPair hp).2
  · exact (mem_scannerPair hp).2

/-- One label gives each scanner one row at most. -/
theorem scannerPairs_scores : ((scannerPair .scanhood probs fetchedAt source refs anchor e cell label).toList ++
    (scannerPair .goplus probs' fetchedAt' source refs anchor e cell label).toList).countP (scores f k key) ≤ 1 := by
  have hone : ∀ o : Option ScorePair, o.toList.countP (scores f k key) ≤ 1 := by
    intro o
    cases o with
    | none => exact Nat.zero_le 1
    | some p => exact List.countP_le_length
  rw [List.countP_append]
  by_cases hf : f = .scanhood
  · have hnone : (scannerPair .goplus probs' fetchedAt' source refs anchor e cell label).toList.countP
        (scores f k key) = 0 := by
      rw [List.countP_eq_zero]
      intro p hp hscores
      rw [scores_iff, (mem_scannerPair hp).1, hf] at hscores
      cases hscores.2.1
    rw [hnone]
    exact hone _
  · have hnone : (scannerPair .scanhood probs fetchedAt source refs anchor e cell label).toList.countP
        (scores f k key) = 0 := by
      rw [List.countP_eq_zero]
      intro p hp hscores
      rw [scores_iff, (mem_scannerPair hp).1] at hscores
      exact hf hscores.2.1.symm
    rw [hnone, Nat.zero_add]
    exact hone _

end Scanner

/-- The anchor of a launch is that of one of its reports. -/
def AnchoredBy (reports : List Db.Report) (anchors : List (String × ObsKey)) : Prop :=
  ∀ id anchor, anchors.lookup id = some anchor → ∃ r ∈ reports, r.launchId = some id ∧ reportObs r = anchor

theorem launchAnchors_anchored (obs : List (ObsKey × ResolvedObs)) (reports : List Db.Report) :
    AnchoredBy reports (launchAnchors obs reports) := by
  unfold launchAnchors
  apply List.foldlRecOn
  · intro id anchor hlookup
    cases hlookup
  · intro anchors hanchors r hr id anchor hlookup
    split at hlookup
    · rename_i e launchId _ hlaunchId
      split at hlookup
      · rw [OrderedMap.lookup_setNew] at hlookup
        split at hlookup
        · rename_i hid
          cases hold : anchors.lookup launchId with
          | some old =>
            rw [hold] at hlookup
            obtain rfl := Option.some.inj hlookup
            exact hid ▸ hanchors launchId old hold
          | none =>
            rw [hold] at hlookup
            exact ⟨r, hr, hid ▸ hlaunchId, Option.some.inj hlookup⟩
        · exact hanchors id anchor hlookup
      · exact hanchors id anchor hlookup
    · exact hanchors id anchor hlookup

/-- Reports of two launches are about two tokens. -/
theorem anchors_apart (h : Consistent db) {r r' : Db.Report} (hr : r ∈ db.reports) (hr' : r' ∈ db.reports)
    {id id' : String} (hid : r.launchId = some id) (hid' : r'.launchId = some id') (hobs : reportObs r = reportObs r') :
    id = id' := by
  obtain ⟨l, hl, hlaunch, hchain, htoken⟩ := (h.about r hr).launch
  obtain ⟨l', hl', hlaunch', hchain', htoken'⟩ := (h.about r' hr').launch
  have hcopied := h.copied r hr
  have hcopied' := h.copied r' hr'
  have hsame : tokenOf l = tokenOf l' := by
    have hc : r.chainId = r'.chainId := congrArg ObsKey.chainId hobs
    have ht : r.tokenAddress = r'.tokenAddress := congrArg ObsKey.token hobs
    unfold tokenOf
    rw [← hchain, ← htoken, ← hchain', ← htoken', ← hcopied.chainId, ← hcopied.tokenAddress, ← hcopied'.chainId,
      ← hcopied'.tokenAddress, hc, ht]
  obtain rfl := List.inj_on_of_nodup_map h.tokens hl hl' hsame
  rw [hcopied.launchId, hlaunch] at hid
  rw [hcopied'.launchId, hlaunch'] at hid'
  exact Option.some.inj (hid.symm.trans hid')

/-- A scanner has one row for a cell at most. -/
theorem featurePairs_scores (h : Consistent db) (refs : List ScorePair) :
    (db.features.flatMap (featurePairs db maps (scoredObs db opts.scope)
      (launchAnchors (scoredObs db opts.scope) (reportsInOrder db)) refs)).countP (scores f k key) ≤ 1 := by
  have hnodup : (db.features.map Feature.launchId).Nodup := by
    rw [h.features]
    exact h.ids
  apply Keyed.countP_flatMap_le_one hnodup
  · intro feature _
    unfold featurePairs
    split
    · split
      · exact Nat.zero_le 1
      · rename_i e he
        apply Keyed.countP_flatMap_le_one (observations_entry (mem_observations.mpr he)).labels
        · exact fun l _ => scannerPairs_scores
        · rintro l _ l' _ ⟨p, hp, hscores⟩ ⟨p', hp', hscores'⟩
          rw [scores_iff] at hscores hscores'
          have hkey := hscores.2.2.2.trans hscores'.2.2.2.symm
          exact (scannerPairs_key hp).symm.trans (hkey.trans (scannerPairs_key hp'))
    · exact Nat.zero_le 1
  · rintro a _ b _ ⟨p, hp, hscores⟩ ⟨p', hp', hscores'⟩
    rw [scores_iff] at hscores hscores'
    obtain ⟨_, hanchor, _⟩ := mem_featurePairs hp
    obtain ⟨_, hanchor', _⟩ := mem_featurePairs hp'
    obtain ⟨r, hr, hid, hobs⟩ := launchAnchors_anchored _ _ _ _ hanchor
    obtain ⟨r', hr', hid', hobs'⟩ := launchAnchors_anchored _ _ _ _ hanchor'
    have hsame : reportObs r = reportObs r' := by rw [hobs, hobs', hscores.2.2.1, hscores'.2.2.1]
    exact anchors_apart h (mem_reportsInOrder.mp hr).1 (mem_reportsInOrder.mp hr').1 hid hid' hsame

/-- In the tables of the pipeline no report is stored under the name of a computed forecaster. -/
theorem classes_computed (h : Consistent db) (hf : f ∉ REPORT_FORECASTERS) : classes db opts f k key = [] := by
  unfold classes forecasts
  rw [List.map_eq_nil_iff, List.filter_eq_nil_iff]
  intro r hr htest
  have hmem := (mem_reportsInOrder.mp hr).1
  simp only [Bool.and_eq_true, decide_eq_true_eq] at htest
  rw [← htest.1.2, (h.copied r hmem).forecaster] at hf
  exact hf (h.about r hmem).forecaster

/-- The pairs of the forecasters that are computed in the pass. -/
def computedPairs (db : WorkerDb) (maps : ScannerMaps) (opts : CollectOptions) : List ScorePair :=
  basePairs db (scoredObs db opts.scope) (fromReports db opts) ++
    db.features.flatMap (featurePairs db maps (scoredObs db opts.scope)
      (launchAnchors (scoredObs db opts.scope) (reportsInOrder db)) (fromReports db opts))

theorem computedPairs_reported (hf : f ∈ REPORT_FORECASTERS) :
    (computedPairs db maps opts).countP (scores f k key) = 0 := by
  rw [List.countP_eq_zero]
  intro p hp hscores
  rw [scores_iff] at hscores
  rw [← hscores.2.1] at hf
  rcases List.mem_append.mp hp with hp | hp
  · rcases basePairs_forecaster hp with he | he
    · rw [he] at hf
      exact absurd hf (by decide)
    · rw [he] at hf
      exact absurd hf (by decide)
  · obtain ⟨feature, _, hp⟩ := List.mem_flatMap.mp hp
    rcases featurePairs_forecaster hp with he | he
    · rw [he] at hf
      exact absurd hf (by decide)
    · rw [he] at hf
      exact absurd hf (by decide)

/-- A computed forecaster is a baseline or a scanner, and has one row for a cell at most. -/
theorem computedPairs_scores (h : Consistent db) : (computedPairs db maps opts).countP (scores f k key) ≤ 1 := by
  have hbase : (basePairs db (scoredObs db opts.scope) (fromReports db opts)).countP (scores f k key) ≤ 1 :=
    basePairs_scores _
  have hfeature : (db.features.flatMap (featurePairs db maps (scoredObs db opts.scope)
      (launchAnchors (scoredObs db opts.scope) (reportsInOrder db)) (fromReports db opts))).countP (scores f k key) ≤ 1 :=
    featurePairs_scores h _
  unfold computedPairs
  rw [List.countP_append]
  by_cases hf : f = .base_rate ∨ f = .base_rate_fixed
  · have hnone : (db.features.flatMap (featurePairs db maps (scoredObs db opts.scope)
        (launchAnchors (scoredObs db opts.scope) (reportsInOrder db)) (fromReports db opts))).countP (scores f k key) = 0 := by
      rw [List.countP_eq_zero]
      intro p hp hscores
      rw [scores_iff] at hscores
      obtain ⟨feature, _, hp⟩ := List.mem_flatMap.mp hp
      rcases featurePairs_forecaster hp with he | he
      · rw [← hscores.2.1, he] at hf
        exact absurd hf (by decide)
      · rw [← hscores.2.1, he] at hf
        exact absurd hf (by decide)
    rw [hnone]
    exact hbase
  · have hnone : (basePairs db (scoredObs db opts.scope) (fromReports db opts)).countP (scores f k key) = 0 := by
      rw [List.countP_eq_zero]
      intro p hp hscores
      rw [scores_iff] at hscores
      rw [← hscores.2.1] at hf
      exact hf (basePairs_forecaster hp)
    rw [hnone, Nat.zero_add]
    exact hfeature

/-- The rows of a pass over the tables of the pipeline are distinct exactly when no forecaster is eligible twice for
one cell. -/
theorem rows_distinct_iff (cfg : ChainConfig) (env : T10Env) (events : List Event) (maps : ScannerMaps)
    (opts : CollectOptions) :
    ((collectScoreRows (Steps.run (step cfg env) WorkerDb.empty events) maps opts).rows.map rowKey).Nodup ↔
      OneForecast (Steps.run (step cfg env) WorkerDb.empty events) opts := by
  have hinv : Invariant (Steps.run (step cfg env) WorkerDb.empty events) :=
    Steps.invariant_run_free Invariant (fun db e h => step_invariant db e h) empty_invariant
  generalize Steps.run (step cfg env) WorkerDb.empty events = db at hinv
  have hcount : ∀ f k key, (collectPairs db maps opts).countP (scores f k key) =
      (fromReports db opts).countP (scores f k key) + (computedPairs db maps opts).countP (scores f k key) := by
    intro f k key
    rw [collectPairs_eq, List.append_assoc, List.countP_append]
    rfl
  rw [rows_nodup_iff]
  constructor
  · intro h f k key hlabel
    have hone := h f k key
    rw [hcount, fromReports_scores hlabel] at hone
    omega
  · intro h f k key
    rw [hcount]
    cases hlabel : labelOf db opts k key with
    | none =>
      rw [fromReports_scores_none hlabel, Nat.zero_add]
      exact computedPairs_scores hinv.1
    | some label =>
      have hsome : (labelOf db opts k key).isSome = true := by rw [hlabel]; rfl
      rw [fromReports_scores hsome]
      by_cases hf : f ∈ REPORT_FORECASTERS
      · rw [computedPairs_reported hf]
        exact h f k key hsome
      · rw [classes_computed hinv.1 hf]
        simpa using computedPairs_scores (k := k) hinv.1

def assessed : Event := .assess ⟨none, Reporting.answered.build, Reporting.answered.persist⟩ 9#160

def reportedTwice : List Event := [Completion.indexed, .t10 Reporting.answered "l1", assessed]

def committed : Event :=
  .commit "c1" (some 100)
    ((Steps.run (step sampleConfig Completion.sampleEnv) WorkerDb.empty reportedTwice).reports.map Db.Report.content)

def scoredTwice : List Event := reportedTwice ++ [committed, .resolve "72h" .RESOLVED (some true)]

/-- Each of the three forecasters has two rows for the one cell. -/
theorem rows_repeated : ¬ ∀ cfg env events maps opts,
    ((collectScoreRows (Steps.run (step cfg env) WorkerDb.empty events) maps opts).rows.map rowKey).Nodup := by
  intro h
  have hrows := h sampleConfig Completion.sampleEnv scoredTwice ⟨fun _ => [], fun _ => []⟩ ⟨.both, fun _ => some 1900000⟩
  have hdup : ((collectScoreRows (Steps.run (step sampleConfig Completion.sampleEnv) WorkerDb.empty scoredTwice)
      ⟨fun _ => [], fun _ => []⟩ ⟨.both, fun _ => some 1900000⟩).rows.map rowKey).count
        (.det_v0, ⟨.INSIDER_EXIT, "72h"⟩, ⟨4663, 9#160, 1600000⟩) = 2 := by decide +kernel
  have hone := List.nodup_iff_count_le_one.mp hrows (.det_v0, ⟨.INSIDER_EXIT, "72h"⟩, ⟨4663, 9#160, 1600000⟩)
  omega

end LaunchAuditor.Proofs.Duplicates
