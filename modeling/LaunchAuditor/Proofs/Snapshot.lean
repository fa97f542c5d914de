import LaunchAuditor.Proofs.Eras
import LaunchAuditor.Proofs.Sections
import LaunchAuditor.Scorer.Forecasts

namespace LaunchAuditor.Proofs.Snapshot
open Chain Outcomes Scoring Db Scorer Pipeline Eras

variable {db : WorkerDb} {maps : ScannerMaps} {blockTimeOf : Nat → Option Int} {k : ObsKey}

/-- The entry of a key is made of the outcomes of that key. -/
theorem lookup_observations (k : ObsKey) (outcomes : List Outcome) :
    (observations outcomes).lookup k = (observations (outcomes.filter fun o => decide (obsKeyOf o = k))).lookup k := by
  have hfold : ∀ obs obs' : List (ObsKey × ResolvedObs), obs.lookup k = obs'.lookup k →
      (outcomes.foldl (fun obs o => OrderedMap.alter (obsKeyOf o) (labelObs o) obs) obs).lookup k =
        ((outcomes.filter fun o => decide (obsKeyOf o = k)).foldl
          (fun obs o => OrderedMap.alter (obsKeyOf o) (labelObs o) obs) obs').lookup k := by
    induction outcomes with
    | nil => exact fun _ _ h => h
    | cons o outcomes ih =>
      intro obs obs' h
      rw [List.foldl_cons, List.filter_cons]
      by_cases hk : obsKeyOf o = k
      · rw [if_pos (decide_eq_true hk), List.foldl_cons]
        apply ih
        rw [OrderedMap.lookup_alter, OrderedMap.lookup_alter, hk, h]
      · rw [if_neg (by simpa using hk)]
        apply ih
        rw [OrderedMap.lookup_alter, if_neg (Ne.symm hk), h]
  exact hfold [] [] rfl

def tokenOfKey (k : ObsKey) : Nat × Address := (k.chainId, k.token)

/-- What is stored about the token is of one era. -/
def OfEra (db : WorkerDb) (token : Nat × Address) (retrospective : Bool) : Prop :=
  ∀ o ∈ db.outcomes, (o.chainId, o.tokenAddress) = token → o.retrospective = retrospective

def eraScope (retrospective : Bool) : Scope := if retrospective then .retrospective else .live

theorem era_cases (hdb : Consistent db) (h : WellMarked db) (token : Nat × Address) : ∃ era, OfEra db token era := by
  by_cases hsome : ∃ o ∈ db.outcomes, (o.chainId, o.tokenAddress) = token
  · obtain ⟨o, ho, rfl⟩ := hsome
    refine ⟨o.retrospective, ?_⟩
    intro o' ho' he
    obtain ⟨hchain, htoken⟩ := Prod.mk.inj he
    exact same_era hdb h.flagged ho' ho hchain htoken
  · refine ⟨false, ?_⟩
    intro o ho he
    exact absurd ⟨o, ho, he⟩ hsome

/-- The pass over everything sees a token as the pass of its era does. -/
theorem lookup_era {era : Bool} (h : OfEra db (tokenOfKey k) era) :
    (scoredObs db .both).lookup k = (scoredObs db (eraScope era)).lookup k ∧
      (scoredObs db (eraScope !era)).lookup k = none := by
  have hera : ∀ o ∈ db.outcomes, obsKeyOf o = k → o.retrospective = era := by
    intro o ho hk
    apply h o ho
    rw [← hk]
    rfl
  unfold scoredObs
  rw [lookup_observations k, lookup_observations k (db.outcomes.filter (outcomeWhere (eraScope era))),
    lookup_observations k (db.outcomes.filter (outcomeWhere (eraScope !era))), List.filter_filter, List.filter_filter,
    List.filter_filter]
  constructor
  · congr 2
    apply List.filter_congr
    intro o ho
    by_cases hk : obsKeyOf o = k
    · have hflag := hera o ho hk
      cases era with
      | true => simp [outcomeWhere, eraScope, hflag]
      | false => simp [outcomeWhere, eraScope, hflag]
    · simp [hk]
  · have hnone : (db.outcomes.filter fun o =>
        decide (obsKeyOf o = k) && outcomeWhere (eraScope !era) o) = [] := by
      apply List.filter_eq_nil_iff.mpr
      intro o ho hboth
      rw [Bool.and_eq_true, decide_eq_true_eq] at hboth
      have hflag := hera o ho hboth.1
      cases era with
      | true => simp [outcomeWhere, eraScope, hflag] at hboth
      | false => simp [outcomeWhere, eraScope, hflag] at hboth
    rw [hnone]
    rfl

/-- Both eras as the scopes of two passes. -/
theorem lookup_split (hdb : Consistent db) (h : WellMarked db) (k : ObsKey) :
    ((scoredObs db .both).lookup k = (scoredObs db .live).lookup k ∧ (scoredObs db .retrospective).lookup k = none) ∨
      ((scoredObs db .both).lookup k = (scoredObs db .retrospective).lookup k ∧ (scoredObs db .live).lookup k = none) := by
  obtain ⟨era, hera⟩ := era_cases hdb h (tokenOfKey k)
  have hlookup := lookup_era hera
  cases era with
  | true => exact Or.inr hlookup
  | false => exact Or.inl hlookup

theorem nodup_scoredObs (db : WorkerDb) (scope : Scope) : (scoredObs db scope).Nodup :=
  List.Nodup.of_map Prod.fst (observations_nodup _)

theorem observations_split (hdb : Consistent db) (h : WellMarked db) :
    (scoredObs db .both).Perm (scoredObs db .live ++ scoredObs db .retrospective) := by
  have hdisjoint : (scoredObs db .live).Disjoint (scoredObs db .retrospective) := by
    rintro ⟨k, e⟩ hlive hretro
    have hl : (scoredObs db .live).lookup k = some e := mem_observations.mp hlive
    have hr : (scoredObs db .retrospective).lookup k = some e := mem_observations.mp hretro
    rcases lookup_split hdb h k with ⟨_, hnone⟩ | ⟨_, hnone⟩
    · rw [hr] at hnone
      cases hnone
    · rw [hl] at hnone
      cases hnone
  apply (List.perm_ext_iff_of_nodup (nodup_scoredObs db .both)
    ((nodup_scoredObs db .live).append (nodup_scoredObs db .retrospective) hdisjoint)).mpr
  rintro ⟨k, e⟩
  rw [List.mem_append]
  have hboth : (k, e) ∈ scoredObs db .both ↔ (scoredObs db .both).lookup k = some e := mem_observations
  have hlive : (k, e) ∈ scoredObs db .live ↔ (scoredObs db .live).lookup k = some e := mem_observations
  have hretro : (k, e) ∈ scoredObs db .retrospective ↔ (scoredObs db .retrospective).lookup k = some e := mem_observations
  rw [hboth, hlive, hretro]
  rcases lookup_split hdb h k with ⟨he, hnone⟩ | ⟨he, hnone⟩
  · rw [he, hnone]
    simp
  · rw [he, hnone]
    simp

/-- A pass, whose scope alone matters here. -/
def pass (blockTimeOf : Nat → Option Int) (scope : Scope) : CollectOptions := ⟨scope, blockTimeOf⟩

theorem reportPairs_split (hdb : Consistent db) (h : WellMarked db) (r : Report) :
    reportPairs db (pass blockTimeOf .both) (scoredObs db .both) r =
      reportPairs db (pass blockTimeOf .live) (scoredObs db .live) r ++
        reportPairs db (pass blockTimeOf .retrospective) (scoredObs db .retrospective) r := by
  unfold reportPairs
  rcases lookup_split hdb h (reportObs r) with ⟨he, hnone⟩ | ⟨he, hnone⟩
  · rw [he, hnone, List.append_nil]
    rfl
  · rw [he, hnone, List.nil_append]
    rfl

theorem fromReports_split (hdb : Consistent db) (h : WellMarked db) :
    (fromReports db (pass blockTimeOf .both)).Perm
      (fromReports db (pass blockTimeOf .live) ++ fromReports db (pass blockTimeOf .retrospective)) := by
  have hpairs : fromReports db (pass blockTimeOf .both) = (reportsInOrder db).flatMap fun r =>
      reportPairs db (pass blockTimeOf .live) (scoredObs db .live) r ++
        reportPairs db (pass blockTimeOf .retrospective) (scoredObs db .retrospective) r :=
    congrArg (fun g => (reportsInOrder db).flatMap g) (funext fun r => reportPairs_split hdb h r)
  rw [hpairs]
  exact (List.flatMap_append_perm _ _ _).symm

/-- The class a computed forecaster takes for a cell, whatever the pass. -/
def cellClass (db : WorkerDb) (blockTimeOf : Nat → Option Int) (k : ObsKey) (key : OutcomeKey) : Eligibility :=
  (classes db (pass blockTimeOf .both) REFERENCE_FORECASTER k key).head?.getD .uncommitted

theorem refClass_pass {scope : Scope} {e : ResolvedObs} (he : (scoredObs db scope).lookup k = some e) {key : OutcomeKey}
    {label : Bool} (hl : (key, label) ∈ e.labels) :
    refClass (fromReports db (pass blockTimeOf scope)) k key = cellClass db blockTimeOf k key := by
  have hlabel : labelOf db (pass blockTimeOf scope) k key = some label :=
    labelOf_eq_some.mpr ⟨e, mem_observations.mpr he, hl⟩
  rw [refClass_eq hlabel]
  rfl

/-- The pair without the probability of a base rate, which depends on how far back the pass looks. -/
def shown (p : ScorePair) : ScorePair :=
  if p.forecaster = .base_rate ∨ p.forecaster = .base_rate_fixed then { p with prob := 0 } else p

/-- What both baselines add for an observation. -/
def shownBase (db : WorkerDb) (blockTimeOf : Nat → Option Int) (a : ObsKey × ResolvedObs) : List ScorePair :=
  a.2.labels.flatMap fun l =>
    [⟨⟨a.1, .base_rate, l.1, a.2.trigger, sourceOf db a.2.launchId, 0, l.2⟩, cellClass db blockTimeOf a.1 l.1⟩,
      ⟨⟨a.1, .base_rate_fixed, l.1, a.2.trigger, sourceOf db a.2.launchId, 0, l.2⟩, cellClass db blockTimeOf a.1 l.1⟩]

theorem basePairs_shown (scope : Scope) :
    (basePairs db (scoredObs db scope) (fromReports db (pass blockTimeOf scope))).map shown =
      (scoredObs db scope).flatMap (shownBase db blockTimeOf) := by
  unfold basePairs
  rw [List.map_flatMap]
  apply List.flatMap_congr
  intro a ha
  rw [List.map_flatMap]
  apply List.flatMap_congr
  intro l hl
  have hkey : a.1 = ⟨a.2.chainId, a.2.token, a.2.anchor⟩ := (observations_entry ha).key
  have hclass : refClass (fromReports db (pass blockTimeOf scope)) a.1 l.1 = cellClass db blockTimeOf a.1 l.1 :=
    refClass_pass (mem_observations.mp ha) hl
  unfold baseCell
  rw [← hkey]
  simp [shown, hclass]

theorem basePairs_split (hdb : Consistent db) (h : WellMarked db) :
    ((basePairs db (scoredObs db .both) (fromReports db (pass blockTimeOf .both))).map shown).Perm
      ((basePairs db (scoredObs db .live) (fromReports db (pass blockTimeOf .live))).map shown ++
        (basePairs db (scoredObs db .retrospective) (fromReports db (pass blockTimeOf .retrospective))).map shown) := by
  rw [basePairs_shown, basePairs_shown, basePairs_shown, ← List.flatMap_append]
  exact (observations_split hdb h).flatMap_right _

/-- The report may be its launch's anchor. -/
def anchors (launchId : String) (r : Report) : Bool :=
  decide (r.launchId = some launchId ∧ (r.trigger = .launch ∨ r.trigger = .qualified))

theorem lookup_launchAnchors (obs : List (ObsKey × ResolvedObs)) (reports : List Report) (launchId : String) :
    (launchAnchors obs reports).lookup launchId =
      ((reports.find? fun r => anchors launchId r && (obs.lookup (reportObs r)).isSome).map reportObs) := by
  unfold launchAnchors
  change _ = (([] : List (String × ObsKey)).lookup launchId).or _
  generalize ([] : List (String × ObsKey)) = found
  induction reports generalizing found with
  | nil => simp
  | cons r reports ih =>
    rw [List.foldl_cons, ih, List.find?_cons]
    cases hobs : obs.lookup (reportObs r) with
    | none => simp
    | some e =>
      cases hid : r.launchId with
      | none => simp [anchors, hid]
      | some id =>
        by_cases htrigger : r.trigger = .launch ∨ r.trigger = .qualified
        · simp only [if_pos htrigger, OrderedMap.lookup_setNew]
          by_cases hsame : launchId = id
          · subst hsame
            cases hfound : found.lookup launchId with
            | none => simp [anchors, hid, htrigger]
            | some k => simp [anchors, hid, htrigger]
          · simp [anchors, hid, hsame, Ne.symm hsame]
        · simp [anchors, hid, htrigger]

theorem scannerPair_refs {f : ForecasterKind} {probs : List (OutcomeKey × ℚ)} {fetchedAt : Option Int} {source : String}
    {refs refs' : List ScorePair} {e : ResolvedObs} {key : OutcomeKey} {label : Bool}
    (h : refClass refs k key = refClass refs' k key) :
    scannerPair f probs fetchedAt source refs k e key label = scannerPair f probs fetchedAt source refs' k e key label := by
  unfold scannerPair
  rw [h]

/-- Every report of a launch is about its token. -/
theorem report_token (hdb : Consistent db) {r : Report} (hr : r ∈ reportsInOrder db) {l : Launch} (hl : db.launch l.id = some l)
    (hid : r.launchId = some l.id) : tokenOfKey (reportObs r) = tokenOf l := by
  have hmem : r ∈ db.reports := (mem_reportsInOrder.mp hr).1
  obtain ⟨l', hl', hid', hchain, htoken⟩ := (hdb.about r hmem).launch
  have hcopied := hdb.copied r hmem
  have hsame : l'.id = l.id := by
    rw [hcopied.launchId, hid'] at hid
    exact Option.some.inj hid
  have hlaunch : l' = l := by
    have hfound := hdb.launch_eq hl'
    rw [hsame, hl] at hfound
    exact (Option.some.inj hfound).symm
  rw [tokenOfKey, reportObs, tokenOf, hcopied.chainId, hcopied.tokenAddress, hchain, htoken, hlaunch]

/-- The anchor that a pass finds for the launch of a feature vector. -/
def anchorIn (db : WorkerDb) (scope : Scope) (launchId : String) : Option ObsKey :=
  (launchAnchors (scoredObs db scope) (reportsInOrder db)).lookup launchId

theorem anchor_era (hdb : Consistent db) {l : Launch} (hl : db.launch l.id = some l) {era : Bool}
    (hera : OfEra db (tokenOf l) era) :
    anchorIn db .both l.id = anchorIn db (eraScope era) l.id ∧ anchorIn db (eraScope !era) l.id = none ∧
      ∀ k, anchorIn db (eraScope era) l.id = some k → tokenOfKey k = tokenOf l := by
  have hreport : ∀ r ∈ reportsInOrder db, anchors l.id r = true → tokenOfKey (reportObs r) = tokenOf l := by
    intro r hr hanchors
    exact report_token hdb hr hl (of_decide_eq_true hanchors).1
  unfold anchorIn
  rw [lookup_launchAnchors, lookup_launchAnchors, lookup_launchAnchors]
  refine ⟨?_, ?_, ?_⟩
  · rw [← List.head?_filter, ← List.head?_filter]
    congr 2
    apply List.filter_congr
    intro r hr
    by_cases hanchors : anchors l.id r = true
    · rw [(lookup_era ((hreport r hr hanchors).symm ▸ hera)).1]
    · rw [Bool.eq_false_iff.mpr hanchors, Bool.false_and, Bool.false_and]
  · rw [Option.map_eq_none_iff, List.find?_eq_none]
    intro r hr hboth
    rw [Bool.and_eq_true] at hboth
    rw [(lookup_era ((hreport r hr hboth.1).symm ▸ hera)).2] at hboth
    cases hboth.2
  · intro k hk
    obtain ⟨r, hr, rfl⟩ := Option.map_eq_some_iff.mp hk
    have htest := List.find?_some hr
    rw [Bool.and_eq_true] at htest
    exact hreport r (List.mem_of_find?_eq_some hr) htest.1

/-- What a pass makes of a feature vector. -/
def scanned (db : WorkerDb) (maps : ScannerMaps) (blockTimeOf : Nat → Option Int) (scope : Scope) (f : Feature) :
    List ScorePair :=
  featurePairs db maps (scoredObs db scope) (launchAnchors (scoredObs db scope) (reportsInOrder db))
    (fromReports db (pass blockTimeOf scope)) f

theorem scanned_unanchored {scope : Scope} {f : Feature} (h : anchorIn db scope f.launchId = none) :
    scanned db maps blockTimeOf scope f = [] := by
  unfold scanned featurePairs
  rw [show (launchAnchors (scoredObs db scope) (reportsInOrder db)).lookup f.launchId = none from h]
  cases db.launch f.launchId with
  | none => rfl
  | some l => rfl

theorem scanned_era (hdb : Consistent db) {f : Feature} {l : Launch} (hl : db.launch f.launchId = some l) {era : Bool}
    (hera : OfEra db (tokenOf l) era) :
    scanned db maps blockTimeOf .both f = scanned db maps blockTimeOf (eraScope era) f := by
  have hid : l.id = f.launchId := (launch_mem hl).2
  obtain ⟨hsame, _, htoken⟩ := anchor_era hdb (hid ▸ hl) hera
  rw [hid] at hsame htoken
  cases hanchor : anchorIn db (eraScope era) f.launchId with
  | none => rw [scanned_unanchored hanchor, scanned_unanchored (hsame.trans hanchor)]
  | some k =>
    have hobs : (scoredObs db .both).lookup k = (scoredObs db (eraScope era)).lookup k :=
      (lookup_era ((htoken k hanchor).symm ▸ hera)).1
    unfold scanned featurePairs
    rw [hl, show (launchAnchors (scoredObs db .both) (reportsInOrder db)).lookup f.launchId = some k from hsame.trans hanchor,
      show (launchAnchors (scoredObs db (eraScope era)) (reportsInOrder db)).lookup f.launchId = some k from hanchor]
    dsimp only
    rw [hobs]
    cases he : (scoredObs db (eraScope era)).lookup k with
    | none => rfl
    | some e =>
      dsimp only
      apply List.flatMap_congr
      intro c hc
      have hclass : refClass (fromReports db (pass blockTimeOf .both)) k c.1 =
          refClass (fromReports db (pass blockTimeOf (eraScope era))) k c.1 := by
        rw [refClass_pass (hobs.trans he) hc, refClass_pass he hc]
      rw [scannerPair_refs hclass, scannerPair_refs hclass]

theorem scanned_split (hdb : Consistent db) (h : WellMarked db) (f : Feature) :
    scanned db maps blockTimeOf .both f =
      scanned db maps blockTimeOf .live f ++ scanned db maps blockTimeOf .retrospective f := by
  cases hl : db.launch f.launchId with
  | none =>
    have hnone : ∀ scope, scanned db maps blockTimeOf scope f = [] := by
      intro scope
      unfold scanned featurePairs
      rw [hl]
    rw [hnone, hnone, hnone]
    rfl
  | some l =>
    have hid : l.id = f.launchId := (launch_mem hl).2
    obtain ⟨era, hera⟩ := era_cases hdb h (tokenOf l)
    have hother : anchorIn db (eraScope !era) f.launchId = none := hid ▸ (anchor_era hdb (hid ▸ hl) hera).2.1
    have hempty : scanned db maps blockTimeOf (eraScope !era) f = [] := scanned_unanchored hother
    rw [scanned_era hdb hl hera]
    cases era with
    | true =>
      rw [show scanned db maps blockTimeOf .live f = [] from hempty]
      rfl
    | false =>
      rw [show scanned db maps blockTimeOf .retrospective f = [] from hempty, List.append_nil]
      rfl

theorem passes_split (hdb : Consistent db) (h : WellMarked db) :
    ((collectPairs db maps (pass blockTimeOf .both)).map shown).Perm
      ((collectPairs db maps (pass blockTimeOf .live)).map shown ++
        (collectPairs db maps (pass blockTimeOf .retrospective)).map shown) := by
  have hreports : ((fromReports db (pass blockTimeOf .both)).map shown).Perm _ := (fromReports_split hdb h).map shown
  have hscanned : (db.features.flatMap (scanned db maps blockTimeOf .both)).Perm
      (db.features.flatMap (scanned db maps blockTimeOf .live) ++
        db.features.flatMap (scanned db maps blockTimeOf .retrospective)) := by
    have hpairs : db.features.flatMap (scanned db maps blockTimeOf .both) = db.features.flatMap fun f =>
        scanned db maps blockTimeOf .live f ++ scanned db maps blockTimeOf .retrospective f :=
      congrArg (fun g => db.features.flatMap g) (funext fun f => scanned_split hdb h f)
    rw [hpairs]
    exact (List.flatMap_append_perm _ _ _).symm
  have hpass : ∀ scope, (collectPairs db maps (pass blockTimeOf scope)).map shown =
      (fromReports db (pass blockTimeOf scope)).map shown ++
        (basePairs db (scoredObs db scope) (fromReports db (pass blockTimeOf scope))).map shown ++
          (db.features.flatMap (scanned db maps blockTimeOf scope)).map shown := by
    intro scope
    rw [collectPairs_eq, List.map_append, List.map_append]
    rfl
  rw [hpass, hpass, hpass]
  rw [List.map_append] at hreports
  have hscans := hscanned.map shown
  rw [List.map_append] at hscans
  refine (((hreports.append (basePairs_split hdb h)).append hscans)).trans ?_
  -- the six parts, sorted by pass
  rw [List.perm_iff_count]
  intro p
  simp only [List.count_append]
  omega

/-- What does not depend on the probability is counted by the two passes together. -/
theorem countP_split (hdb : Consistent db) (h : WellMarked db) (q : ScorePair → Bool) (hq : ∀ p, q (shown p) = q p) :
    (collectPairs db maps (pass blockTimeOf .both)).countP q =
      (collectPairs db maps (pass blockTimeOf .live)).countP q +
        (collectPairs db maps (pass blockTimeOf .retrospective)).countP q := by
  have hsplit : ((collectPairs db maps (pass blockTimeOf .both)).map shown).Perm _ := passes_split hdb h
  have hcount := hsplit.countP_eq q
  rw [List.countP_append, List.countP_map, List.countP_map, List.countP_map] at hcount
  have hshown : q ∘ shown = q := funext hq
  rwa [hshown] at hcount

theorem shown_fields (p : ScorePair) : (shown p).outcomeKey = p.outcomeKey ∧ (shown p).forecaster = p.forecaster ∧
    (shown p).label = p.label ∧ (shown p).cls = p.cls := by
  unfold shown
  split
  · exact ⟨rfl, rfl, rfl, rfl⟩
  · exact ⟨rfl, rfl, rfl, rfl⟩

theorem counter_pairs (opts : CollectOptions) (k : OutcomeKey × ForecasterKind × Eligibility) :
    Counts.counter (collectScoreRows db maps opts).exclusions k =
      (collectPairs db maps opts).countP fun p => decide ((p.outcomeKey, p.forecaster, p.cls) = k) := by
  rw [Accounting.exclusions_eq, Counts.counter_count, List.countP_map]
  rfl

theorem rows_pairs (opts : CollectOptions) (g : Leaderboard.ScoreRow → Bool) :
    ((collectScoreRows db maps opts).rows.map ScoreRow.published).countP g =
      (collectPairs db maps opts).countP fun p => decide (p.cls = .eligible) && g p.toScoreRow.published := by
  rw [List.countP_map, collectScoreRows]
  dsimp only
  rw [List.countP_filterMap]
  apply List.countP_congr
  intro p _
  by_cases hcls : p.cls = .eligible
  · simp [hcls]
  · simp [hcls]

/-- A figure that counts rows by their label is that of the two passes together, however the table is split. -/
theorem figure_split (hdb : Consistent db) (h : WellMarked db) {math : Leaderboard.Numerics}
    {figure : Leaderboard.ForecasterCell → Nat} (q : Bool → Bool)
    (hfigure : Sections.CountsRows math figure fun r => q r.label) (score : Leaderboard.ScoreOptions)
    (by_ : Leaderboard.SplitBy) (key : OutcomeKey) (f : String) :
    let shown scope := Sections.splitFigure figure (runScorer math maps blockTimeOf score scope db).benchmark.toBenchmark by_ key f
    shown .both = shown .live + shown .retrospective := by
  have htable : ∀ scope, Sections.splitFigure figure (runScorer math maps blockTimeOf score scope db).benchmark.toBenchmark
      by_ key f = (collectPairs db maps (pass blockTimeOf scope)).countP fun p => decide (p.cls = .eligible) &&
        (Sections.isFor key f p.toScoreRow.published && q p.label) := by
    intro scope
    have hfigures := Sections.split_figure hfigure
      ((collectScoreRows db maps (pass blockTimeOf scope)).rows.map ScoreRow.published) score by_ key f
    exact hfigures.trans (rows_pairs _ _)
  intro shownIn
  change Sections.splitFigure _ _ _ _ _ = Sections.splitFigure _ _ _ _ _ + Sections.splitFigure _ _ _ _ _
  rw [htable, htable, htable]
  apply countP_split hdb h
  intro p
  obtain ⟨hkey, hforecaster, hlabel, hcls⟩ := shown_fields p
  rw [hcls, hlabel]
  unfold Sections.isFor ScoreRow.published
  dsimp only
  rw [hkey, hforecaster]

/-- What a snapshot shows of everything is what it shows of the live launches and the backfill's share, and nothing
else: pair for pair (but for the probabilities of the base rates, which have more to look back on), in every counter of
the exclusions and in every cell of the table. -/
theorem snapshot_splits (cfg : ChainConfig) (env : Watcher.T10Env) (events : List Event) (maps : ScannerMaps)
    (blockTimeOf : Nat → Option Int) (math : Leaderboard.Numerics) (score : Leaderboard.ScoreOptions) :
    let db := Steps.run (step cfg env) WorkerDb.empty events
    let scored scope := (runScorer math maps blockTimeOf score scope db).benchmark
    ((collectPairs db maps ⟨.both, blockTimeOf⟩).map shown).Perm
      ((collectPairs db maps ⟨.live, blockTimeOf⟩).map shown ++
        (collectPairs db maps ⟨.retrospective, blockTimeOf⟩).map shown) ∧
    (∀ k, Counts.counter (scored .both).exclusions k =
      Counts.counter (scored .live).exclusions k + Counts.counter (scored .retrospective).exclusions k) ∧
    ∀ figure ∈ [Leaderboard.ForecasterCell.n, Leaderboard.ForecasterCell.positives], ∀ by_ key f,
      Sections.splitFigure figure (scored .both).toBenchmark by_ key f =
        Sections.splitFigure figure (scored .live).toBenchmark by_ key f +
          Sections.splitFigure figure (scored .retrospective).toBenchmark by_ key f := by
  intro db scored
  obtain ⟨⟨hdb, _⟩, h⟩ := run_marked cfg env events
  refine ⟨passes_split hdb h, ?_, ?_⟩
  · intro k
    have hcounter : ∀ scope, Counts.counter (scored scope).exclusions k =
        (collectPairs db maps (pass blockTimeOf scope)).countP fun p =>
          decide ((p.outcomeKey, p.forecaster, p.cls) = k) := fun scope => counter_pairs _ k
    rw [hcounter, hcounter, hcounter]
    apply countP_split hdb h
    intro p
    obtain ⟨hkey, hforecaster, _, hcls⟩ := shown_fields p
    rw [hkey, hforecaster, hcls]
  · intro figure hfigure by_ key f
    simp only [List.mem_cons, List.not_mem_nil, or_false] at hfigure
    rcases hfigure with rfl | rfl
    · exact figure_split hdb h (fun _ => true) (Sections.n_countsRows math) score by_ key f
    · exact figure_split hdb h (fun label => label) (Sections.positives_countsRows math) score by_ key f

section Coverage
variable {key : OutcomeKey}

theorem coverageOf_change (l : OutcomeKey) (change : CellCoverage → CellCoverage) (out : CoverageByCell) :
    coverageOf (changeCell l change out) key = if key = l then change (coverageOf out key) else coverageOf out key := by
  unfold coverageOf changeCell
  rw [OrderedMap.lookup_alter]
  by_cases hl : key = l
  · simp [hl]
  · simp [hl]

/-- The groups of a status in the cell. -/
def statusTotal (groups : List ((OutcomeKey × OutcomeRowStatus) × Nat)) (key : OutcomeKey) (status : OutcomeRowStatus) : Nat :=
  Counts.total groups fun g => decide (g = (key, status))

def cellTotal (groups : List (OutcomeKey × Nat)) (key : OutcomeKey) : Nat := Counts.total groups fun g => decide (g = key)

theorem statusTotal_cons (l : OutcomeKey) (s : OutcomeRowStatus) (n : Nat)
    (groups : List ((OutcomeKey × OutcomeRowStatus) × Nat)) (status : OutcomeRowStatus) :
    statusTotal (((l, s), n) :: groups) key status = (if l = key ∧ s = status then n else 0) + statusTotal groups key status := by
  unfold statusTotal Counts.total
  rw [Tally.tally_cons]
  simp

theorem cellTotal_cons (l : OutcomeKey) (n : Nat) (groups : List (OutcomeKey × Nat)) :
    cellTotal ((l, n) :: groups) key = (if l = key then n else 0) + cellTotal groups key := by
  unfold cellTotal Counts.total
  rw [Tally.tally_cons]
  simp

theorem byStatus_fold (groups : List ((OutcomeKey × OutcomeRowStatus) × Nat)) (out : CoverageByCell) :
    coverageOf (groups.foldl (fun out g => changeCell g.1.1 (countStatus g.1.2 g.2) out) out) key =
      { coverageOf out key with
        resolved := (coverageOf out key).resolved + statusTotal groups key .RESOLVED
        pendingNotDue := (coverageOf out key).pendingNotDue + statusTotal groups key .PENDING
        unresolvable := (coverageOf out key).unresolvable + statusTotal groups key .UNRESOLVABLE
        na := (coverageOf out key).na + statusTotal groups key .NA } := by
  induction groups generalizing out with
  | nil => simp [statusTotal, Counts.total, Tally.tally]
  | cons g groups ih =>
    obtain ⟨⟨l, s⟩, n⟩ := g
    rw [List.foldl_cons, ih, coverageOf_change]
    simp only [statusTotal_cons]
    by_cases hl : key = l
    · subst hl
      cases s <;> simp [countStatus, add_assoc]
    · simp [hl, Ne.symm hl]

theorem due_fold (groups : List (OutcomeKey × Nat)) (out : CoverageByCell) :
    coverageOf (groups.foldl (fun out g => changeCell g.1 (countDue g.2) out) out) key =
      { coverageOf out key with
        pendingDue := (coverageOf out key).pendingDue + cellTotal groups key
        pendingNotDue := (coverageOf out key).pendingNotDue - cellTotal groups key } := by
  induction groups generalizing out with
  | nil => simp [cellTotal, Counts.total, Tally.tally]
  | cons g groups ih =>
    obtain ⟨l, n⟩ := g
    rw [List.foldl_cons, ih, coverageOf_change, cellTotal_cons]
    by_cases hl : key = l
    · subst hl
      simp [countDue, add_assoc, sub_sub]
    · simp [hl, Ne.symm hl]

theorem retro_fold (groups : List (OutcomeKey × Nat)) (out : CoverageByCell) :
    coverageOf (groups.foldl (fun out g => changeCell g.1 (countRetro g.2) out) out) key =
      { coverageOf out key with
        retrospectiveResolved := (coverageOf out key).retrospectiveResolved + cellTotal groups key } := by
  induction groups generalizing out with
  | nil => simp [cellTotal, Counts.total, Tally.tally]
  | cons g groups ih =>
    obtain ⟨l, n⟩ := g
    rw [List.foldl_cons, ih, coverageOf_change, cellTotal_cons]
    by_cases hl : key = l
    · subst hl
      simp [countRetro, add_assoc]
    · simp [hl, Ne.symm hl]

/-- The rows of the cell that meet a condition. -/
def cellRows (db : WorkerDb) (key : OutcomeKey) (cond : Outcome → Bool) : Nat :=
  db.outcomes.countP fun o => decide (cellKey o = key) && cond o

theorem statusTotal_groupBy (db : WorkerDb) (cond : Outcome → Bool) (status : OutcomeRowStatus) :
    statusTotal (groupBy (fun o => (cellKey o, o.status)) cond db) key status =
      cellRows db key fun o => cond o && decide (o.status = status) := by
  unfold statusTotal groupBy cellRows
  rw [Counts.total_count, List.countP_map, List.countP_filter]
  apply List.countP_congr
  intro o _
  simp only [Function.comp, Bool.and_eq_true, decide_eq_true_eq, Prod.mk.injEq]
  tauto

theorem cellTotal_groupBy (db : WorkerDb) (cond : Outcome → Bool) :
    cellTotal (groupBy cellKey cond db) key = cellRows db key cond := by
  unfold cellTotal groupBy cellRows
  rw [Counts.total_count, List.countP_map, List.countP_filter]
  rfl

theorem coverage_eq (reads : CoverageReads) (now : Int) (key : OutcomeKey) :
    let live status := cellRows reads.byStatus key fun o => liveRow o && decide (o.status = status)
    coverageOf (prismaCoverageReader reads now) key =
      { resolved := live .RESOLVED, pendingDue := cellRows reads.due key (duePending now)
        pendingNotDue := live .PENDING - cellRows reads.due key (duePending now)
        unresolvable := live .UNRESOLVABLE, na := live .NA
        retrospectiveResolved := cellRows reads.retro key retroResolved } := by
  intro live
  unfold prismaCoverageReader
  dsimp only
  rw [retro_fold, due_fold, byStatus_fold, statusTotal_groupBy, statusTotal_groupBy, statusTotal_groupBy,
    statusTotal_groupBy, cellTotal_groupBy, cellTotal_groupBy]
  simp [coverageOf, CellCoverage.empty, live]

/-- Every live row has one of the four statuses. -/
theorem live_statuses (db : WorkerDb) (key : OutcomeKey) :
    let live status := cellRows db key fun o => liveRow o && decide (o.status = status)
    live .RESOLVED + live .PENDING + live .UNRESOLVABLE + live .NA = cellRows db key liveRow := by
  intro live
  change cellRows _ _ _ + cellRows _ _ _ + cellRows _ _ _ + cellRows _ _ _ = _
  unfold cellRows
  induction db.outcomes with
  | nil => rfl
  | cons o outcomes ih =>
    simp only [List.countP_cons, ← Bool.and_assoc] at ih ⊢
    rw [← ih]
    cases decide (cellKey o = key) && liveRow o with
    | false => simp
    | true => cases o.status <;> simp <;> omega

theorem length_setOf {α : Type} [DecidableEq α] {xs : List α} (h : xs.Nodup) : (Js.setOf xs).length = xs.length :=
  ((List.perm_ext_iff_of_nodup (Js.setOf_nodup xs) h).mpr fun a => Js.mem_setOf xs a).length_eq

/-- Each resolved row of a cell is an anchor of its own. -/
theorem resolvedAnchors_rows (h : WellMarked db) (scope : Scope) (key : OutcomeKey) :
    (Accounting.resolvedAnchors db scope key).length = cellRows db key (outcomeWhere scope) := by
  unfold Accounting.resolvedAnchors cellRows
  let rowKey (k : ObsKey) : Nat × Address × Int × OutcomeLabel × String × String :=
    (k.chainId, k.token, k.anchor, key.label, key.horizon, "v1")
  have hkeys : ((db.outcomes.filter fun o =>
      outcomeWhere scope o && decide ((⟨o.label, o.horizon⟩ : OutcomeKey) = key)).map obsKeyOf).map rowKey =
      (db.outcomes.filter fun o => outcomeWhere scope o && decide ((⟨o.label, o.horizon⟩ : OutcomeKey) = key)).map
        fun o => Report.outcomeKeyOf o.toOutcomeRow := by
    rw [List.map_map]
    apply List.map_congr_left
    intro o ho
    obtain ⟨hmem, htest⟩ := List.mem_filter.mp ho
    rw [Bool.and_eq_true, decide_eq_true_eq] at htest
    simp only [Function.comp, rowKey, obsKeyOf, Report.outcomeKeyOf, h.distinct.rules o hmem, ← htest.2]
  have hnodup : ((db.outcomes.filter fun o =>
      outcomeWhere scope o && decide ((⟨o.label, o.horizon⟩ : OutcomeKey) = key)).map obsKeyOf).Nodup := by
    apply List.Nodup.of_map rowKey
    rw [hkeys]
    exact h.distinct.keys.sublist (List.filter_sublist.map _)
  rw [length_setOf hnodup, List.length_map, ← List.countP_eq_length_filter]
  apply List.countP_congr
  intro o _
  rw [Bool.and_comm]
  rfl

/-- No report is stored under a baseline's name, so its pairs are those of the observations. -/
theorem labelled_rows (hdb : Consistent db) (h : WellMarked db) (scope : Scope) (key : OutcomeKey) :
    Accounting.allClasses (collectScoreRows db maps ⟨scope, blockTimeOf⟩) key .base_rate =
      cellRows db key (outcomeWhere scope) := by
  have hnone : Accounting.resolvedReports db scope key .base_rate = 0 := by
    apply List.countP_eq_zero.mpr
    intro r hr htest
    simp only [Bool.and_eq_true, decide_eq_true_eq] at htest
    have hforecaster := (hdb.about r hr).forecaster
    rw [← (hdb.copied r hr).forecaster, htest.1.2.1] at hforecaster
    exact absurd hforecaster (by decide)
  rw [Accounting.allClasses_of (by decide), hnone, if_pos (by decide), Nat.zero_add, resolvedAnchors_rows h]

/-- Resolved rows, with or without a value. -/
theorem resolved_rows (db : WorkerDb) (key : OutcomeKey) (scope : Scope) (cond : Outcome → Bool)
    (hscope : ∀ o, outcomeWhere scope o = (decide (o.status = .RESOLVED) && o.value.isSome && cond o)) :
    (cellRows db key fun o => cond o && decide (o.status = .RESOLVED)) = cellRows db key (outcomeWhere scope) +
      cellRows db key fun o => cond o && decide (o.status = .RESOLVED) && o.value.isNone := by
  unfold cellRows
  simp only [hscope]
  induction db.outcomes with
  | nil => rfl
  | cons o outcomes ih =>
    rw [List.countP_cons, List.countP_cons, List.countP_cons, ih]
    cases hvalue : o.value with
    | none => simp; omega
    | some value => simp [Bool.and_comm]; omega

/-- A due row is one of the pending ones. -/
theorem due_le_pending (db : WorkerDb) (key : OutcomeKey) (now : Int) :
    cellRows db key (duePending now) ≤ cellRows db key fun o => liveRow o && decide (o.status = .PENDING) := by
  apply List.countP_mono_left
  intro o _ ho
  simp only [duePending, Bool.and_eq_true] at ho ⊢
  exact ⟨ho.1, ho.2.1⟩

/-- A resolved row is live or retrospective. -/
theorem resolved_eras (db : WorkerDb) (key : OutcomeKey) :
    (cellRows db key fun o => true && decide (o.status = .RESOLVED)) =
      (cellRows db key fun o => liveRow o && decide (o.status = .RESOLVED)) +
        cellRows db key fun o => o.retrospective && decide (o.status = .RESOLVED) := by
  unfold cellRows liveRow
  induction db.outcomes with
  | nil => rfl
  | cons o outcomes ih =>
    simp only [List.countP_cons] at ih ⊢
    rw [ih]
    cases o.retrospective with
    | true => simp; omega
    | false => simp; omega

/-- The five counts of live rows add up to the live rows, even when the due ones are counted at another moment; in a
tick in which nothing is written none is negative, and the resolved ones are the observations that the passes count a
baseline for, but for rows that were resolved without a value. -/
theorem coverage_agrees (cfg : ChainConfig) (env : Watcher.T10Env) (events : List Event) (maps : ScannerMaps)
    (blockTimeOf : Nat → Option Int) (now : Int) (key : OutcomeKey) :
    let db := Steps.run (step cfg env) WorkerDb.empty events
    let c := coverageOf (prismaCoverageReader (SnapshotReads.at db).coverage now) key
    let labelled scope := Accounting.allClasses (collectScoreRows db maps ⟨scope, blockTimeOf⟩) key .base_rate
    let valueless cond := cellRows db key fun o => cond o && decide (o.status = .RESOLVED) && o.value.isNone
    (∀ reads, let c := coverageOf (prismaCoverageReader reads now) key
      c.resolved + c.pendingDue + c.pendingNotDue + c.unresolvable + c.na = cellRows reads.byStatus key liveRow) ∧
    0 ≤ c.pendingNotDue ∧
    c.resolved = labelled .live + valueless liveRow ∧
    c.retrospectiveResolved = labelled .retrospective + valueless Outcome.retrospective ∧
    c.resolved + c.retrospectiveResolved = labelled .both + valueless fun _ => true := by
  intro db c labelled valueless
  obtain ⟨⟨hdb, _⟩, h⟩ := run_marked cfg env events
  have hc := coverage_eq (SnapshotReads.at db).coverage now key
  have hlive := resolved_rows db key .live liveRow fun o => rfl
  have hretro := resolved_rows db key .retrospective Outcome.retrospective fun o => rfl
  have hall := resolved_rows db key .both (fun _ => true) fun o => rfl
  have hlabelled : ∀ scope, labelled scope = cellRows db key (outcomeWhere scope) := fun scope => labelled_rows hdb h scope key
  have hsum := resolved_eras db key
  refine ⟨?_, ?_, ?_, ?_, ?_⟩
  · intro reads
    have hreads := coverage_eq reads now key
    have hstatuses := live_statuses reads.byStatus key
    dsimp only at hreads hstatuses ⊢
    rw [hreads]
    dsimp only
    omega
  · have hle := due_le_pending db key now
    change 0 ≤ (coverageOf _ _).pendingNotDue
    rw [hc]
    change (0 : Int) ≤ cellRows db key _ - cellRows db key (duePending now)
    omega
  · change (coverageOf _ _).resolved = _
    rw [hc, hlabelled]
    change ((cellRows db key _ : Nat) : Int) = _
    rw [hlive, Nat.cast_add]
  · change (coverageOf _ _).retrospectiveResolved = _
    rw [hc, hlabelled]
    change ((cellRows db key retroResolved : Nat) : Int) = _
    rw [← Nat.cast_add]
    exact congrArg Nat.cast hretro
  · change (coverageOf _ _).resolved + (coverageOf _ _).retrospectiveResolved = _
    rw [hc, hlabelled]
    change ((cellRows db key _ : Nat) : Int) + (cellRows db key retroResolved : Nat) = _
    rw [← Nat.cast_add, ← Nat.cast_add]
    exact congrArg Nat.cast (hsum.symm.trans hall)

end Coverage

end LaunchAuditor.Proofs.Snapshot
