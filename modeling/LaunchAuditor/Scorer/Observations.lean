import LaunchAuditor.Scorer.Collect

/-! What the observations are made of, and how they follow the outcomes they are made from. -/

namespace LaunchAuditor.Scorer
open Chain Outcomes Scoring Db

/-- An entry stands under its own key, with one label a cell. -/
structure Entry (a : ObsKey × ResolvedObs) : Prop where
  key : a.1 = ⟨a.2.chainId, a.2.token, a.2.anchor⟩
  labels : (OrderedMap.keys a.2.labels).Nodup

theorem labelObs_entry {o : Outcome} {entry : Option ResolvedObs} (h : ∀ e, entry = some e → Entry (obsKeyOf o, e)) :
    Entry (obsKeyOf o, labelObs o entry) := by
  cases entry with
  | none => exact ⟨rfl, OrderedMap.keys_alter_nodup List.nodup_nil⟩
  | some e => exact ⟨(h e rfl).key, OrderedMap.keys_alter_nodup (h e rfl).labels⟩

theorem foldl_entries (outcomes : List Outcome) {obs : List (ObsKey × ResolvedObs)} (hnodup : (OrderedMap.keys obs).Nodup)
    (hentries : ∀ a ∈ obs, Entry a) :
    let after := outcomes.foldl (fun obs o => OrderedMap.alter (obsKeyOf o) (labelObs o) obs) obs
    (OrderedMap.keys after).Nodup ∧ ∀ a ∈ after, Entry a := by
  induction outcomes generalizing obs with
  | nil => exact ⟨hnodup, hentries⟩
  | cons o outcomes ih =>
    apply ih (OrderedMap.keys_alter_nodup hnodup)
    apply OrderedMap.forall_alter hentries
    · exact labelObs_entry fun e he => nomatch he
    · intro e he
      exact labelObs_entry fun e' he' => Option.some.inj he' ▸ he

theorem observations_nodup (outcomes : List Outcome) : (OrderedMap.keys (observations outcomes)).Nodup :=
  (foldl_entries outcomes (show (OrderedMap.keys []).Nodup from List.nodup_nil) (by simp)).1

theorem observations_entry {outcomes : List Outcome} {a : ObsKey × ResolvedObs} (h : a ∈ observations outcomes) :
    Entry a :=
  (foldl_entries outcomes (show (OrderedMap.keys []).Nodup from List.nodup_nil) (by simp)).2 a h

theorem mem_observations {outcomes : List Outcome} {k : ObsKey} {e : ResolvedObs} :
    (k, e) ∈ observations outcomes ↔ (observations outcomes).lookup k = some e :=
  OrderedMap.mem_iff_lookup (observations_nodup outcomes)

theorem mem_keys_observations {outcomes : List Outcome} {k : ObsKey} :
    k ∈ OrderedMap.keys (observations outcomes) ↔ ∃ o ∈ outcomes, obsKeyOf o = k := by
  have hfold : ∀ obs : List (ObsKey × ResolvedObs),
      k ∈ OrderedMap.keys (outcomes.foldl (fun obs o => OrderedMap.alter (obsKeyOf o) (labelObs o) obs) obs) ↔
        k ∈ OrderedMap.keys obs ∨ ∃ o ∈ outcomes, obsKeyOf o = k := by
    induction outcomes with
    | nil => simp
    | cons o outcomes ih =>
      intro obs
      rw [List.foldl_cons, ih, OrderedMap.mem_keys_alter, List.exists_mem_cons_iff, eq_comm, or_assoc, or_left_comm]
  rw [observations, hfold]
  simp [OrderedMap.keys]

/-- Without an observation there is no pair, and nothing special to be done. -/
theorem collectPairs_eq (db : WorkerDb) (maps : ScannerMaps) (opts : CollectOptions) :
    collectPairs db maps opts = fromReports db opts ++ basePairs db (scoredObs db opts.scope) (fromReports db opts) ++
      db.features.flatMap (featurePairs db maps (scoredObs db opts.scope)
        (launchAnchors (scoredObs db opts.scope) (reportsInOrder db)) (fromReports db opts)) := by
  unfold collectPairs
  dsimp only
  split
  · rename_i hnil
    have hreports : fromReports db opts = [] := by
      unfold fromReports
      rw [hnil]
      exact List.flatMap_eq_nil_iff.mpr fun r _ => rfl
    have hfeatures : ∀ anchors refs, db.features.flatMap (featurePairs db maps [] anchors refs) = [] := by
      intro anchors refs
      apply List.flatMap_eq_nil_iff.mpr
      intro f _
      unfold featurePairs
      split
      · rfl
      · rfl
    rw [hreports, hnil, hfeatures]
    rfl
  · rfl

section Like
-- how two labels of a cell compare, from its anchor
variable (L : Int → OutcomeKey → Bool → Bool → Prop)

structure OutcomeLike (o o' : Outcome) : Prop where
  same : o' = { o with value := o'.value }
  label : L o.anchorTime ⟨o.label, o.horizon⟩ (o.value = some true) (o'.value = some true)

def LabelLike (anchor : Int) (a b : OutcomeKey × Bool) : Prop := a.1 = b.1 ∧ L anchor a.1 a.2 b.2

structure ObsLike (a b : ObsKey × ResolvedObs) : Prop where
  key : a.1 = b.1
  anchor : a.2.anchor = a.1.anchor
  same : b.2 = { a.2 with labels := b.2.labels }
  labels : List.Forall₂ (LabelLike L a.1.anchor) a.2.labels b.2.labels

/-- Two lists of labels of a cell. -/
def CellLike (key : OutcomeKey) (a b : Int × Bool) : Prop := a.1 = b.1 ∧ L a.1 key a.2 b.2

variable {L}

/-- The rows that count need only compare where there is a label. -/
theorem outcomeLike_filter {R : Outcome → Outcome → Prop} (hsame : ∀ o o', R o o' → o' = { o with value := o'.value })
    (hknown : ∀ o o', R o o' → o'.value.isSome = o.value.isSome)
    (hlabel : ∀ o o', R o o' → o.value.isSome = true →
      L o.anchorTime ⟨o.label, o.horizon⟩ (o.value = some true) (o'.value = some true))
    {scope : Scope} {outcomes outcomes' : List Outcome} (h : List.Forall₂ R outcomes outcomes') :
    List.Forall₂ (OutcomeLike L) (outcomes.filter (outcomeWhere scope)) (outcomes'.filter (outcomeWhere scope)) := by
  induction h with
  | nil => exact List.Forall₂.nil
  | @cons o o' outcomes outcomes' ho _ ih =>
    have hwhere : outcomeWhere scope o' = outcomeWhere scope o := by
      rw [hsame o o' ho]
      unfold outcomeWhere
      dsimp only
      rw [hknown o o' ho]
    rw [List.filter_cons, List.filter_cons, hwhere]
    by_cases hin : outcomeWhere scope o = true
    · rw [if_pos hin, if_pos hin]
      have hvalue : o.value.isSome = true := by
        simp only [outcomeWhere, Bool.and_eq_true] at hin
        exact hin.1.2
      exact List.Forall₂.cons ⟨hsame o o' ho, hlabel o o' ho hvalue⟩ ih
    · rw [if_neg hin, if_neg hin]
      exact ih

theorem setLabel_like {o o' : Outcome} (ho : OutcomeLike L o o') {labels labels' : List (OutcomeKey × Bool)}
    (h : List.Forall₂ (LabelLike L o.anchorTime) labels labels') :
    List.Forall₂ (LabelLike L o.anchorTime) (OrderedMap.set ⟨o.label, o.horizon⟩ (decide (o.value = some true)) labels)
      (OrderedMap.set ⟨o'.label, o'.horizon⟩ (decide (o'.value = some true)) labels') := by
  have hlabel : o'.label = o.label := by rw [ho.same]
  have hhorizon : o'.horizon = o.horizon := by rw [ho.same]
  rw [hlabel, hhorizon]
  apply OrderedMap.forall₂_alter (fun a b hab => hab.1) h
  · exact ⟨rfl, ho.label⟩
  · exact fun _ _ _ => ⟨rfl, ho.label⟩

theorem labelObs_new {o o' : Outcome} (ho : OutcomeLike L o o') :
    ObsLike L (obsKeyOf o, labelObs o none) (obsKeyOf o, labelObs o' none) where
  key := rfl
  anchor := rfl
  same := by
    rw [ho.same]
    rfl
  labels := setLabel_like ho List.Forall₂.nil

theorem labelObs_like {o o' : Outcome} (ho : OutcomeLike L o o') {e e' : ResolvedObs}
    (h : ObsLike L (obsKeyOf o, e) (obsKeyOf o, e')) :
    ObsLike L (obsKeyOf o, labelObs o (some e)) (obsKeyOf o, labelObs o' (some e')) where
  key := rfl
  anchor := h.anchor
  same := by
    have hsame : e' = { e with labels := e'.labels } := h.same
    unfold labelObs
    rw [Option.getD_some, Option.getD_some, hsame]
  labels := setLabel_like ho h.labels

/-- Observations follow their outcomes. -/
theorem observations_like {outcomes outcomes' : List Outcome} (h : List.Forall₂ (OutcomeLike L) outcomes outcomes') :
    List.Forall₂ (ObsLike L) (observations outcomes) (observations outcomes') := by
  have hfold : ∀ {obs obs' : List (ObsKey × ResolvedObs)}, List.Forall₂ (ObsLike L) obs obs' →
      List.Forall₂ (ObsLike L) (outcomes.foldl (fun obs o => OrderedMap.alter (obsKeyOf o) (labelObs o) obs) obs)
        (outcomes'.foldl (fun obs o => OrderedMap.alter (obsKeyOf o) (labelObs o) obs) obs') := by
    induction h with
    | nil => exact fun hobs => hobs
    | @cons o o' outcomes outcomes' ho _ ih =>
      intro obs obs' hobs
      have hkey : obsKeyOf o' = obsKeyOf o := by
        rw [ho.same]
        rfl
      rw [List.foldl_cons, List.foldl_cons, hkey]
      apply ih
      exact OrderedMap.forall₂_alter (fun a b hab => hab.key) hobs (labelObs_new ho) fun _ _ => labelObs_like ho
  exact hfold List.Forall₂.nil

/-- So do the labels of a cell. -/
theorem cellLabels_like {obs obs' : List (ObsKey × ResolvedObs)} (h : List.Forall₂ (ObsLike L) obs obs')
    (key : OutcomeKey) : List.Forall₂ (CellLike L key) (cellLabels obs key) (cellLabels obs' key) := by
  induction h with
  | nil => exact List.Forall₂.nil
  | @cons a b obs obs' hab _ ih =>
    unfold cellLabels at ih ⊢
    rw [List.filterMap_cons, List.filterMap_cons]
    have hanchor : b.2.anchor = a.2.anchor := by rw [hab.same]
    rcases OrderedMap.forall₂_lookup (fun _ _ hl => hl.1) hab.labels key with ⟨hnone, hnone'⟩ | ⟨y, y', hy, hy', hl⟩
    · rw [hnone, hnone']
      exact ih
    · rw [hy, hy']
      refine List.Forall₂.cons ⟨hanchor.symm, ?_⟩ ih
      have hlabel : L a.1.anchor key y y' := hl.2
      rw [hab.anchor]
      exact hlabel

/-- Two pairs of a pass that agree but for their labels. -/
def PairLike (p p' : ScorePair) : Prop := p' = { p with label := p'.label }

theorem reportPairs_like {obs obs' : List (ObsKey × ResolvedObs)} (h : List.Forall₂ (ObsLike L) obs obs')
    (db : WorkerDb) (opts : CollectOptions) (r : Report) :
    List.Forall₂ PairLike (reportPairs db opts obs r) (reportPairs db opts obs' r) := by
  unfold reportPairs
  rcases OrderedMap.forall₂_lookup (fun _ _ hab => hab.key) h (reportObs r) with ⟨hnone, hnone'⟩ | ⟨e, e', he, he', hlike⟩
  · rw [hnone, hnone']
    exact List.Forall₂.nil
  · rw [he, he']
    refine List.rel_filterMap (R := Eq) ?_ (List.forall₂_refl _)
    rintro key _ rfl
    rcases OrderedMap.forall₂_lookup (fun _ _ hl => hl.1) hlike.labels key with ⟨hn, hn'⟩ | ⟨y, y', hy, hy', _⟩
    · dsimp only
      rw [hn, hn']
      exact Option.Rel.none
    · dsimp only
      rw [hy, hy']
      cases probOf r key with
      | none => exact Option.Rel.none
      | some prob => exact Option.Rel.some rfl

theorem refClass_like {pairs pairs' : List ScorePair} (h : List.Forall₂ PairLike pairs pairs') (k : ObsKey)
    (key : OutcomeKey) : refClass pairs' k key = refClass pairs k key := by
  unfold refClass
  induction h with
  | nil => rfl
  | @cons p p' pairs pairs' hp _ ih =>
    have hcls : p'.cls = p.cls := by rw [hp]
    have htest : decide (p'.forecaster = REFERENCE_FORECASTER ∧ p'.obsId = k ∧ p'.outcomeKey = key) =
        decide (p.forecaster = REFERENCE_FORECASTER ∧ p.obsId = k ∧ p.outcomeKey = key) := by rw [hp]
    rw [List.find?_cons, List.find?_cons, htest]
    split
    · exact hcls
    · exact ih

end Like

section Rate
variable {arr arr' : List (Int × Bool)} {at_ : Int}

/-- The labels of the thirty days before an instant. -/
def inWindow (at_ : Int) (r : Int × Bool) : Bool := decide (r.1 < at_) && decide (at_ - THIRTY_DAYS_MS ≤ r.1)

/-- All the labels before it when there are none in that time. -/
def trainingSet (labels : List (Int × Bool)) (at_ : Int) : List (Int × Bool) :=
  if labels.filter (inWindow at_) = [] then labels.filter fun r => decide (r.1 < at_) else labels.filter (inWindow at_)

theorem trailingCounts_eq (h : arr.Pairwise fun a b => a.1 ≤ b.1) :
    trailingCounts at_ arr = ((arr.filter (inWindow at_)).length, positives (arr.filter (inWindow at_))) := by
  induction arr with
  | nil => rfl
  | cons r arr ih =>
    obtain ⟨hr, harr⟩ := List.pairwise_cons.mp h
    unfold trailingCounts
    by_cases hlate : r.1 ≥ at_
    · -- the list is in order, so what follows is not before the instant either
      have hnone : (r :: arr).filter (inWindow at_) = [] := by
        apply List.filter_eq_nil_iff.mpr
        intro a ha
        have hle : r.1 ≤ a.1 := by
          rcases List.mem_cons.mp ha with rfl | ha
          · exact Int.le_refl _
          · exact hr a ha
        simp only [inWindow, Bool.and_eq_true, decide_eq_true_eq]
        omega
      rw [if_pos hlate, hnone]
      rfl
    · rw [if_neg hlate, ih harr, List.filter_cons]
      dsimp only
      by_cases hold : r.1 ≥ at_ - THIRTY_DAYS_MS
      · have hin : inWindow at_ r = true := by
          simp only [inWindow, Bool.and_eq_true, decide_eq_true_eq]
          omega
        rw [if_pos hold, if_pos hin]
        unfold positives
        rw [List.countP_cons]
        cases r.2 with
        | false => simp
        | true => simp
      · have hin : ¬ inWindow at_ r = true := by
          simp only [inWindow, Bool.and_eq_true, decide_eq_true_eq]
          omega
        rw [if_neg hold, if_neg hin]

theorem trailingBaseRate_eq (h : arr.Pairwise fun a b => a.1 ≤ b.1) :
    trailingBaseRate arr at_ = share (trainingSet arr at_) := by
  unfold trailingBaseRate trainingSet
  rw [trailingCounts_eq h]
  dsimp only
  by_cases hnone : arr.filter (inWindow at_) = []
  · rw [hnone, if_pos List.length_nil, if_pos rfl]
  · rw [if_neg (by simpa using hnone), if_neg hnone]
    unfold share
    rw [if_neg hnone]

theorem share_perm (h : arr.Perm arr') : share arr = share arr' := by
  unfold share positives
  rw [h.countP_eq, h.length_eq]
  by_cases hnil : arr = []
  · subst hnil
    rw [List.nil_perm.mp h]
  · have hnil' : arr' ≠ [] := fun he => hnil (List.perm_nil.mp (he ▸ h))
    rw [if_neg hnil, if_neg hnil']

theorem trainingSet_perm (h : arr.Perm arr') : (trainingSet arr at_).Perm (trainingSet arr' at_) := by
  unfold trainingSet
  have hwindow := h.filter (inWindow at_)
  by_cases hnone : arr.filter (inWindow at_) = []
  · have hnone' : arr'.filter (inWindow at_) = [] := List.nil_perm.mp (hnone ▸ hwindow)
    rw [if_pos hnone, if_pos hnone']
    exact h.filter _
  · have hnone' : arr'.filter (inWindow at_) ≠ [] := fun he => hnone (List.perm_nil.mp (he ▸ hwindow))
    rw [if_neg hnone, if_neg hnone']
    exact hwindow

/-- The order of the labels does not matter to the trailing rate. -/
theorem trailingBaseRate_perKey (obs : List (ObsKey × ResolvedObs)) (key : OutcomeKey) (at_ : Int) :
    trailingBaseRate (perKey obs key) at_ = share (trainingSet (cellLabels obs key) at_) := by
  have hsorted : (perKey obs key).Pairwise fun a b => a.1 ≤ b.1 := by
    have : IsTrans (Int × Bool) fun a b => a.1 ≤ b.1 := ⟨fun _ _ _ => Int.le_trans⟩
    have : Std.Total fun a b : Int × Bool => a.1 ≤ b.1 := ⟨fun a b => Int.le_total a.1 b.1⟩
    exact List.pairwise_insertionSort _ (cellLabels obs key)
  rw [trailingBaseRate_eq hsorted]
  exact share_perm (trainingSet_perm (List.perm_insertionSort _ _))

end Rate

end LaunchAuditor.Scorer
