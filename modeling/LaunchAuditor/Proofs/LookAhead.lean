import LaunchAuditor.Scorer.Forecasts

namespace LaunchAuditor.Proofs.LookAhead
open Chain Outcomes Scoring Db Scorer

/-- Two rows of one outcome that differ at most in the label, and not in one whose horizon has ended by `t`. -/
structure Relabelled (t : Int) (o o' : Outcome) : Prop where
  same : o' = { o with value := o'.value }
  known : o'.value.isSome = o.value.isSome
  settled : horizonEndOf o.anchorTime ⟨o.label, o.horizon⟩ ≤ t → o'.value = o.value

/-- Two states that differ only in the labels of outcomes whose horizon ends after `t`. -/
structure DifferAfter (t : Int) (db db' : WorkerDb) : Prop where
  same : db' = { db with outcomes := db'.outcomes }
  outcomes : List.Forall₂ (Relabelled t) db.outcomes db'.outcomes

/-- The trailing baseline up to `t`: which cells it has rows for, and the probability of each. -/
def baseRates (t : Int) (rows : List ScoreRow) : List ((ObsKey × OutcomeKey) × ℚ) :=
  rows.filterMap fun r =>
    if r.forecaster = .base_rate ∧ r.obsId.anchor ≤ t then some ((r.obsId, r.outcomeKey), r.prob) else none

section Labels
variable (t : Int) (key : OutcomeKey)

/-- The horizon of this label of the cell ends after `t`. -/
def lateLabel (r : Int × Bool) : Bool := decide (t < horizonEndOf r.1 key)

def lateLabels (labels : List (Int × Bool)) : Nat := labels.countP (lateLabel t key)

def settledPositives (labels : List (Int × Bool)) : Nat := labels.countP fun r => r.2 && !lateLabel t key r

/-- How two labels of a cell compare in such states. -/
def Settled (anchor : Int) (key : OutcomeKey) (y y' : Bool) : Prop := horizonEndOf anchor key ≤ t → y' = y

/-- How they compare when every late label is set to `b`. -/
def SetTo (b : Bool) (anchor : Int) (key : OutcomeKey) (y y' : Bool) : Prop :=
  (horizonEndOf anchor key ≤ t → y' = y) ∧ (t < horizonEndOf anchor key → y' = b)

variable {t key} {labels labels' : List (Int × Bool)}

/-- A positive label is settled or late. -/
theorem positives_bounds : settledPositives t key labels ≤ positives labels ∧
    positives labels ≤ settledPositives t key labels + lateLabels t key labels := by
  unfold settledPositives positives lateLabels
  induction labels with
  | nil => exact ⟨Nat.le_refl _, Nat.le_refl _⟩
  | cons r labels ih =>
    simp only [List.countP_cons]
    cases r.2 with
    | false =>
      simp only [Bool.false_and, Bool.false_eq_true, ↓reduceIte]
      omega
    | true =>
      cases lateLabel t key r with
      | false =>
        simp only [Bool.not_false, Bool.and_self, ↓reduceIte, Bool.false_eq_true]
        omega
      | true =>
        simp only [Bool.not_true, Bool.and_false, Bool.false_eq_true, ↓reduceIte]
        omega

theorem settledPositives_like (h : List.Forall₂ (CellLike (Settled t) key) labels labels') :
    settledPositives t key labels' = settledPositives t key labels := by
  unfold settledPositives
  induction h with
  | nil => rfl
  | @cons a b labels labels' hab _ ih =>
    have hlate : lateLabel t key b = lateLabel t key a := by
      unfold lateLabel
      rw [hab.1]
    have hsame : (b.2 && !lateLabel t key b) = (a.2 && !lateLabel t key a) := by
      rw [hlate]
      by_cases hl : lateLabel t key a = true
      · simp [hl]
      · have hle : horizonEndOf a.1 key ≤ t := by simpa [lateLabel] using hl
        rw [hab.2 hle]
    rw [List.countP_cons, List.countP_cons, ih, hsame]

theorem lateLabels_like {L : Int → OutcomeKey → Bool → Bool → Prop}
    (h : List.Forall₂ (CellLike L key) labels labels') : lateLabels t key labels' = lateLabels t key labels := by
  unfold lateLabels
  induction h with
  | nil => rfl
  | @cons a b labels labels' hab _ ih =>
    have hlate : lateLabel t key b = lateLabel t key a := by
      unfold lateLabel
      rw [hab.1]
    rw [List.countP_cons, List.countP_cons, ih, hlate]

/-- All the late labels are positive, or none is. -/
theorem positives_setTo {b : Bool} (h : List.Forall₂ (CellLike (SetTo t b) key) labels labels') :
    positives labels' = settledPositives t key labels + if b then lateLabels t key labels else 0 := by
  unfold positives settledPositives lateLabels
  induction h with
  | nil => cases b <;> rfl
  | @cons a a' labels labels' haa' _ ih =>
    simp only [List.countP_cons, ih]
    by_cases hl : lateLabel t key a = true
    · have hlt : t < horizonEndOf a.1 key := by simpa [lateLabel] using hl
      rw [haa'.2.2 hlt]
      cases b with
      | false => simp [hl]
      | true =>
        simp only [hl, Bool.not_true, Bool.and_false, Bool.false_eq_true, ↓reduceIte]
        omega
    · have hle : horizonEndOf a.1 key ≤ t := by simpa [lateLabel] using hl
      rw [haa'.2.1 hle]
      cases b with
      | false => simp [hl]
      | true =>
        simp only [hl, Bool.not_false, Bool.and_true, Bool.false_eq_true, ↓reduceIte]
        omega

/-- Which labels are in the training set follows from their anchors. -/
theorem trainingSet_like {L : Int → OutcomeKey → Bool → Bool → Prop} (h : List.Forall₂ (CellLike L key) labels labels')
    (at_ : Int) : List.Forall₂ (CellLike L key) (trainingSet labels at_) (trainingSet labels' at_) := by
  have hfilter : ∀ p : Int → Bool, List.Forall₂ (CellLike L key) (labels.filter fun r => p r.1)
      (labels'.filter fun r => p r.1) := by
    intro p
    induction h with
    | nil => exact List.Forall₂.nil
    | @cons a b labels labels' hab _ ih =>
      rw [List.filter_cons, List.filter_cons, ← hab.1]
      split
      · exact List.Forall₂.cons hab ih
      · exact ih
  have hwindow := hfilter fun anchor => decide (anchor < at_) && decide (at_ - THIRTY_DAYS_MS ≤ anchor)
  change List.Forall₂ (CellLike L key) (labels.filter (inWindow at_)) (labels'.filter (inWindow at_)) at hwindow
  unfold trainingSet
  by_cases hnone : labels.filter (inWindow at_) = []
  · have hnone' : labels'.filter (inWindow at_) = [] := by
      rw [hnone] at hwindow
      exact List.forall₂_nil_left_iff.mp hwindow
    rw [if_pos hnone, if_pos hnone']
    exact hfilter fun anchor => decide (anchor < at_)
  · have hnone' : labels'.filter (inWindow at_) ≠ [] := by
      intro he
      rw [he] at hwindow
      exact hnone (List.forall₂_nil_right_iff.mp hwindow)
    rw [if_neg hnone, if_neg hnone']
    exact hwindow

theorem share_eq (labels : List (Int × Bool)) : share labels = Js.double (positives labels / labels.length) := by
  unfold share
  split
  · rename_i hnil
    rw [hnil]
    simp
  · rfl

end Labels

section Pass
variable (t : Int)

/-- The cells up to `t` that the baseline is emitted for. -/
def baseCells (obs : List (ObsKey × ResolvedObs)) (refs : List ScorePair) : List (ObsKey × OutcomeKey) :=
  obs.flatMap fun a => a.2.labels.filterMap fun l =>
    let k : ObsKey := ⟨a.2.chainId, a.2.token, a.2.anchor⟩
    if refClass refs k l.1 = .eligible ∧ k.anchor ≤ t then some (k, l.1) else none

/-- The baseline rows among some pairs. -/
def pairRates (pairs : List ScorePair) : List ((ObsKey × OutcomeKey) × ℚ) :=
  pairs.filterMap fun p =>
    if p.cls = .eligible ∧ p.forecaster = .base_rate ∧ p.obsId.anchor ≤ t then some ((p.obsId, p.outcomeKey), p.prob)
    else none

variable {t}

theorem pairRates_append (pairs more : List ScorePair) :
    pairRates t (pairs ++ more) = pairRates t pairs ++ pairRates t more :=
  List.filterMap_append

theorem baseRates_rows (db : WorkerDb) (maps : ScannerMaps) (opts : CollectOptions) :
    baseRates t (collectScoreRows db maps opts).rows = pairRates t (collectPairs db maps opts) := by
  unfold baseRates collectScoreRows pairRates
  dsimp only
  rw [List.filterMap_filterMap]
  apply List.filterMap_congr
  intro p _
  by_cases hp : p.cls = .eligible
  · simp [hp]
  · simp [hp]

theorem pairRates_like {pairs pairs' : List ScorePair} (h : List.Forall₂ PairLike pairs pairs') :
    pairRates t pairs' = pairRates t pairs := by
  unfold pairRates
  induction h with
  | nil => rfl
  | @cons p p' pairs pairs' hp _ ih => rw [List.filterMap_cons, List.filterMap_cons, ih, hp]

/-- The scanners have rows of their own only. -/
theorem pairRates_features (db : WorkerDb) (maps : ScannerMaps) (obs : List (ObsKey × ResolvedObs))
    (anchors : List (String × ObsKey)) (refs : List ScorePair) :
    pairRates t (db.features.flatMap (featurePairs db maps obs anchors refs)) = [] := by
  apply List.filterMap_eq_nil_iff.mpr
  intro p hp
  obtain ⟨f, _, hp⟩ := List.mem_flatMap.mp hp
  rcases featurePairs_forecaster hp with hforecaster | hforecaster
  · simp [hforecaster]
  · simp [hforecaster]

theorem pairRates_base (db : WorkerDb) (obs : List (ObsKey × ResolvedObs)) (refs : List ScorePair) :
    pairRates t (basePairs db obs refs) =
      (baseCells t obs refs).map fun c => (c, round4 (trailingBaseRate (perKey obs c.2) c.1.anchor)) := by
  unfold pairRates basePairs baseCells
  rw [List.filterMap_flatMap, List.map_flatMap]
  apply List.flatMap_congr
  intro a _
  rw [List.filterMap_flatMap, List.map_filterMap]
  induction a.2.labels with
  | nil => rfl
  | cons l labels ih =>
    rw [List.flatMap_cons, List.filterMap_cons, ih]
    unfold baseCell
    dsimp only
    by_cases hcell : refClass refs ⟨a.2.chainId, a.2.token, a.2.anchor⟩ l.1 = .eligible ∧ a.2.anchor ≤ t
    · simp [hcell]
    · simp [hcell]

theorem baseCells_like {L : Int → OutcomeKey → Bool → Bool → Prop} {obs obs' : List (ObsKey × ResolvedObs)}
    {refs refs' : List ScorePair} (h : List.Forall₂ (ObsLike L) obs obs')
    (hrefs : ∀ k key, refClass refs' k key = refClass refs k key) : baseCells t obs' refs' = baseCells t obs refs := by
  unfold baseCells
  induction h with
  | nil => rfl
  | @cons a b obs obs' hab _ ih =>
    have hentry : b.2.chainId = a.2.chainId ∧ b.2.token = a.2.token ∧ b.2.anchor = a.2.anchor := by
      rw [hab.same]
      exact ⟨rfl, rfl, rfl⟩
    rw [List.flatMap_cons, List.flatMap_cons, ih]
    congr 1
    rw [hentry.1, hentry.2.1, hentry.2.2]
    have hlabels := hab.labels
    generalize a.2.labels = labels, b.2.labels = labels' at hlabels
    induction hlabels with
    | nil => rfl
    | @cons l l' labels labels' hl _ ih =>
      rw [List.filterMap_cons, List.filterMap_cons, ih, ← hl.1]
      dsimp only
      rw [hrefs]

/-- The training set of a cell. -/
def trainingLabels (obs : List (ObsKey × ResolvedObs)) (c : ObsKey × OutcomeKey) : List (Int × Bool) :=
  trainingSet (cellLabels obs c.2) c.1.anchor

theorem baseRates_eq (db : WorkerDb) (maps : ScannerMaps) (opts : CollectOptions) :
    baseRates t (collectScoreRows db maps opts).rows =
      pairRates t (fromReports db opts) ++ (baseCells t (scoredObs db opts.scope) (fromReports db opts)).map fun c =>
        (c, round4 (share (trainingLabels (scoredObs db opts.scope) c))) := by
  rw [baseRates_rows, collectPairs_eq, pairRates_append, pairRates_append, pairRates_features, pairRates_base,
    List.append_nil]
  congr 1
  apply List.map_congr_left
  intro c _
  rw [trailingBaseRate_perKey]
  rfl

/-- Between states whose outcomes compare by `L`, only the rates can differ. -/
theorem baseRates_like {L : Int → OutcomeKey → Bool → Bool → Prop} {db : WorkerDb} {outcomes' : List Outcome}
    {opts : CollectOptions} (maps : ScannerMaps)
    (h : List.Forall₂ (OutcomeLike L) (db.outcomes.filter (outcomeWhere opts.scope))
      (outcomes'.filter (outcomeWhere opts.scope))) :
    baseRates t (collectScoreRows { db with outcomes := outcomes' } maps opts).rows =
        baseRates t (collectScoreRows db maps opts).rows ↔
      ∀ c ∈ baseCells t (scoredObs db opts.scope) (fromReports db opts),
        round4 (share (trainingLabels (scoredObs { db with outcomes := outcomes' } opts.scope) c)) =
          round4 (share (trainingLabels (scoredObs db opts.scope) c)) := by
  have hobs : List.Forall₂ (ObsLike L) (scoredObs db opts.scope) (scoredObs { db with outcomes := outcomes' } opts.scope) :=
    observations_like h
  have hrefs : List.Forall₂ PairLike (fromReports db opts) (fromReports { db with outcomes := outcomes' } opts) := by
    refine List.rel_flatMap (R := Eq) (List.forall₂_refl _) ?_
    rintro r _ rfl
    exact reportPairs_like hobs db opts r
  rw [baseRates_eq, baseRates_eq, pairRates_like hrefs, baseCells_like hobs (refClass_like hrefs), List.append_cancel_left_eq,
    List.map_inj_left]
  constructor
  · exact fun hall c hc => congrArg Prod.snd (hall c hc)
  · exact fun hall c hc => by rw [hall c hc]

end Pass

/-- Rounding hides the late labels of every training set: the settled positives give the same rate as they
do together with all that is late. -/
def LateHidden (t : Int) (db : WorkerDb) (opts : CollectOptions) : Prop :=
  ∀ c ∈ baseCells t (scoredObs db opts.scope) (fromReports db opts),
    let labels := trainingLabels (scoredObs db opts.scope) c
    round4 (Js.double (settledPositives t c.2 labels / labels.length)) =
      round4 (Js.double ((settledPositives t c.2 labels + lateLabels t c.2 labels : Nat) / labels.length))

section Extremes
variable {t : Int}

/-- The outcome, with the label `b` if it is late. -/
def setLate (t : Int) (b : Bool) (o : Outcome) : Outcome :=
  if t < horizonEndOf o.anchorTime ⟨o.label, o.horizon⟩ ∧ o.value.isSome = true then { o with value := some b } else o

theorem setLate_relabelled (b : Bool) (o : Outcome) : Relabelled t o (setLate t b o) := by
  unfold setLate
  split
  · rename_i h
    exact ⟨rfl, h.2.symm, fun hle => absurd h.1 (Int.not_lt.mpr hle)⟩
  · exact ⟨rfl, rfl, fun _ => rfl⟩

theorem forall₂_setLate (b : Bool) (outcomes : List Outcome) :
    List.Forall₂ (fun o o' => o' = setLate t b o) outcomes (outcomes.map (setLate t b)) := by
  induction outcomes with
  | nil => exact List.Forall₂.nil
  | cons o outcomes ih => exact List.Forall₂.cons rfl ih

theorem setLate_like (b : Bool) (scope : Scope) (outcomes : List Outcome) :
    List.Forall₂ (OutcomeLike (SetTo t b)) (outcomes.filter (outcomeWhere scope))
      ((outcomes.map (setLate t b)).filter (outcomeWhere scope)) := by
  apply outcomeLike_filter ?_ ?_ ?_ (forall₂_setLate b outcomes)
  · rintro o _ rfl
    exact (setLate_relabelled b o).same
  · rintro o _ rfl
    exact (setLate_relabelled b o).known
  · rintro o _ rfl hvalue
    unfold setLate
    constructor
    · intro hle
      rw [if_neg fun h => absurd h.1 (Int.not_lt.mpr hle)]
    · intro hlt
      rw [if_pos ⟨hlt, hvalue⟩]
      cases b <;> rfl

theorem relabelled_like (scope : Scope) {outcomes outcomes' : List Outcome}
    (h : List.Forall₂ (Relabelled t) outcomes outcomes') :
    List.Forall₂ (OutcomeLike (Settled t)) (outcomes.filter (outcomeWhere scope))
      (outcomes'.filter (outcomeWhere scope)) := by
  apply outcomeLike_filter (fun _ _ hr => hr.same) (fun _ _ hr => hr.known) ?_ h
  intro o o' hr _ hle
  rw [hr.settled hle]

variable {obs obs' : List (ObsKey × ResolvedObs)} {c : ObsKey × OutcomeKey}

/-- The rate when all late labels are set to `b`. -/
theorem share_setTo {b : Bool} (h : List.Forall₂ (ObsLike (SetTo t b)) obs obs') :
    share (trainingLabels obs' c) = Js.double ((settledPositives t c.2 (trainingLabels obs c) +
      (if b then lateLabels t c.2 (trainingLabels obs c) else 0) : Nat) / (trainingLabels obs c).length) := by
  have hlike := trainingSet_like (cellLabels_like h c.2) c.1.anchor
  rw [share_eq]
  unfold trainingLabels
  rw [positives_setTo hlike, ← hlike.length_eq]

/-- The rate of any such state lies between the two. -/
theorem share_between (h : List.Forall₂ (ObsLike (Settled t)) obs obs') :
    Js.double (settledPositives t c.2 (trainingLabels obs c) / (trainingLabels obs c).length) ≤
        share (trainingLabels obs' c) ∧
      share (trainingLabels obs' c) ≤ Js.double ((settledPositives t c.2 (trainingLabels obs c) +
        lateLabels t c.2 (trainingLabels obs c) : Nat) / (trainingLabels obs c).length) := by
  have hlike := trainingSet_like (cellLabels_like h c.2) c.1.anchor
  have hbounds : settledPositives t c.2 (trainingLabels obs' c) ≤ positives (trainingLabels obs' c) ∧
      positives (trainingLabels obs' c) ≤
        settledPositives t c.2 (trainingLabels obs' c) + lateLabels t c.2 (trainingLabels obs' c) := positives_bounds
  unfold trainingLabels at hbounds ⊢
  rw [settledPositives_like hlike, lateLabels_like hlike] at hbounds
  rw [share_eq, ← hlike.length_eq]
  have hlen : (0 : ℚ) ≤ (trainingSet (cellLabels obs c.2) c.1.anchor).length := Nat.cast_nonneg _
  constructor
  · exact Js.double_mono (div_le_div_of_nonneg_right (Nat.cast_le.mpr hbounds.1) hlen)
  · exact Js.double_mono (div_le_div_of_nonneg_right (Nat.cast_le.mpr hbounds.2) hlen)

end Extremes

/-- The trailing baseline up to `t` does not follow labels of horizons that end later exactly when rounding
hides them in every training set. -/
theorem no_look_ahead_iff (t : Int) (db : WorkerDb) (maps : ScannerMaps) (opts : CollectOptions) :
    (∀ db', DifferAfter t db db' → baseRates t (collectScoreRows db' maps opts).rows =
        baseRates t (collectScoreRows db maps opts).rows) ↔ LateHidden t db opts := by
  constructor
  · intro h c hc
    have hset : ∀ b, round4 (share (trainingLabels (scoredObs { db with outcomes := db.outcomes.map (setLate t b) }
        opts.scope) c)) = round4 (share (trainingLabels (scoredObs db opts.scope) c)) := by
      intro b
      have hdiffer : DifferAfter t db { db with outcomes := db.outcomes.map (setLate t b) } :=
        ⟨rfl, (forall₂_setLate b db.outcomes).imp fun o o' ho => ho ▸ setLate_relabelled b o⟩
      exact (baseRates_like maps (setLate_like b opts.scope db.outcomes)).mp (h _ hdiffer) c hc
    have hrate : ∀ b, share (trainingLabels (scoredObs { db with outcomes := db.outcomes.map (setLate t b) }
        opts.scope) c) = _ := fun b => share_setTo (observations_like (setLate_like b opts.scope db.outcomes))
    have hlow := hset false
    have hhigh := hset true
    rw [hrate false] at hlow
    rw [hrate true] at hhigh
    exact hlow.trans hhigh.symm
  · intro h db' hdiffer
    rw [hdiffer.same, baseRates_like maps (relabelled_like opts.scope hdiffer.outcomes)]
    intro c hc
    have hhidden := h c hc
    have hround : ∀ {outcomes' : List Outcome}, List.Forall₂ (Relabelled t) db.outcomes outcomes' →
        round4 (share (trainingLabels (scoredObs { db with outcomes := outcomes' } opts.scope) c)) =
          round4 (Js.double (settledPositives t c.2 (trainingLabels (scoredObs db opts.scope) c) /
            (trainingLabels (scoredObs db opts.scope) c).length)) := by
      intro outcomes' houtcomes
      obtain ⟨hlow, hhigh⟩ := share_between (c := c) (observations_like (relabelled_like opts.scope houtcomes))
      apply le_antisymm
      · rw [hhidden]
        exact Js.roundDouble_mono 10000 hhigh
      · exact Js.roundDouble_mono 10000 hlow
    rw [hround hdiffer.outcomes]
    exact (hround (List.forall₂_same.mpr fun o _ => ⟨rfl, rfl, fun _ => rfl⟩)).symm

def twoLaunches (first : Bool) : WorkerDb :=
  { WorkerDb.empty with
    outcomes := [exitOutcome 1#160 0 first, exitOutcome 2#160 3600000 false]
    reports := [exitReport 2#160 .det_v0 .launch 3600000 (some "c1")]
    commits := [⟨"c1", some 100⟩] }

/-- The rate of the second launch rests on a label that is known three days later. -/
theorem base_rate_looks_ahead : ¬ ∀ t db db' maps opts, DifferAfter t db db' →
    baseRates t (collectScoreRows db' maps opts).rows = baseRates t (collectScoreRows db maps opts).rows := by
  intro h
  have hdiffer : DifferAfter 3600000 (twoLaunches true) (twoLaunches false) := by
    refine ⟨rfl, List.Forall₂.cons ⟨rfl, rfl, ?_⟩ (List.Forall₂.cons ⟨rfl, rfl, fun _ => rfl⟩ List.Forall₂.nil)⟩
    intro hle
    exact absurd hle (by decide +kernel)
  have hsame := h 3600000 (twoLaunches true) (twoLaunches false) ⟨fun _ => [], fun _ => []⟩ minuteLater hdiffer
  exact absurd hsame (by decide +kernel)

end LaunchAuditor.Proofs.LookAhead
