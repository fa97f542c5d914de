import LaunchAuditor.Lib.Midranks
import LaunchAuditor.Scoring.Det
import Mathlib.Data.Rat.Floor

/-! `metrics.ts`, `delong.ts` and `base-rate.ts` of `packages/scoring/src`. Numbers are exact rationals, but for
the functions of the floating-point library and what decides whether a gain is claimed, which are in doubles. -/

namespace LaunchAuditor.Leaderboard
open Scoring

structure Numerics extends Transcendentals where
  sqrt : ℚ → ℚ

/-- Both sources have it. -/
def midranks (values : List ℚ) : List ℚ := Midranks.midranks values

/-- The scores of the positives and of the negatives. -/
def split (scores : List ℚ) (labels : List Bool) : List ℚ × List ℚ :=
  (((scores.zip labels).filter fun a => a.2).map Prod.fst, ((scores.zip labels).filter fun a => !a.2).map Prod.fst)

/-- Scores without labels, or labels without scores. -/
def mismatched (scores : List ℚ) (labels : List Bool) : Bool := decide (scores.length ≠ labels.length ∨ scores.length = 0)

def auroc (scores : List ℚ) (labels : List Bool) : Option ℚ :=
  if mismatched scores labels then none
  else
    let (pos, neg) := split scores labels
    if pos.length = 0 ∨ neg.length = 0 then none
    else
      let rankSumPos := (split (midranks scores) labels).1.sum
      some ((rankSumPos - pos.length * (pos.length + 1) / 2) / (pos.length * neg.length))

def countTrue (labels : List Bool) : Nat := labels.countP fun y => y

/-- The loop over the scores from the highest; a step of the curve is taken at the end of a group of equals. -/
def averagePrecision (totalPos : Nat) : (tp fp : Nat) → (prevRecall ap : ℚ) → List (ℚ × Bool) → ℚ
  | _, _, _, ap, [] => ap
  | tp, fp, prevRecall, ap, a :: rest =>
    let tp := if a.2 then tp + 1 else tp
    let fp := if a.2 then fp else fp + 1
    if rest.head?.any fun b => decide (b.1 = a.1) then averagePrecision totalPos tp fp prevRecall ap rest
    else
      let «recall» : ℚ := tp / totalPos
      let precision : ℚ := tp / ((tp + fp : ℕ) : ℚ)
      averagePrecision totalPos tp fp «recall» (ap + («recall» - prevRecall) * precision) rest

def auprc (scores : List ℚ) (labels : List Bool) : Option ℚ :=
  if mismatched scores labels then none
  else
    let totalPos := countTrue labels
    if totalPos = 0 then none
    else some (averagePrecision totalPos 0 0 0 0 ((scores.zip labels).insertionSort fun a b => b.1 ≤ a.1))

def EPS : ℚ := 1 / 10 ^ 12

def logLoss (m : Numerics) (scores : List ℚ) (labels : List Bool) : Option ℚ :=
  if mismatched scores labels then none
  else
    let loss (a : ℚ × Bool) : ℚ :=
      let p := min (1 - EPS) (max EPS a.1)
      if a.2 then -m.log p else -m.log (1 - p)
    some (((scores.zip labels).map loss).sum / scores.length)

def outcomeValue (y : Bool) : ℚ := if y then 1 else 0

def brierScore (scores : List ℚ) (labels : List Bool) : Option ℚ :=
  if mismatched scores labels then none
  else some (((scores.zip labels).map fun a => (a.1 - outcomeValue a.2) ^ 2).sum / scores.length)

/-- Over ten bins of equal width. -/
def ece (scores : List ℚ) (labels : List Bool) : Option ℚ :=
  if mismatched scores labels then none
  else
    let clamped := (scores.zip labels).map fun a => (min (999999 / 1000000) (max 0 a.1), a.2)
    let binError (b : Nat) : ℚ :=
      let bin := clamped.filter fun a => decide (min 9 ⌊a.1 * 10⌋ = (b : ℤ))
      if bin.length = 0 then 0
      else
        let acc : ℚ := (bin.countP fun a => a.2) / bin.length
        let conf : ℚ := (bin.map Prod.fst).sum / bin.length
        bin.length / scores.length * |acc - conf|
    some (((List.range 10).map binError).sum)

structure PrRecall where
  threshold : ℚ
  precision : Option ℚ
  «recall» : Option ℚ
  tp : Nat
  fp : Nat
  fn : Nat

def precisionRecallAt (scores : List ℚ) (labels : List Bool) (threshold : ℚ) : PrRecall :=
  let pairs := scores.zip labels
  let tp := pairs.countP fun a => decide (threshold ≤ a.1) && a.2
  let fp := pairs.countP fun a => decide (threshold ≤ a.1) && !a.2
  let fn := pairs.countP fun a => !decide (threshold ≤ a.1) && a.2
  { threshold
    precision := if tp + fp > 0 then some (tp / ((tp + fp : ℕ) : ℚ)) else none
    «recall» := if tp + fn > 0 then some (tp / ((tp + fn : ℕ) : ℚ)) else none
    tp, fp, fn }

/-- Of a model's Brier score against a reference's. -/
def brierSkill (modelBrier referenceBrier : ℚ) : Option ℚ :=
  if referenceBrier ≤ 0 then none else some (1 - modelBrier / referenceBrier)

/-- `base-rate.ts` -/
def baseRate (labels : List Bool) : ℚ := if labels.length = 0 then 0 else countTrue labels / labels.length

section DeLong
-- what an operation gives is rounded by `fl`; ranks, their sums and counts are small enough to be exact
variable (fl : ℚ → ℚ)

/-- `auroc` with its quotient rounded. -/
def aurocIn (scores : List ℚ) (labels : List Bool) : Option ℚ := (auroc scores labels).map fl

/-- `row.reduce((s, x) => s + x, 0)` -/
def sumIn (row : List ℚ) : ℚ := row.foldl (fun s x => fl (s + x)) 0

/-- The sample covariance of two rows of one length. -/
def covarianceIn (x y : List ℚ) : ℚ :=
  let mean (row : List ℚ) : ℚ := fl (sumIn fl row / (if x.length = 0 then 1 else x.length))
  let denom : ℚ := if x.length > 1 then x.length - 1 else 1
  fl (sumIn fl ((x.zip y).map fun a => fl (fl (a.1 - mean x) * fl (a.2 - mean y))) / denom)

/-- `Math.SQRT2` -/
def SQRT2 : ℚ := 14142135623730951 / 10 ^ 16

/-- By a rational approximation of erfc. -/
def normalCdfIn (math : Numerics) (x : ℚ) : ℚ :=
  let z := fl (|x| / fl SQRT2)
  let t := fl (1 / fl (1 + fl (fl (3275911 / 10 ^ 7) * z)))
  let times (c a : ℚ) : ℚ := fl (fl (a * t) + fl c)
  let poly := times (254829592 / 10 ^ 9) (times (-284496736 / 10 ^ 9) (times (1421413741 / 10 ^ 9)
    (times (-1453152027 / 10 ^ 9) (fl (1061405429 / 10 ^ 9)))))
  let y := fl (1 - fl (fl (poly * t) * math.exp (fl (-z * z))))
  let erf := if 0 ≤ x then y else -y
  fl (1 / 2 * fl (1 + erf))

/-- One predictor's AUROC with its components, on the positives and on the negatives. -/
structure Placement where
  auc : ℚ
  v01 : List ℚ
  v10 : List ℚ
  deriving DecidableEq

def placementIn (pred : List ℚ) (labels : List Bool) : Placement :=
  let (tx, ty) := split pred labels
  let m := tx.length
  let n := ty.length
  let tzr := midranks (tx ++ ty)
  let txr := midranks tx
  let tyr := midranks ty
  let tzrPos := tzr.take m
  let tzrNeg := tzr.drop m
  { auc := fl (fl (tzrPos.sum / (m * n)) - fl ((m + 1) / (2 * n)))
    v01 := (tzrPos.zip txr).map fun a => fl ((a.1 - a.2) / n)
    v10 := (tzrNeg.zip tyr).map fun a => fl (1 - fl ((a.1 - a.2) / m)) }

structure DeLongResult where
  aucA : ℚ
  aucB : ℚ
  diff : ℚ
  se : ℚ
  z : ℚ
  /-- two-sided, for equal AUROCs -/
  p : ℚ
  n : Nat

def fastDeLongIn (math : Numerics) (scoresA scoresB : List ℚ) (labels : List Bool) : Option DeLongResult :=
  if scoresA.length ≠ labels.length ∨ scoresB.length ≠ labels.length then none
  else
    let m := countTrue labels
    let n := labels.length - m
    if m < 2 ∨ n < 2 then none
    else
      let a := placementIn fl scoresA labels
      let b := placementIn fl scoresB labels
      let s (x y : Placement) : ℚ := fl (fl (covarianceIn fl x.v01 y.v01 / m) + fl (covarianceIn fl x.v10 y.v10 / n))
      let varDiff := fl (fl (s a a + s b b) - fl (2 * s a b))
      let se := math.sqrt (max varDiff 0)
      let diff := fl (a.auc - b.auc)
      let z := if se > 0 then fl (diff / se) else 0
      let p := if se > 0 then fl (2 * fl (1 - normalCdfIn fl math |z|)) else 1
      some ⟨a.auc, b.auc, diff, se, z, p, m + n⟩

end DeLong

def covariance (x y : List ℚ) : ℚ := covarianceIn id x y

def placement (pred : List ℚ) (labels : List Bool) : Placement := placementIn id pred labels

def fastDeLong (math : Numerics) (scoresA scoresB : List ℚ) (labels : List Bool) : Option DeLongResult :=
  fastDeLongIn id math scoresA scoresB labels

end LaunchAuditor.Leaderboard

namespace LaunchAuditor.Leaderboard

theorem split_map (f : ℚ → ℚ) (scores : List ℚ) (labels : List Bool) :
    split (scores.map f) labels = ((split scores labels).1.map f, (split scores labels).2.map f) := by
  have hzip : (scores.map f).zip labels = (scores.zip labels).map fun a => (f a.1, a.2) := by
    rw [List.zip_map_left]
    rfl
  unfold split
  rw [hzip, List.filter_map, List.filter_map]
  simp only [List.map_map]
  rfl

/-- Every score has one class. -/
theorem split_perm {scores : List ℚ} {labels : List Bool} (h : scores.length = labels.length) :
    ((split scores labels).1 ++ (split scores labels).2).Perm scores := by
  have hclasses := (List.filter_append_perm (fun a : ℚ × Bool => a.2) (scores.zip labels)).map Prod.fst
  rw [List.map_append, List.map_fst_zip h.le] at hclasses
  exact hclasses

theorem split_fst_length {scores : List ℚ} {labels : List Bool} (h : scores.length = labels.length) :
    (split scores labels).1.length = countTrue labels := by
  have hlabels : labels = (scores.zip labels).map Prod.snd := (List.map_snd_zip h.ge).symm
  unfold split countTrue
  rw [List.length_map, ← List.countP_eq_length_filter]
  conv_rhs => rw [hlabels, List.countP_map]
  rfl

theorem split_snd_length {scores : List ℚ} {labels : List Bool} (h : scores.length = labels.length) :
    (split scores labels).2.length = labels.length - countTrue labels := by
  have hsum := (split_perm h).length_eq
  rw [List.length_append, split_fst_length h, h] at hsum
  omega

/-- The share of the pairs of a positive and a negative that the scores put in order. -/
def pairShare (scores : List ℚ) (labels : List Bool) : ℚ := Midranks.auc (split scores labels).1 (split scores labels).2

theorem auroc_eq {scores : List ℚ} {labels : List Bool} (h : scores.length = labels.length)
    (hpos : countTrue labels ≠ 0) (hneg : labels.length - countTrue labels ≠ 0) :
    auroc scores labels = some (pairShare scores labels) := by
  have hne : scores.length ≠ 0 := by omega
  have hranks : (split (midranks scores) labels).1 =
      (split scores labels).1.map fun p => Midranks.rank p ((split scores labels).1 ++ (split scores labels).2) := by
    rw [midranks, Midranks.midranks_eq, split_map]
    apply List.map_congr_left
    intro p _
    exact (Midranks.rank_perm (split_perm h) p).symm
  unfold auroc
  rw [if_neg (by simp [mismatched, h, h ▸ hne])]
  dsimp only
  rw [if_neg (by rw [split_fst_length h, split_snd_length h]; exact not_or.mpr ⟨hpos, hneg⟩), hranks, Midranks.rankSum_eq,
    add_sub_cancel_right]
  rfl

section Placements
variable {fl : ℚ → ℚ}

/-- A placement by the ranks of the values among all and among their own. -/
theorem placementIn_of_split {pred pos neg : List ℚ} {labels : List Bool} (h : split pred labels = (pos, neg)) :
    placementIn fl pred labels =
      { auc := fl (fl ((pos.map fun v => Midranks.rank v (pos ++ neg)).sum / (pos.length * neg.length)) -
          fl ((pos.length + 1) / (2 * neg.length)))
        v01 := pos.map fun v => fl ((Midranks.rank v (pos ++ neg) - Midranks.rank v pos) / neg.length)
        v10 := neg.map fun v => fl (1 - fl ((Midranks.rank v (pos ++ neg) - Midranks.rank v neg) / pos.length)) } := by
  unfold placementIn
  rw [h]
  simp only [midranks, Midranks.midranks_eq, List.map_append]
  have hlength : (pos.map fun v => Midranks.rank v (pos ++ neg)).length = pos.length := List.length_map _
  rw [List.take_left' hlength, List.drop_left' hlength, List.zip_map', List.zip_map', List.map_map, List.map_map]
  rfl

theorem sumIn_id (row : List ℚ) : sumIn id row = row.sum := by
  rw [List.sum_eq_foldl]
  rfl

theorem covariance_eq (x y : List ℚ) : covariance x y =
    ((x.zip y).map fun a => (a.1 - x.sum / (if x.length = 0 then 1 else x.length)) *
      (a.2 - y.sum / (if x.length = 0 then 1 else x.length))).sum / (if x.length > 1 then (x.length : ℚ) - 1 else 1) := by
  unfold covariance covarianceIn
  simp only [sumIn_id, id_eq]

theorem placement_of_split {pred pos neg : List ℚ} {labels : List Bool} (h : split pred labels = (pos, neg)) :
    placement pred labels =
      { auc := (pos.map fun v => Midranks.rank v (pos ++ neg)).sum / (pos.length * neg.length) -
          (pos.length + 1) / (2 * neg.length)
        v01 := pos.map fun v => (Midranks.rank v (pos ++ neg) - Midranks.rank v pos) / neg.length
        v10 := neg.map fun v => 1 - (Midranks.rank v (pos ++ neg) - Midranks.rank v neg) / pos.length } :=
  placementIn_of_split h

/-- The AUROC of a placement, before it is rounded: of the sum of the ranks, what the positives have among
themselves is taken off. -/
theorem pairShare_eq {scores : List ℚ} {labels : List Bool} (hpos : (split scores labels).1.length ≠ 0) :
    pairShare scores labels =
      ((split scores labels).1.map fun v => Midranks.rank v ((split scores labels).1 ++ (split scores labels).2)).sum /
          ((split scores labels).1.length * (split scores labels).2.length) -
        ((split scores labels).1.length + 1) / (2 * (split scores labels).2.length) := by
  have hpos' : ((split scores labels).1.length : ℚ) ≠ 0 := Nat.cast_ne_zero.mpr hpos
  unfold pairShare
  rw [Midranks.rankSum_eq, Midranks.auc, add_div]
  have hterm : ((split scores labels).1.length : ℚ) * ((split scores labels).1.length + 1) / 2 /
      ((split scores labels).1.length * (split scores labels).2.length) =
      ((split scores labels).1.length + 1) / (2 * (split scores labels).2.length) := by
    rw [div_div, ← mul_assoc, mul_comm 2, mul_assoc, mul_div_mul_left _ _ hpos']
  rw [hterm, add_sub_cancel_right]

theorem placement_auc {scores : List ℚ} {labels : List Bool} (hpos : (split scores labels).1.length ≠ 0) :
    (placement scores labels).auc = pairShare scores labels := by
  rw [placement_of_split (Prod.eta (split scores labels)).symm, pairShare_eq hpos]

end Placements

/-- In exact numbers it is of the two themselves. -/
theorem fastDeLong_auroc {math : Numerics} {a b : List ℚ} {labels : List Bool} {dl : DeLongResult}
    (h : fastDeLong math a b labels = some dl) :
    auroc a labels = some dl.aucA ∧ auroc b labels = some dl.aucB ∧ dl.diff = dl.aucA - dl.aucB := by
  unfold fastDeLong fastDeLongIn at h
  split at h
  · cases h
  · rename_i hlengths
    rw [not_or, not_not, not_not] at hlengths
    dsimp only at h
    split at h
    · cases h
    · rename_i hclasses
      have hpos : countTrue labels ≠ 0 := by omega
      have hneg : labels.length - countTrue labels ≠ 0 := by omega
      cases h
      rw [auroc_eq hlengths.1 hpos hneg, auroc_eq hlengths.2 hpos hneg,
        ← placement_auc (by rw [split_fst_length hlengths.1]; exact hpos),
        ← placement_auc (by rw [split_fst_length hlengths.2]; exact hpos)]
      exact ⟨rfl, rfl, rfl⟩

end LaunchAuditor.Leaderboard
