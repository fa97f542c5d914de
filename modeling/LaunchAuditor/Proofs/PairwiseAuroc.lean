import LaunchAuditor.Leaderboard.Statistics
import Mathlib.Data.List.ProdSigma

namespace LaunchAuditor.Proofs.PairwiseAuroc
open Leaderboard

/-- The scores of the examples of one class. -/
def scoresOf (label : Bool) (examples : List (ℚ × Bool)) : List ℚ :=
  (examples.filter fun a => a.2 == label).map Prod.fst

/-- Every positive with every negative. -/
def classPairs (examples : List (ℚ × Bool)) : List (ℚ × ℚ) := scoresOf true examples ×ˢ scoresOf false examples

/-- Those with the positive scored higher. -/
def higher (pairs : List (ℚ × ℚ)) : Nat := pairs.countP fun pair => pair.2 < pair.1

def tied (pairs : List (ℚ × ℚ)) : Nat := pairs.countP fun pair => pair.1 = pair.2

theorem split_examples (examples : List (ℚ × Bool)) :
    split (examples.map Prod.fst) (examples.map Prod.snd) = (scoresOf true examples, scoresOf false examples) := by
  have hzip : (examples.map Prod.fst).zip (examples.map Prod.snd) = examples :=
    (List.zip_of_prod rfl rfl).symm
  unfold split scoresOf
  rw [hzip]
  simp

/-- One positive against all negatives. -/
theorem row_sum (p : ℚ) (neg : List ℚ) : (neg.map (Midranks.inOrder p)).sum =
    higher (neg.map fun n => (p, n)) + (tied (neg.map fun n => (p, n)) : ℚ) / 2 := by
  induction neg with
  | nil => simp [higher, tied]
  | cons n neg ih =>
    rw [List.map_cons, List.sum_cons, ih, List.map_cons]
    unfold higher tied Midranks.inOrder
    rw [List.countP_cons, List.countP_cons]
    rcases lt_trichotomy n p with h | h | h
    · simp [h, h.ne']
      ring
    · simp [h]
      ring
    · simp [h.not_gt, h.ne, h.ne']

theorem pairSum_eq (pos neg : List ℚ) :
    Midranks.pairSum pos neg = higher (pos ×ˢ neg) + (tied (pos ×ˢ neg) : ℚ) / 2 := by
  induction pos with
  | nil => simp [Midranks.pairSum, higher, tied]
  | cons p pos ih =>
    have hrow := row_sum p neg
    have hcons : Midranks.pairSum (p :: pos) neg = (neg.map (Midranks.inOrder p)).sum + Midranks.pairSum pos neg := rfl
    rw [hcons, ih, hrow, List.product_cons]
    unfold higher tied
    rw [List.countP_append, List.countP_append]
    push_cast
    ring

theorem scoresOf_ne_nil {label : Bool} {examples : List (ℚ × Bool)} (h : ∃ a ∈ examples, a.2 = label) :
    scoresOf label examples ≠ [] := by
  obtain ⟨a, ha, rfl⟩ := h
  have hmem : a.1 ∈ scoresOf a.2 examples := List.mem_map_of_mem (List.mem_filter.mpr ⟨ha, by simp⟩)
  exact List.ne_nil_of_mem hmem

/-- The rank sums of the code and the pairs they stand for. -/
theorem auroc_pairwise (examples : List (ℚ × Bool)) (hpos : ∃ a ∈ examples, a.2 = true)
    (hneg : ∃ a ∈ examples, a.2 = false) :
    auroc (examples.map Prod.fst) (examples.map Prod.snd) =
      some ((higher (classPairs examples) + (tied (classPairs examples) : ℚ) / 2) / (classPairs examples).length) := by
  have hlength : (examples.map Prod.fst).length = (examples.map Prod.snd).length := by simp
  have hp : countTrue (examples.map Prod.snd) ≠ 0 := by
    rw [← split_fst_length hlength, split_examples]
    exact fun h => scoresOf_ne_nil hpos (List.length_eq_zero_iff.mp h)
  have hn : (examples.map Prod.snd).length - countTrue (examples.map Prod.snd) ≠ 0 := by
    rw [← split_snd_length hlength, split_examples]
    exact fun h => scoresOf_ne_nil hneg (List.length_eq_zero_iff.mp h)
  rw [auroc_eq hlength hp hn, pairShare, split_examples, Midranks.auc, pairSum_eq, classPairs, List.length_product]
  push_cast
  rfl

theorem auroc_pairwise_ties :
    auroc ([(1 / 2, true), (1 / 4, false), (1 / 2, false), (1 / 8, true)].map Prod.fst)
        ([((1 / 2 : ℚ), true), (1 / 4, false), (1 / 2, false), (1 / 8, true)].map Prod.snd) =
      some ((higher (classPairs [(1 / 2, true), (1 / 4, false), (1 / 2, false), (1 / 8, true)]) +
        (tied (classPairs [(1 / 2, true), (1 / 4, false), (1 / 2, false), (1 / 8, true)]) : ℚ) / 2) /
          (classPairs [(1 / 2, true), (1 / 4, false), (1 / 2, false), (1 / 8, true)]).length) :=
  auroc_pairwise _ ⟨(1 / 2, true), by simp⟩ ⟨(1 / 4, false), by simp⟩

end LaunchAuditor.Proofs.PairwiseAuroc
