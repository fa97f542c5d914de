import LaunchAuditor.Leaderboard.Statistics
import Mathlib.Algebra.BigOperators.Group.Finset.Basic
import Mathlib.Algebra.BigOperators.Group.Finset.Piecewise
import Mathlib.Algebra.BigOperators.Field
import Mathlib.Algebra.Order.BigOperators.Group.Finset
import Mathlib.Tactic.Positivity

namespace LaunchAuditor.Proofs.AveragePrecision
open Leaderboard

def auprcOf (examples : List (ℚ × Bool)) : Option ℚ := auprc (examples.map Prod.fst) (examples.map Prod.snd)

section Counts
variable (examples : List (ℚ × Bool)) (t : ℚ)

def positives : ℕ := examples.countP fun a => a.2

/-- What a threshold predicts, and what of it is right. -/
def predicted : ℕ := examples.countP fun a => decide (t ≤ a.1)

def truePositives : ℕ := examples.countP fun a => decide (t ≤ a.1) && a.2

/-- What is right already above the threshold. -/
def truePositivesAbove : ℕ := examples.countP fun a => decide (t < a.1) && a.2

def precisionAt : ℚ := truePositives examples t / predicted examples t

def recallGained : ℚ := truePositives examples t / positives examples - truePositivesAbove examples t / positives examples

/-- The right ones at the threshold itself. -/
def positivesAt : ℕ := examples.countP fun a => decide (a.1 = t) && a.2

theorem truePositives_eq : truePositives examples t = truePositivesAbove examples t + positivesAt examples t := by
  induction examples with
  | nil => rfl
  | cons a examples ih =>
    unfold truePositives truePositivesAbove positivesAt at *
    rw [List.countP_cons, List.countP_cons, List.countP_cons, ih]
    rcases lt_trichotomy t a.1 with h | h | h
    · simp [h, h.le, h.ne']
      omega
    · simp [h]
      omega
    · simp [h.not_ge, h.not_gt, h.ne]

theorem recallGained_eq : recallGained examples t = positivesAt examples t / positives examples := by
  rw [recallGained, truePositives_eq, ← sub_div, Nat.cast_add, add_sub_cancel_left]

end Counts

/-- The distinct scores. -/
def thresholds (examples : List (ℚ × Bool)) : Finset ℚ := (examples.map Prod.fst).toFinset

section Groups

/-- A run of equal scores is one step of the curve. -/
theorem averagePrecision_group (totalPos : Nat) {s : ℚ} {group later : List (ℚ × Bool)} (hne : group ≠ [])
    (hgroup : ∀ a ∈ group, a.1 = s) (hlater : ∀ a ∈ later, a.1 < s) (tp fp : Nat) (prevRecall ap : ℚ) :
    averagePrecision totalPos tp fp prevRecall ap (group ++ later) =
      averagePrecision totalPos (tp + positives group) (fp + (group.length - positives group))
        ((tp + positives group : ℕ) / totalPos)
        (ap + ((tp + positives group : ℕ) / totalPos - prevRecall) *
          ((tp + positives group : ℕ) / ((tp + positives group + (fp + (group.length - positives group)) : ℕ) : ℚ))) later := by
  induction group generalizing tp fp with
  | nil => exact absurd rfl hne
  | cons a group ih =>
    obtain ⟨ha, hgroup⟩ := List.forall_mem_cons.mp hgroup
    have hle : positives group ≤ group.length := List.countP_le_length
    have htp : (if a.2 then tp + 1 else tp) + positives group = tp + positives (a :: group) := by
      unfold positives
      rw [List.countP_cons]
      split <;> omega
    have hfp : (if a.2 then fp else fp + 1) + (group.length - positives group) =
        fp + ((a :: group).length - positives (a :: group)) := by
      unfold positives at *
      rw [List.countP_cons, List.length_cons]
      split <;> omega
    rw [List.cons_append, averagePrecision]
    dsimp only
    cases group with
    | nil =>
      have hstep : ((([] : List (ℚ × Bool)) ++ later).head?.any fun b => decide (b.1 = a.1)) = false := by
        cases later with
        | nil => rfl
        | cons b later =>
          have hb := hlater b List.mem_cons_self
          simp [ha, hb.ne]
      rw [hstep, if_neg Bool.false_ne_true, ← htp, ← hfp]
      simp [positives]
    | cons b group =>
      have hb : b.1 = s := hgroup b List.mem_cons_self
      have hstep : ((b :: group ++ later).head?.any fun b => decide (b.1 = a.1)) = true := by simp [ha, hb]
      rw [hstep, if_pos rfl, ih (List.cons_ne_nil b group) hgroup, htp, hfp]

/-- The first run of a list sorted from the highest score. -/
theorem first_group {a : ℚ × Bool} {rest : List (ℚ × Bool)} (h : (a :: rest).Pairwise fun a b => b.1 ≤ a.1) :
    ∃ group later, a :: rest = group ++ later ∧ group ≠ [] ∧ (∀ b ∈ group, b.1 = a.1) ∧ ∀ b ∈ later, b.1 < a.1 := by
  induction rest with
  | nil => exact ⟨[a], [], rfl, List.cons_ne_nil _ _, by simp, by simp⟩
  | cons c rest ih =>
    obtain ⟨hle, hsorted⟩ := List.pairwise_cons.mp h
    by_cases hc : c.1 = a.1
    · have hskip : (a :: rest).Pairwise fun a b => b.1 ≤ a.1 :=
        List.pairwise_cons.mpr ⟨fun b hb => hle b (List.mem_cons_of_mem c hb), (List.pairwise_cons.mp hsorted).2⟩
      obtain ⟨group, later, hsplit, hne, hgroup, hlater⟩ := ih hskip
      obtain ⟨b, group, rfl⟩ := List.exists_cons_of_ne_nil hne
      obtain ⟨rfl, hrest⟩ := List.cons.inj hsplit
      refine ⟨a :: c :: group, later, by rw [hrest]; rfl, List.cons_ne_nil _ _, ?_, hlater⟩
      intro b hb
      rcases List.mem_cons.mp hb with rfl | hb
      · rfl
      · rcases List.mem_cons.mp hb with rfl | hb
        · exact hc
        · exact hgroup b (List.mem_cons_of_mem a hb)
    · have hlt : c.1 < a.1 := lt_of_le_of_ne (hle c List.mem_cons_self) hc
      refine ⟨[a], c :: rest, rfl, List.cons_ne_nil _ _, by simp, ?_⟩
      intro b hb
      rcases List.mem_cons.mp hb with rfl | hb
      · exact hlt
      · exact ((List.pairwise_cons.mp hsorted).1 b hb).trans_lt hlt

section Counted
variable {s : ℚ} {group later : List (ℚ × Bool)}

theorem counts_group (hgroup : ∀ a ∈ group, a.1 = s) (hlater : ∀ a ∈ later, a.1 < s) :
    positivesAt (group ++ later) s = positives group ∧ truePositives (group ++ later) s = positives group ∧
      predicted (group ++ later) s = group.length := by
  unfold positivesAt truePositives predicted positives
  rw [List.countP_append, List.countP_append, List.countP_append]
  have hat : later.countP (fun a => decide (a.1 = s) && a.2) = 0 := by
    apply List.countP_eq_zero.mpr
    intro a ha
    simp [(hlater a ha).ne]
  have hright : later.countP (fun a => decide (s ≤ a.1) && a.2) = 0 := by
    apply List.countP_eq_zero.mpr
    intro a ha
    simp [(hlater a ha).not_ge]
  have hall : later.countP (fun a => decide (s ≤ a.1)) = 0 := by
    apply List.countP_eq_zero.mpr
    intro a ha
    simp [(hlater a ha).not_ge]
  rw [hat, hright, hall]
  refine ⟨?_, ?_, ?_⟩
  · rw [Nat.add_zero]
    exact List.countP_congr fun a ha => by simp [hgroup a ha]
  · rw [Nat.add_zero]
    exact List.countP_congr fun a ha => by simp [hgroup a ha]
  · rw [Nat.add_zero, List.countP_eq_length]
    intro a ha
    simp [hgroup a ha]

theorem counts_later {t : ℚ} (ht : t < s) (hgroup : ∀ a ∈ group, a.1 = s) :
    positivesAt (group ++ later) t = positivesAt later t ∧
      truePositives (group ++ later) t = positives group + truePositives later t ∧
      predicted (group ++ later) t = group.length + predicted later t := by
  unfold positivesAt truePositives predicted positives
  rw [List.countP_append, List.countP_append, List.countP_append]
  have hat : group.countP (fun a => decide (a.1 = t) && a.2) = 0 := by
    apply List.countP_eq_zero.mpr
    intro a ha
    simp [hgroup a ha, ht.ne']
  have hright : group.countP (fun a => decide (t ≤ a.1) && a.2) = group.countP fun a => a.2 :=
    List.countP_congr fun a ha => by simp [hgroup a ha, ht.le]
  have hall : group.countP (fun a => decide (t ≤ a.1)) = group.length := by
    apply List.countP_eq_length.mpr
    intro a ha
    simp [hgroup a ha, ht.le]
  rw [hat, hright, hall]
  exact ⟨Nat.zero_add _, rfl, rfl⟩

theorem thresholds_group (hne : group ≠ []) (hgroup : ∀ a ∈ group, a.1 = s) (hlater : ∀ a ∈ later, a.1 < s) :
    thresholds (group ++ later) = insert s (thresholds later) ∧ s ∉ thresholds later := by
  constructor
  · ext t
    simp only [thresholds, List.mem_toFinset, Finset.mem_insert, List.map_append, List.mem_append]
    constructor
    · rintro (ht | ht)
      · obtain ⟨b, hb, rfl⟩ := List.mem_map.mp ht
        exact Or.inl (hgroup b hb)
      · exact Or.inr ht
    · rintro (rfl | ht)
      · obtain ⟨b, hb⟩ := List.exists_mem_of_ne_nil group hne
        exact Or.inl (List.mem_map.mpr ⟨b, hb, hgroup b hb⟩)
      · exact Or.inr ht
  · intro hmem
    obtain ⟨b, hb, he⟩ := List.mem_map.mp (List.mem_toFinset.mp hmem)
    exact absurd he (hlater b hb).ne

end Counted

/-- The loop from a place where `tp` right and `fp` wrong ones have been taken: one step a threshold. -/
theorem averagePrecision_eq (totalPos : Nat) {l : List (ℚ × Bool)} (h : l.Pairwise fun a b => b.1 ≤ a.1) (tp fp : Nat)
    (ap : ℚ) : averagePrecision totalPos tp fp (tp / totalPos) ap l = ap + ∑ t ∈ thresholds l,
      (positivesAt l t : ℚ) / totalPos * ((tp + truePositives l t : ℕ) / ((tp + fp + predicted l t : ℕ) : ℚ)) := by
  induction hn : l.length using Nat.strong_induction_on generalizing l tp fp ap with
  | _ n ih =>
    cases l with
    | nil => simp [averagePrecision, thresholds]
    | cons a rest =>
      obtain ⟨group, later, hsplit, hne, hgroup, hlater⟩ := first_group h
      rw [hsplit] at h hn ⊢
      have hshort : later.length < n := by
        have hpos := List.length_pos_of_ne_nil hne
        rw [List.length_append] at hn
        omega
      have hle : positives group ≤ group.length := List.countP_le_length
      rw [averagePrecision_group totalPos hne hgroup hlater, ih later.length hshort (List.pairwise_append.mp h).2.1 _ _ _ rfl]
      obtain ⟨hthresholds, hnew⟩ := thresholds_group hne hgroup hlater
      have hrest : ∀ t ∈ thresholds later, (positivesAt (group ++ later) t : ℚ) / totalPos *
          ((tp + truePositives (group ++ later) t : ℕ) / ((tp + fp + predicted (group ++ later) t : ℕ) : ℚ)) =
          (positivesAt later t : ℚ) / totalPos * ((tp + positives group + truePositives later t : ℕ) /
            ((tp + positives group + (fp + (group.length - positives group)) + predicted later t : ℕ) : ℚ)) := by
        intro t ht
        obtain ⟨b, hb, rfl⟩ := List.mem_map.mp (List.mem_toFinset.mp ht)
        obtain ⟨hat, hright, hall⟩ := @counts_later a.1 group later b.1 (hlater b hb) hgroup
        have hsize : tp + fp + (group.length + predicted later b.1) =
            tp + positives group + (fp + (group.length - positives group)) + predicted later b.1 := by omega
        rw [hat, hright, hall, hsize, ← Nat.add_assoc tp]
      obtain ⟨hat, hright, hall⟩ := counts_group hgroup hlater
      have hsize : tp + fp + group.length = tp + positives group + (fp + (group.length - positives group)) := by omega
      have hgain : ((tp + positives group : ℕ) : ℚ) / totalPos - tp / totalPos = positives group / totalPos := by
        rw [← sub_div, Nat.cast_add, add_sub_cancel_left]
      rw [hthresholds, Finset.sum_insert hnew, Finset.sum_congr rfl hrest, hat, hright, hall, hsize, hgain]
      exact add_assoc _ _ _

end Groups

/-- The sum over the thresholds, in no order. -/
def thresholdSum (examples : List (ℚ × Bool)) : ℚ :=
  ∑ t ∈ thresholds examples, recallGained examples t * precisionAt examples t

section Sums
variable {examples : List (ℚ × Bool)}

theorem thresholdSum_perm {others : List (ℚ × Bool)} (h : others.Perm examples) :
    thresholdSum others = thresholdSum examples := by
  have hthresholds : thresholds others = thresholds examples := by
    ext t
    simp only [thresholds, List.mem_toFinset]
    exact (h.map Prod.fst).mem_iff
  unfold thresholdSum recallGained precisionAt truePositives truePositivesAbove predicted positives
  rw [hthresholds]
  simp only [h.countP_eq]

/-- The thresholds of scores under an increasing map are those of the scores. -/
theorem thresholdSum_map {f : ℚ → ℚ} (hf : StrictMonoOn f (thresholds examples)) :
    thresholdSum (examples.map fun a => (f a.1, a.2)) = thresholdSum examples := by
  have himage : thresholds (examples.map fun a => (f a.1, a.2)) = (thresholds examples).image f := by
    ext t
    simp only [thresholds, List.mem_toFinset, Finset.mem_image, List.map_map, List.mem_map, Function.comp_apply]
    constructor
    · rintro ⟨a, ha, rfl⟩
      exact ⟨a.1, ⟨a, ha, rfl⟩, rfl⟩
    · rintro ⟨_, ⟨a, ha, rfl⟩, rfl⟩
      exact ⟨a, ha, rfl⟩
  unfold thresholdSum
  rw [himage, Finset.sum_image hf.injOn]
  apply Finset.sum_congr rfl
  intro t ht
  have hscore : ∀ a ∈ examples, a.1 ∈ (thresholds examples : Set ℚ) :=
    fun a ha => List.mem_toFinset.mpr (List.mem_map_of_mem ha)
  have hle : ∀ a ∈ examples, f t ≤ f a.1 ↔ t ≤ a.1 := fun a ha => hf.le_iff_le ht (hscore a ha)
  have hlt : ∀ a ∈ examples, f t < f a.1 ↔ t < a.1 := fun a ha => hf.lt_iff_lt ht (hscore a ha)
  unfold recallGained precisionAt truePositives truePositivesAbove predicted positives
  simp only [List.countP_map]
  have hright : examples.countP ((fun a => decide (f t ≤ a.1) && a.2) ∘ fun a => (f a.1, a.2)) =
      examples.countP fun a => decide (t ≤ a.1) && a.2 :=
    List.countP_congr fun a ha => by simp [hle a ha]
  have habove : examples.countP ((fun a => decide (f t < a.1) && a.2) ∘ fun a => (f a.1, a.2)) =
      examples.countP fun a => decide (t < a.1) && a.2 :=
    List.countP_congr fun a ha => by simp [hlt a ha]
  have hall : examples.countP ((fun a => decide (f t ≤ a.1)) ∘ fun a => (f a.1, a.2)) =
      examples.countP fun a => decide (t ≤ a.1) :=
    List.countP_congr fun a ha => by simp [hle a ha]
  rw [hright, habove, hall]
  rfl

/-- Thresholds enough gain all positives together. -/
theorem sum_positivesAt {ts : Finset ℚ} (h : ∀ a ∈ examples, a.1 ∈ ts) :
    ∑ t ∈ ts, positivesAt examples t = positives examples := by
  induction examples with
  | nil => exact Finset.sum_const_zero
  | cons a examples ih =>
    obtain ⟨ha, hrest⟩ := List.forall_mem_cons.mp h
    have hone : ∑ t ∈ ts, (if (decide (a.1 = t) && a.2) = true then 1 else 0) = if a.2 = true then 1 else 0 := by
      cases a.2 with
      | true => simp [Finset.sum_ite_eq, ha]
      | false => simp
    have hcons : ∀ t, positivesAt (a :: examples) t =
        positivesAt examples t + if (decide (a.1 = t) && a.2) = true then 1 else 0 := fun t => List.countP_cons
    simp only [hcons]
    rw [Finset.sum_add_distrib, ih hrest, hone]
    exact List.countP_cons.symm

theorem precisionAt_bounds (t : ℚ) : 0 ≤ precisionAt examples t ∧ precisionAt examples t ≤ 1 := by
  have hle : truePositives examples t ≤ predicted examples t :=
    List.countP_mono_left fun a _ h => (Bool.and_eq_true_iff.mp h).1
  constructor
  · exact div_nonneg (Nat.cast_nonneg _) (Nat.cast_nonneg _)
  · exact div_le_one_of_le₀ (Nat.cast_le.mpr hle) (Nat.cast_nonneg _)

theorem thresholdSum_bounds (hpos : ∃ a ∈ examples, a.2 = true) : 0 < thresholdSum examples ∧ thresholdSum examples ≤ 1 := by
  obtain ⟨a, ha, hlabel⟩ := hpos
  have hall : 0 < positives examples := List.countP_pos_iff.mpr ⟨a, ha, hlabel⟩
  have hall' : (0 : ℚ) < positives examples := Nat.cast_pos.mpr hall
  have hgain : ∀ t, 0 ≤ recallGained examples t := by
    intro t
    rw [recallGained_eq]
    exact div_nonneg (Nat.cast_nonneg _) hall'.le
  constructor
  · apply Finset.sum_pos'
    · exact fun t _ => mul_nonneg (hgain t) (precisionAt_bounds t).1
    · refine ⟨a.1, List.mem_toFinset.mpr (List.mem_map_of_mem ha), mul_pos ?_ ?_⟩
      · have hat : 0 < positivesAt examples a.1 := List.countP_pos_iff.mpr ⟨a, ha, by simp [hlabel]⟩
        rw [recallGained_eq]
        exact div_pos (Nat.cast_pos.mpr hat) hall'
      · have hright : 0 < truePositives examples a.1 := List.countP_pos_iff.mpr ⟨a, ha, by simp [hlabel]⟩
        have hpredicted : 0 < predicted examples a.1 := List.countP_pos_iff.mpr ⟨a, ha, by simp⟩
        exact div_pos (Nat.cast_pos.mpr hright) (Nat.cast_pos.mpr hpredicted)
  · have hscores : ∀ a ∈ examples, a.1 ∈ thresholds examples := fun a ha => List.mem_toFinset.mpr (List.mem_map_of_mem ha)
    calc thresholdSum examples
        ≤ ∑ t ∈ thresholds examples, recallGained examples t :=
          Finset.sum_le_sum fun t _ => mul_le_of_le_one_right (hgain t) (precisionAt_bounds t).2
      _ = ((∑ t ∈ thresholds examples, positivesAt examples t : ℕ) : ℚ) / positives examples := by
          simp only [recallGained_eq]
          rw [← Finset.sum_div, Nat.cast_sum]
      _ = 1 := by rw [sum_positivesAt hscores, div_self hall'.ne']

end Sums

theorem auprcOf_eq (examples : List (ℚ × Bool)) (hpos : ∃ a ∈ examples, a.2 = true) :
    auprcOf examples = some (thresholdSum examples) := by
  obtain ⟨a, ha, hlabel⟩ := hpos
  have htotal : countTrue (examples.map Prod.snd) = positives examples := List.countP_map
  have hne : positives examples ≠ 0 := (List.countP_pos_iff.mpr ⟨a, ha, hlabel⟩).ne'
  have hzip : (examples.map Prod.fst).zip (examples.map Prod.snd) = examples := (List.zip_of_prod rfl rfl).symm
  have hmatched : mismatched (examples.map Prod.fst) (examples.map Prod.snd) = false := by
    have hsome : examples.length ≠ 0 := (List.length_pos_of_mem ha).ne'
    simp [mismatched, hsome]
  have htotalOrder : Std.Total fun a b : ℚ × Bool => b.1 ≤ a.1 := ⟨fun a b => le_total b.1 a.1⟩
  have htrans : IsTrans (ℚ × Bool) fun a b => b.1 ≤ a.1 := ⟨fun _ _ _ hab hbc => le_trans hbc hab⟩
  have hsorted := List.pairwise_insertionSort (fun a b : ℚ × Bool => b.1 ≤ a.1) examples
  have hperm := List.perm_insertionSort (fun a b : ℚ × Bool => b.1 ≤ a.1) examples
  unfold auprcOf auprc
  rw [hmatched, if_neg Bool.false_ne_true, htotal, hzip]
  dsimp only
  rw [if_neg hne, ← thresholdSum_perm hperm]
  have hloop := averagePrecision_eq (positives examples) hsorted 0 0 0
  rw [Nat.cast_zero, zero_div] at hloop
  rw [hloop, thresholdSum, zero_add]
  congr 1
  apply Finset.sum_congr rfl
  intro t _
  have hpositives : positives (examples.insertionSort fun a b => b.1 ≤ a.1) = positives examples := hperm.countP_eq _
  rw [recallGained_eq, hpositives, precisionAt, Nat.zero_add, Nat.zero_add]

/-- The figure is the sum over the thresholds, a share that neither the order of the examples nor the scale of their
scores changes. -/
theorem auprc_thresholds (examples : List (ℚ × Bool)) (hpos : ∃ a ∈ examples, a.2 = true) :
    auprcOf examples = some (thresholdSum examples) ∧ 0 < thresholdSum examples ∧ thresholdSum examples ≤ 1 ∧
      (∀ others, others.Perm examples → auprcOf others = auprcOf examples) ∧
      ∀ f : ℚ → ℚ, StrictMonoOn f (thresholds examples) →
        auprcOf (examples.map fun a => (f a.1, a.2)) = auprcOf examples := by
  have heq := auprcOf_eq examples hpos
  obtain ⟨hlow, hhigh⟩ := thresholdSum_bounds hpos
  obtain ⟨a, ha, hlabel⟩ := hpos
  refine ⟨heq, hlow, hhigh, ?_, ?_⟩
  · intro others hperm
    rw [auprcOf_eq others ⟨a, hperm.mem_iff.mpr ha, hlabel⟩, thresholdSum_perm hperm, heq]
  · intro f hf
    rw [auprcOf_eq _ ⟨(f a.1, a.2), List.mem_map_of_mem (f := fun a => (f a.1, a.2)) ha, hlabel⟩, thresholdSum_map hf, heq]

/-- Two runs of ties; the third is a false one alone. -/
def tiedExamples : List (ℚ × Bool) := [(1 / 2, true), (3 / 4, false), (1 / 2, false), (3 / 4, true), (1 / 8, false)]

theorem auprc_thresholds_ties : auprcOf tiedExamples = some (thresholdSum tiedExamples) ∧ 0 < thresholdSum tiedExamples ∧
    thresholdSum tiedExamples ≤ 1 ∧ (∀ others, others.Perm tiedExamples → auprcOf others = auprcOf tiedExamples) ∧
    ∀ f : ℚ → ℚ, StrictMonoOn f (thresholds tiedExamples) →
      auprcOf (tiedExamples.map fun a => (f a.1, a.2)) = auprcOf tiedExamples :=
  auprc_thresholds tiedExamples ⟨(1 / 2, true), List.mem_cons_self, rfl⟩

end LaunchAuditor.Proofs.AveragePrecision
