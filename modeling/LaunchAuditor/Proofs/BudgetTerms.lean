import LaunchAuditor.Proofs.Panel

namespace LaunchAuditor.Proofs.BudgetTerms
open Db Panel

/-- Less than half a cent is left over, so that rounding cuts it off. -/
def CutsDown (x : ℚ) : Prop := Int.fract (x * 100) < 1 / 2

theorem round2_le_iff (x : ℚ) : round2 x ≤ x ↔ CutsDown x := by
  have hcents : round2 x ≤ x ↔ (⌊x * 100 + 1 / 2⌋ : ℚ) ≤ x * 100 := by
    rw [round2, Js.roundTo, Js.mathRound, Nat.cast_ofNat, div_le_iff₀ (by norm_num)]
  have hsplit := Int.floor_add_fract (x * 100)
  have hfloor := Int.floor_le (x * 100)
  rw [hcents, CutsDown]
  constructor
  · intro h
    by_contra hhalf
    have hup : ⌊x * 100⌋ + 1 ≤ ⌊x * 100 + 1 / 2⌋ := by
      apply Int.le_floor.mpr
      push_cast
      linarith
    have hcast : ((⌊x * 100⌋ : ℤ) : ℚ) + 1 ≤ ⌊x * 100 + 1 / 2⌋ := by exact_mod_cast hup
    have hlt := Int.lt_floor_add_one (x * 100)
    linarith
  · intro h
    have hdown : ⌊x * 100 + 1 / 2⌋ < ⌊x * 100⌋ + 1 := by
      apply Int.floor_lt.mpr
      push_cast
      linarith
    have hcast : (⌊x * 100 + 1 / 2⌋ : ℚ) ≤ ⌊x * 100⌋ := by exact_mod_cast Int.lt_add_one_iff.mp hdown
    linarith

theorem round2_mono : Monotone round2 := fun _ _ h => Js.roundTo_mono 100 h

/-- A number of cents stays. -/
theorem round2_round2 (x : ℚ) : round2 (round2 x) = round2 x := by
  have hhalf : ⌊((⌊x * 100 + 1 / 2⌋ : ℤ) : ℚ) + 1 / 2⌋ = ⌊x * 100 + 1 / 2⌋ := by
    rw [Int.floor_intCast_add]
    norm_num
  simp only [round2, Js.roundTo, Js.mathRound, Nat.cast_ofNat]
  rw [div_mul_cancel₀ _ (by norm_num : (100 : ℚ) ≠ 0), hhalf]

theorem round2_clamp (x : ℚ) : round2 (max 0 x) = max 0 (round2 x) := by
  rw [round2_mono.map_max, round2_zero]

/-- The least of the cap of a run, what the day has left and the spendable balance. -/
def leastTerm (i : DeepdiveRunGateInputs) : ℚ :=
  min (min i.capPerRunUsd (i.dailyCapUsd - i.spentTodayUsd)) i.spendableUsd

/-- The two roundings are one, of the least term. -/
theorem maxRunCostUsd_eq (i : DeepdiveRunGateInputs) : i.maxRunCostUsd = max 0 (round2 (leastTerm i)) := by
  have hrounded : i.maxRunCostUsd =
      max 0 (min (min (round2 i.capPerRunUsd) (max 0 (round2 (i.dailyCapUsd - i.spentTodayUsd)))) (round2 i.spendableUsd)) := by
    rw [DeepdiveRunGateInputs.maxRunCostUsd, DeepdiveRunGateInputs.remainingTodayUsd, round2_clamp, round2_mono.map_min,
      round2_mono.map_min, round2_round2, round2_clamp]
  rw [hrounded, leastTerm, round2_mono.map_min, round2_mono.map_min]
  rcases le_total 0 (round2 (i.dailyCapUsd - i.spentTodayUsd)) with h | h
  · rw [max_eq_right h]
  · rw [max_eq_left h, max_eq_left, max_eq_left]
    · exact (min_le_left _ _).trans ((min_le_right _ _).trans h)
    · exact (min_le_left _ _).trans (min_le_right _ _)

/-- The amount of a run that is allowed is at most each of the terms. -/
def GateWithin (i : DeepdiveRunGateInputs) : Prop :=
  (deepdiveRunGate i).allowed = true →
    (deepdiveRunGate i).maxRunCostUsd ≤ i.capPerRunUsd ∧
      (deepdiveRunGate i).maxRunCostUsd ≤ i.dailyCapUsd - max i.todaySpendUsd (i.providerSpendTodayUsd.getD 0) ∧
      (deepdiveRunGate i).maxRunCostUsd ≤ i.spendableUsd

theorem allowed_iff (i : DeepdiveRunGateInputs) :
    (deepdiveRunGate i).allowed = true ↔ ¬ i.blocking.isSome ∧ 0 < round2 (leastTerm i) := by
  rw [gate_allows, decide_eq_true_eq, gate_amount, maxRunCostUsd_eq]
  split
  · rename_i hblock
    simp [hblock]
  · rename_i hblock
    simp [hblock]

theorem gateWithin_iff (i : DeepdiveRunGateInputs) :
    GateWithin i ↔ i.blocking.isSome ∨ leastTerm i ≤ 0 ∨ CutsDown (leastTerm i) := by
  have hbound : (deepdiveRunGate i).allowed = true →
      ((deepdiveRunGate i).maxRunCostUsd ≤ i.capPerRunUsd ∧
        (deepdiveRunGate i).maxRunCostUsd ≤ i.dailyCapUsd - i.spentTodayUsd ∧
        (deepdiveRunGate i).maxRunCostUsd ≤ i.spendableUsd ↔ round2 (leastTerm i) ≤ leastTerm i) := by
    intro hallowed
    obtain ⟨hblock, hpos⟩ := (allowed_iff i).mp hallowed
    rw [gate_amount, if_neg hblock, maxRunCostUsd_eq, max_eq_right hpos.le, leastTerm, le_min_iff, le_min_iff, and_assoc]
  have hsame : GateWithin i ↔ ((deepdiveRunGate i).allowed = true → round2 (leastTerm i) ≤ leastTerm i) :=
    forall_congr' hbound
  rw [hsame, allowed_iff]
  constructor
  · intro h
    by_cases hblock : i.blocking.isSome = true
    · exact Or.inl hblock
    · right
      by_cases hpos : 0 < round2 (leastTerm i)
      · exact Or.inr ((round2_le_iff _).mp (h ⟨hblock, hpos⟩))
      · by_cases hleast : leastTerm i ≤ 0
        · exact Or.inl hleast
        · exact Or.inr ((round2_le_iff _).mp ((not_lt.mp hpos).trans (not_le.mp hleast).le))
  · rintro (hblock | hleast | hcuts) ⟨hfree, hpos⟩
    · exact absurd hblock hfree
    · have hzero := round2_mono hleast
      rw [round2_zero] at hzero
      exact absurd hpos (not_lt.mpr hzero)
    · exact (round2_le_iff _).mpr hcuts

/-- The budget is at most the cap, half the credits and what the reserve leaves, none below zero. -/
def BudgetWithin (i : BudgetInputs) : Prop :=
  (dailyDeepdiveBudget i).budgetUsd ≤ max 0 i.dailyCapUsd ∧
    (dailyDeepdiveBudget i).budgetUsd ≤ max 0 (i.trailingCreditsUsd / 2) ∧
    (dailyDeepdiveBudget i).budgetUsd ≤ max 0 (i.keyRemainingUsd - i.reserveUsd)

/-- The least of the three. -/
def leastShare (i : BudgetInputs) : ℚ :=
  min (max 0 i.dailyCapUsd) (min (max 0 (i.trailingCreditsUsd / 2)) (max 0 (i.keyRemainingUsd - i.reserveUsd)))

theorem budgetUsd_eq (i : BudgetInputs) : (dailyDeepdiveBudget i).budgetUsd = round2 (leastShare i) := by
  have hbinding : ∀ (a b c : ℚ), 0 ≤ a → 0 ≤ b → 0 ≤ c →
      max 0 ([(BindingConstraint.creditShare, b), (BindingConstraint.keyReserve, c)].foldl
        (fun binding d => if d.2 < binding.2 then d else binding) (BindingConstraint.dailyCap, a)).2 = min a (min b c) := by
    intro a b c ha hb hc
    rw [max_eq_right, List.foldl_cons, List.foldl_cons, List.foldl_nil]
    · by_cases hba : b < a
      · by_cases hcb : c < b
        · simp [hba, hcb, min_eq_right hcb.le, min_eq_right (hcb.trans hba).le]
        · simp [hba, hcb, min_eq_left (not_lt.mp hcb), min_eq_right hba.le]
      · by_cases hca : c < a
        · simp [hba, hca, min_eq_right (hca.le.trans (not_lt.mp hba)), min_eq_right hca.le]
        · simp [hba, hca, not_lt.mp hba, not_lt.mp hca]
    · simp only [List.foldl_cons, List.foldl_nil]
      split_ifs <;> assumption
  exact congrArg round2 (hbinding _ _ _ (le_max_left _ _) (le_max_left _ _) (le_max_left _ _))

theorem budgetWithin_iff (i : BudgetInputs) : BudgetWithin i ↔ CutsDown (leastShare i) := by
  rw [← round2_le_iff, BudgetWithin, budgetUsd_eq]
  conv_rhs => rw [leastShare, le_min_iff, le_min_iff]
  rfl

/-- Both keep to their terms exactly where the least of these has no half cent to round up. -/
theorem budgets_within_iff (i : DeepdiveRunGateInputs) (j : BudgetInputs) :
    (GateWithin i ↔ i.blocking.isSome ∨ leastTerm i ≤ 0 ∨ CutsDown (leastTerm i)) ∧
      (BudgetWithin j ↔ CutsDown (leastShare j)) :=
  ⟨gateWithin_iff i, budgetWithin_iff j⟩

/-- A cap of 5.6 cents allows 6, and 11 cents of credits make a budget of 6. -/
theorem rounded_over_cap :
    ¬ GateWithin ⟨56 / 1000, 1, 0, none, 1, none⟩ ∧ ¬ BudgetWithin ⟨1, 11 / 100, 1, 0⟩ := by
  constructor
  · intro h
    have hover := (h (by decide +kernel)).1
    revert hover
    decide +kernel
  · intro h
    have hover := h.2.1
    revert hover
    decide +kernel

end LaunchAuditor.Proofs.BudgetTerms
