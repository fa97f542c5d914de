import LaunchAuditor.Deepdive.OpenRouter
import LaunchAuditor.Proofs.Spend

namespace LaunchAuditor.Proofs.ReportedCosts
open Db Metabolism Deepdive Scoring.Mappings

theorem lookupAll_ok {lookup : String → Except String ℚ} {id : String} {cost : ℚ} (h : lookup id = .ok cost)
    (ids : List String) :
    lookupAll lookup (ids ++ [id]) = { lookupAll lookup ids with sum := (lookupAll lookup ids).sum + cost } := by
  unfold lookupAll
  rw [List.foldl_concat, h]

theorem lookupAll_error {lookup : String → Except String ℚ} {id msg : String} (h : lookup id = .error msg)
    (ids : List String) :
    lookupAll lookup (ids ++ [id]) = { lookupAll lookup ids with
      failed := (lookupAll lookup ids).failed ++ [id]
      failureReason := (lookupAll lookup ids).failureReason <|> some msg } := by
  unfold lookupAll
  rw [List.foldl_concat, h]

/-- What the lookups that did not throw have brought. -/
theorem lookupAll_sum (lookup : String → Except String ℚ) (ids : List String) :
    (lookupAll lookup ids).sum = (ids.map fun id => (lookup id).toOption.getD 0).sum := by
  induction ids using List.reverseRecOn with
  | nil => rfl
  | append_singleton ids id ih =>
    rw [List.map_append, List.sum_append, ← ih, List.map_singleton, List.sum_singleton]
    cases hid : lookup id with
    | ok cost => rw [lookupAll_ok hid]; rfl
    | error msg => rw [lookupAll_error hid]; exact (add_zero _).symm

/-- No lookup is counted as failed exactly if none threw. -/
theorem lookupAll_failed (lookup : String → Except String ℚ) (ids : List String) :
    (lookupAll lookup ids).failed = [] ↔ ∀ id ∈ ids, (lookup id).toOption.isSome = true := by
  induction ids using List.reverseRecOn with
  | nil => exact iff_of_true rfl (List.forall_mem_nil _)
  | append_singleton ids id ih =>
    rw [List.forall_mem_append, List.forall_mem_singleton, ← ih]
    cases hid : lookup id with
    | ok cost => simp [lookupAll_ok hid, Except.toOption]
    | error msg => simp [lookupAll_error hid, Except.toOption]

/-- The cost that stands in an answer, if one does. -/
def reportedCost : Fetched → Option ℚ
  | .answered status (.ok body) =>
    if statusOk status then
      (envelope body).bind fun d => finiteNumber (prop "total_cost" d) <|> finiteNumber (prop "usage" d)
    else none
  | _ => none

/-- A lookup that throws: no answer, an error status, no JSON, or JSON that is no object. -/
def lookupFails : Fetched → Bool
  | .threw _ => true
  | .answered status (.ok body) => !statusOk status || (envelope body).isNone
  | .answered _ (.error _) => true

variable (noObject : Json → String) (fetched : String → Fetched)

/-- A missing cost is looked up as 0. -/
theorem lookupGeneration_toOption (id : String) :
    (lookupGeneration noObject fetched id).toOption =
      if lookupFails (fetched id) then none else some ((reportedCost (fetched id)).getD 0) := by
  rw [lookupGeneration]
  cases fetched id with
  | threw msg => rfl
  | answered status body =>
    cases hok : statusOk status with
    | false => cases body <;> simp [generationCost, lookupFails, hok, Except.map, Except.toOption]
    | true =>
      cases body with
      | error msg => simp [generationCost, lookupFails, hok, Except.map, Except.toOption]
      | ok body =>
        cases henv : envelope body with
        | none => simp [generationCost, lookupFails, hok, henv, Except.map, Except.toOption]
        | some d => simp [generationCost, lookupFails, reportedCost, hok, henv, Except.map, Except.toOption]

/-- The label and the figure fit what the provider has reported: a cost by generation is the sum
of as many reported costs, and where one is missing the tokens are priced, if they can be. -/
structure Labelled (u : Usage) (costUsd : ℚ) (costBasis : CostBasis) : Prop where
  generation : costBasis = .providerGeneration →
    ∃ costs : List ℚ, (u.generationIds.map fun id => reportedCost (fetched id)) = costs.map some ∧ costUsd = costs.sum
  lacking : u.usageCostUsd = none → (∃ id ∈ u.generationIds, reportedCost (fetched id) = none) →
    costBasis =
      if (estimateCostUsd u.modelSlug u.promptTokens u.completionTokens).isSome then .tokenEstimate else .unavailable

variable {noObject fetched}

/-- The sum of the generations is taken when each lookup came to a figure, reported or not. -/
theorem generationTotal_eq_some {ids : List String} {total : ℚ} :
    generationTotal (lookupGeneration noObject fetched) ids = some total ↔
      ids ≠ [] ∧ (∀ id ∈ ids, lookupFails (fetched id) = false) ∧
        total = (ids.map fun id => (reportedCost (fetched id)).getD 0).sum := by
  have hfails : (∀ id ∈ ids, ((lookupGeneration noObject fetched id).toOption).isSome = true) ↔
      ∀ id ∈ ids, lookupFails (fetched id) = false := by
    refine forall₂_congr fun id _ => ?_
    rw [lookupGeneration_toOption]
    cases lookupFails (fetched id) with
    | false => simp
    | true => simp
  have hsum (hok : ∀ id ∈ ids, lookupFails (fetched id) = false) :
      (ids.map fun id => (lookupGeneration noObject fetched id).toOption.getD 0) =
        ids.map fun id => (reportedCost (fetched id)).getD 0 := by
    refine List.map_congr_left fun id hid => ?_
    rw [lookupGeneration_toOption, hok id hid]
    rfl
  have htaken : (ids.length > 0 ∧ (lookupAll (lookupGeneration noObject fetched) ids).failed = []) ↔
      ids ≠ [] ∧ ∀ id ∈ ids, lookupFails (fetched id) = false := by
    rw [lookupAll_failed, hfails, gt_iff_lt, List.length_pos_iff]
  unfold generationTotal
  split
  · rename_i h
    obtain ⟨hne, hok⟩ := htaken.mp h
    rw [Option.some.injEq, lookupAll_sum, hsum hok, eq_comm]
    exact ⟨fun htotal => ⟨hne, hok, htotal⟩, fun h => h.2.2⟩
  · rename_i h
    exact iff_of_false (Option.some_ne_none total).symm fun hall => h (htaken.mpr ⟨hall.1, hall.2.1⟩)

/-- Costs that are all there. -/
theorem all_reported {α : Type} {cost : α → Option ℚ} {ids : List α} (h : ∀ id ∈ ids, (cost id).isSome = true) :
    ids.map cost = (ids.map fun id => (cost id).getD 0).map some := by
  rw [List.map_map]
  refine List.map_congr_left fun id hid => ?_
  obtain ⟨c, hc⟩ := Option.isSome_iff_exists.mp (h id hid)
  rw [Function.comp_apply, hc, Option.getD_some]

section Choice
variable {lookup : String → Except String ℚ} {u : Usage}

theorem chooseCost_reported {cost : ℚ} (h : u.usageCostUsd = some cost) :
    chooseCost lookup u = (cost, .providerReported) := by
  simp only [chooseCost, h]

theorem chooseCost_generation {total : ℚ} (hnone : u.usageCostUsd = none)
    (h : generationTotal lookup u.generationIds = some total) : chooseCost lookup u = (total, .providerGeneration) := by
  simp only [chooseCost, hnone, h]

/-- Without a figure of the provider, the tokens decide. -/
theorem chooseCost_basis (hnone : u.usageCostUsd = none) (h : generationTotal lookup u.generationIds = none) :
    (chooseCost lookup u).2 =
      if (estimateCostUsd u.modelSlug u.promptTokens u.completionTokens).isSome then .tokenEstimate else .unavailable := by
  unfold chooseCost
  rw [hnone, h]
  cases estimateCostUsd u.modelSlug u.promptTokens u.completionTokens with
  | none => rfl
  | some estimated => rfl

end Choice

/-- No lookup is made, every cost is there, or some lookup throws. -/
def CostsClear (fetched : String → Fetched) (u : Usage) : Prop :=
  u.usageCostUsd.isSome = true ∨ (∀ id ∈ u.generationIds, (reportedCost (fetched id)).isSome = true) ∨
    ∃ id ∈ u.generationIds, lookupFails (fetched id) = true

theorem labelled_of_total {u : Usage} {total : ℚ} (hnone : u.usageCostUsd = none)
    (h : generationTotal (lookupGeneration noObject fetched) u.generationIds = some total) :
    Labelled fetched u total .providerGeneration ↔ CostsClear fetched u := by
  obtain ⟨-, hok, htotal⟩ := generationTotal_eq_some.mp h
  constructor
  · intro hl
    obtain ⟨costs, hcosts, -⟩ := hl.generation rfl
    refine Or.inr (Or.inl ?_)
    intro id hid
    have hmem : reportedCost (fetched id) ∈ costs.map some := by
      rw [← hcosts]
      exact List.mem_map_of_mem hid
    obtain ⟨c, -, hc⟩ := List.mem_map.mp hmem
    rw [← hc]
    rfl
  · intro hclear
    have hall : ∀ id ∈ u.generationIds, (reportedCost (fetched id)).isSome = true := by
      rcases hclear with husage | hall | ⟨id, hid, hfails⟩
      · rw [hnone] at husage
        cases husage
      · exact hall
      · rw [hok id hid] at hfails
        cases hfails
    constructor
    · intro _
      exact ⟨_, all_reported hall, htotal⟩
    · intro _ hlacking
      obtain ⟨id, hid, hnone⟩ := hlacking
      have := hall id hid
      rw [hnone] at this
      cases this

/-- Without a total, no cost is missing without a lookup that throws. -/
theorem costsClear_of_no_total {u : Usage}
    (h : generationTotal (lookupGeneration noObject fetched) u.generationIds = none) : CostsClear fetched u := by
  refine Or.inr ?_
  by_contra hno
  push Not at hno
  obtain ⟨⟨id, hid, -⟩, hok⟩ := hno
  have htotal : generationTotal (lookupGeneration noObject fetched) u.generationIds = some _ :=
    generationTotal_eq_some.mpr ⟨List.ne_nil_of_mem hid, fun id hid => Bool.eq_false_iff.mpr (hok id hid), rfl⟩
  rw [htotal] at h
  cases h

theorem labelled_choice (noObject : Json → String) (fetched : String → Fetched) (u : Usage) :
    let choice := chooseCost (lookupGeneration noObject fetched) u
    Labelled fetched u choice.1 choice.2 ↔ CostsClear fetched u := by
  intro choice
  cases husage : u.usageCostUsd with
  | some cost =>
    have hchoice : choice = (cost, .providerReported) := chooseCost_reported husage
    rw [hchoice]
    refine iff_of_true ⟨(fun h => nomatch h), fun h => ?_⟩ (Or.inl (by rw [husage]; rfl))
    rw [husage] at h
    cases h
  | none =>
    cases htotal : generationTotal (lookupGeneration noObject fetched) u.generationIds with
    | some total =>
      have hchoice : choice = (total, .providerGeneration) := chooseCost_generation husage htotal
      rw [hchoice]
      exact labelled_of_total husage htotal
    | none =>
      have hbasis := chooseCost_basis husage htotal
      refine iff_of_true ⟨fun h => ?_, fun _ _ => hbasis⟩ (costsClear_of_no_total htotal)
      rw [hbasis] at h
      split at h <;> cases h

/-- The answer of `recordDeepdiveSpend` is that of the entry it hands on. -/
theorem recordDeepdiveSpend_answer (lookup : String → Except String ℚ) (u : Usage) (keyHashPrefix reportId : Option String)
    (newId : String) (now : Int) (ledger : SpendTable) :
    (recordDeepdiveSpend lookup u keyHashPrefix reportId newId now ledger).2.map
        (fun r => (r.totalCostUsd, r.costBasis, r.row)) =
      (recordSpend (spendEntry lookup u keyHashPrefix reportId) newId now ledger).2.map
        fun row => (r6 (chooseCost lookup u).1, (chooseCost lookup u).2, row) := by
  unfold recordDeepdiveSpend
  rcases recordSpend (spendEntry lookup u keyHashPrefix reportId) newId now ledger with ⟨ledger', msg | row⟩
  · rfl
  · rfl

/-- A cost that is missing from an answer is booked as a reported 0, unless another lookup throws. -/
theorem cost_labelled_iff (noObject : Json → String) (fetched : String → Fetched) (u : Usage)
    (keyHashPrefix reportId : Option String) (newId : String) (now : Int) (ledger : SpendTable) :
    let lookup := lookupGeneration noObject fetched
    let entry := spendEntry lookup u keyHashPrefix reportId
    let recorded := recordSpend entry newId now ledger
    let answer := recordDeepdiveSpend lookup u keyHashPrefix reportId newId now ledger
    (Labelled fetched u entry.costUsd entry.costBasis ↔ CostsClear fetched u) ∧
      answer.1 = recorded.1 ∧
      answer.2.map (fun r => (r.totalCostUsd, r.costBasis, r.row)) =
        recorded.2.map fun row => (r6 entry.costUsd, entry.costBasis, row) :=
  ⟨labelled_choice noObject fetched u, Spend.recordDeepdiveSpend_table .., recordDeepdiveSpend_answer ..⟩

/-- An answer that has a cost field, but no number in it. -/
def emptyCost : Fetched := .answered 200 (.ok (.obj [("data", .obj [("total_cost", .null)])]))

def oneTurn : Usage where
  generationIds := ["gen-1"]
  modelSlug := "sakana/fugu-max"
  usageCostUsd := none
  promptTokens := some 50000
  completionTokens := some 5000

theorem emptyCost_answered : lookupFails emptyCost = false ∧ reportedCost emptyCost = none := ⟨rfl, rfl⟩

theorem empty_cost_booked_as_zero :
    let lookup := lookupGeneration (fun _ => "not an object") fun _ => emptyCost
    chooseCost lookup oneTurn = (0, .providerGeneration) ∧
      ¬ Labelled (fun _ => emptyCost) oneTurn (chooseCost lookup oneTurn).1 (chooseCost lookup oneTurn).2 := by
  have hchoice : chooseCost (lookupGeneration (fun _ => "not an object") fun _ => emptyCost) oneTurn =
      (0, .providerGeneration) := by
    refine chooseCost_generation rfl (generationTotal_eq_some.mpr ⟨List.cons_ne_nil _ _, ?_, ?_⟩)
    · intro _ _
      exact emptyCost_answered.1
    · simp [oneTurn, emptyCost_answered.2]
  refine ⟨hchoice, ?_⟩
  rw [hchoice]
  intro h
  obtain ⟨costs, hcosts, -⟩ := h.generation rfl
  have hmem : (none : Option ℚ) ∈ costs.map some := by
    rw [← hcosts]
    exact List.mem_map.mpr ⟨"gen-1", List.mem_singleton_self _, rfl⟩
  obtain ⟨c, -, hc⟩ := List.mem_map.mp hmem
  cases hc

end LaunchAuditor.Proofs.ReportedCosts
