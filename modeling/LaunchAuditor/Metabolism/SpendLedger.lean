import LaunchAuditor.Db.Budget

/-! `apps/worker/src/metabolism/spend-ledger.ts` on the table itself. The store's
separate queries are separate functions, so that a run can interleave them. -/

namespace LaunchAuditor.Metabolism
open Db

abbrev SpendTable := List MetabolismSpend

structure SpendEntry where
  costUsd : ℚ
  model : String
  keyHashPrefix : Option String
  reportId : Option String
  generationId : Option String
  promptTokens : Option ℚ
  completionTokens : Option ℚ
  estimatedCostUsd : Option ℚ
  pricingVersion : Option String
  costBasis : CostBasis

/-- `sum`: the rows from `since` on, of one key when it is given. -/
def totalSpendUsd (since : Option Int) (keyHashPrefix : Option String) (rows : SpendTable) : ℚ :=
  ((rows.filter fun r => (since.all fun t => t ≤ r.atMs) && (keyHashPrefix.all fun k => r.keyHashPrefix == some k)).map
    MetabolismSpend.costUsd).sum

/-- `{ epochId: null, at: { gt: since, lte: until } }` -/
def inWindow (since until' : Int) (r : MetabolismSpend) : Bool :=
  r.epochId.isNone && since < r.atMs && r.atMs ≤ until'

structure WindowEstimate where
  estimatedUsd : ℚ
  count : Nat

def windowEstimate (since until' : Int) (rows : SpendTable) : WindowEstimate :=
  let hit := rows.filter (inWindow since until')
  ⟨(hit.filterMap MetabolismSpend.estimatedCostUsd).sum, hit.length⟩

/-- `updateMany({ where, data: { epochId } })` -/
def stampWindow (since until' : Int) (epochId : String) (rows : SpendTable) : SpendTable :=
  rows.map fun r => if inWindow since until' r then { r with epochId := some epochId } else r

/-- The `findMany` of the rows to scale. -/
def windowIds (since until' : Int) (rows : SpendTable) : List (String × Option ℚ) :=
  (rows.filter (inWindow since until')).map fun r => (r.id, r.estimatedCostUsd)

/-- `update({ where: { id } })` with the reconciled figure, when there is one. -/
def stampRow (id : String) (estimated : Option ℚ) (epochId : String) (factor : ℚ) (rows : SpendTable) : SpendTable :=
  rows.map fun r =>
    if r.id = id then
      match estimated with
      | some e =>
        let reconciled := r6 (e * factor)
        { r with epochId := some epochId, reconciledCostUsd := some reconciled, costUsd := reconciled
                 costBasis := .providerReconciledEstimate }
      | none => { r with epochId := some epochId }
    else r

/-- The `where` of `applyReconciliation`, with no lower end for `since: null`. -/
def inEpoch (since : Option Int) (until' : Int) (r : MetabolismSpend) : Bool :=
  r.epochId.isNone && since.all (fun t => t < r.atMs) && r.atMs ≤ until'

/-- `applyReconciliation` and the number of rows it answers. -/
def applyReconciliation (since : Option Int) (until' : Int) (epochId : String) (factor : Option ℚ)
    (rows : SpendTable) : SpendTable × Nat :=
  let hit := rows.filter (inEpoch since until')
  match factor with
  | none => (rows.map fun r => if inEpoch since until' r then { r with epochId := some epochId } else r, hit.length)
  | some factor =>
    let found := hit.map fun r => (r.id, r.estimatedCostUsd)
    (found.foldl (fun rows row => stampRow row.1 row.2 epochId factor rows) rows, found.length)

/-- What `recordSpend` answers: the row's id and whether it was there already. -/
structure SpendRecorded where
  id : String
  deduped : Bool
  deriving DecidableEq

/-- `newId` and `now` are what the insert generates. -/
def recordSpend (entry : SpendEntry) (newId : String) (now : Int) (rows : SpendTable) :
    SpendTable × Except String SpendRecorded :=
  if entry.costUsd < 0 then
    (rows, .error s!"recordSpend: costUsd must be a finite, non-negative number (got {Js.numberText entry.costUsd})")
  else if entry.model = "" then (rows, .error "recordSpend: model is required")
  else
    let existing := entry.generationId.bind fun g =>
      if g = "" then none else rows.find? fun r => r.generationId == some g
    match existing with
    | some r => (rows, .ok ⟨r.id, true⟩)
    | none =>
      let row : MetabolismSpend :=
        { id := newId, atMs := now, costUsd := entry.costUsd, model := entry.model
          keyHashPrefix := entry.keyHashPrefix, reportId := entry.reportId, generationId := entry.generationId
          promptTokens := entry.promptTokens, completionTokens := entry.completionTokens
          estimatedCostUsd := entry.estimatedCostUsd, pricingVersion := entry.pricingVersion
          costBasis := entry.costBasis, reconciledCostUsd := none, epochId := none }
      (rows ++ [row], .ok ⟨newId, false⟩)

/-- No row of the ledger has this generation id. -/
def NewGeneration (generationId : Option String) (rows : SpendTable) : Prop :=
  ∀ g, generationId = some g → g ≠ "" → ∀ r ∈ rows, r.generationId ≠ some g

/-- One row more, for a valid entry of a new generation; else the table is as it was. -/
theorem recordSpend_cases (entry : SpendEntry) (newId : String) (now : Int) (rows : SpendTable) :
    (0 ≤ entry.costUsd ∧ entry.model ≠ "" ∧ NewGeneration entry.generationId rows ∧
      ∃ row, recordSpend entry newId now rows = (rows ++ [row], .ok ⟨newId, false⟩) ∧
        row.id = newId ∧ row.model = entry.model ∧ row.costUsd = entry.costUsd) ∨
    (¬ (0 ≤ entry.costUsd ∧ entry.model ≠ "" ∧ NewGeneration entry.generationId rows) ∧
      (recordSpend entry newId now rows).1 = rows) := by
  unfold recordSpend
  by_cases hc : entry.costUsd < 0
  · refine Or.inr ⟨fun h => absurd h.1 (not_le.mpr hc), ?_⟩
    rw [if_pos hc]
  · rw [if_neg hc]
    by_cases hm : entry.model = ""
    · refine Or.inr ⟨fun h => h.2.1 hm, ?_⟩
      rw [if_pos hm]
    · rw [if_neg hm]
      cases hg : entry.generationId.bind fun g =>
          if g = "" then none else rows.find? fun r => r.generationId == some g with
      | some r =>
        refine Or.inr ⟨?_, rfl⟩
        intro h
        obtain ⟨g, hid, hf⟩ := Option.bind_eq_some_iff.mp hg
        split at hf
        · cases hf
        · rename_i hne
          have hr : r.generationId = some g := by simpa using List.find?_some hf
          exact h.2.2 g hid hne r (List.mem_of_find?_eq_some hf) hr
      | none =>
        refine Or.inl ⟨not_lt.mp hc, hm, ?_, _, rfl, rfl, rfl, rfl⟩
        intro g hid hne r hr he
        rw [hid, Option.bind_some, if_neg hne] at hg
        exact List.find?_eq_none.mp hg r hr (by simp [he])

end LaunchAuditor.Metabolism
