import LaunchAuditor.Metabolism.SpendLedger
import Mathlib.Tactic.Positivity

/-! `apps/worker/src/deepdive/pricing.ts` and `cost.ts`: one spend row for a run, with
the kind of figure its cost is. -/

namespace LaunchAuditor.Deepdive
open Db Metabolism

/-- `'openrouter-2026-09-11'` -/
def PRICING_VERSION : String := "openrouter-2026-09-11"

/-- USD per million tokens. -/
structure ModelPrice where
  inPerM : ℚ
  outPerM : ℚ

def MODEL_PRICES : List (String × ModelPrice) :=
  [("sakana/fugu-max", ⟨2, 6⟩),
   ("deepseek/deepseek-v4.1-flash", ⟨15 / 100, 6 / 10⟩),
   ("inception/mercury-2.5", ⟨4 / 100, 15 / 100⟩)]

def modelPrice (slug : String) : Option ModelPrice := MODEL_PRICES.lookup slug

/-- A token count that can be priced. -/
def countOf (n : Option ℚ) : Option ℚ := n.filter (fun n => 0 ≤ n)

def estimateCostUsd (slug : String) (promptTokens completionTokens : Option ℚ) : Option ℚ :=
  match modelPrice slug, countOf promptTokens, countOf completionTokens with
  | some p, some prompt, some completion => some (r6 ((prompt * p.inPerM + completion * p.outPerM) / 1000000))
  | _, _, _ => none

/-- The fields of a `DeepDiveResult` that are priced. -/
structure Usage where
  generationIds : List String
  modelSlug : String
  usageCostUsd : Option ℚ
  promptTokens : Option ℚ
  completionTokens : Option ℚ

structure Lookups where
  sum : ℚ
  failed : List String
  failureReason : Option String

/-- The loop over the generation ids; a failed lookup is collected, not thrown. -/
def lookupAll (lookup : String → Except String ℚ) (ids : List String) : Lookups :=
  ids.foldl (fun acc id =>
    match lookup id with
    | .ok cost => { acc with sum := acc.sum + cost }
    | .error msg => { acc with failed := acc.failed ++ [id], failureReason := acc.failureReason <|> some msg })
    ⟨0, [], none⟩

/-- The sum of the generations, when there are some and all could be looked up. -/
def generationTotal (lookup : String → Except String ℚ) (ids : List String) : Option ℚ :=
  if ids.length > 0 ∧ (lookupAll lookup ids).failed = [] then some (lookupAll lookup ids).sum else none

/-- The recorded cost and its basis, in the order of precedence. -/
def chooseCost (lookup : String → Except String ℚ) (u : Usage) : ℚ × CostBasis :=
  match u.usageCostUsd, generationTotal lookup u.generationIds,
    estimateCostUsd u.modelSlug u.promptTokens u.completionTokens with
  | some cost, _, _ => (cost, .providerReported)
  | none, some total, _ => (total, .providerGeneration)
  | none, none, some estimated => (estimated, .tokenEstimate)
  | none, none, none => (0, .unavailable)

structure RecordDeepdiveSpendResult where
  totalCostUsd : ℚ
  costBasis : CostBasis
  estimatedCostUsd : Option ℚ
  row : SpendRecorded
  failed : List String
  failureReason : Option String

/-- The entry handed to `recordSpend`. -/
def spendEntry (lookup : String → Except String ℚ) (u : Usage) (keyHashPrefix reportId : Option String) :
    SpendEntry :=
  let estimatedCostUsd := estimateCostUsd u.modelSlug u.promptTokens u.completionTokens
  { costUsd := (chooseCost lookup u).1, model := u.modelSlug, keyHashPrefix, reportId
    generationId := u.generationIds.head?, promptTokens := u.promptTokens
    completionTokens := u.completionTokens, estimatedCostUsd
    pricingVersion := estimatedCostUsd.map fun _ => PRICING_VERSION
    costBasis := (chooseCost lookup u).2 }

/-- Lookups happen only when the usage object reported no cost. -/
def recordDeepdiveSpend (lookup : String → Except String ℚ) (u : Usage) (keyHashPrefix reportId : Option String)
    (newId : String) (now : Int) (ledger : SpendTable) : SpendTable × Except String RecordDeepdiveSpendResult :=
  let lookups := if u.usageCostUsd.isSome then ⟨0, [], none⟩ else lookupAll lookup u.generationIds
  match recordSpend (spendEntry lookup u keyHashPrefix reportId) newId now ledger with
  | (ledger, .error msg) => (ledger, .error msg)
  | (ledger, .ok row) =>
    (ledger, .ok { totalCostUsd := r6 (chooseCost lookup u).1, costBasis := (chooseCost lookup u).2
                   estimatedCostUsd := estimateCostUsd u.modelSlug u.promptTokens u.completionTokens
                   row, failed := lookups.failed, failureReason := lookups.failureReason })

theorem modelPrice_nonneg {slug : String} {p : ModelPrice} (h : modelPrice slug = some p) :
    0 ≤ p.inPerM ∧ 0 ≤ p.outPerM := by
  have hall : ∀ e ∈ MODEL_PRICES, 0 ≤ e.2.inPerM ∧ 0 ≤ e.2.outPerM := by decide +kernel
  obtain ⟨before, after, he, -⟩ := List.lookup_eq_some_iff.mp h
  exact hall (slug, p) (by simp [he])

theorem countOf_nonneg {n : Option ℚ} {c : ℚ} (h : countOf n = some c) : 0 ≤ c := by
  obtain ⟨-, hc⟩ := Option.filter_eq_some_iff.mp h
  simpa using hc

/-- An estimate is the price of the tokens, rounded to a millionth. -/
theorem estimateCostUsd_rounded {slug : String} {promptTokens completionTokens : Option ℚ} {cost : ℚ}
    (h : estimateCostUsd slug promptTokens completionTokens = some cost) : ∃ price, 0 ≤ price ∧ cost = r6 price := by
  unfold estimateCostUsd at h
  split at h
  · rename_i p prompt completion hp hprompt hcompletion
    obtain rfl := Option.some.inj h
    obtain ⟨hin, hout⟩ := modelPrice_nonneg hp
    have h1 := mul_nonneg (countOf_nonneg hprompt) hin
    have h2 := mul_nonneg (countOf_nonneg hcompletion) hout
    refine ⟨_, ?_, rfl⟩
    positivity
  · cases h

theorem estimateCostUsd_nonneg {slug : String} {promptTokens completionTokens : Option ℚ} {cost : ℚ}
    (h : estimateCostUsd slug promptTokens completionTokens = some cost) : 0 ≤ cost := by
  obtain ⟨price, hprice, rfl⟩ := estimateCostUsd_rounded h
  exact Js.roundTo_nonneg _ hprice

/-- An estimate is never negative, so only a figure of the provider can be. -/
theorem chooseCost_nonneg (lookup : String → Except String ℚ) (u : Usage) :
    0 ≤ (chooseCost lookup u).1 ↔ (∀ c, u.usageCostUsd = some c → 0 ≤ c) ∧
      (u.usageCostUsd = none → ∀ total, generationTotal lookup u.generationIds = some total → 0 ≤ total) := by
  unfold chooseCost
  cases hu : u.usageCostUsd with
  | some c => simp
  | none =>
    cases hg : generationTotal lookup u.generationIds with
    | some total => simp
    | none =>
      cases he : estimateCostUsd u.modelSlug u.promptTokens u.completionTokens with
      | some estimated => simp [estimateCostUsd_nonneg he]
      | none => simp

end LaunchAuditor.Deepdive
