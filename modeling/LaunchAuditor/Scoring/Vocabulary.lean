/-! `types.ts` and `eligibility.ts` of `packages/scoring/src`. Times are in milliseconds. -/

namespace LaunchAuditor.Scoring

inductive OutcomeLabel
  | INSIDER_EXIT
  | SELL_IMPAIRED
  | LIQ_IMPAIRED
  | DRAWDOWN_80
  | TRADING_ALIVE
  deriving DecidableEq, Repr

def OutcomeLabel.text : OutcomeLabel → String
  | .INSIDER_EXIT => "INSIDER_EXIT"
  | .SELL_IMPAIRED => "SELL_IMPAIRED"
  | .LIQ_IMPAIRED => "LIQ_IMPAIRED"
  | .DRAWDOWN_80 => "DRAWDOWN_80"
  | .TRADING_ALIVE => "TRADING_ALIVE"

/-- `${label}@${horizon}`, with the horizon as the table of outcomes has it. -/
structure OutcomeKey where
  label : OutcomeLabel
  horizon : String
  deriving DecidableEq, Repr

/-- Every (label, horizon) cell, in a fixed order. -/
def ALL_OUTCOME_KEYS : List OutcomeKey :=
  [⟨.INSIDER_EXIT, "6h"⟩, ⟨.INSIDER_EXIT, "24h"⟩, ⟨.INSIDER_EXIT, "72h"⟩, ⟨.SELL_IMPAIRED, "1h"⟩,
    ⟨.SELL_IMPAIRED, "24h"⟩, ⟨.LIQ_IMPAIRED, "24h"⟩, ⟨.LIQ_IMPAIRED, "7d"⟩, ⟨.DRAWDOWN_80, "24h"⟩,
    ⟨.DRAWDOWN_80, "7d"⟩, ⟨.TRADING_ALIVE, "24h"⟩, ⟨.TRADING_ALIVE, "7d"⟩]

theorem ALL_OUTCOME_KEYS_nodup : ALL_OUTCOME_KEYS.Nodup := by decide

/-- SELL_IMPAIRED and LIQ_IMPAIRED do not apply to launchpad tokens. -/
def outcomeApplies (key : OutcomeKey) (lpLockedByConstruction : Bool) : Bool :=
  !lpLockedByConstruction || (key.label ≠ .SELL_IMPAIRED && key.label ≠ .LIQ_IMPAIRED)

/-- TRADING_ALIVE is the one outcome whose `true` is good. -/
def outcomeIsPositive (key : OutcomeKey) : Bool := decide (key.label = .TRADING_ALIVE)

end LaunchAuditor.Scoring

namespace LaunchAuditor.Scoring

inductive Eligibility
  | eligible
  | replay
  | late
  | uncommitted
  | missing_time
  deriving DecidableEq, Repr

def REPLAY_AFTER_MS : Int := 30 * 60000

/-- `horizonMs` of the outcomes, 0 for a horizon that is not one of the five. -/
def horizonMs (horizon : String) : Int :=
  if horizon = "1h" then 3600000
  else if horizon = "6h" then 6 * 3600000
  else if horizon = "24h" then 24 * 3600000
  else if horizon = "72h" then 72 * 3600000
  else if horizon = "7d" then 7 * 24 * 3600000
  else 0

def HORIZON_MS : List (String × Int) :=
  [("1h", 3600000), ("6h", 6 * 3600000), ("24h", 24 * 3600000), ("72h", 72 * 3600000), ("7d", 7 * 24 * 3600000)]

/-- The table of this package; the other one is the worker's. -/
def horizonToMs (horizon : String) : Except String Int :=
  match HORIZON_MS.lookup horizon with
  | some ms => .ok ms
  | none => .error s!"unknown horizon {horizon}"

structure EligibilityInput where
  reportTime : Int
  committed : Bool
  /-- block timestamp of the commit; none when committed but not readable -/
  commitBlockTime : Option Int
  horizonEnd : Int

def classifyEligibility (i : EligibilityInput) : Eligibility :=
  if !i.committed then .uncommitted
  else
    match i.commitBlockTime with
    | none => .missing_time
    | some t =>
      if i.horizonEnd ≤ t then .late
      else if t - i.reportTime > REPLAY_AFTER_MS then .replay
      else .eligible

/-- `classifyEligibility` of dates that need not be valid: every comparison with NaN is false. -/
def classifyDates (reportTime : Option Int) (committed : Bool) (commitBlockTime horizonEnd : Option Int) : Eligibility :=
  if !committed then .uncommitted
  else
    match commitBlockTime with
    | none => .missing_time
    | some t =>
      if horizonEnd.any fun e => decide (e ≤ t) then .late
      else if reportTime.any fun r => decide (t - r > REPLAY_AFTER_MS) then .replay
      else .eligible

theorem classifyDates_valid (reportTime : Int) (committed : Bool) (commitBlockTime : Option Int) (horizonEnd : Int) :
    classifyDates (some reportTime) committed commitBlockTime (some horizonEnd) =
      classifyEligibility ⟨reportTime, committed, commitBlockTime, horizonEnd⟩ := by
  simp [classifyDates, classifyEligibility]

/-- Only a report that was not committed is in the class of those. -/
theorem classifyDates_uncommitted {reportTime : Option Int} {committed : Bool} {commitBlockTime horizonEnd : Option Int} :
    classifyDates reportTime committed commitBlockTime horizonEnd = .uncommitted ↔ committed = false := by
  unfold classifyDates
  cases committed with
  | false => simp
  | true =>
    simp only [Bool.not_true, Bool.false_eq_true, if_false, reduceCtorEq, iff_false]
    split
    · simp
    · split
      · simp
      · split <;> simp

/-- The two tables agree on what both hold. -/
theorem horizonToMs_ok {horizon : String} {ms : Int} (h : horizonToMs horizon = .ok ms) : ms = horizonMs horizon := by
  unfold horizonToMs at h
  split at h
  · rename_i ms' hlookup
    cases h
    obtain ⟨before, after, hsplit, _⟩ := List.lookup_eq_some_iff.mp hlookup
    have hmem : (horizon, ms) ∈ HORIZON_MS := by
      rw [hsplit]
      exact List.mem_append_right before List.mem_cons_self
    simp only [HORIZON_MS, List.mem_cons, List.not_mem_nil, or_false, Prod.mk.injEq] at hmem
    rcases hmem with ⟨rfl, rfl⟩ | ⟨rfl, rfl⟩ | ⟨rfl, rfl⟩ | ⟨rfl, rfl⟩ | ⟨rfl, rfl⟩
    all_goals decide +kernel
  · cases h

/-- A late fetch is hindsight, whatever the report's own class. -/
def scannerFetchIsTimely (reportTime : Int) (fetchedAt : Option Int) : Bool :=
  fetchedAt.any fun t => decide (t - reportTime ≤ REPLAY_AFTER_MS)

end LaunchAuditor.Scoring
