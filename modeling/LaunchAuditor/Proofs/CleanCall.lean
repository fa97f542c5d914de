import LaunchAuditor.Report.Drafts
import Mathlib.Algebra.Order.Ring.Unbundled.Rat

namespace LaunchAuditor.Proofs.CleanCall
open Chain Outcomes Scoring Db Report

section Outcomes
variable (content : ReportContent)

/-- A clean call on an outcome that is bad. -/
def badBelow : Prop := ∃ p ∈ content.probabilities, outcomeIsPositive p.1 = false ∧ p.2 < PASS_FLOOR

/-- A warning that trading is about to stop. -/
def aliveBelow : Prop := ∃ p ∈ content.probabilities, outcomeIsPositive p.1 = true ∧ p.2 < PASS_FLOOR

/-- A clean call on the outcome that is good. -/
def aliveAbove : Prop := ∃ p ∈ content.probabilities, outcomeIsPositive p.1 = true ∧ 1 - PASS_FLOOR < p.2

/-- At least the stated share of the features is unknown. -/
def mostUnknown : Prop := HIGH_UNKNOWN_RATIO * TOTAL_FEATURES ≤ content.coverage.length

/-- No other rule of the validator is broken. -/
structure OtherwiseValid (signer : Option Address) (o : ValidateOptions) : Prop where
  chain : chainFailures content o = []
  pin : pinFailures content.blockPin = []
  probabilities : probabilityFailures content.probabilities = []
  signed : signerFailures signer o.agentAddress = []

variable {content} {signer : Option Address} {o : ValidateOptions}

theorem minProbability_lt_iff {probs : List (OutcomeKey × ℚ)} {minP x : ℚ} (h : minProbability probs = some minP) :
    minP < x ↔ ∃ p ∈ probs, p.2 < x := by
  have hle := List.le_min?_iff h (x := x)
  rw [← not_le, hle]
  constructor
  · intro hnot
    by_contra hnone
    refine hnot fun q hq => ?_
    obtain ⟨p, hp, rfl⟩ := List.mem_map.mp hq
    exact not_lt.mp fun hlt => hnone ⟨p, hp, hlt⟩
  · rintro ⟨p, hp, hlt⟩ hall
    exact absurd (hall p.2 (List.mem_map_of_mem hp)) (not_le.mpr hlt)

/-- The rule does not tell the outcomes apart. -/
theorem unknownFailures_ne_nil_iff (hunknown : mostUnknown content) :
    unknownFailures content ≠ [] ↔ badBelow content ∨ aliveBelow content := by
  have hany : badBelow content ∨ aliveBelow content ↔ ∃ p ∈ content.probabilities, p.2 < PASS_FLOOR := by
    constructor
    · rintro (⟨p, hp, _, hlt⟩ | ⟨p, hp, _, hlt⟩)
      · exact ⟨p, hp, hlt⟩
      · exact ⟨p, hp, hlt⟩
    · rintro ⟨p, hp, hlt⟩
      cases hkind : outcomeIsPositive p.1 with
      | false => exact Or.inl ⟨p, hp, hkind, hlt⟩
      | true => exact Or.inr ⟨p, hp, hkind, hlt⟩
  unfold mostUnknown at hunknown
  unfold unknownFailures
  rw [if_pos hunknown, hany]
  cases hmin : minProbability content.probabilities with
  | none =>
    have hempty : content.probabilities = [] := by simpa [minProbability] using hmin
    simp [hempty]
  | some minP =>
    rw [← minProbability_lt_iff hmin]
    by_cases hlt : minP < PASS_FLOOR
    · simp [hlt]
    · simp [hlt]

theorem OtherwiseValid.fails_iff (hvalid : OtherwiseValid content signer o) (hunknown : mostUnknown content) :
    validateReport content signer o ≠ [] ↔ badBelow content ∨ aliveBelow content := by
  rw [← unknownFailures_ne_nil_iff hunknown]
  unfold validateReport
  rw [hvalid.chain, hvalid.pin, hvalid.probabilities, hvalid.signed]
  simp

/-- The validator refuses the clean calls and nothing else when a clean call on a bad outcome is among the
probabilities, or the good outcome is either far from both ends or, in two horizons, near both. -/
theorem clean_call_iff (hvalid : OtherwiseValid content signer o) (hunknown : mostUnknown content) :
    (validateReport content signer o ≠ [] ↔ badBelow content ∨ aliveAbove content) ↔
      (badBelow content ∨ (aliveBelow content ↔ aliveAbove content)) := by
  rw [hvalid.fails_iff hunknown]
  constructor
  · intro h
    by_cases hbad : badBelow content
    · exact Or.inl hbad
    · refine Or.inr ?_
      simpa [hbad] using h
  · rintro (hbad | halive)
    · exact iff_of_true (Or.inl hbad) (Or.inl hbad)
    · rw [halive]

end Outcomes

/-- A report on fifteen unknown features with these probabilities at 24 hours. -/
def sampleReport (insiderExit tradingAlive : ℚ) : ReportContent where
  chainId := 7
  tokenAddress := 9#160
  launchId := some "l1"
  reportTime := 600000
  trigger := .launch
  blockPin := ⟨5, 0, 600⟩
  forecaster := .det_v0
  forecasterVersion := "1"
  probabilities := [(⟨.INSIDER_EXIT, "24h"⟩, insiderExit), (⟨.TRADING_ALIVE, "24h"⟩, tradingAlive)]
  coverage := ["creatorAgeDays", "creatorPriorLaunches", "creatorPriorInsiderExitRate", "clusterSupplyPct",
    "top10NoncreatorPct", "lpLockedPct", "buyImpactBps1k", "sellImpactBps1k", "sellTaxBps", "sellSimOk", "isHoneypot",
    "hasX", "hasSite", "uniqueBuyers10m", "buysPerBuyer10m"]
  confidence := none
  evidence := none

def sampleOptions : ValidateOptions := ⟨7, 9#160, 3#160⟩

theorem sampleReport_valid : OtherwiseValid (sampleReport (2 / 5) (1 / 50)) (some 3#160) sampleOptions ∧
    mostUnknown (sampleReport (2 / 5) (1 / 50)) := by
  refine ⟨⟨by decide +kernel, by decide +kernel, by decide +kernel, by decide +kernel⟩, ?_⟩
  unfold mostUnknown
  decide +kernel

theorem clean_call_warning_iff :
    (validateReport (sampleReport (2 / 5) (1 / 50)) (some 3#160) sampleOptions ≠ [] ↔
        badBelow (sampleReport (2 / 5) (1 / 50)) ∨ aliveAbove (sampleReport (2 / 5) (1 / 50))) ↔
      (badBelow (sampleReport (2 / 5) (1 / 50)) ∨
        (aliveBelow (sampleReport (2 / 5) (1 / 50)) ↔ aliveAbove (sampleReport (2 / 5) (1 / 50)))) :=
  clean_call_iff sampleReport_valid.1 sampleReport_valid.2

/-- A warning that trading is about to stop is refused as a clean call. -/
theorem clean_call_warning :
    OtherwiseValid (sampleReport (2 / 5) (1 / 50)) (some 3#160) sampleOptions ∧
      mostUnknown (sampleReport (2 / 5) (1 / 50)) ∧
      validateReport (sampleReport (2 / 5) (1 / 50)) (some 3#160) sampleOptions ≠ [] ∧
      ¬ (badBelow (sampleReport (2 / 5) (1 / 50)) ∨ aliveAbove (sampleReport (2 / 5) (1 / 50))) := by
  refine ⟨sampleReport_valid.1, sampleReport_valid.2, by decide +kernel, ?_⟩
  unfold badBelow aliveAbove
  decide +kernel

end LaunchAuditor.Proofs.CleanCall
