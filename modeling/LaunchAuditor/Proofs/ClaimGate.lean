import LaunchAuditor.Leaderboard.Statistics
import LaunchAuditor.Leaderboard.Cells

namespace LaunchAuditor.Proofs.ClaimGate
open Scoring Leaderboard

/-- On the paired rows the forecaster is above chance, and above the baseline. -/
def Better (own other : List ScoreRow) : Prop :=
  let aligned := alignByObs own other
  ∃ a b, auroc aligned.pa aligned.y = some a ∧ auroc aligned.pb aligned.y = some b ∧ 1 / 2 < a ∧ b < a

def Supported (own other : List ScoreRow) : Prop :=
  MIN_FOR_CLAIMS ≤ observations (paired own other) ∧
    MIN_POSITIVES_FOR_CLAIMS ≤ observations (labelled true (paired own other)) ∧ Better own other

variable {math : Numerics} {own other okRows : List ScoreRow}

def obs (i : Nat) : String := "o" ++ toString i

def scored (forecaster : String) (i : Nat) (prob : ℚ) (label : Bool) : ScoreRow :=
  ⟨obs i, forecaster, key6h, "T10", "clanker", prob, label⟩

end LaunchAuditor.Proofs.ClaimGate
