import LaunchAuditor.Lib.Bisection
import LaunchAuditor.Watcher.LaunchFacts
import LaunchAuditor.Watcher.Creator
import Mathlib.Algebra.Order.Field.Basic
import Mathlib.Algebra.Order.Field.Rat
import Mathlib.Data.Rat.Cast.Order
import Mathlib.Order.Bounds.Basic
import Mathlib.Tactic.Positivity

namespace LaunchAuditor.Proofs.SearchBounds
open Chain Watcher

section FirstTx

variable {nonces : Nat → Nat}

end FirstTx

section TokenAge

variable {client : FreshnessClient} {token : Address} {d : Nat}

/-- What the loop starts from: the first block of the window. -/
def windowStart (poolBlockNumber windowBlocks : Nat) : Nat :=
  if poolBlockNumber > windowBlocks then poolBlockNumber - windowBlocks else 0

end TokenAge

end LaunchAuditor.Proofs.SearchBounds
