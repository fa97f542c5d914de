import LaunchAuditor.Chain.Logs
import LaunchAuditor.RpcBudget.Transport

/-! `apps/worker/src/watcher/retry.ts`. The delays between the tries are left out. -/

namespace LaunchAuditor.Watcher
open Chain

def isTransientRpcError (e : RpcError) : Bool :=
  ["notfounderror", "timeouterror", "httprequesterror", "rpcrequesterror", "limitexceedederror"].any
      (Js.containsText e.name) ||
    RpcBudget.rateLimit e.message.toLower.toList ||
    ["could not be found", "not be processed on a block yet", "not found", "too many requests", "429", "timeout",
      "etimedout", "econnreset", "econnrefused", "socket hang up", "network is busy", "exceeds defined limit",
      "try again in a moment", "-32005", "-32000"].any (Js.containsText e.message)

/-- `fn` is given the number of the attempt, so that a later one may end otherwise. -/
def withRetry {α : Type} (fn : Nat → Except RpcError α) : (tries attempt : Nat) → Except RpcError α
  | 0, _ => .error ⟨"", "undefined"⟩
  | tries + 1, attempt =>
    match fn attempt with
    | .ok a => .ok a
    | .error e => if !isTransientRpcError e || tries = 0 then .error e else withRetry fn tries (attempt + 1)

/-- What comes back is what some attempt brought. -/
theorem withRetry_ok {α : Type} {fn : Nat → Except RpcError α} {tries attempt : Nat} {a : α}
    (h : withRetry fn tries attempt = .ok a) : ∃ n, fn n = .ok a := by
  induction tries generalizing attempt with
  | zero => cases h
  | succ tries ih =>
    rw [withRetry] at h
    cases hf : fn attempt with
    | ok b =>
      rw [hf] at h
      exact ⟨attempt, hf.trans h⟩
    | error e =>
      rw [hf] at h
      dsimp only at h
      split at h
      · cases h
      · exact ih h

theorem withRetry_of_ok {α : Type} {fn : Nat → Except RpcError α} {tries attempt : Nat} {a : α} (ht : 0 < tries)
    (h : fn attempt = .ok a) : withRetry fn tries attempt = .ok a := by
  cases tries with
  | zero => omega
  | succ tries => rw [withRetry, h]

end LaunchAuditor.Watcher
