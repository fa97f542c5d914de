import LaunchAuditor.Chain.Logs
import LaunchAuditor.Lib.Steps

/-! `packages/contracts/src/CommitRegistry.sol`, with its event log. A call that reverts
leaves nothing behind. -/

namespace LaunchAuditor.Contracts
open Chain

abbrev Bytes32 := BitVec 256
abbrev Uint256 := BitVec 256

structure CommitRegistry where
  owner : Address
  batchCount : Uint256

inductive RegistryEvent
  | batchCommitted (batchId : Uint256) (merkleRoot : Bytes32) (leafCount timestamp : Uint256)
  | artifactCommitted (kind hash : Bytes32) (timestamp : Uint256)
  | ownerRotated (previousOwner newOwner : Address)

inductive RegistryError
  | notOwner
  | zeroAddress

/-- `msg.sender` and `block.timestamp` of a call. -/
structure CallContext where
  sender : Address
  timestamp : Uint256

/-- The modifier before the body of a function. -/
def onlyOwner {α : Type} (c : CommitRegistry) (ctx : CallContext) (body : Except RegistryError α) :
    Except RegistryError α :=
  if ctx.sender ≠ c.owner then .error .notOwner else body

/-- The constructor and the event it emits. -/
def CommitRegistry.deploy (initialOwner sender : Address) : CommitRegistry × RegistryEvent :=
  let owner := if initialOwner = 0 then sender else initialOwner
  (⟨owner, 0⟩, .ownerRotated 0 owner)

/-- `unchecked`: the counter wraps. The last component is the id the function returns. -/
def commitBatch (c : CommitRegistry) (ctx : CallContext) (merkleRoot : Bytes32) (leafCount : Uint256) :
    Except RegistryError (CommitRegistry × RegistryEvent × Uint256) :=
  onlyOwner c ctx <|
    let batchId := c.batchCount
    .ok ({ c with batchCount := batchId + 1 }, .batchCommitted batchId merkleRoot leafCount ctx.timestamp, batchId)

def commitArtifact (c : CommitRegistry) (ctx : CallContext) (kind hash : Bytes32) :
    Except RegistryError (CommitRegistry × RegistryEvent) :=
  onlyOwner c ctx <| .ok (c, .artifactCommitted kind hash ctx.timestamp)

def rotateOwner (c : CommitRegistry) (ctx : CallContext) (newOwner : Address) :
    Except RegistryError (CommitRegistry × RegistryEvent) :=
  onlyOwner c ctx <|
    if newOwner = 0 then .error .zeroAddress
    else .ok ({ c with owner := newOwner }, .ownerRotated c.owner newOwner)

inductive RegistryFunction
  | commitBatch (merkleRoot : Bytes32) (leafCount : Uint256)
  | commitArtifact (kind hash : Bytes32)
  | rotateOwner (newOwner : Address)

structure RegistryCall extends CallContext where
  function : RegistryFunction

/-- What a call does to the contract and which event it emits. -/
def RegistryCall.exec (call : RegistryCall) (c : CommitRegistry) :
    Except RegistryError (CommitRegistry × RegistryEvent) :=
  let ctx := call.toCallContext
  match call.function with
  | .commitBatch merkleRoot leafCount => (commitBatch c ctx merkleRoot leafCount).map fun r => (r.1, r.2.1)
  | .commitArtifact kind hash => Contracts.commitArtifact c ctx kind hash
  | .rotateOwner newOwner => Contracts.rotateOwner c ctx newOwner

/-- The contract on chain with the events emitted since its deployment. -/
structure Deployed where
  registry : CommitRegistry
  events : List RegistryEvent

def deployed (initialOwner sender : Address) : Deployed :=
  let (registry, event) := CommitRegistry.deploy initialOwner sender
  ⟨registry, [event]⟩

def Deployed.call (s : Deployed) (call : RegistryCall) : Deployed :=
  match call.exec s.registry with
  | .ok (registry, event) => ⟨registry, s.events ++ [event]⟩
  | .error _ => s

def RegistryEvent.batchId? : RegistryEvent → Option Uint256
  | .batchCommitted batchId .. => some batchId
  | _ => none

/-- A call reverts, or the owner made it and it did one of three things. -/
theorem call_cases (s : Deployed) (call : RegistryCall) :
    s.call call = s ∨ call.sender = s.registry.owner ∧
      ((∃ root leafCount, s.call call = ⟨{ s.registry with batchCount := s.registry.batchCount + 1 },
          s.events ++ [.batchCommitted s.registry.batchCount root leafCount call.timestamp]⟩) ∨
        (∃ kind hash, s.call call = ⟨s.registry, s.events ++ [.artifactCommitted kind hash call.timestamp]⟩) ∨
        ∃ newOwner, newOwner ≠ 0 ∧
          s.call call = ⟨{ s.registry with owner := newOwner },
            s.events ++ [.ownerRotated s.registry.owner newOwner]⟩) := by
  by_cases ho : call.sender = s.registry.owner
  · cases hf : call.function with
    | commitBatch root leafCount =>
      refine .inr ⟨ho, .inl ⟨root, leafCount, ?_⟩⟩
      simp [Deployed.call, RegistryCall.exec, hf, commitBatch, onlyOwner, ho, Except.map]
    | commitArtifact kind hash =>
      refine .inr ⟨ho, .inr (.inl ⟨kind, hash, ?_⟩)⟩
      simp [Deployed.call, RegistryCall.exec, hf, commitArtifact, onlyOwner, ho]
    | rotateOwner newOwner =>
      by_cases hz : newOwner = 0
      · subst hz
        left
        simp [Deployed.call, RegistryCall.exec, hf, rotateOwner, onlyOwner, ho]
      · refine .inr ⟨ho, .inr (.inr ⟨newOwner, hz, ?_⟩)⟩
        simp only [Deployed.call, RegistryCall.exec, hf, rotateOwner, onlyOwner, ho, ne_eq, not_true_eq_false,
          if_false, if_neg hz]
  · left
    cases hf : call.function with
    | commitBatch root leafCount => simp [Deployed.call, RegistryCall.exec, hf, commitBatch, onlyOwner, ho, Except.map]
    | commitArtifact kind hash => simp [Deployed.call, RegistryCall.exec, hf, commitArtifact, onlyOwner, ho]
    | rotateOwner newOwner => simp [Deployed.call, RegistryCall.exec, hf, rotateOwner, onlyOwner, ho]

end LaunchAuditor.Contracts
