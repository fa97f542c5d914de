import LaunchAuditor.Contracts.CommitRegistry
import Mathlib.Algebra.Group.Nat.Defs
import Mathlib.Data.List.Induction

namespace LaunchAuditor.Proofs.Registry
open Chain Contracts Steps

/-- The ids in the log count up to the counter, which has not wrapped in `calls` calls. -/
structure Consistent (calls : Nat) (s : Deployed) : Prop where
  ids : (s.events.filterMap RegistryEvent.batchId?).map BitVec.toNat = List.range s.registry.batchCount.toNat
  counted : s.registry.batchCount.toNat ≤ calls
  owned : s.registry.owner ≠ 0

variable {s : Deployed} {calls : Nat}

theorem consistent_deployed (initialOwner : Address) {deployer : Address} (h : deployer ≠ 0) :
    Consistent 0 (deployed initialOwner deployer) := by
  refine ⟨rfl, Nat.le_refl 0, ?_⟩
  change (if initialOwner = 0 then deployer else initialOwner) ≠ 0
  split
  · exact h
  · assumption

theorem Consistent.call (h : Consistent calls s) (hlt : calls + 1 < 2 ^ 256) (call : RegistryCall) :
    Consistent (calls + 1) (s.call call) := by
  have hcount := h.counted
  rcases call_cases s call with he | ⟨-, ⟨root, leafCount, he⟩ | ⟨kind, hash, he⟩ | ⟨newOwner, hz, he⟩⟩
  · rw [he]
    exact ⟨h.ids, Nat.le_succ_of_le hcount, h.owned⟩
  · -- the only place where the counter moves: it is below the number of calls
    have hnext : (s.registry.batchCount + 1).toNat = s.registry.batchCount.toNat + 1 := by
      rw [BitVec.toNat_add]
      exact Nat.mod_eq_of_lt (by simp; omega)
    rw [he]
    refine ⟨?_, ?_, h.owned⟩
    · rw [List.filterMap_append, List.map_append, h.ids, hnext, List.range_succ]
      rfl
    · rw [hnext]
      omega
  · rw [he]
    refine ⟨?_, Nat.le_succ_of_le hcount, h.owned⟩
    rw [List.filterMap_append, List.map_append, h.ids]
    exact List.append_nil _
  · rw [he]
    refine ⟨?_, Nat.le_succ_of_le hcount, hz⟩
    rw [List.filterMap_append, List.map_append, h.ids]
    exact List.append_nil _

theorem Consistent.run {s : Deployed} (h : Consistent 0 s) (calls : List RegistryCall) (hlt : calls.length < 2 ^ 256) :
    Consistent calls.length (run Deployed.call s calls) := by
  induction calls using List.reverseRecOn with
  | nil => exact h
  | append_singleton calls call ih =>
    rw [List.length_append, List.length_singleton] at hlt ⊢
    simp only [Steps.run, List.foldl_append, List.foldl_cons, List.foldl_nil]
    exact (ih (by omega)).call hlt call

/-- Whatever a call leaves behind is its owner's doing. -/
theorem sender_of_effect {call : RegistryCall}
    (h : (s.call call).events ≠ s.events ∨ (s.call call).registry.owner ≠ s.registry.owner) :
    call.sender = s.registry.owner := by
  rcases call_cases s call with he | ⟨ho, -⟩
  · rw [he] at h
    exact absurd h (by simp)
  · exact ho

theorem registry_safe (initialOwner deployer : Address) (hdeployer : deployer ≠ 0) (calls : List RegistryCall)
    (hlt : calls.length < 2 ^ 256) :
    let at' := run Deployed.call (deployed initialOwner deployer)
    (∃ n, ((at' calls).events.filterMap RegistryEvent.batchId?).map BitVec.toNat = List.range n) ∧
      (∀ before call after, calls = before ++ call :: after →
        (at' (before ++ [call])).events ≠ (at' before).events ∨
          (at' (before ++ [call])).registry.owner ≠ (at' before).registry.owner →
        call.sender = (at' before).registry.owner) ∧
      (at' calls).registry.owner ≠ 0 := by
  intro at'
  have h := (consistent_deployed initialOwner hdeployer).run calls hlt
  refine ⟨⟨_, h.ids⟩, ?_, h.owned⟩
  intro before call after _ heffect
  have hsnoc : at' (before ++ [call]) = (at' before).call call := by simp [at', Steps.run]
  rw [hsnoc] at heffect
  exact sender_of_effect heffect

section Sample

/-- A stranger and the owner commit, the role changes hands, the old owner is turned away. -/
def fiveCalls : List RegistryCall :=
  [⟨⟨7, 100⟩, .commitBatch 1 1⟩, ⟨⟨5, 101⟩, .commitBatch 1 1⟩, ⟨⟨5, 102⟩, .rotateOwner 6⟩,
   ⟨⟨5, 103⟩, .commitBatch 2 1⟩, ⟨⟨6, 104⟩, .commitBatch 3 2⟩]

theorem registry_safe_five :
    ((run Deployed.call (deployed 0 5) fiveCalls).events.filterMap RegistryEvent.batchId?) = [0, 1] ∧
      (run Deployed.call (deployed 0 5) fiveCalls).registry.owner ≠ 0 :=
  ⟨by decide, (registry_safe 0 5 (by decide) fiveCalls (by decide)).2.2⟩

end Sample

end LaunchAuditor.Proofs.Registry
