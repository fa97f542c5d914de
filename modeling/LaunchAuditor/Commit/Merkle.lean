import LaunchAuditor.Hex
import LaunchAuditor.Js
import LaunchAuditor.Lib.PairTree

/-! `apps/worker/src/commit/merkle.ts`, and the two copies of its read half
in `apps/api/src/merkle.ts` and `apps/api/src/verify-receipt.ts`. -/

namespace LaunchAuditor

/-- Sorted-pair hashing, ordered by the lower-case strings. The three sources
spell it identically. -/
def sortedPairHash (keccak : List UInt8 → Digest) (a b : Hex) : Hex :=
  if a.toLowerCase ≤ b.toLowerCase then keccak256 keccak (Hex.concatHex a b)
  else keccak256 keccak (Hex.concatHex b a)

/-- The fold both `verifyProof` functions run before comparing with the root. -/
def foldVerifies (hashPair : Hex → Hex → Hex) (leaf : Hex) (proof : List Hex) (root : Hex) : Bool :=
  (proof.foldl hashPair leaf.toLowerCase).toLowerCase = root.toLowerCase

namespace Commit

variable (keccak : List UInt8 → Digest)

def hashPair : Hex → Hex → Hex := sortedPairHash keccak

/-- `Map<string, Hex[]>`, in insertion order. -/
abbrev Proofs := List (Hex × List Hex)

namespace Proofs

def get (proofs : Proofs) (leaf : Hex) : Option (List Hex) :=
  (proofs.find? (fun e => e.1 == leaf)).map Prod.snd

/-- `proofs.get(leaf)!.push(sibling)`. -/
def push (proofs : Proofs) (leaf sibling : Hex) : Proofs :=
  proofs.map (fun e => if e.1 = leaf then (e.1, e.2 ++ [sibling]) else e)

def pushAll (proofs : Proofs) (group : List Hex) (sibling : Hex) : Proofs :=
  group.foldl (fun ps leaf => ps.push leaf sibling) proofs

end Proofs

structure MerkleTree where
  root : Hex
  leafCount : Nat
  /-- lowercased and sorted -/
  leaves : List Hex
  /-- leaf hash to its ordered siblings, from leaf to root -/
  proofs : Proofs

/-- The body of the `while`: one pass over `level` and `groups` in steps of two. -/
def mergeLevel : List Hex → List (List Hex) → Proofs → List Hex × List (List Hex) × Proofs
  | left :: right :: level, leftGroup :: rightGroup :: groups, proofs =>
    let proofs := proofs.pushAll leftGroup right
    let proofs := proofs.pushAll rightGroup left
    let (nextLevel, nextGroups, proofs) := mergeLevel level groups proofs
    (hashPair keccak left right :: nextLevel, (leftGroup ++ rightGroup) :: nextGroups, proofs)
  -- an odd node is promoted unchanged
  | [left], [leftGroup], proofs => ([left], [leftGroup], proofs)
  | _, _, proofs => ([], [], proofs)

theorem mergeLevel_length (level : List Hex) (groups : List (List Hex)) (proofs : Proofs) :
    (mergeLevel keccak level groups proofs).1.length ≤ (level.length + 1) / 2 := by
  fun_induction mergeLevel keccak level groups proofs with
  | case1 left right level leftGroup rightGroup groups proofs ps qs nextLevel nextGroups out he ih =>
    simp only [he, List.length_cons] at ih ⊢
    omega
  | case2 | case3 => simp

/-- `while (level.length > 1)`. -/
def mergeLevels (level : List Hex) (groups : List (List Hex)) (proofs : Proofs) : List Hex × Proofs :=
  if 1 < level.length then
    let next := mergeLevel keccak level groups proofs
    mergeLevels next.1 next.2.1 next.2.2
  else (level, proofs)
termination_by level.length
decreasing_by
  have := mergeLevel_length keccak level groups proofs
  omega

def buildMerkleTree (leaves : List Hex) : Except String MerkleTree :=
  if leaves.isEmpty then .error "buildMerkleTree: no leaves"
  else
    let ordered := (Js.setOf (leaves.map Hex.toLowerCase)).insertionSort (· ≤ ·)
    let out := mergeLevels keccak ordered (ordered.map (fun l => [l])) (ordered.map (fun l => (l, [])))
    match out.1 with
    | root :: _ => .ok { root, leafCount := ordered.length, leaves := ordered, proofs := out.2 }
    | [] => .error "level[0] is undefined"

def verifyProof (leaf : Hex) (proof : List Hex) (root : Hex) : Bool :=
  foldVerifies (hashPair keccak) leaf proof root

/-- One entry of the commit row's `leaves`, as `recordBatch` in job.ts stores it. -/
structure StoredLeaf where
  reportHash : Hex
  /-- `indexOf`: `none` stands for -1 -/
  index : Option Nat
  proof : List Hex
  deriving DecidableEq

def storedLeaf (tree : MerkleTree) (reportHash : Hex) : StoredLeaf :=
  let h := reportHash.toLowerCase
  { reportHash := h, index := tree.leaves.idxOf? h, proof := (tree.proofs.get h).getD [] }

end Commit

namespace Api

variable (keccak : List UInt8 → Digest)

def hashPair : Hex → Hex → Hex := sortedPairHash keccak

def verifyProof (leaf : Hex) (proof : List Hex) (root : Hex) : Bool :=
  foldVerifies (hashPair keccak) leaf proof root

namespace VerifyReceipt

def hashPair : Hex → Hex → Hex := sortedPairHash keccak

structure Check where
  name : String
  ok : Bool
  detail : String

def stringToHex (s : String) : Hex := Hex.bytesToHex s.toUTF8.toList

/-- The `merkle` check of `verifyReceiptOffline`: the leaf is the hash recomputed
from the receipt's own bytes, never one the receipt states. -/
def merkleCheck (canonicalJson : String) (proof : Option (List Hex)) (merkleRoot : Option Hex) : Check :=
  match proof, merkleRoot with
  | some proof, some merkleRoot =>
    let recomputed := keccak256 keccak (stringToHex canonicalJson)
    let node := proof.foldl (hashPair keccak) recomputed.toLowerCase
    { name := "merkle"
      ok := node.toLowerCase = merkleRoot.toLowerCase
      detail := s!"folded proof ({proof.length} siblings) = {node.toString}" }
  | _, _ =>
    { name := "merkle", ok := false
      detail := "no Merkle proof — the report is not in a committed batch" }

end VerifyReceipt
end Api

end LaunchAuditor
