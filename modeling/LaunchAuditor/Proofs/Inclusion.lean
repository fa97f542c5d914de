import LaunchAuditor.Proofs.Merkle

namespace LaunchAuditor.Proofs.Inclusion
open Commit PairTree Merkle

variable {keccak : List UInt8 → Digest}

/-- A proof is accepted when it folds to the root; the letter case of the leaf
and of the root does not matter. -/
theorem foldVerifies_iff (leaf root : Hex) (proof : List Hex) :
    foldVerifies (sortedPairHash keccak) leaf proof root = true ↔
      (proof.map Hex.toLowerCase).foldl (sortedPairHash keccak) leaf.toLowerCase = root.toLowerCase := by
  rw [fold_toLowerCase, foldVerifies, decide_eq_true_iff]

/-- The stored proof opens the builder's tree at the stored leaf. -/
theorem storedLeaf_opens {tree : MerkleTree} {t : MTree Hex} {leaves : List Hex}
    (hb : Built keccak t tree.root tree.proofs) (ht : t.leaves = ordered leaves) {l : Hex}
    (hl : l ∈ leaves) : Opens (sortedPairHash keccak) t l.toLowerCase (storedLeaf tree l).proof := by
  have hm : l.toLowerCase ∈ t.leaves := ht ▸ (mem_ordered leaves _).mpr ⟨l, hl, rfl⟩
  obtain ⟨p, hp, ho⟩ := hb.opens _ hm
  simpa [storedLeaf, hp] using ho

theorem storedLeaf_fold {tree : MerkleTree} {t : MTree Hex} {leaves : List Hex}
    (hb : Built keccak t tree.root tree.proofs) (ht : t.leaves = ordered leaves) {l : Hex}
    (hl : l ∈ leaves) :
    (storedLeaf tree l).proof.foldl (sortedPairHash keccak) l.toLowerCase = tree.root := by
  rw [(storedLeaf_opens hb ht hl).fold sortedPairHash_comm, hb.root]

theorem ordered_length (leaves : List Hex) :
    (ordered leaves).length = (leaves.map Hex.toLowerCase).dedup.length := by
  apply List.Perm.length_eq
  apply (List.perm_ext_iff_of_nodup (ordered_nodup leaves) (List.nodup_dedup _)).mpr
  intro a
  rw [mem_ordered, List.mem_dedup, List.mem_map]

/-- Completeness of all three readers. Nothing is assumed of the hash, and the
32-byte length of the leaves is not needed. -/
theorem inclusion_complete (keccak : List UInt8 → Digest) (leaves : List Hex) (hne : leaves ≠ []) :
    ∃ tree, buildMerkleTree keccak leaves = .ok tree ∧ ∀ l ∈ leaves,
      (∀ leaf root : Hex, leaf.toLowerCase = l.toLowerCase → root.toLowerCase = tree.root.toLowerCase →
        Commit.verifyProof keccak leaf (storedLeaf tree l).proof root = true ∧
        Api.verifyProof keccak leaf (storedLeaf tree l).proof root = true ∧
        ∀ canonicalJson : String,
          (keccak256 keccak (Api.VerifyReceipt.stringToHex canonicalJson)).toLowerCase = leaf.toLowerCase →
          (Api.VerifyReceipt.merkleCheck keccak canonicalJson (some (storedLeaf tree l).proof) (some root)).ok
            = true) ∧
      (storedLeaf tree l).proof.length ≤ Nat.clog 2 (leaves.map Hex.toLowerCase).dedup.length := by
  obtain ⟨tree, t, hok, hb, ht, -, -, hheight, -⟩ := buildMerkleTree_spec keccak hne
  refine ⟨tree, hok, ?_⟩
  intro l hl
  have hfold := storedLeaf_fold hb ht hl
  refine ⟨?_, ?_⟩
  · intro leaf root hleaf hroot
    have haccept : foldVerifies (sortedPairHash keccak) leaf (storedLeaf tree l).proof root = true := by
      rw [foldVerifies, decide_eq_true_iff, hleaf, hroot, hfold]
    refine ⟨haccept, haccept, ?_⟩
    intro json hjson
    refine decide_eq_true ?_
    change (List.foldl (sortedPairHash keccak) (keccak256 keccak _).toLowerCase _).toLowerCase = _
    rw [hjson, hleaf, hroot, hfold]
  · have hlen := (storedLeaf_opens hb ht hl).length_le
    rw [← ordered_length]
    omega

/-- Two sample leaves, one of them in capitals. -/
def sampleLeaves : List Hex := [List.replicate 64 (.ofNibble 0), List.replicate 64 (.upper (Fin.last 5))]

theorem inclusion_complete_sample :
    ∃ tree, buildMerkleTree constantDigest sampleLeaves = .ok tree ∧ ∀ l ∈ sampleLeaves,
      (∀ leaf root : Hex, leaf.toLowerCase = l.toLowerCase → root.toLowerCase = tree.root.toLowerCase →
        Commit.verifyProof constantDigest leaf (storedLeaf tree l).proof root = true ∧
        Api.verifyProof constantDigest leaf (storedLeaf tree l).proof root = true ∧
        ∀ canonicalJson : String,
          (keccak256 constantDigest (Api.VerifyReceipt.stringToHex canonicalJson)).toLowerCase =
            leaf.toLowerCase →
          (Api.VerifyReceipt.merkleCheck constantDigest canonicalJson (some (storedLeaf tree l).proof)
            (some root)).ok = true) ∧
      (storedLeaf tree l).proof.length ≤ Nat.clog 2 (sampleLeaves.map Hex.toLowerCase).dedup.length :=
  inclusion_complete constantDigest sampleLeaves (by decide)

/-- The pairs `buildMerkleTree` hashes, level by level. -/
def builderPairs (keccak : List UInt8 → Digest) (leaves : List Hex) : List (Hex × Hex) :=
  combined (Commit.hashPair keccak) (ordered leaves)

/-- The pairs `verifyProof` hashes, as the 32-byte values they stand for. -/
def verifierPairs (keccak : List UInt8 → Digest) (candidate : Hex) (proof : List Hex) : List (Hex × Hex) :=
  foldPairs (Commit.hashPair keccak) candidate.toLowerCase (proof.map Hex.toLowerCase)

/-- The pair hash has no collision between what the builder and the verifier
hash, and neither a leaf nor the candidate is one of these hashes. Injectivity
on all pairs of 32-byte values would give this, but no 32-byte hash has it. -/
structure CollisionFree (keccak : List UInt8 → Digest) (leaves : List Hex) (candidate : Hex)
    (proof : List Hex) : Prop where
  pairs : ∀ x ∈ builderPairs keccak leaves, ∀ y ∈ verifierPairs keccak candidate proof,
    Commit.hashPair keccak x.1 x.2 = Commit.hashPair keccak y.1 y.2 → SamePair x y
  leaf : ∀ l ∈ leaves, ∀ y ∈ verifierPairs keccak candidate proof,
    l.toLowerCase ≠ Commit.hashPair keccak y.1 y.2
  start : ∀ x ∈ builderPairs keccak leaves, candidate.toLowerCase ≠ Commit.hashPair keccak x.1 x.2

/-- A proof of any length accepted by either reader belongs to a leaf of the list. -/
theorem inclusion_sound (keccak : List UInt8 → Digest) (leaves : List Hex) (candidate : Hex)
    (proof : List Hex) (tree : MerkleTree) (hbuild : buildMerkleTree keccak leaves = .ok tree)
    (hfree : CollisionFree keccak leaves candidate proof)
    (haccept : Commit.verifyProof keccak candidate proof tree.root = true ∨
      Api.verifyProof keccak candidate proof tree.root = true) :
    ∃ l ∈ leaves, l.toLowerCase = candidate.toLowerCase := by
  have hne : leaves ≠ [] := by
    rintro rfl
    simp [buildMerkleTree] at hbuild
  obtain ⟨tree', t, hok, hb, ht, -, -, -, hpairs⟩ := buildMerkleTree_spec keccak hne
  obtain rfl := Except.ok.inj (hok.symm.trans hbuild)
  have hfold : (proof.map Hex.toLowerCase).foldl (sortedPairHash keccak) candidate.toLowerCase =
      t.value (sortedPairHash keccak) := by
    have h := (foldVerifies_iff candidate tree'.root proof).mp (haccept.elim id id)
    rw [h, hb.root]
    cases t with
    | leaf a =>
      have ha : a ∈ ordered leaves := ht ▸ List.mem_singleton_self a
      obtain ⟨l, _, rfl⟩ := (mem_ordered leaves a).mp ha
      exact Hex.toLowerCase_toLowerCase l
    | node l r => exact toLowerCase_sortedPairHash _ _
  have hsep : Separated (sortedPairHash keccak) t candidate.toLowerCase (proof.map Hex.toLowerCase) := by
    refine ⟨fun x hx => hfree.pairs x (hpairs x hx), ?_, fun x hx => hfree.start x (hpairs x hx)⟩
    intro a ha y hy
    obtain ⟨l, hl, rfl⟩ := (mem_ordered leaves a).mp (ht ▸ ha)
    exact hfree.leaf l hl y hy
  exact (mem_ordered leaves _).mp (ht ▸ hsep.sound hfold)

theorem build_sampleLeaves : ∃ tree, buildMerkleTree constantDigest sampleLeaves = .ok tree ∧
    tree.root = Commit.hashPair constantDigest (List.replicate 64 (.ofNibble 0)) (List.replicate 64 (.upper (Fin.last 5))) := by
  have hroot : (buildMerkleTree constantDigest sampleLeaves).toOption.map MerkleTree.root =
      some (Commit.hashPair constantDigest (List.replicate 64 (.ofNibble 0)) (List.replicate 64 (.upper (Fin.last 5)))) := by
    decide +kernel
  cases hb : buildMerkleTree constantDigest sampleLeaves with
  | error why => simp [hb, Except.toOption] at hroot
  | ok tree => exact ⟨tree, rfl, by simpa [hb, Except.toOption] using hroot⟩

theorem inclusion_sound_sample :
    ∃ l ∈ sampleLeaves, l.toLowerCase = Hex.toLowerCase (List.replicate 64 (.ofNibble 0)) := by
  obtain ⟨tree, hok, hroot⟩ := build_sampleLeaves
  refine inclusion_sound constantDigest sampleLeaves (List.replicate 64 (.ofNibble 0))
    [List.replicate 64 (.upper (Fin.last 5))] tree hok ⟨?_, ?_, ?_⟩ (Or.inl ?_)
  · decide +kernel
  · decide +kernel
  · decide +kernel
  · rw [hroot]
    decide +kernel

end LaunchAuditor.Proofs.Inclusion
