import LaunchAuditor.Commit.Merkle

namespace LaunchAuditor.Proofs.Merkle
open Commit PairTree

variable {keccak : List UInt8 → Digest}

theorem sortedPairHash_toLowerCase (a b : Hex) :
    sortedPairHash keccak a.toLowerCase b.toLowerCase = sortedPairHash keccak a b := by
  unfold sortedPairHash Hex.concatHex
  rw [← Hex.toLowerCase_append, ← Hex.toLowerCase_append, keccak256_toLowerCase,
    keccak256_toLowerCase, Hex.toLowerCase_toLowerCase, Hex.toLowerCase_toLowerCase]

/-- The order of the two arguments is forgotten: when the lower-case strings
agree, the two concatenations have the same bytes. -/
theorem sortedPairHash_comm (a b : Hex) : sortedPairHash keccak a b = sortedPairHash keccak b a := by
  rw [← sortedPairHash_toLowerCase a b, ← sortedPairHash_toLowerCase b a]
  unfold sortedPairHash
  simp only [Hex.toLowerCase_toLowerCase]
  rcases lt_trichotomy a.toLowerCase b.toLowerCase with h | h | h
  · rw [if_pos h.le, if_neg (not_le.mpr h)]
  · rw [h]
  · rw [if_neg (not_le.mpr h), if_pos h.le]

theorem toLowerCase_sortedPairHash (a b : Hex) :
    (sortedPairHash keccak a b).toLowerCase = sortedPairHash keccak a b := by
  unfold sortedPairHash
  split <;> exact toLowerCase_keccak256 keccak _

/-- Proof elements may come back in any letter case. -/
theorem fold_toLowerCase (a : Hex) (proof : List Hex) :
    (proof.map Hex.toLowerCase).foldl (sortedPairHash keccak) a.toLowerCase =
      (proof.foldl (sortedPairHash keccak) a.toLowerCase).toLowerCase := by
  induction proof generalizing a with
  | nil => simp
  | cons s proof ih =>
    simp only [List.map_cons, List.foldl_cons]
    have hl : sortedPairHash keccak a.toLowerCase s.toLowerCase =
        (sortedPairHash keccak a.toLowerCase s).toLowerCase := by
      rw [toLowerCase_sortedPairHash, ← sortedPairHash_toLowerCase a.toLowerCase s,
        Hex.toLowerCase_toLowerCase]
    rw [hl, ih, toLowerCase_sortedPairHash]

theorem get_push (ps : Commit.Proofs) (leaf sibling a : Hex) :
    (ps.push leaf sibling).get a =
      if a = leaf then (ps.get a).map (· ++ [sibling]) else ps.get a := by
  unfold Commit.Proofs.get Commit.Proofs.push
  induction ps with
  | nil => simp
  | cons e ps ih =>
    simp only [List.map_cons, List.find?_cons]
    by_cases he : e.1 = leaf <;> by_cases ha : e.1 = a
    · subst he; subst ha; simp
    · have hne : a ≠ leaf := by rintro rfl; exact ha he
      simp only [if_pos he, beq_eq_false_iff_ne.mpr ha, ih, if_neg hne]
    · have hne : a ≠ leaf := by rintro rfl; exact he ha
      simp [ha, if_neg hne]
    · simp only [if_neg he, beq_eq_false_iff_ne.mpr ha, ih]

theorem get_pushAll_other {group : List Hex} {a : Hex} (h : a ∉ group) (ps : Commit.Proofs)
    (sibling : Hex) : (ps.pushAll group sibling).get a = ps.get a := by
  unfold Commit.Proofs.pushAll
  induction group generalizing ps with
  | nil => rfl
  | cons x group ih =>
    obtain ⟨hx, hg⟩ := not_or.mp (fun hc => h (List.mem_cons.mpr hc))
    simp only [List.foldl_cons]
    rw [ih hg, get_push, if_neg hx]

theorem get_pushAll {group : List Hex} {a : Hex} (hn : group.Nodup) (h : a ∈ group)
    (ps : Commit.Proofs) (sibling : Hex) :
    (ps.pushAll group sibling).get a = (ps.get a).map (· ++ [sibling]) := by
  unfold Commit.Proofs.pushAll
  induction group generalizing ps with
  | nil => simp at h
  | cons x group ih =>
    obtain ⟨hx, hg⟩ := List.nodup_cons.mp hn
    simp only [List.foldl_cons]
    by_cases hxa : a = x
    · subst hxa
      have hother := get_pushAll_other hx (ps.push a sibling) sibling
      unfold Commit.Proofs.pushAll at hother
      rw [hother, get_push, if_pos rfl]
    · have ha : a ∈ group := (List.mem_cons.mp h).resolve_left hxa
      rw [ih hg ha, get_push, if_neg hxa]

/-- The loop's three variables as a forest: node values, the leaves flowing
through each node, and for each of them the siblings collected so far. -/
structure Forest (keccak : List UInt8 → Digest) (trees : List (MTree Hex)) (level : List Hex)
    (groups : List (List Hex)) (proofs : Commit.Proofs) : Prop where
  level : level = trees.map (MTree.value (sortedPairHash keccak))
  groups : groups = trees.map MTree.leaves
  opens : ∀ t ∈ trees, ∀ a ∈ t.leaves, ∃ p, proofs.get a = some p ∧ Opens (sortedPairHash keccak) t a p

/-- Pushing to leaves outside a forest leaves it alone. -/
theorem Forest.pushAll_other {trees : List (MTree Hex)} {level : List Hex} {groups : List (List Hex)}
    {proofs : Commit.Proofs} (h : Forest keccak trees level groups proofs) {group : List Hex}
    (hd : ∀ a ∈ trees.flatMap MTree.leaves, a ∉ group) (sibling : Hex) :
    Forest keccak trees level groups (proofs.pushAll group sibling) := by
  refine ⟨h.level, h.groups, ?_⟩
  intro t ht a ha
  rw [get_pushAll_other (hd a (List.mem_flatMap.mpr ⟨t, ht, ha⟩))]
  exact h.opens t ht a ha

/-- What one pass of the inner loop does: the trees are paired, and leaves of
no tree keep their proofs. -/
theorem mergeLevel_forest {trees : List (MTree Hex)} {level : List Hex} {groups : List (List Hex)}
    {proofs : Commit.Proofs} (h : Forest keccak trees level groups proofs)
    (hn : (trees.flatMap MTree.leaves).Nodup) :
    Forest keccak (pairUp MTree.node trees) (mergeLevel keccak level groups proofs).1
      (mergeLevel keccak level groups proofs).2.1 (mergeLevel keccak level groups proofs).2.2 ∧
    ∀ a ∉ trees.flatMap MTree.leaves, (mergeLevel keccak level groups proofs).2.2.get a = proofs.get a := by
  fun_induction pairUp MTree.node trees generalizing level groups proofs with
  | case1 l r rest ih =>
    obtain ⟨hlevel, hgroups, hopens⟩ := h
    subst hlevel hgroups
    simp only [List.flatMap_cons] at hn
    obtain ⟨hnl, hnrest, hdl⟩ := List.nodup_append.mp hn
    obtain ⟨hnr, hnrest, hdr⟩ := List.nodup_append.mp hnrest
    -- leaves of `l` and `r` get their sibling; the rest of the level is untouched
    have hrest : Forest keccak rest (rest.map (MTree.value (sortedPairHash keccak)))
        (rest.map MTree.leaves) proofs :=
      ⟨rfl, rfl, fun t ht => hopens t (by simp [ht])⟩
    have hl : ∀ a ∈ rest.flatMap MTree.leaves, a ∉ l.leaves :=
      fun a ha hl => hdl a hl a (List.mem_append_right _ ha) rfl
    have hr : ∀ a ∈ rest.flatMap MTree.leaves, a ∉ r.leaves :=
      fun a ha hr => hdr a hr a ha rfl
    have hpushed := (hrest.pushAll_other hl (r.value (sortedPairHash keccak))).pushAll_other hr
      (l.value (sortedPairHash keccak))
    obtain ⟨hforest, hother⟩ := ih hpushed hnrest
    simp only [List.map_cons, mergeLevel]
    refine ⟨⟨?_, ?_, ?_⟩, ?_⟩
    · simp only [List.map_cons, MTree.value, hashPair, hforest.level]
    · simp only [List.map_cons, MTree.leaves, hforest.groups]
    · intro t ht a ha
      rcases List.mem_cons.mp ht with rfl | ht
      · rcases List.mem_append.mp ha with hl | hr
        · obtain ⟨p, hp, ho⟩ := hopens l (by simp) a hl
          refine ⟨p ++ [r.value (sortedPairHash keccak)], ?_, ho.left⟩
          rw [hother a (fun hm => hdl a hl a (List.mem_append_right _ hm) rfl),
            get_pushAll_other (fun hm => hdl a hl a (List.mem_append_left _ hm) rfl),
            get_pushAll hnl hl, hp]
          rfl
        · obtain ⟨p, hp, ho⟩ := hopens r (by simp) a hr
          refine ⟨p ++ [l.value (sortedPairHash keccak)], ?_, ho.right⟩
          rw [hother a (fun hm => hdr a hr a hm rfl), get_pushAll hnr hr,
            get_pushAll_other (fun hm => hdl a hm a (List.mem_append_left _ hr) rfl), hp]
          rfl
      · exact hforest.opens t ht a ha
    · intro a ha
      simp only [List.flatMap_cons, List.mem_append, not_or] at ha
      rw [hother a ha.2.2, get_pushAll_other ha.2.1, get_pushAll_other ha.1]
  | case2 rest hr =>
    obtain ⟨hlevel, hgroups, hopens⟩ := h
    subst hlevel hgroups
    rcases rest with _ | ⟨x, _ | ⟨y, zs⟩⟩
    · exact ⟨⟨rfl, rfl, by simp⟩, fun a _ => rfl⟩
    · exact ⟨⟨rfl, rfl, hopens⟩, fun a _ => rfl⟩
    · exact absurd rfl (hr x y zs)

/-- What the builder's result is a picture of. -/
structure Built (keccak : List UInt8 → Digest) (t : MTree Hex) (root : Hex) (proofs : Commit.Proofs) : Prop where
  root : root = t.value (sortedPairHash keccak)
  opens : ∀ a ∈ t.leaves, ∃ p, proofs.get a = some p ∧ Opens (sortedPairHash keccak) t a p

/-- The `while` loop ends with one node: the tree over all leaves, as deep as
the number of passes, combining only neighbours of some level. -/
theorem mergeLevels_built {trees : List (MTree Hex)} {level : List Hex} {groups : List (List Hex)}
    {proofs : Commit.Proofs} (h : Forest keccak trees level groups proofs) (hne : trees ≠ [])
    (hn : (trees.flatMap MTree.leaves).Nodup) (k : Nat) (hk : ∀ t ∈ trees, t.height ≤ k) :
    ∃ t, (mergeLevels keccak level groups proofs).1 = [t.value (sortedPairHash keccak)] ∧
      Built keccak t (t.value (sortedPairHash keccak)) (mergeLevels keccak level groups proofs).2 ∧
      t.leaves = trees.flatMap MTree.leaves ∧ t.height ≤ k + Nat.clog 2 trees.length ∧
      ∀ p ∈ t.pairs (sortedPairHash keccak),
        p ∈ combined (sortedPairHash keccak) level ∨ ∃ u ∈ trees, p ∈ u.pairs (sortedPairHash keccak) := by
  fun_induction mergeLevels keccak level groups proofs generalizing trees k with
  | case1 level groups proofs hlen next =>
    rename_i ih
    have hlt : 1 < trees.length := by simpa [h.level] using hlen
    obtain ⟨hforest, _⟩ := mergeLevel_forest h hn
    have hne' : pairUp MTree.node trees ≠ [] := by
      intro he
      have hz := pairUp_length MTree.node trees
      rw [he, List.length_nil] at hz
      omega
    obtain ⟨t, hroot, hbuilt, hleaves, hheight, hpairs⟩ := ih hforest hne'
      (by rw [pairUp_node_leaves]; exact hn) (k + 1) (pairUp_node_height hk)
    refine ⟨t, hroot, hbuilt, by rw [hleaves, pairUp_node_leaves], ?_, ?_⟩
    · rw [pairUp_length] at hheight
      rw [clog_pairUp hlt]
      omega
    · intro p hp
      have hnext : next.1 = pairUp (sortedPairHash keccak) level := by
        rw [hforest.level, pairUp_node_value, h.level]
      rcases hpairs p hp with hc | ⟨u, hu, hp⟩
      · left
        rw [combined, if_pos hlen]
        exact List.mem_append_right _ (hnext ▸ hc)
      · rcases pairUp_node_pairs _ trees u hu p hp with ha | hu
        · left
          rw [combined, if_pos hlen]
          exact List.mem_append_left _ (h.level ▸ ha)
        · exact Or.inr hu
  | case2 level groups proofs hlen =>
    obtain ⟨t, rfl⟩ : ∃ t, trees = [t] := by
      have : trees.length ≤ 1 := by simpa [h.level] using hlen
      match trees, hne with
      | [t], _ => exact ⟨t, rfl⟩
      | x :: y :: zs, _ => simp at this
    refine ⟨t, by simp [h.level], ⟨rfl, h.opens t (by simp)⟩, by simp, ?_, fun p hp => Or.inr ⟨t, by simp, hp⟩⟩
    have := hk t (by simp)
    omega

/-- `ordered`: the distinct lower-case leaves, sorted. -/
def ordered (leaves : List Hex) : List Hex :=
  (Js.setOf (leaves.map Hex.toLowerCase)).insertionSort (· ≤ ·)

theorem mem_ordered (leaves : List Hex) (a : Hex) :
    a ∈ ordered leaves ↔ ∃ l ∈ leaves, l.toLowerCase = a := by
  rw [ordered, (List.perm_insertionSort _ _).mem_iff, Js.mem_setOf, List.mem_map]

theorem ordered_nodup (leaves : List Hex) : (ordered leaves).Nodup :=
  (List.perm_insertionSort _ _).nodup_iff.mpr (Js.setOf_nodup _)

/-- The starting forest: one single-leaf tree for each leaf. -/
theorem leaf_forest (keccak : List UInt8 → Digest) (xs : List Hex) :
    Forest keccak (xs.map MTree.leaf) xs (xs.map (fun l => [l])) (xs.map (fun l => (l, []))) := by
  refine ⟨by simp [Function.comp_def, MTree.value], by simp [Function.comp_def, MTree.leaves], ?_⟩
  intro t ht a ha
  obtain ⟨x, hx, rfl⟩ := List.mem_map.mp ht
  obtain rfl := List.mem_singleton.mp ha
  refine ⟨[], ?_, .leaf a⟩
  have hf : (xs.map (fun l => (l, ([] : List Hex)))).find? (fun e => e.1 == a) = some (a, []) := by
    rw [List.find?_map]
    have : xs.find? ((fun e : Hex × List Hex => e.1 == a) ∘ fun l => (l, [])) = some a := by
      cases hfind : xs.find? ((fun e : Hex × List Hex => e.1 == a) ∘ fun l => (l, [])) with
      | none => exact absurd (List.find?_eq_none.mp hfind a hx) (by simp)
      | some b => simpa using List.find?_some hfind
    rw [this]
    rfl
  simp [Commit.Proofs.get, hf]

theorem flatMap_leaf (xs : List Hex) : (xs.map MTree.leaf).flatMap MTree.leaves = xs := by
  induction xs with
  | nil => rfl
  | cons x xs ih => simp only [List.map_cons, List.flatMap_cons, ih, MTree.leaves, List.singleton_append]

/-- `buildMerkleTree` succeeds on every non-empty list and its result is the
picture of one tree over the distinct leaves. -/
theorem buildMerkleTree_spec (keccak : List UInt8 → Digest) {leaves : List Hex} (hne : leaves ≠ []) :
    ∃ tree t, buildMerkleTree keccak leaves = .ok tree ∧ Built keccak t tree.root tree.proofs ∧
      t.leaves = ordered leaves ∧ tree.leaves = ordered leaves ∧
      tree.leafCount = (ordered leaves).length ∧ t.height ≤ Nat.clog 2 (ordered leaves).length ∧
      ∀ p ∈ t.pairs (sortedPairHash keccak), p ∈ combined (sortedPairHash keccak) (ordered leaves) := by
  have hone : ordered leaves ≠ [] := by
    obtain ⟨l, ls, rfl⟩ := List.exists_cons_of_ne_nil hne
    intro he
    have : l.toLowerCase ∈ ordered (l :: ls) := (mem_ordered _ _).mpr ⟨l, by simp, rfl⟩
    simp [he] at this
  obtain ⟨t, hroot, hbuilt, hleaves, hheight, hpairs⟩ := mergeLevels_built
    (leaf_forest keccak (ordered leaves)) (by simpa using hone)
    (by rw [flatMap_leaf]; exact ordered_nodup leaves) 0
    (by intro t ht; obtain ⟨x, _, rfl⟩ := List.mem_map.mp ht; exact Nat.le_refl 0)
  have hempty : leaves.isEmpty = false := by simpa [List.isEmpty_iff] using hne
  rw [flatMap_leaf] at hleaves
  rw [List.length_map, Nat.zero_add] at hheight
  refine ⟨{ root := t.value (sortedPairHash keccak), leafCount := (ordered leaves).length,
            leaves := ordered leaves, proofs := _ }, t, ?_, hbuilt, hleaves, rfl, rfl, hheight, ?_⟩
  · simp only [buildMerkleTree, hempty, Bool.false_eq_true, if_false]
    rw [ordered] at hroot
    simp only [hroot]
    rfl
  · intro p hp
    rcases hpairs p hp with hc | ⟨u, hu, hp⟩
    · exact hc
    · obtain ⟨x, _, rfl⟩ := List.mem_map.mp hu
      simp [MTree.pairs] at hp

end LaunchAuditor.Proofs.Merkle
