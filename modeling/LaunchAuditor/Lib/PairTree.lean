import Mathlib.Data.Nat.Log
import Mathlib.Data.List.Induction

namespace PairTree

variable {α β : Type}

/-- A binary tree whose inner nodes carry no data of their own. -/
inductive MTree (α : Type) where
  | leaf (a : α)
  | node (l r : MTree α)

namespace MTree

/-- The value a tree stands for when two children are combined by `f`. -/
def value (f : α → α → α) : MTree α → α
  | .leaf a => a
  | .node l r => f (l.value f) (r.value f)

def leaves : MTree α → List α
  | .leaf a => [a]
  | .node l r => l.leaves ++ r.leaves

def height : MTree α → Nat
  | .leaf _ => 0
  | .node l r => max l.height r.height + 1

/-- Every pair of values that is combined while the tree is evaluated. -/
def pairs (f : α → α → α) : MTree α → List (α × α)
  | .leaf _ => []
  | .node l r => (l.value f, r.value f) :: (l.pairs f ++ r.pairs f)

end MTree

/-- A leaf and the values of the siblings met on the way up from it. -/
inductive Opens (f : α → α → α) : MTree α → α → List α → Prop where
  | leaf (a : α) : Opens f (.leaf a) a []
  | left {l r : MTree α} {a : α} {p : List α} (h : Opens f l a p) :
      Opens f (.node l r) a (p ++ [r.value f])
  | right {l r : MTree α} {a : α} {p : List α} (h : Opens f r a p) :
      Opens f (.node l r) a (p ++ [l.value f])

/-- Folding the siblings of an opening reaches the value of the tree. -/
theorem Opens.fold {f : α → α → α} {t : MTree α} {a : α} {p : List α}
    (hf : ∀ x y, f x y = f y x) (h : Opens f t a p) : p.foldl f a = t.value f := by
  induction h with
  | leaf a => rfl
  | left h ih => simp only [List.foldl_append, List.foldl_cons, List.foldl_nil, ih, MTree.value]
  | right h ih =>
    simp only [List.foldl_append, List.foldl_cons, List.foldl_nil, ih, MTree.value]
    exact hf _ _

theorem Opens.length_le {f : α → α → α} {t : MTree α} {a : α} {p : List α}
    (h : Opens f t a p) : p.length ≤ t.height := by
  induction h with
  | leaf a => exact Nat.le_refl 0
  | left h ih | right h ih =>
    simp only [List.length_append, List.length_cons, List.length_nil, MTree.height]
    omega

/-- The pairs combined while a proof is folded from `a`. -/
def foldPairs (f : α → α → α) : α → List α → List (α × α)
  | _, [] => []
  | a, s :: p => (a, s) :: foldPairs f (f a s) p

theorem foldPairs_append (f : α → α → α) (a : α) (p : List α) (s : α) :
    foldPairs f a (p ++ [s]) = foldPairs f a p ++ [(p.foldl f a, s)] := by
  induction p generalizing a with
  | nil => rfl
  | cons x p ih => simp only [List.cons_append, foldPairs, ih, List.foldl_cons]

/-- Two pairs with the same entries, in either order. -/
def SamePair (p q : α × α) : Prop :=
  (p.1 = q.1 ∧ p.2 = q.2) ∨ (p.1 = q.2 ∧ p.2 = q.1)

instance [DecidableEq α] (p q : α × α) : Decidable (SamePair p q) :=
  inferInstanceAs (Decidable (_ ∨ _))

/-- Nothing folded by a proof collides with what the tree combined: equal
results come from the same pair, and no leaf or start value is a result of the
other side. Only pairs that really occur are constrained. -/
structure Separated (f : α → α → α) (t : MTree α) (a : α) (p : List α) : Prop where
  pairs : ∀ x ∈ t.pairs f, ∀ y ∈ foldPairs f a p, f x.1 x.2 = f y.1 y.2 → SamePair x y
  leaves : ∀ x ∈ t.leaves, ∀ y ∈ foldPairs f a p, x ≠ f y.1 y.2
  start : ∀ x ∈ t.pairs f, a ≠ f x.1 x.2

/-- A proof of any length that folds to the tree's value starts at a leaf. The
induction peels the last sibling, which fixes the child the fold came from. -/
theorem Separated.sound {f : α → α → α} {t : MTree α} {a : α} {p : List α}
    (hs : Separated f t a p) (h : p.foldl f a = t.value f) : a ∈ t.leaves := by
  induction p using List.reverseRecOn generalizing t with
  | nil =>
    cases t with
    | leaf b => simpa [MTree.leaves, MTree.value] using h
    | node l r => exact absurd h (hs.start (l.value f, r.value f) (by simp [MTree.pairs]))
  | append_singleton p s ih =>
    have hlast : (p.foldl f a, s) ∈ foldPairs f a (p ++ [s]) := by simp [foldPairs_append]
    have hinit : ∀ y ∈ foldPairs f a p, y ∈ foldPairs f a (p ++ [s]) := by
      intro y hy
      simp [foldPairs_append, hy]
    simp only [List.foldl_append, List.foldl_cons, List.foldl_nil] at h
    cases t with
    | leaf b => exact absurd h.symm (hs.leaves b (by simp [MTree.leaves]) _ hlast)
    | node l r =>
      have hl : Separated f l a p :=
        ⟨fun x hx y hy => hs.pairs x (by simp [MTree.pairs, hx]) y (hinit y hy),
          fun x hx y hy => hs.leaves x (by simp [MTree.leaves, hx]) y (hinit y hy),
          fun x hx => hs.start x (by simp [MTree.pairs, hx])⟩
      have hr : Separated f r a p :=
        ⟨fun x hx y hy => hs.pairs x (by simp [MTree.pairs, hx]) y (hinit y hy),
          fun x hx y hy => hs.leaves x (by simp [MTree.leaves, hx]) y (hinit y hy),
          fun x hx => hs.start x (by simp [MTree.pairs, hx])⟩
      have hsame : SamePair (l.value f, r.value f) (p.foldl f a, s) :=
        hs.pairs _ (by simp [MTree.pairs]) _ hlast h.symm
      rcases hsame with ⟨he, _⟩ | ⟨_, he⟩
      · exact List.mem_append_left _ (ih hl he.symm)
      · exact List.mem_append_right _ (ih hr he.symm)

/-- One level up: neighbours are combined and an odd last entry is promoted. -/
def pairUp (g : β → β → β) : List β → List β
  | x :: y :: rest => g x y :: pairUp g rest
  | rest => rest

theorem pairUp_length (g : β → β → β) (xs : List β) :
    (pairUp g xs).length = (xs.length + 1) / 2 := by
  fun_induction pairUp g xs with
  | case1 x y rest ih => simp only [List.length_cons, ih]; omega
  | case2 rest h =>
    match rest, h with
    | [], _ => simp
    | [x], _ => simp
    | x :: y :: zs, h => exact absurd rfl (h x y zs)

theorem pairUp_length_lt (g : β → β → β) {xs : List β} (h : 1 < xs.length) :
    (pairUp g xs).length < xs.length := by
  rw [pairUp_length]
  omega

theorem pairUp_map {γ : Type} (g : β → β → β) (k : γ → γ → γ) (m : β → γ)
    (hm : ∀ x y, m (g x y) = k (m x) (m y)) (xs : List β) :
    (pairUp g xs).map m = pairUp k (xs.map m) := by
  fun_induction pairUp g xs with
  | case1 x y rest ih => simp only [List.map_cons, hm, ih, pairUp]
  | case2 rest h =>
    match rest, h with
    | [], _ => rfl
    | [x], _ => rfl
    | x :: y :: zs, h => exact absurd rfl (h x y zs)

/-- The neighbours combined on one level. -/
def adjacent : List β → List (β × β)
  | x :: y :: rest => (x, y) :: adjacent rest
  | _ => []

/-- Every pair combined from a level up to the root. -/
def combined (f : α → α → α) (level : List α) : List (α × α) :=
  if 1 < level.length then adjacent level ++ combined f (pairUp f level) else []
termination_by level.length
decreasing_by exact pairUp_length_lt f (by assumption)

theorem pairUp_node_leaves (ts : List (MTree α)) :
    (pairUp MTree.node ts).flatMap MTree.leaves = ts.flatMap MTree.leaves := by
  fun_induction pairUp MTree.node ts with
  | case1 x y rest ih => simp only [List.flatMap_cons, MTree.leaves, ih, List.append_assoc]
  | case2 rest h => rfl

theorem pairUp_node_value (f : α → α → α) (ts : List (MTree α)) :
    (pairUp MTree.node ts).map (MTree.value f) = pairUp f (ts.map (MTree.value f)) :=
  pairUp_map MTree.node f (MTree.value f) (fun _ _ => rfl) ts

theorem pairUp_node_height {k : Nat} {ts : List (MTree α)} (h : ∀ t ∈ ts, t.height ≤ k) :
    ∀ t ∈ pairUp MTree.node ts, t.height ≤ k + 1 := by
  fun_induction pairUp MTree.node ts with
  | case1 x y rest ih =>
    intro t ht
    rcases List.mem_cons.mp ht with rfl | ht
    · have hx := h x (by simp)
      have hy := h y (by simp)
      simp only [MTree.height]
      omega
    · exact ih (fun u hu => h u (by simp [hu])) t ht
  | case2 rest hr => exact fun t ht => Nat.le_succ_of_le (h t ht)

theorem pairUp_node_pairs (f : α → α → α) (ts : List (MTree α)) :
    ∀ t ∈ pairUp MTree.node ts, ∀ p ∈ t.pairs f,
      p ∈ adjacent (ts.map (MTree.value f)) ∨ ∃ u ∈ ts, p ∈ u.pairs f := by
  fun_induction pairUp MTree.node ts with
  | case1 x y rest ih =>
    intro t ht p hp
    rcases List.mem_cons.mp ht with rfl | ht
    · simp only [MTree.pairs, List.mem_cons, List.mem_append] at hp
      rcases hp with rfl | hp | hp
      · left; simp [adjacent]
      · exact Or.inr ⟨x, by simp, hp⟩
      · exact Or.inr ⟨y, by simp, hp⟩
    · rcases ih t ht p hp with ha | ⟨u, hu, hp⟩
      · left; simp [adjacent, ha]
      · exact Or.inr ⟨u, by simp [hu], hp⟩
  | case2 rest h => exact fun t ht p hp => Or.inr ⟨t, ht, hp⟩

/-- The number of levels above `n` entries drops by one when they are paired. -/
theorem clog_pairUp {n : Nat} (h : 1 < n) : Nat.clog 2 n = Nat.clog 2 ((n + 1) / 2) + 1 := by
  rw [Nat.clog_of_two_le (by omega) h]
  rfl

end PairTree
