import Mathlib.Data.List.Sort
import Mathlib.Data.List.Nodup
import Mathlib.Data.Prod.Lex

/-! Lists whose entries are told apart by a key: the first entry of each key, the stable
order by the key, and the list that both lead back to. -/

namespace Keyed

variable {α κ : Type}

section Uniq
variable [DecidableEq κ] (key : α → κ)

def push (acc : List α) (x : α) : List α := if acc.any (fun a => key a = key x) then acc else acc ++ [x]

/-- The first entry of each key, in the order they come in. -/
def uniq (xs : List α) : List α := xs.foldl (push key) []

theorem push_nodup {acc : List α} (h : (acc.map key).Nodup) (x : α) : ((push key acc x).map key).Nodup := by
  unfold push
  split
  · exact h
  · rename_i hx
    rw [List.map_append]
    refine List.nodup_append.mpr ⟨h, by simp, ?_⟩
    intro k hk l hl he
    obtain ⟨a, ha, rfl⟩ := List.mem_map.mp hk
    have hlx : l = key x := by simpa using hl
    exact hx (List.any_eq_true.mpr ⟨a, ha, by simpa using he.trans hlx⟩)

theorem uniq_nodup (xs : List α) : ((uniq key xs).map key).Nodup := by
  have hfold : ∀ acc : List α, (acc.map key).Nodup → ((xs.foldl (push key) acc).map key).Nodup := by
    induction xs with
    | nil => exact fun _ h => h
    | cons x xs ih => exact fun acc h => ih _ (push_nodup key h x)
  exact hfold [] List.nodup_nil

/-- An entry with the key is there afterwards. -/
theorem push_key (acc : List α) (x : α) : ∃ a ∈ push key acc x, key a = key x := by
  unfold push
  split
  · rename_i hx
    obtain ⟨a, ha, he⟩ := List.any_eq_true.mp hx
    exact ⟨a, ha, by simpa using he⟩
  · exact ⟨x, by simp, rfl⟩

variable {key}

theorem mem_push_self {acc : List α} {x a : α} (h : a ∈ acc) : a ∈ push key acc x := by
  unfold push
  split
  · exact h
  · exact List.mem_append_left _ h

theorem mem_of_mem_push {acc : List α} {x a : α} (h : a ∈ push key acc x) : a ∈ acc ∨ a = x := by
  unfold push at h
  split at h
  · exact Or.inl h
  · simpa using h

theorem foldl_push_mem {xs acc : List α} {a : α} (h : a ∈ acc) : a ∈ xs.foldl (push key) acc := by
  induction xs generalizing acc with
  | nil => exact h
  | cons x xs ih => exact ih (mem_push_self h)

theorem mem_of_mem_foldl_push {xs acc : List α} {a : α} (h : a ∈ xs.foldl (push key) acc) : a ∈ acc ∨ a ∈ xs := by
  induction xs generalizing acc with
  | nil => exact Or.inl h
  | cons x xs ih =>
    rcases ih h with h | h
    · rcases mem_of_mem_push h with h | rfl
      · exact Or.inl h
      · exact Or.inr List.mem_cons_self
    · exact Or.inr (List.mem_cons_of_mem _ h)

/-- Every key that is pushed is there in the end. -/
theorem foldl_push_key {xs acc : List α} {x : α} (h : x ∈ xs) : ∃ a ∈ xs.foldl (push key) acc, key a = key x := by
  induction xs generalizing acc with
  | nil => cases h
  | cons y xs ih =>
    rcases List.mem_cons.mp h with rfl | h
    · obtain ⟨a, ha, he⟩ := push_key key acc x
      have hmem : a ∈ xs.foldl (push key) (push key acc x) := foldl_push_mem ha
      exact ⟨a, hmem, he⟩
    · exact ih h

theorem mem_push {acc : List α} {x a : α} (hkey : ∀ b ∈ acc, key b = key x → b = x) :
    a ∈ push key acc x ↔ a ∈ acc ∨ a = x := by
  unfold push
  split
  · rename_i hx
    obtain ⟨b, hb, he⟩ := List.any_eq_true.mp hx
    obtain rfl := hkey b hb (by simpa using he)
    constructor
    · exact Or.inl
    · rintro (h | rfl)
      · exact h
      · exact hb
  · simp

/-- Where one key stands for one entry, nothing is lost. -/
theorem mem_uniq {xs : List α} (hkey : ∀ a ∈ xs, ∀ b ∈ xs, key a = key b → a = b) {a : α} :
    a ∈ uniq key xs ↔ a ∈ xs := by
  have hfold : ∀ (rest acc : List α), (∀ b ∈ rest, b ∈ xs) → (∀ b ∈ acc, b ∈ xs) →
      (a ∈ rest.foldl (push key) acc ↔ a ∈ acc ∨ a ∈ rest) := by
    intro rest
    induction rest with
    | nil => simp
    | cons x rest ih =>
      intro acc hrest hacc
      have hx : x ∈ xs := hrest x List.mem_cons_self
      have hpush : ∀ b : α, b ∈ push key acc x ↔ b ∈ acc ∨ b = x :=
        fun b => mem_push fun c hc he => hkey c (hacc c hc) x hx he
      rw [List.foldl_cons, ih _ (fun b hb => hrest b (List.mem_cons_of_mem _ hb)), hpush, List.mem_cons, or_assoc]
      intro b hb
      rcases (hpush b).mp hb with hb | rfl
      · exact hacc b hb
      · exact hx
  rw [uniq, hfold xs [] (fun _ h => h) (by simp)]
  simp

end Uniq

section Order
variable [LinearOrder κ] (key : α → κ)

/-- `sort` by a comparison of the keys, which is stable. -/
def inOrder (xs : List α) : List α := xs.insertionSort fun a b => key a ≤ key b

@[simp] theorem mem_inOrder {xs : List α} {a : α} : a ∈ inOrder key xs ↔ a ∈ xs := List.mem_insertionSort _

theorem inOrder_pairwise (xs : List α) : (inOrder key xs).Pairwise fun a b => key a ≤ key b := by
  have htotal : Std.Total fun a b : α => key a ≤ key b := ⟨fun a b => le_total (key a) (key b)⟩
  have htrans : IsTrans α fun a b => key a ≤ key b := ⟨fun _ _ _ => le_trans⟩
  exact List.pairwise_insertionSort _ xs

variable {key}

/-- One key for one entry, from a strict order. -/
theorem key_injOn {ys : List α} (h : ys.Pairwise fun a b => key a < key b) {a b : α} (ha : a ∈ ys) (hb : b ∈ ys)
    (he : key a = key b) : a = b := by
  induction ys with
  | nil => cases ha
  | cons y ys ih =>
    obtain ⟨hy, hys⟩ := List.pairwise_cons.mp h
    rcases List.mem_cons.mp ha with hay | hay
    · rcases List.mem_cons.mp hb with hby | hby
      · rw [hay, hby]
      · exact absurd he (ne_of_lt (hay ▸ hy b hby))
    · rcases List.mem_cons.mp hb with hby | hby
      · exact absurd he.symm (ne_of_lt (hby ▸ hy a hay))
      · exact ih hys hay hby

/-- However often and in whatever order the entries of a strictly ordered list come in, taking
the first of each key leaves them once each. -/
theorem uniq_perm {xs ys : List α} (hy : ys.Pairwise fun a b => key a < key b) (hm : ∀ a, a ∈ xs ↔ a ∈ ys) :
    (uniq key xs).Perm ys := by
  have hinj : ∀ a ∈ xs, ∀ b ∈ xs, key a = key b → a = b :=
    fun a ha b hb he => key_injOn hy ((hm a).mp ha) ((hm b).mp hb) he
  have hnodup : (uniq key xs).Nodup := (uniq_nodup key xs).of_map
  have hynodup : ys.Nodup := hy.imp fun h he => absurd (congrArg key he) (ne_of_lt h)
  apply (List.perm_ext_iff_of_nodup hnodup hynodup).mpr
  intro a
  rw [mem_uniq hinj, hm]

theorem inOrder_eq {xs ys : List α} (hy : ys.Pairwise fun a b => key a < key b) (hperm : xs.Perm ys) :
    inOrder key xs = ys := by
  have hp : (inOrder key xs).Perm ys := (List.perm_insertionSort _ _).trans hperm
  refine List.Perm.eq_of_pairwise ?_ (inOrder_pairwise key _) (hy.imp le_of_lt) hp
  intro a b ha hb hab hba
  exact key_injOn hy (hp.mem_iff.mp ha) hb (le_antisymm hab hba)

theorem inOrder_of_ordered {xs : List α} (h : xs.Pairwise fun a b => key a ≤ key b) : inOrder key xs = xs :=
  h.insertionSort_eq

/-- Lists in strict order are the same when their members are. -/
theorem eq_of_mem_iff {xs ys : List α} (hx : xs.Pairwise fun a b => key a < key b)
    (hy : ys.Pairwise fun a b => key a < key b) (hm : ∀ a, a ∈ xs ↔ a ∈ ys) : xs = ys := by
  have hxn : xs.Nodup := hx.imp fun h he => absurd (congrArg key he) (ne_of_lt h)
  have hyn : ys.Nodup := hy.imp fun h he => absurd (congrArg key he) (ne_of_lt h)
  have hperm : xs.Perm ys := (List.perm_ext_iff_of_nodup hxn hyn).mpr hm
  rw [← inOrder_eq hx (List.Perm.refl xs), inOrder_eq hy hperm]

theorem inOrder_uniq {xs ys : List α} (hy : ys.Pairwise fun a b => key a < key b) (hm : ∀ a, a ∈ xs ↔ a ∈ ys) :
    inOrder key (uniq key xs) = ys :=
  inOrder_eq hy (uniq_perm hy hm)

end Order

section Cuts
variable {p q : α → Bool} {xs : List α}

/-- Two parts of a list, the second nowhere before the first. -/
theorem filter_append_filter (h : xs.Pairwise fun a b => q a = true → p b = false)
    (hd : ∀ a ∈ xs, q a = true → p a = false) : xs.filter p ++ xs.filter q = xs.filter fun a => p a || q a := by
  induction xs with
  | nil => rfl
  | cons x xs ih =>
    obtain ⟨hx, hxs⟩ := List.pairwise_cons.mp h
    have hrest := ih hxs fun a ha => hd a (List.mem_cons_of_mem _ ha)
    cases hq : q x with
    | true =>
      have hnone : (x :: xs).filter p = [] := by
        apply List.filter_eq_nil_iff.mpr
        intro a ha
        rcases List.mem_cons.mp ha with rfl | ha
        · simp [hd a List.mem_cons_self hq]
        · simp [hx a ha hq]
      rw [hnone, List.nil_append]
      apply List.filter_congr
      intro a ha
      rw [List.filter_eq_nil_iff] at hnone
      simp [hnone a ha]
    | false =>
      cases hp : p x with
      | true => simp [hp, hq, hrest]
      | false => simp [hp, hq, hrest]

/-- What holds of an entry only if it holds of all before it cuts off a prefix. -/
theorem filter_prefix (h : xs.Pairwise fun a b => p b = true → p a = true) : xs.filter p <+: xs := by
  have hcut : xs.filter p ++ xs.filter (fun a => !p a) = xs.filter fun a => p a || !p a := by
    apply filter_append_filter
    · refine h.imp ?_
      intro a b hab hn
      by_contra hb
      simp [hab (by simpa using hb)] at hn
    · simp
  have hall : (xs.filter fun a => p a || !p a) = xs := List.filter_eq_self.mpr fun a _ => by simp
  exact ⟨_, hcut.trans hall⟩

end Cuts

section Sources
variable {β : Type} {key : α → κ} {g : α → List β} {p : β → Bool}

/-- Sources of at most one hit, with keys of their own, have at most one hit together when all hits are under one key. -/
theorem countP_flatMap_le_one {xs : List α} (hnodup : (xs.map key).Nodup) (hone : ∀ a ∈ xs, (g a).countP p ≤ 1)
    (hsame : ∀ a ∈ xs, ∀ b ∈ xs, (∃ y ∈ g a, p y = true) → (∃ y ∈ g b, p y = true) → key a = key b) :
    (xs.flatMap g).countP p ≤ 1 := by
  induction xs with
  | nil => exact Nat.zero_le 1
  | cons a xs ih =>
    obtain ⟨ha, hxs⟩ := List.nodup_cons.mp hnodup
    rw [List.flatMap_cons, List.countP_append]
    have hrest := ih hxs (fun b hb => hone b (List.mem_cons_of_mem _ hb))
      fun b hb c hc => hsame b (List.mem_cons_of_mem _ hb) c (List.mem_cons_of_mem _ hc)
    by_cases hhit : ∃ y ∈ g a, p y = true
    · have hnone : (xs.flatMap g).countP p = 0 := by
        rw [List.countP_eq_zero]
        intro y hy hp
        obtain ⟨b, hb, hy⟩ := List.mem_flatMap.mp hy
        have he := hsame a List.mem_cons_self b (List.mem_cons_of_mem _ hb) hhit ⟨y, hy, hp⟩
        exact ha (he ▸ List.mem_map_of_mem hb)
      rw [hnone]
      exact hone a List.mem_cons_self
    · have hnone : (g a).countP p = 0 := List.countP_eq_zero.mpr fun y hy hp => hhit ⟨y, hy, hp⟩
      omega

end Sources

section Updates
variable {β : Type} [DecidableEq κ] (key : α → κ) (g : β → α → α)

/-- The entries under the key are changed, the others are not. -/
def update (hit : κ × β) (xs : List α) : List α := xs.map fun a => if key a = hit.1 then g hit.2 a else a

variable {key g}

/-- Updates under keys of their own change each entry once, at the one under its key. -/
theorem foldl_update (hkey : ∀ b a, key (g b a) = key a) {hits : List (κ × β)} (hn : (hits.map Prod.fst).Nodup)
    (xs : List α) : hits.foldl (fun xs hit => update key g hit xs) xs =
      xs.map fun a => ((hits.find? fun hit => key a = hit.1).map fun hit => g hit.2 a).getD a := by
  induction hits generalizing xs with
  | nil => simp
  | cons hit hits ih =>
    rw [List.map_cons, List.nodup_cons] at hn
    rw [List.foldl_cons, ih hn.2, update, List.map_map]
    apply List.map_congr_left
    intro a _
    by_cases he : key a = hit.1
    · have hnone : hits.find? (fun h => key (g hit.2 a) = h.1) = none := by
        rw [List.find?_eq_none]
        intro h hh hk
        have hmem : h.1 = hit.1 := by
          rw [← he, ← hkey hit.2 a]
          exact (by simpa using hk : key (g hit.2 a) = h.1).symm
        exact hn.1 (hmem ▸ List.mem_map_of_mem hh)
      simp [he, hnone]
    · simp [he]

/-- The hits read off a list with keys of its own lead back to its entries. -/
theorem find?_hits {f : α → β} {p : α → Bool} {xs : List α} (hn : (xs.map key).Nodup) {a : α} (ha : a ∈ xs) :
    ((xs.filter p).map fun x => (key x, f x)).find? (fun hit => key a = hit.1) =
      if p a then some (key a, f a) else none := by
  have hsame : ∀ x ∈ xs, key x = key a → x = a := fun x hx he => List.inj_on_of_nodup_map hn hx ha he
  split
  · rename_i hp
    cases hf : ((xs.filter p).map fun x => (key x, f x)).find? (fun hit => key a = hit.1) with
    | none =>
      have hmem : (key a, f a) ∈ (xs.filter p).map fun x => (key x, f x) :=
        List.mem_map_of_mem (List.mem_filter.mpr ⟨ha, hp⟩)
      exact absurd (List.find?_eq_none.mp hf _ hmem) (by simp)
    | some hit =>
      obtain ⟨x, hx, rfl⟩ := List.mem_map.mp (List.mem_of_find?_eq_some hf)
      have he : key a = key x := by simpa using List.find?_some hf
      rw [hsame x (List.mem_filter.mp hx).1 he.symm]
  · rename_i hp
    rw [List.find?_eq_none]
    intro hit hhit he
    obtain ⟨x, hx, rfl⟩ := List.mem_map.mp hhit
    have hxa := hsame x (List.mem_filter.mp hx).1 (by simpa using he : key a = key x).symm
    exact hp (hxa ▸ (List.mem_filter.mp hx).2)

end Updates

end Keyed
