import Mathlib.Data.List.Nodup

/-! Maps that remember the order in which their keys came in. -/

namespace OrderedMap

variable {κ ν : Type} [DecidableEq κ]

/-- The value of a key that is there changes where it stands; a new key goes to the end. -/
def alter (k : κ) (f : Option ν → ν) : List (κ × ν) → List (κ × ν)
  | [] => [(k, f none)]
  | (l, v) :: m => if l = k then (l, f (some v)) :: m else (l, v) :: alter k f m

/-- `map.set(k, v)` -/
def set (k : κ) (v : ν) (m : List (κ × ν)) : List (κ × ν) := alter k (fun _ => v) m

/-- `map.set(k, v)` for a key that is not there, and nothing for one that is. -/
def setNew (k : κ) (v : ν) (m : List (κ × ν)) : List (κ × ν) := alter k (fun old => old.getD v) m

def keys (m : List (κ × ν)) : List κ := m.map Prod.fst

variable {k l : κ} {f : Option ν → ν} {v : ν} {m : List (κ × ν)}

theorem lookup_alter : (alter k f m).lookup l = if l = k then some (f (m.lookup k)) else m.lookup l := by
  induction m with
  | nil =>
    by_cases h : l = k
    · simp [alter, h]
    · simp [alter, h, List.lookup_cons, beq_eq_false_iff_ne.mpr h]
  | cons e m ih =>
    obtain ⟨j, w⟩ := e
    unfold alter
    by_cases hj : j = k
    · subst hj
      by_cases h : l = j
      · simp [h]
      · simp [h, List.lookup_cons, beq_eq_false_iff_ne.mpr h]
    · have hkj : (k == j) = false := beq_eq_false_iff_ne.mpr (Ne.symm hj)
      rw [if_neg hj]
      by_cases h : l = j
      · subst h
        simp [hj]
      · rw [List.lookup_cons, List.lookup_cons, List.lookup_cons, beq_eq_false_iff_ne.mpr h, hkj]
        exact ih

@[simp] theorem lookup_set : (set k v m).lookup l = if l = k then some v else m.lookup l := lookup_alter

@[simp] theorem lookup_setNew :
    (setNew k v m).lookup l = if l = k then some ((m.lookup k).getD v) else m.lookup l := lookup_alter

@[simp] theorem mem_keys_alter : l ∈ keys (alter k f m) ↔ l = k ∨ l ∈ keys m := by
  induction m with
  | nil => simp [alter, keys]
  | cons e m ih =>
    obtain ⟨j, w⟩ := e
    unfold alter
    by_cases hj : j = k
    · subst hj
      simp [keys]
    · rw [if_neg hj]
      simp only [keys, List.map_cons, List.mem_cons] at ih ⊢
      rw [ih]
      exact or_left_comm

theorem keys_alter_nodup (h : (keys m).Nodup) : (keys (alter k f m)).Nodup := by
  induction m with
  | nil => simp [alter, keys]
  | cons e m ih =>
    obtain ⟨j, w⟩ := e
    obtain ⟨hj, hm⟩ := List.nodup_cons.mp h
    unfold alter
    by_cases hjk : j = k
    · rw [if_pos hjk]
      exact h
    · rw [if_neg hjk]
      refine List.nodup_cons.mpr ⟨?_, ih hm⟩
      intro hmem
      rcases mem_keys_alter.mp hmem with rfl | hmem
      · exact hjk rfl
      · exact hj hmem

/-- A search among the keys comes upon the new key last, or where it stood. -/
theorem find?_keys_alter (p : κ → Bool) : (keys (alter k f m)).find? p = (keys m ++ [k]).find? p := by
  induction m with
  | nil => rfl
  | cons e m ih =>
    obtain ⟨j, w⟩ := e
    unfold alter
    by_cases hj : j = k
    · subst hj
      rw [if_pos rfl]
      cases hp : p j with
      | true => simp [keys, hp]
      | false => simp [keys, hp]
    · rw [if_neg hj]
      simp only [keys, List.map_cons, List.cons_append, List.find?_cons] at ih ⊢
      rw [ih]

/-- What the new entry has and the others keep. -/
theorem forall_alter {P : κ × ν → Prop} (h : ∀ e ∈ m, P e) (hnone : P (k, f none))
    (hsome : ∀ v, P (k, v) → P (k, f (some v))) : ∀ e ∈ alter k f m, P e := by
  induction m with
  | nil =>
    intro e he
    rw [List.mem_singleton.mp he]
    exact hnone
  | cons a m ih =>
    obtain ⟨j, v⟩ := a
    obtain ⟨ha, hm⟩ := List.forall_mem_cons.mp h
    unfold alter
    by_cases hj : j = k
    · subst hj
      rw [if_pos rfl]
      exact List.forall_mem_cons.mpr ⟨hsome v ha, hm⟩
    · rw [if_neg hj]
      exact List.forall_mem_cons.mpr ⟨ha, ih hm⟩

/-- An entry is what its key is looked up as. -/
theorem mem_iff_lookup (h : (keys m).Nodup) : (k, v) ∈ m ↔ m.lookup k = some v := by
  induction m with
  | nil => simp
  | cons e m ih =>
    obtain ⟨j, w⟩ := e
    obtain ⟨hj, hm⟩ := List.nodup_cons.mp h
    by_cases hjk : k = j
    · subst hjk
      have hnot : (k, v) ∉ m := fun hmem => hj (List.mem_map.mpr ⟨_, hmem, rfl⟩)
      simp [hnot, eq_comm]
    · rw [List.lookup_cons, beq_eq_false_iff_ne.mpr hjk]
      simp [hjk, ih hm]

theorem alter_ne_nil (k : κ) (f : Option ν → ν) (m : List (κ × ν)) : alter k f m ≠ [] := by
  cases m with
  | nil => exact List.cons_ne_nil _ _
  | cons e m =>
    obtain ⟨j, w⟩ := e
    unfold alter
    split
    · exact List.cons_ne_nil _ _
    · exact List.cons_ne_nil _ _

/-- A flag counts once. -/
theorem countP_set (k : κ) (m : List (κ × Bool)) :
    (set k true m).countP Prod.snd = (set k false m).countP Prod.snd + 1 ∧
      (set k true m).length = (set k false m).length := by
  unfold set
  induction m with
  | nil => exact ⟨rfl, rfl⟩
  | cons e m ih =>
    obtain ⟨j, w⟩ := e
    unfold alter
    by_cases hj : j = k
    · rw [if_pos hj, if_pos hj]
      exact ⟨by simp, rfl⟩
    · rw [if_neg hj, if_neg hj, List.countP_cons, List.countP_cons, List.length_cons, List.length_cons, ih.1, ih.2]
      exact ⟨by omega, rfl⟩

/-- Two maps with the same keys stay so, whatever relates their values. -/
theorem forall₂_alter {ν' : Type} {R : κ × ν → κ × ν' → Prop} {m' : List (κ × ν')} {g : Option ν' → ν'}
    (hkey : ∀ a b, R a b → a.1 = b.1) (h : List.Forall₂ R m m') (hnone : R (k, f none) (k, g none))
    (hsome : ∀ v w, R (k, v) (k, w) → R (k, f (some v)) (k, g (some w))) :
    List.Forall₂ R (alter k f m) (alter k g m') := by
  induction h with
  | nil => exact List.Forall₂.cons hnone List.Forall₂.nil
  | @cons a b m m' hab hrest ih =>
    obtain ⟨j, v⟩ := a
    obtain ⟨j', w⟩ := b
    obtain rfl : j = j' := hkey _ _ hab
    unfold alter
    by_cases hj : j = k
    · subst hj
      rw [if_pos rfl, if_pos rfl]
      exact List.Forall₂.cons (hsome v w hab) hrest
    · rw [if_neg hj, if_neg hj]
      exact List.Forall₂.cons hab ih

theorem forall₂_lookup {ν' : Type} {R : κ × ν → κ × ν' → Prop} {m' : List (κ × ν')} (hkey : ∀ a b, R a b → a.1 = b.1)
    (h : List.Forall₂ R m m') (k : κ) :
    (m.lookup k = none ∧ m'.lookup k = none) ∨
      ∃ v w, m.lookup k = some v ∧ m'.lookup k = some w ∧ R (k, v) (k, w) := by
  induction h with
  | nil => exact Or.inl ⟨rfl, rfl⟩
  | @cons a b m m' hab _ ih =>
    obtain ⟨j, v⟩ := a
    obtain ⟨j', w⟩ := b
    obtain rfl : j = j' := hkey _ _ hab
    by_cases hk : k = j
    · subst hk
      exact Or.inr ⟨v, w, by simp, by simp, hab⟩
    · rw [List.lookup_cons, List.lookup_cons, beq_eq_false_iff_ne.mpr hk]
      exact ih

theorem mem_keys_iff : k ∈ keys m ↔ ∃ v, m.lookup k = some v := by
  rw [← Option.isSome_iff_exists, List.lookup_isSome_iff]
  simp [keys]

/-- A map that is made of some keys and of what a function has for them. -/
theorem lookup_filterMap (g : κ → Option ν) (ks : List κ) :
    (ks.filterMap fun k => (g k).map fun v => (k, v)).lookup k = if k ∈ ks then g k else none := by
  induction ks with
  | nil => rfl
  | cons j ks ih =>
    rw [List.filterMap_cons]
    cases hj : g j with
    | none =>
      simp only [Option.map_none, ih]
      by_cases hk : k = j
      · simp [hk, hj]
      · simp [hk]
    | some v =>
      simp only [Option.map_some, List.lookup_cons, ih]
      by_cases hk : k = j
      · simp [hk, hj]
      · simp [hk, beq_eq_false_iff_ne.mpr hk]

end OrderedMap
