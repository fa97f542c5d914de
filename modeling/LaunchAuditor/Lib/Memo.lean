import Mathlib.Data.List.Basic
import Mathlib.Data.List.Induction

/-! Computations that may fail and that leave a memo table behind, failed or not. -/

namespace Memo

/-- What came of a computation, with the state it leaves. -/
abbrev Result (ε σ α : Type) := Except ε α × σ

section Sequence
variable {ε σ α β : Type}

/-- `await` twice: the second does not run when the first has thrown. -/
def andThen (x : Result ε σ α) (f : α → σ → Result ε σ β) : Result ε σ β :=
  match x with
  | (.ok a, s) => f a s
  | (.error e, s) => (.error e, s)

@[simp] theorem andThen_ok (a : α) (s : σ) (f : α → σ → Result ε σ β) :
    andThen ((Except.ok a, s) : Result ε σ α) f = f a s := rfl

@[simp] theorem andThen_error (e : ε) (s : σ) (f : α → σ → Result ε σ β) :
    andThen ((Except.error e, s) : Result ε σ α) f = (.error e, s) := rfl

theorem andThen_of_ok {x : Result ε σ α} {a : α} (h : x.1 = .ok a) (f : α → σ → Result ε σ β) :
    andThen x f = f a x.2 := by
  obtain ⟨r, s⟩ := x
  obtain rfl : r = .ok a := h
  rfl

/-- What both parts keep, the whole keeps. -/
theorem andThen_keeps (Inv : σ → Prop) {x : Result ε σ α} {f : α → σ → Result ε σ β} (hx : Inv x.2)
    (hf : ∀ a s, x = (.ok a, s) → Inv s → Inv (f a s).2) : Inv (andThen x f).2 := by
  obtain ⟨r, s⟩ := x
  cases r with
  | ok a => exact hf a s rfl hx
  | error e => exact hx

end Sequence

section Table
variable {κ ν ε : Type} [DecidableEq κ]

/-- The entries, the latest first. -/
abbrev Table (κ ν : Type) := List (κ × ν)

/-- A value that is found is not computed again, and one that was computed is kept. -/
def lookup (compute : Except ε ν) (k : κ) (t : Table κ ν) : Result ε (Table κ ν) ν :=
  match t.lookup k with
  | some v => (.ok v, t)
  | none =>
    match compute with
    | .ok v => (.ok v, (k, v) :: t)
    | .error e => (.error e, t)

/-- Every entry is what it should be. -/
def Sound (good : κ → ν → Prop) (t : Table κ ν) : Prop := ∀ k v, t.lookup k = some v → good k v

variable {good : κ → ν → Prop} {t : Table κ ν}

theorem sound_nil : Sound good ([] : Table κ ν) := by
  intro k v h
  cases h

theorem Sound.cons (h : Sound good t) {k : κ} {v : ν} (hv : good k v) : Sound good ((k, v) :: t) := by
  intro l w hl
  rw [List.lookup_cons] at hl
  by_cases hk : l = k
  · subst hk
    simp only [beq_self_eq_true] at hl
    exact Option.some.inj hl ▸ hv
  · have hne : (l == k) = false := by simpa using hk
    simp only [hne] at hl
    exact h l w hl

theorem Sound.imp {good' : κ → ν → Prop} (h : Sound good t) (himp : ∀ k v, good k v → good' k v) : Sound good' t :=
  fun k v hv => himp k v (h k v hv)

/-- A sound table stays sound when what is computed is good. -/
theorem Sound.lookup (h : Sound good t) {compute : Except ε ν} {k : κ} (hc : ∀ v, compute = .ok v → good k v) :
    Sound good (Memo.lookup compute k t).2 := by
  unfold Memo.lookup
  cases hk : t.lookup k with
  | some v => exact h
  | none =>
    cases hv : compute with
    | ok v => exact h.cons (hc v hv)
    | error e => exact h

/-- Where only one value is good, a sound table answers as an empty one does. -/
theorem Sound.lookup_eq (h : Sound good t) {compute : Except ε ν} {k : κ} {v : ν} (hc : compute = .ok v)
    (hone : ∀ w, good k w → w = v) : (Memo.lookup compute k t).1 = .ok v := by
  unfold Memo.lookup
  cases hk : t.lookup k with
  | some w => rw [hone w (h k w hk)]
  | none => rw [hc]

/-- What a sequence of computations leaves in an empty table. -/
def after (calls : List (κ × Except ε ν)) : Table κ ν := calls.foldl (fun t c => (lookup c.2 c.1 t).2) []

/-- The first computation for the key that did not fail. -/
def firstOk (calls : List (κ × Except ε ν)) (k : κ) : Option ν :=
  calls.findSome? fun c => if c.1 = k then c.2.toOption else none

theorem after_lookup (calls : List (κ × Except ε ν)) (k : κ) : (after calls).lookup k = firstOk calls k := by
  induction calls using List.reverseRecOn with
  | nil => rfl
  | append_singleton calls c ih =>
    obtain ⟨l, compute⟩ := c
    have hstep : after (calls ++ [(l, compute)]) = (lookup compute l (after calls)).2 := by
      simp [after]
    have hfirst : firstOk (calls ++ [(l, compute)]) k =
        (firstOk calls k).or (if l = k then compute.toOption else none) := by
      simp only [firstOk, List.findSome?_append, List.findSome?_cons, List.findSome?_nil]
      cases (if l = k then compute.toOption else none) with
      | none => rfl
      | some v => rfl
    rw [hstep, hfirst, ← ih]
    unfold lookup
    by_cases hk : l = k
    · subst hk
      cases hl : (after calls).lookup l with
      | some v => simp [hl]
      | none =>
        cases compute with
        | ok v => simp [Except.toOption]
        | error e => simp [hl, Except.toOption]
    · have hne : (k == l) = false := by simpa using fun h => hk h.symm
      cases hl : (after calls).lookup l with
      | some v => simp [hk]
      | none =>
        cases compute with
        | ok v => simp [List.lookup_cons, hne, hk]
        | error e => simp [hk]

/-- A key is answered with what its first computation gave. -/
theorem lookup_after (calls : List (κ × Except ε ν)) (compute : Except ε ν) (k : κ) :
    (lookup compute k (after calls)).1 = match firstOk calls k with
      | some v => .ok v
      | none => compute := by
  unfold lookup
  rw [after_lookup]
  cases firstOk calls k with
  | some v => rfl
  | none =>
    cases compute with
    | ok v => rfl
    | error e => rfl

end Table

end Memo
