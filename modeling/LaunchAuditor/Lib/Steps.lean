import Mathlib.Algebra.GroupWithZero.Nat
import Mathlib.Data.List.Basic

/-! Runs of a deterministic labelled step function, invariants that need a side
condition on every step, and positions in a trace that grows at its end. -/

namespace Steps

section Runs
variable {σ ι : Type} (step : σ → ι → σ)

def run (s : σ) (is : List ι) : σ := is.foldl step s

@[simp] theorem run_nil (s : σ) : run step s [] = s := rfl

@[simp] theorem run_cons (s : σ) (i : ι) (is : List ι) : run step s (i :: is) = run step (step s i) is := rfl

/-- Every step of the run is taken in a state that meets the condition. -/
def Always (ok : σ → ι → Prop) : σ → List ι → Prop
  | _, [] => True
  | s, i :: is => ok s i ∧ Always ok (step s i) is

theorem Always.and {step : σ → ι → σ} {ok ok' : σ → ι → Prop} {s : σ} {is : List ι}
    (h : Always step ok s is) (h' : Always step ok' s is) :
    Always step (fun s i => ok s i ∧ ok' s i) s is := by
  induction is generalizing s with
  | nil => trivial
  | cons i is ih => exact ⟨⟨h.1, h'.1⟩, ih h.2 h'.2⟩

theorem Always.append {step : σ → ι → σ} {ok : σ → ι → Prop} {s : σ} {is js : List ι}
    (h : Always step ok s is) (h' : Always step ok (run step s is) js) : Always step ok s (is ++ js) := by
  induction is generalizing s with
  | nil => exact h'
  | cons i is ih => exact ⟨h.1, ih h.2 h'⟩

theorem always_free {step : σ → ι → σ} {ok : σ → ι → Prop} (h : ∀ s i, ok s i) (s : σ) (is : List ι) :
    Always step ok s is := by
  induction is generalizing s with
  | nil => trivial
  | cons i is ih => exact ⟨h s i, ih _⟩

theorem always_of_forall {step : σ → ι → σ} {ok : ι → Prop} {is : List ι} (h : ∀ i ∈ is, ok i) (s : σ) :
    Always step (fun _ i => ok i) s is := by
  induction is generalizing s with
  | nil => trivial
  | cons i is ih => exact ⟨h i (by simp), ih (fun j hj => h j (by simp [hj])) _⟩

/-- The induction over runs: what every permitted step keeps, a permitted run keeps. -/
theorem invariant_run {step : σ → ι → σ} {ok : σ → ι → Prop} (Inv : σ → Prop)
    (hstep : ∀ s i, Inv s → ok s i → Inv (step s i)) {s : σ} {is : List ι} (hs : Inv s)
    (hok : Always step ok s is) : Inv (run step s is) := by
  induction is generalizing s with
  | nil => exact hs
  | cons i is ih => exact ih (hstep s i hs hok.1) hok.2

theorem invariant_run_free {step : σ → ι → σ} (Inv : σ → Prop) (hstep : ∀ s i, Inv s → Inv (step s i))
    {s : σ} {is : List ι} (hs : Inv s) : Inv (run step s is) := by
  induction is generalizing s with
  | nil => exact hs
  | cons i is ih => exact ih (hstep s i hs)

/-- What a permitted step does in a state of the invariant, every step of a permitted run does. -/
theorem always_of_invariant {step : σ → ι → σ} {ok good : σ → ι → Prop} (Inv : σ → Prop)
    (hstep : ∀ s i, Inv s → ok s i → Inv (step s i)) (hgood : ∀ s i, Inv s → ok s i → good s i) {s : σ}
    {is : List ι} (hs : Inv s) (hok : Always step ok s is) : Always step good s is := by
  induction is generalizing s with
  | nil => trivial
  | cons i is ih => exact ⟨hgood s i hs hok.1, ih (hstep s i hs hok.1) hok.2⟩

/-- How many steps of the run are taken in a state that meets the condition. -/
def countSteps (served : σ → ι → Prop) [∀ s i, Decidable (served s i)] : σ → List ι → Nat
  | _, [] => 0
  | s, i :: is => (if served s i then 1 else 0) + countSteps served (step s i) is

/-- A potential that every step raises by what it brings at most, and a serving step lowers by `width`: until
it is done, a run serves no more often than the potential and what is brought allow. -/
theorem drains {step : σ → ι → σ} {served : σ → ι → Prop} [∀ s i, Decidable (served s i)] (Inv done : σ → Prop)
    (potential : σ → Nat) (brings : ι → Nat) (width : Nat) (hkeep : ∀ s i, done s → done (step s i))
    (hstep : ∀ s i, Inv s → done (step s i) ∨ Inv (step s i) ∧
      potential (step s i) + (if served s i then width else 0) ≤ potential s + brings i)
    {s : σ} {is : List ι} (hs : Inv s) :
    done (run step s is) ∨ Inv (run step s is) ∧
      potential (run step s is) + countSteps step served s is * width ≤ potential s + (is.map brings).sum := by
  induction is generalizing s with
  | nil => exact Or.inr ⟨hs, by simp [countSteps]⟩
  | cons i is ih =>
    rcases hstep s i hs with hdone | ⟨hinv, hle⟩
    · have hrun : done (run step (step s i) is) := invariant_run_free done hkeep hdone
      exact Or.inl hrun
    · rcases ih hinv with hdone | ⟨hinv', hrest⟩
      · exact Or.inl hdone
      · refine Or.inr ⟨hinv', ?_⟩
        rw [run_cons, countSteps, List.map_cons, List.sum_cons, Nat.add_mul]
        by_cases hserved : served s i
        · rw [if_pos hserved] at hle ⊢
          omega
        · rw [if_neg hserved] at hle ⊢
          omega

/-- A property of every state a run goes through, the exact condition on its steps. -/
theorem prefixes_iff {step : σ → ι → σ} {ok : σ → ι → Prop} (Inv P : σ → Prop)
    (hinv : ∀ s i, Inv s → Inv (step s i)) (hstep : ∀ s i, Inv s → P s → (P (step s i) ↔ ok s i)) {s : σ}
    (hi : Inv s) (hp : P s) (is : List ι) :
    (∀ js, js <+: is → P (run step s js)) ↔ Always step ok s is := by
  induction is generalizing s with
  | nil =>
    constructor
    · exact fun _ => trivial
    · intro _ js hjs
      obtain rfl := List.prefix_nil.mp hjs
      exact hp
  | cons i is ih =>
    constructor
    · intro h
      have hnext : P (step s i) := h [i] (by simp)
      refine ⟨(hstep s i hi hp).mp hnext, (ih (hinv s i hi) hnext).mp ?_⟩
      intro js hjs
      exact h (i :: js) (List.cons_prefix_cons.mpr ⟨rfl, hjs⟩)
    · intro h js hjs
      cases js with
      | nil => exact hp
      | cons j js =>
        obtain ⟨he, hjs⟩ := List.cons_prefix_cons.mp hjs
        have hnext : P (step s i) := (hstep s i hi hp).mpr h.1
        rw [he]
        exact (ih (hinv s i hi) hnext).mpr h.2 js hjs

end Runs

section Traces
variable {ε : Type}

/-- `later` is what the trace holds after this occurrence of `e`. -/
def After (trace : List ε) (e : ε) (later : List ε) : Prop := ∃ earlier, trace = earlier ++ e :: later

theorem after_nil (e : ε) (later : List ε) : ¬ After [] e later := by
  intro h
  obtain ⟨earlier, h⟩ := h
  simp at h

/-- An event of a longer trace is the new one, or the split is one of the old trace. -/
theorem split_snoc {trace earlier later : List ε} {x e : ε} (h : trace ++ [x] = earlier ++ e :: later) :
    (earlier = trace ∧ e = x ∧ later = []) ∨ ∃ later', later = later' ++ [x] ∧ trace = earlier ++ e :: later' := by
  rcases List.eq_nil_or_concat' later with rfl | ⟨later', y, rfl⟩
  · obtain ⟨ht, hx⟩ := List.append_inj' h rfl
    exact Or.inl ⟨ht.symm, (List.cons.inj hx).1.symm, rfl⟩
  · have h' : trace ++ [x] = (earlier ++ e :: later') ++ [y] := by simpa using h
    obtain ⟨ht, hx⟩ := List.append_inj' h' rfl
    obtain rfl := (List.cons.inj hx).1
    exact Or.inr ⟨later', rfl, ht⟩

theorem after_snoc {trace : List ε} {x e : ε} {later : List ε} :
    After (trace ++ [x]) e later ↔
      (e = x ∧ later = []) ∨ ∃ later', later = later' ++ [x] ∧ After trace e later' := by
  constructor
  · intro h
    obtain ⟨earlier, h⟩ := h
    rcases split_snoc h with ⟨_, he, hl⟩ | ⟨later', hl, ht⟩
    · exact Or.inl ⟨he, hl⟩
    · exact Or.inr ⟨later', hl, earlier, ht⟩
  · intro h
    rcases h with ⟨rfl, rfl⟩ | ⟨later', rfl, earlier, rfl⟩
    · exact ⟨trace, rfl⟩
    · exact ⟨earlier, by simp⟩

theorem After.mem {trace : List ε} {e : ε} {later : List ε} (h : After trace e later) : e ∈ trace := by
  obtain ⟨earlier, rfl⟩ := h
  simp

/-- Some event has started it and every later one has kept it up. -/
def Since (start keep : ε → Prop) (trace : List ε) : Prop :=
  ∃ e later, After trace e later ∧ start e ∧ ∀ x ∈ later, keep x

theorem since_nil (start keep : ε → Prop) : ¬ Since start keep [] := by
  intro h
  obtain ⟨e, later, ha, _⟩ := h
  exact after_nil e later ha

theorem since_snoc {start keep : ε → Prop} {trace : List ε} {x : ε} :
    Since start keep (trace ++ [x]) ↔ start x ∨ (Since start keep trace ∧ keep x) := by
  constructor
  · intro h
    obtain ⟨e, later, ha, hs, hk⟩ := h
    rcases after_snoc.mp ha with ⟨rfl, rfl⟩ | ⟨later', rfl, ha'⟩
    · exact Or.inl hs
    · refine Or.inr ⟨⟨e, later', ha', hs, ?_⟩, hk x (by simp)⟩
      intro y hy
      exact hk y (List.mem_append_left _ hy)
  · intro h
    rcases h with hs | ⟨⟨e, later, ha, hs, hk⟩, hx⟩
    · exact ⟨x, [], ⟨trace, rfl⟩, hs, by simp⟩
    · refine ⟨e, later ++ [x], after_snoc.mpr (Or.inr ⟨later, rfl, ha⟩), hs, ?_⟩
      intro y hy
      rcases List.mem_append.mp hy with hy | hy
      · exact hk y hy
      · rw [List.mem_singleton.mp hy]
        exact hx

/-- Every event is as it should be after what came before it. -/
def Throughout (good : List ε → ε → Prop) (trace : List ε) : Prop :=
  ∀ earlier e later, trace = earlier ++ e :: later → good earlier e

variable {good : List ε → ε → Prop}

theorem throughout_nil : Throughout good [] := by
  intro earlier e later h
  simp at h

theorem throughout_snoc {trace : List ε} {x : ε} :
    Throughout good (trace ++ [x]) ↔ Throughout good trace ∧ good trace x := by
  constructor
  · intro h
    refine ⟨?_, h trace x [] rfl⟩
    intro earlier e later ht
    exact h earlier e (later ++ [x]) (by simp [ht])
  · intro h earlier e later ht
    rcases split_snoc ht with ⟨rfl, rfl, _⟩ | ⟨later', _, ht'⟩
    · exact h.2
    · exact h.1 earlier e later' ht'

/-- The exact condition of a trace: when a step is as it should be, so is a run. -/
theorem throughout_run_iff {σ ι : Type} {step : σ → ι → σ} (trace : σ → List ε) {ok : σ → ι → Prop}
    (hstep : ∀ s i, Throughout good (trace (step s i)) ↔ Throughout good (trace s) ∧ ok s i) (s : σ)
    (is : List ι) :
    Throughout good (trace (run step s is)) ↔ Throughout good (trace s) ∧ Always step ok s is := by
  induction is generalizing s with
  | nil => simp [Always]
  | cons i is ih =>
    rw [run_cons, ih, hstep, and_assoc]
    rfl

end Traces

end Steps
