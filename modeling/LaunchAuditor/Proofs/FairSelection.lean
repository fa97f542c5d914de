import LaunchAuditor.Lib.RoundRobin
import LaunchAuditor.Outcomes.Loop

namespace LaunchAuditor.Proofs.FairSelection
open Outcomes.Loop RoundRobin

variable {α β : Type}

/-- The loops look at no row: they commute with any change of the rows. -/
theorem takeRound_map (f : α → β) (limit i : Nat) (groups : List (List α)) (out : List α) (took : Bool) :
    takeRound limit i (groups.map (List.map f)) (out.map f) took =
      ((takeRound limit i groups out took).1.map f, (takeRound limit i groups out took).2) := by
  induction groups generalizing out took with
  | nil => rfl
  | cons g groups ih =>
    rw [List.map_cons, takeRound, takeRound, List.getElem?_map]
    cases g[i]? with
    | none => exact ih out took
    | some a =>
      have hpush : out.map f ++ [f a] = (out ++ [a]).map f := by rw [List.map_append, List.map_singleton]
      dsimp only [Option.map_some]
      rw [hpush, List.length_map, ih (out ++ [a]) true]
      split
      · rfl
      · rfl

theorem interleaveFrom_map (f : α → β) (groups : List (List α)) (limit i : Nat) (out : List α) :
    interleaveFrom (groups.map (List.map f)) limit i (out.map f) = (interleaveFrom groups limit i out).map f := by
  have hlength (out : List α) : (out.map f).length < limit ↔ out.length < limit := by rw [List.length_map]
  have htaken (i : Nat) (out : List α) : (takeRound limit i (groups.map (List.map f)) (out.map f) false).2 =
      (takeRound limit i groups out false).2 := by rw [takeRound_map]
  induction i, out using interleaveFrom.induct groups limit with
  | case1 i out hlt htook ih =>
    rw [interleaveFrom_again hlt htook, interleaveFrom_again ((hlength out).mpr hlt) ((htaken i out).trans htook),
      takeRound_map, ih]
  | case2 i out hlt hidle =>
    rw [interleaveFrom_idle hlt hidle, interleaveFrom_idle ((hlength out).mpr hlt) (by rwa [htaken i out]), takeRound_map]
  | case3 i out hfull => rw [interleaveFrom_full hfull, interleaveFrom_full (by rwa [hlength out])]

theorem interleave_map (f : α → β) (groups : List (List α)) (limit : Nat) :
    interleave (groups.map (List.map f)) limit = (interleave groups limit).map f :=
  interleaveFrom_map f groups limit 0 []

/-- The run of `interleave` on these groups, each row with the number of its group. -/
def deal (groups : List (List α)) (limit : Nat) : List (Nat × α) := interleave (mark 0 groups) limit

theorem deal_rows (groups : List (List α)) (limit : Nat) : (deal groups limit).map Prod.snd = interleave groups limit := by
  rw [deal, ← interleave_map, mark_map_snd]

/-- The deal at group `k` of round `i`, unless it is over. -/
inductive Progress (groups : List (List α)) (limit i k : Nat) (out : List (Nat × α)) : Prop
  | full (round place : Nat) (h : Dealt groups round place out) (hfull : out.length = limit)
  | under (h : Dealt groups i k out) (hlt : out.length < limit)

/-- One turn of the inner loop: the group has a row left, or it is passed over. -/
theorem takeRound_progress {groups : List (List α)} {limit i k : Nat} {rest : List (List α)} {out : List (Nat × α)}
    (took : Bool) (hrest : groups.drop k = rest) (hk : k ≤ groups.length) (h : Dealt groups i k out)
    (hlt : out.length < limit) :
    Progress groups limit i groups.length (takeRound limit i (mark k rest) out took).1 := by
  induction rest generalizing k out took with
  | nil =>
    obtain rfl : k = groups.length := Nat.le_antisymm hk (List.drop_eq_nil_iff.mp hrest)
    exact .under h hlt
  | cons g rest ih =>
    obtain ⟨hg, hrest'⟩ : groups[k]? = some g ∧ groups.drop (k + 1) = rest := by
      rw [← List.head?_drop, ← List.tail_drop, hrest]
      exact ⟨rfl, rfl⟩
    have hk' : k + 1 ≤ groups.length := (List.getElem?_eq_some_iff.mp hg).1
    rw [mark, takeRound, List.getElem?_map]
    cases ha : g[i]? with
    | none => exact ih took hrest' hk' (h.skip hg ha) hlt
    | some a =>
      dsimp only [Option.map_some]
      have hlen : (out ++ [(k, a)]).length = out.length + 1 := List.length_append
      split
      · exact .full i (k + 1) (h.push hg ha) (by dsimp only; omega)
      · exact ih true hrest' hk' (h.push hg ha) (by omega)

/-- A round that took nothing has found every group used up. -/
theorem takeRound_idle {limit i : Nat} {groups : List (List α)} {out : List α} {took : Bool}
    (h : (takeRound limit i groups out took).2 = false) : took = false ∧ ∀ g ∈ groups, g.length ≤ i := by
  induction groups generalizing out took with
  | nil => exact ⟨h, fun g hg => (List.not_mem_nil hg).elim⟩
  | cons g groups ih =>
    rw [takeRound] at h
    cases hg : g[i]? with
    | none =>
      rw [hg] at h
      obtain ⟨htook, hrest⟩ := ih h
      exact ⟨htook, List.forall_mem_cons.mpr ⟨List.getElem?_eq_none_iff.mp hg, hrest⟩⟩
    | some a =>
      rw [hg] at h
      dsimp only at h
      split at h
      · cases h
      · cases (ih h).1

theorem mark_lengths {groups : List (List α)} {k i : Nat} (h : ∀ g ∈ mark k groups, g.length ≤ i) :
    ∀ g ∈ groups, g.length ≤ i := by
  intro g hg
  rw [← mark_map_snd k groups] at hg
  obtain ⟨g', hg', rfl⟩ := List.mem_map.mp hg
  rw [List.length_map]
  exact h g' hg'

theorem Progress.shares {groups : List (List α)} {limit i k : Nat} {out : List (Nat × α)}
    (h : Progress groups limit i k out) (hend : out.length = limit ∨ ∀ g ∈ groups, g.length ≤ i) :
    Shares groups limit out := by
  cases h with
  | full round place h hfull => exact h.shares (Nat.le_of_eq hfull) (Or.inl hfull)
  | under h hlt => exact h.shares (Nat.le_of_lt hlt) hend

theorem Progress.wrap {groups : List (List α)} {limit i : Nat} {out : List (Nat × α)}
    (h : Progress groups limit i groups.length out) : Progress groups limit (i + 1) 0 out := by
  cases h with
  | full round place h hfull => exact .full round place h hfull
  | under h hlt => exact .under h.wrap hlt

theorem Progress.length_le {groups : List (List α)} {limit i k : Nat} {out : List (Nat × α)}
    (h : Progress groups limit i k out) : out.length ≤ limit := by
  cases h with
  | full round place h hfull => exact Nat.le_of_eq hfull
  | under h hlt => exact Nat.le_of_lt hlt

/-- Round after round, by the recursion of the outer loop. -/
theorem interleaveFrom_shares {groups : List (List α)} {limit i : Nat} {out : List (Nat × α)}
    (h : Progress groups limit i 0 out) : Shares groups limit (interleaveFrom (mark 0 groups) limit i out) := by
  have hround : ∀ {i : Nat} {out : List (Nat × α)}, Progress groups limit i 0 out → out.length < limit →
      Progress groups limit i groups.length (takeRound limit i (mark 0 groups) out false).1 := by
    intro i out h hlt
    cases h with
    | full round place h hfull => exact absurd hlt (Nat.not_lt_of_le (Nat.le_of_eq hfull.symm))
    | under h _ => exact takeRound_progress false rfl (Nat.zero_le _) h hlt
  induction i, out using interleaveFrom.induct (mark 0 groups) limit with
  | case1 i out hlt htook ih =>
    rw [interleaveFrom_again hlt htook]
    exact ih (hround h hlt).wrap
  | case2 i out hlt hidle =>
    rw [interleaveFrom_idle hlt hidle]
    have hshort := (takeRound_idle (Bool.eq_false_iff.mpr hidle)).2
    exact (hround h hlt).shares (Or.inr (mark_lengths hshort))
  | case3 i out hfull =>
    rw [interleaveFrom_full hfull]
    exact h.shares (Or.inl (Nat.le_antisymm h.length_le (Nat.le_of_not_lt hfull)))

theorem deal_shares (groups : List (List α)) (limit : Nat) : Shares groups limit (deal groups limit) := by
  have hstart : Progress groups limit 0 0 ([] : List (Nat × α)) := by
    rcases Nat.eq_zero_or_pos limit with rfl | hpos
    · exact .full 0 0 (.start groups) rfl
    · exact .under (.start groups) hpos
  exact interleaveFrom_shares hstart

/-- No label starves another: what each one gets is a prefix of its own queue, the sweep is as full
as it can be, and a label that gets two rows less than another has no due row left. -/
theorem no_label_starves {α : Type} (groups : List (List α)) (limit : Nat) {ι : Type} [LinearOrder ι]
    (collate : String ↪ ι) (filter : SweepFilter) (now : Int) (db : Nat → DueTables) :
    ((deal groups limit).map Prod.snd = interleave groups limit ∧ Shares groups limit (deal groups limit)) ∧
    let dealt := deal ((backlogs filter now db).map (List.take limit)) limit
    dealt.map Prod.snd = selectDue collate { filter with order := .fair } now db limit ∧
      Shares (backlogs filter now db) limit dealt :=
  ⟨⟨deal_rows groups limit, deal_shares groups limit⟩, deal_rows _ limit, (deal_shares _ limit).of_take⟩

end LaunchAuditor.Proofs.FairSelection
