import LaunchAuditor.Outcomes.BlockTime
import Mathlib.Order.Bounds.Basic
import Mathlib.Order.Monotone.Basic

namespace LaunchAuditor.Proofs.BlockSearch
open Chain Outcomes

section Found
variable (time : Nat → Nat)

/-- The last block of the chain under this head whose timestamp is at most the target. -/
def IsLast (head : Nat) (whenMs : Int) (b : Nat) : Prop :=
  IsGreatest {n | n ≤ head ∧ (time n : Int) * 1000 ≤ whenMs} b

/-- The searches that end right: the head is not past the second, or only the first block is at or before it, or the
last that is lies on the way that the halving takes in the probes it has. -/
def Exact (head : Nat) (sec : Int) : Prop :=
  (time head : Int) ≤ sec ∨ sec < (time (MIN_BLOCK + 1) : Int) ∨
    ((time MIN_BLOCK : Int) < sec ∧ ∃ b, (time b : Int) ≤ sec ∧ sec < (time (b + 1) : Int) ∧
      Bisect.reaches b MAX_ITERS MIN_BLOCK head = true)

/-- What the search finds. -/
def foundAt (head : Nat) (sec : Int) : Nat :=
  if sec ≥ (time head : Int) then head
  else if sec ≤ (time MIN_BLOCK : Int) then MIN_BLOCK
  else Bisect.search (fun n => decide ((time n : Int) ≤ sec)) MAX_ITERS MIN_BLOCK head MIN_BLOCK

variable {time}

theorem atOrBefore_iff (whenMs : Int) (n : Nat) : (time n : Int) * 1000 ≤ whenMs ↔ (time n : Int) ≤ targetSec whenMs :=
  (Int.le_ediv_iff_mul_le (by omega)).symm

theorem foundAt_le {head : Nat} (hmin : MIN_BLOCK ≤ head) (sec : Int) : foundAt time head sec ≤ head := by
  unfold foundAt
  split
  · exact Nat.le_refl head
  · split
    · exact hmin
    · rcases @Bisect.search_mem (fun n => decide ((time n : Int) ≤ sec)) MAX_ITERS MIN_BLOCK head MIN_BLOCK with h | h
      · rw [h]
        exact hmin
      · exact h.1

section Ordered
variable (hmono : Monotone time)
include hmono

/-- The last block, by the block after it. -/
theorem isLast_iff {head b : Nat} {whenMs : Int} : IsLast time head whenMs b ↔
    b ≤ head ∧ (time b : Int) ≤ targetSec whenMs ∧ (b = head ∨ targetSec whenMs < (time (b + 1) : Int)) := by
  unfold IsLast
  simp only [atOrBefore_iff]
  constructor
  · intro h
    refine ⟨h.1.1, h.1.2, ?_⟩
    by_contra hno
    rw [not_or, not_lt] at hno
    have hle := h.1.1
    have hnext : b + 1 ≤ b := h.2 ⟨by omega, hno.2⟩
    omega
  · rintro ⟨hle, hat, hend⟩
    refine ⟨⟨hle, hat⟩, ?_⟩
    rintro n ⟨hn, hnat⟩
    rcases hend with rfl | hend
    · exact hn
    · have hlt : n < b + 1 := hmono.reflect_lt (by omega)
      omega

theorem between_unique {a b : Nat} {sec : Int} (ha : (time a : Int) ≤ sec) (ha' : sec < (time (a + 1) : Int))
    (hb : (time b : Int) ≤ sec) (hb' : sec < (time (b + 1) : Int)) : a = b := by
  have hab : a < b + 1 := hmono.reflect_lt (by omega)
  have hba : b < a + 1 := hmono.reflect_lt (by omega)
  omega

theorem exists_between {head : Nat} {sec : Int} (hfirst : (time MIN_BLOCK : Int) ≤ sec) (hlate : sec < (time head : Int)) :
    ∃ b, MIN_BLOCK ≤ b ∧ b < head ∧ (time b : Int) ≤ sec ∧ sec < (time (b + 1) : Int) := by
  have hex : ∃ n, sec < (time n : Int) := ⟨head, hlate⟩
  have hspec := Nat.find_spec hex
  have hle : Nat.find hex ≤ head := Nat.find_le hlate
  have hpos : MIN_BLOCK < Nat.find hex := hmono.reflect_lt (by omega)
  have hbefore : (time (Nat.find hex - 1) : Int) ≤ sec := not_lt.mp (Nat.find_min hex (Nat.sub_one_lt (by omega)))
  refine ⟨Nat.find hex - 1, by omega, by omega, hbefore, ?_⟩
  rw [Nat.sub_add_cancel (by omega)]
  exact hspec

theorem le_iff_of_between {b : Nat} {sec : Int} (hb : (time b : Int) ≤ sec) (hb' : sec < (time (b + 1) : Int)) (n : Nat) :
    (time n : Int) ≤ sec ↔ n ≤ b := by
  constructor
  · intro hn
    have hlt : n < b + 1 := hmono.reflect_lt (by omega)
    omega
  · intro hn
    have hle := hmono hn
    omega

/-- One search, without a memo. -/
theorem foundAt_iff {head : Nat} {whenMs : Int} (hfirst : (time MIN_BLOCK : Int) ≤ targetSec whenMs) :
    IsLast time head whenMs (foundAt time head (targetSec whenMs)) ↔ Exact time head (targetSec whenMs) := by
  rw [isLast_iff hmono]
  generalize targetSec whenMs = sec at *
  by_cases hhead : (time head : Int) ≤ sec
  · have hfound : foundAt time head sec = head := if_pos hhead
    rw [hfound]
    exact iff_of_true ⟨Nat.le_refl head, hhead, Or.inl rfl⟩ (Or.inl hhead)
  · obtain ⟨b, hmin, hlt, hb, hb'⟩ := exists_between hmono hfirst (not_le.mp hhead)
    have hiff := le_iff_of_between hmono hb hb'
    have hlast : ∀ v, (v ≤ head ∧ (time v : Int) ≤ sec ∧ (v = head ∨ sec < (time (v + 1) : Int))) ↔ v = b := by
      intro v
      constructor
      · rintro ⟨_, hv, rfl | hv'⟩
        · exact absurd hv hhead
        · exact between_unique hmono hv hv' hb hb'
      · rintro rfl
        exact ⟨hlt.le, hb, Or.inr hb'⟩
    rw [hlast]
    have hfirstIff : sec < (time (MIN_BLOCK + 1) : Int) ↔ b = MIN_BLOCK := by
      rw [← not_le, hiff]
      omega
    unfold Exact foundAt
    rw [if_neg hhead, hfirstIff]
    by_cases hearly : sec ≤ (time MIN_BLOCK : Int)
    · rw [if_pos hearly]
      constructor
      · exact fun h => Or.inr (Or.inl h.symm)
      · rintro (h | h | h)
        · exact absurd h hhead
        · exact h.symm
        · exact absurd h.1 (not_lt.mpr hearly)
    · rw [if_neg hearly]
      have hp : ∀ n, MIN_BLOCK ≤ n → n ≤ head → (decide ((time n : Int) ≤ sec) = true ↔ n ≤ b) := by
        intro n _ _
        rw [decide_eq_true_iff]
        exact hiff n
      by_cases hone : b = MIN_BLOCK
      · subst hone
        exact iff_of_true (Bisect.search_first hp) (Or.inr (Or.inl rfl))
      · rw [Bisect.search_eq_iff hp hmin hlt.le (Ne.symm hone)]
        constructor
        · exact fun h => Or.inr (Or.inr ⟨not_le.mp hearly, b, hb, hb', h⟩)
        · rintro (h | h | ⟨_, b', h, h', hreach⟩)
          · exact absurd h hhead
          · exact absurd h hone
          · rwa [between_unique hmono hb hb' h h']

/-- What was found under an earlier head. -/
theorem isLast_later {earlier head v : Nat} {whenMs : Int} (hle : earlier ≤ head) (hv : v ≤ earlier) :
    IsLast time head whenMs v ↔
      IsLast time earlier whenMs v ∧ (earlier = head ∨ targetSec whenMs < (time (earlier + 1) : Int)) := by
  unfold IsLast
  simp only [atOrBefore_iff]
  constructor
  · intro h
    refine ⟨⟨⟨hv, h.1.2⟩, fun n hn => h.2 ⟨hn.1.trans hle, hn.2⟩⟩, ?_⟩
    by_contra hno
    rw [not_or, not_lt] at hno
    have hnext : earlier + 1 ≤ v := h.2 ⟨by omega, hno.2⟩
    omega
  · rintro ⟨h, rfl | hnone⟩
    · exact h
    · refine ⟨⟨hv.trans hle, h.1.2⟩, ?_⟩
      rintro n ⟨_, hn⟩
      have hlt : n < earlier + 1 := hmono.reflect_lt (by omega)
      exact h.2 ⟨by omega, hn⟩

end Ordered

end Found

structure Lookup where
  head : Nat
  whenMs : Int

/-- One call, under its head, with the default options. -/
def serve (time : Nat → Nat) (cache : BlockTimeCache) (c : Lookup) : Memo.Result RpcError BlockTimeCache Nat :=
  blockAtTime (readerOf time c.head) DEFAULT_CHAIN_ID c.whenMs cache

/-- What the calls of a process leave in its memo. -/
def cacheAfter (time : Nat → Nat) (calls : List Lookup) : BlockTimeCache :=
  calls.foldl (fun cache c => (serve time cache c).2) []

def firstOf (calls : List Lookup) (sec : Int) : Option Lookup := calls.find? fun d => targetSec d.whenMs = sec

/-- The call that looked the second up first. -/
def firstLookup (calls : List Lookup) (c : Lookup) : Lookup := (firstOf calls (targetSec c.whenMs)).getD c

section Memory
variable {time : Nat → Nat}

theorem findBlock_eq {head : Nat} (hmin : MIN_BLOCK ≤ head) (sec : Int) :
    findBlock (readerOf time head) sec = .ok (foundAt time head sec) := findBlock_readerOf time hmin sec

/-- The calls as the memo has them. -/
theorem cacheAfter_eq (calls : List Lookup) : cacheAfter time calls = Memo.after (calls.map fun c =>
    ((DEFAULT_CHAIN_ID, targetSec c.whenMs), findBlock (readerOf time c.head) (targetSec c.whenMs))) := by
  rw [cacheAfter, Memo.after, List.foldl_map]
  rfl

theorem firstOk_eq {calls : List Lookup} (hheads : ∀ d ∈ calls, MIN_BLOCK ≤ d.head) (sec : Int) :
    Memo.firstOk (calls.map fun c =>
        ((DEFAULT_CHAIN_ID, targetSec c.whenMs), findBlock (readerOf time c.head) (targetSec c.whenMs)))
      (DEFAULT_CHAIN_ID, sec) = (firstOf calls sec).map fun d => foundAt time d.head sec := by
  induction calls with
  | nil => rfl
  | cons c calls ih =>
    have hrest := ih fun d hd => hheads d (List.mem_cons_of_mem _ hd)
    unfold Memo.firstOk firstOf at hrest ⊢
    rw [List.map_cons, List.findSome?_cons, List.find?_cons, findBlock_eq (hheads c (by simp))]
    by_cases h : targetSec c.whenMs = sec
    · simp [h, Except.toOption]
    · simpa [h] using hrest

/-- A second stays at what its first call has found. -/
theorem serve_eq {calls : List Lookup} (hheads : ∀ d ∈ calls, MIN_BLOCK ≤ d.head) {c : Lookup} (hmin : MIN_BLOCK ≤ c.head) :
    (serve time (cacheAfter time calls) c).1 =
      .ok (foundAt time (firstLookup calls c).head (targetSec c.whenMs)) := by
  rw [serve, blockAtTime, cacheAfter_eq, Memo.lookup_after, firstOk_eq hheads, findBlock_eq hmin, firstLookup]
  cases firstOf calls (targetSec c.whenMs) with
  | none => rfl
  | some d => rfl

theorem firstLookup_mem {calls : List Lookup} {c : Lookup} : firstLookup calls c ∈ calls ∨ firstLookup calls c = c := by
  unfold firstLookup
  cases hf : firstOf calls (targetSec c.whenMs) with
  | none => exact Or.inr rfl
  | some d => exact Or.inl (List.mem_of_find?_eq_some hf)

/-- A call answers with the last block at or before its time exactly where the first search for that second ended
right, under its head, and no later block belongs to it. -/
theorem blockAtTime_iff (time : Nat → Nat) (hmono : Monotone time) (calls : List Lookup) (c : Lookup)
    (hheads : ∀ d ∈ calls, MIN_BLOCK ≤ d.head ∧ d.head ≤ c.head) (hmin : MIN_BLOCK ≤ c.head)
    (hfirst : (time MIN_BLOCK : Int) * 1000 ≤ c.whenMs) :
    (∃ b, (serve time (cacheAfter time calls) c).1 = .ok b ∧ IsLast time c.head c.whenMs b) ↔
      Exact time (firstLookup calls c).head (targetSec c.whenMs) ∧
        ((firstLookup calls c).head = c.head ∨
          targetSec c.whenMs < (time ((firstLookup calls c).head + 1) : Int)) := by
  have hbounds : MIN_BLOCK ≤ (firstLookup calls c).head ∧ (firstLookup calls c).head ≤ c.head := by
    rcases @firstLookup_mem calls c with h | h
    · exact hheads _ h
    · rw [h]
      exact ⟨hmin, Nat.le_refl _⟩
  rw [serve_eq (fun d hd => (hheads d hd).1) hmin, ← foundAt_iff hmono ((atOrBefore_iff _ _).mp hfirst),
    ← isLast_later hmono hbounds.2 (foundAt_le hbounds.1 _)]
  constructor
  · rintro ⟨b, hb, hlast⟩
    rw [Except.ok.inj hb]
    exact hlast
  · exact fun h => ⟨_, rfl, h⟩

/-- A chain short enough is halved down to any block. -/
theorem exact_of_short {time : Nat → Nat} {head b : Nat} {sec : Int} (hshort : head < 2 ^ MAX_ITERS) (hmin : MIN_BLOCK ≤ b)
    (hle : b ≤ head) (hpast : (time MIN_BLOCK : Int) < sec) (hb : (time b : Int) ≤ sec) (hb' : sec < (time (b + 1) : Int)) :
    Exact time head sec :=
  Or.inr (Or.inr ⟨hpast, b, hb, hb', Bisect.reaches_all hmin hle (by unfold MIN_BLOCK; omega)⟩)

theorem blockAtTime_found : ∃ b,
    (serve id (cacheAfter id [⟨900, 500000⟩]) ⟨1000, 500999⟩).1 = .ok b ∧ IsLast id 1000 500999 b := by
  refine (blockAtTime_iff id monotone_id [⟨900, 500000⟩] ⟨1000, 500999⟩ (by decide) (by decide) (by decide)).mpr ?_
  exact ⟨@exact_of_short id 900 500 500 (by decide) (by decide) (by decide) (by decide) (by decide) (by decide),
    Or.inr (by decide)⟩

/-- On a chain of a million blocks, one a second, the probes end three blocks early; of two first blocks of one second,
the earlier is returned. -/
theorem last_block_missed :
    (¬ ∃ b, (serve id [] ⟨1000000, 123456000⟩).1 = .ok b ∧ IsLast id 1000000 123456000 b) ∧
      ¬ ∃ b, (serve (fun n => if n ≤ 2 then 5 else n + 5) [] ⟨4, 5000⟩).1 = .ok b ∧
        IsLast (fun n => if n ≤ 2 then 5 else n + 5) 4 5000 b := by
  constructor
  · rintro ⟨b, hb, hlast⟩
    have hserve : (serve id [] ⟨1000000, 123456000⟩).1.toOption = some 123453 := by decide +kernel
    rw [hb] at hserve
    obtain rfl : b = 123453 := Option.some.inj hserve
    have hle : 123456 ≤ 123453 := hlast.2 ⟨by decide, by decide⟩
    omega
  · rintro ⟨b, hb, hlast⟩
    have hserve : (serve (fun n => if n ≤ 2 then 5 else n + 5) [] ⟨4, 5000⟩).1.toOption = some 1 := by decide +kernel
    rw [hb] at hserve
    obtain rfl : b = 1 := Option.some.inj hserve
    have hle : 2 ≤ 1 := hlast.2 ⟨by decide, by decide⟩
    omega

end Memory

end LaunchAuditor.Proofs.BlockSearch
