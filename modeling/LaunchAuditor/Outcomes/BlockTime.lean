import LaunchAuditor.Outcomes.Context
import LaunchAuditor.Lib.Bisection
import LaunchAuditor.Lib.Memo

/-! `apps/worker/src/outcomes/block-time.ts` -/

namespace LaunchAuditor.Outcomes
open Chain

/-- `maxIters` and `minBlock` of a caller that gives none. -/
def MAX_ITERS : Nat := 18

def MIN_BLOCK : Nat := 1

/-- The `chainId` of a caller that gives none. -/
def DEFAULT_CHAIN_ID : Nat := 4663

/-- Blocks by chain and second. -/
abbrev BlockTimeCache := Memo.Table (Nat × Int) Nat

def targetSec (whenMs : Int) : Int := whenMs / 1000

/-- The loop of the search. `read` is the number of the next block read. -/
def searchBlocks (reader : BlockReader) (target : Int) :
    (iters read lo hi answer : Nat) → Except RpcError Nat
  | 0, _, _, _, answer => .ok answer
  | iters + 1, read, lo, hi, answer =>
    if lo ≤ hi then do
      let mid := lo + (hi - lo) / 2
      let ts ← reader.getBlock read mid
      if (ts : Int) ≤ target then searchBlocks reader target iters (read + 1) (mid + 1) hi mid
      else searchBlocks reader target iters (read + 1) lo (mid - 1) answer
    else .ok answer

/-- What is done when the cache does not have it. -/
def findBlock (reader : BlockReader) (target : Int) : Except RpcError Nat := do
  let hi ← reader.getBlockNumber
  let headTs ← reader.getBlock 0 hi
  if target ≥ (headTs : Int) then return hi
  else
    let loTs ← reader.getBlock 1 MIN_BLOCK
    if target ≤ (loTs : Int) then return MIN_BLOCK
    else searchBlocks reader target MAX_ITERS 2 MIN_BLOCK hi MIN_BLOCK

def blockAtTime (reader : BlockReader) (chainId : Nat) (whenMs : Int) (cache : BlockTimeCache) :
    Memo.Result RpcError BlockTimeCache Nat :=
  Memo.lookup (findBlock reader (targetSec whenMs)) (chainId, targetSec whenMs) cache

/-- A reader of these timestamps under this head. -/
def readerOf (time : Nat → Nat) (head : Nat) : BlockReader where
  getBlockNumber := .ok head
  getBlock _ n :=
    if n ≤ head then .ok (time n) else .error ⟨"BlockNotFoundError", s!"Block at number \"{n}\" could not be found."⟩

theorem readerOf_getBlock {time : Nat → Nat} {head n : Nat} (read : Nat) (h : n ≤ head) :
    (readerOf time head).getBlock read n = .ok (time n) := if_pos h

theorem searchBlocks_readerOf (time : Nat → Nat) {head hi : Nat} (hhead : hi ≤ head) (target : Int)
    (iters read lo answer : Nat) :
    searchBlocks (readerOf time head) target iters read lo hi answer =
      .ok (Bisect.search (fun n => decide ((time n : Int) ≤ target)) iters lo hi answer) := by
  induction iters generalizing read lo hi answer with
  | zero => rfl
  | succ iters ih =>
    rw [searchBlocks, Bisect.search]
    by_cases hle : lo ≤ hi
    · rw [if_pos hle, if_pos hle]
      dsimp only
      rw [readerOf_getBlock read (by omega)]
      simp only [bind, Except.bind, decide_eq_true_eq]
      split
      · exact ih hhead ..
      · exact ih (by omega) ..
    · rw [if_neg hle, if_neg hle]

theorem findBlock_readerOf (time : Nat → Nat) {head : Nat} (hmin : MIN_BLOCK ≤ head) (target : Int) :
    findBlock (readerOf time head) target = .ok
      (if target ≥ (time head : Int) then head
      else if target ≤ (time MIN_BLOCK : Int) then MIN_BLOCK
      else Bisect.search (fun n => decide ((time n : Int) ≤ target)) MAX_ITERS MIN_BLOCK head MIN_BLOCK) := by
  have hhead : (readerOf time head).getBlockNumber = .ok head := rfl
  unfold findBlock
  rw [hhead]
  simp only [bind, Except.bind]
  rw [readerOf_getBlock 0 (Nat.le_refl head), readerOf_getBlock 1 hmin, searchBlocks_readerOf time (Nat.le_refl head)]
  dsimp only
  split
  · rfl
  · split
    · rfl
    · rfl

/-- A reader that answers less: what it does answer, the other answers as well. -/
structure BlockReader.Below (r r' : BlockReader) : Prop where
  getBlockNumber : ∀ n, r.getBlockNumber = .ok n → r'.getBlockNumber = .ok n
  getBlock : ∀ read n ts, r.getBlock read n = .ok ts → r'.getBlock read n = .ok ts

theorem BlockReader.Below.searchBlocks {r r' : BlockReader} (h : r.Below r') {target : Int}
    {iters read lo hi answer v : Nat} (hv : Outcomes.searchBlocks r target iters read lo hi answer = .ok v) :
    Outcomes.searchBlocks r' target iters read lo hi answer = .ok v := by
  induction iters generalizing read lo hi answer with
  | zero => exact hv
  | succ iters ih =>
    rw [Outcomes.searchBlocks] at hv ⊢
    by_cases hle : lo ≤ hi
    · rw [if_pos hle] at hv ⊢
      dsimp only at hv ⊢
      cases hts : r.getBlock read (lo + (hi - lo) / 2) with
      | error e =>
        rw [hts] at hv
        cases hv
      | ok ts =>
        rw [hts] at hv
        rw [h.getBlock _ _ _ hts]
        simp only [bind, Except.bind] at hv ⊢
        split at hv
        · rename_i hpast
          rw [if_pos hpast]
          exact ih hv
        · rename_i hpast
          rw [if_neg hpast]
          exact ih hv
    · rw [if_neg hle] at hv ⊢
      exact hv

theorem BlockReader.Below.findBlock {r r' : BlockReader} (h : r.Below r') {target : Int} {v : Nat}
    (hv : Outcomes.findBlock r target = .ok v) : Outcomes.findBlock r' target = .ok v := by
  unfold Outcomes.findBlock at hv ⊢
  cases hhead : r.getBlockNumber with
  | error e =>
    rw [hhead] at hv
    cases hv
  | ok hi =>
    rw [hhead] at hv
    rw [h.getBlockNumber _ hhead]
    simp only [bind, Except.bind] at hv ⊢
    cases hts : r.getBlock 0 hi with
    | error e =>
      rw [hts] at hv
      cases hv
    | ok headTs =>
      rw [hts] at hv
      rw [h.getBlock _ _ _ hts]
      dsimp only at hv ⊢
      by_cases hlate : target ≥ (headTs : Int)
      · rw [if_pos hlate] at hv ⊢
        exact hv
      · rw [if_neg hlate] at hv ⊢
        cases hlo : r.getBlock 1 MIN_BLOCK with
        | error e =>
          rw [hlo] at hv
          cases hv
        | ok loTs =>
          rw [hlo] at hv
          rw [h.getBlock _ _ _ hlo]
          dsimp only at hv ⊢
          by_cases hearly : target ≤ (loTs : Int)
          · rw [if_pos hearly] at hv ⊢
            exact hv
          · rw [if_neg hearly] at hv ⊢
            exact h.searchBlocks hv

end LaunchAuditor.Outcomes
