import LaunchAuditor.Chain.Logs

namespace LaunchAuditor.Proofs.LogRetrieval
open Chain

section OneQuery
variable (n : LogNode) (f : LogFilter)

/-- The query that the batches over the values of one slot stand for. -/
def slotFilter (topic0 : Word) (valuePosition : Nat) (values : List Word) : LogFilter :=
  { f with topics := positionTopics topic0 valuePosition values }

theorem valueLogs_eq {topic0 : Word} {valuePosition : Nat} (hpos : 0 < valuePosition) {values : List Word}
    (hne : values ≠ []) :
    valueLogs n f topic0 valuePosition values = n.answer (slotFilter f topic0 valuePosition values) := by
  apply List.filter_congr
  intro l _
  rw [LogFilter.accepts, slotFilter, selects_positionTopics f topic0 hpos hne]

theorem answer_empty (h : f.toBlock < f.fromBlock) : n.answer f = [] := by
  apply List.filter_eq_nil_iff.mpr
  intro l _ hl
  simp only [LogFilter.accepts, Bool.and_eq_true, decide_eq_true_eq] at hl
  omega

/-- Each log once, by block and index. -/
structure OneEach (logs : List RpcLog) : Prop where
  nodup : logs.Nodup
  ordered : logs.Pairwise fun a b => a.blockNumber < b.blockNumber ∨ a.blockNumber = b.blockNumber ∧ a.logIndex < b.logIndex

theorem answer_oneEach : OneEach (n.answer f) := by
  have hlt := n.answer_pairwise f
  refine ⟨hlt.imp fun h he => absurd (congrArg logKey he) (ne_of_lt h), hlt.imp ?_⟩
  intro a b h
  exact Prod.Lex.lt_iff.mp h

/-- Retrieval in pieces is one query. -/
structure Unsplit (topic0 : Word) (valuePosition : Nat) (values : List Word) (maxRange maxTopicValues : Nat) : Prop where
  chunked : getLogsChunked n.request f maxRange = n.request f
  batched : getLogsByTopicValues n.request f topic0 valuePosition values maxRange maxTopicValues =
    n.request (slotFilter f topic0 valuePosition values)
  oneEach : ∀ g logs, n.request g = .ok logs → OneEach logs
  empty : f.toBlock < f.fromBlock → getLogsChunked n.request f maxRange = .ok [] ∧
    getLogsByTopicValues n.request f topic0 valuePosition values maxRange maxTopicValues = .ok []

theorem retrieval_unsplit (topic0 : Word) (valuePosition : Nat) (hpos : 1 ≤ valuePosition ∧ valuePosition ≤ 3)
    (values : List Word) (hne : values ≠ []) (maxRange maxTopicValues : Nat) (hrange : 1 ≤ maxRange)
    (hcap : 1 ≤ maxTopicValues) : Unsplit n f topic0 valuePosition values maxRange maxTopicValues := by
  have hchunked : getLogsChunked n.request f maxRange = n.request f := getLogsChunked_request n f hrange
  have hbatched : getLogsByTopicValues n.request f topic0 valuePosition values maxRange maxTopicValues =
      n.request (slotFilter f topic0 valuePosition values) := by
    rw [getLogsByTopicValues_request n f topic0 hpos.1 values hrange hcap, valueLogs_eq n f hpos.1 hne]
    rfl
  refine ⟨hchunked, hbatched, ?_, ?_⟩
  · intro g logs hg
    obtain rfl := Except.ok.inj hg
    exact answer_oneEach n g
  · intro hempty
    constructor
    · rw [hchunked, LogNode.request, answer_empty n f hempty]
    · rw [hbatched, LogNode.request, answer_empty n (slotFilter f topic0 valuePosition values) hempty]

end OneQuery

def sampleLog (block index : Nat) (topics : List Word) : RpcLog := ⟨0, topics, [], block, 0, index⟩

def sampleNode : LogNode where
  logs := [sampleLog 5 0 [1, 2], sampleLog 5 3 [1, 4], sampleLog 6 0 [1, 9], sampleLog 8 1 [1, 3], sampleLog 9 0 [1, 4]]
  ordered := by decide

theorem retrieval_unsplit_repeated :
    Unsplit sampleNode ⟨[], [], 5, 9⟩ 1 1 [4, 2, 4, 9, 2] 2 2 :=
  retrieval_unsplit sampleNode ⟨[], [], 5, 9⟩ 1 1 (by decide) [4, 2, 4, 9, 2] (by decide) 2 2 (by decide) (by decide)

section AnyOrder

/-- What is answered holds the matching logs, in any order and any number of times. -/
def Answers (n : LogNode) (request : GetLogs) : Prop :=
  ∀ f logs, request f = .ok logs → ∀ l, l ∈ logs ↔ l ∈ n.answer f

variable {n : LogNode} {request : GetLogs}

/-- Two neighbouring windows, through their members. -/
theorem mem_answer_split (f : LogFilter) {start last : Nat} (hs : start ≤ last + 1) (hl : last ≤ f.toBlock) (l : RpcLog) :
    l ∈ n.answer { f with fromBlock := start } ↔
      l ∈ n.answer { f with fromBlock := start, toBlock := last } ∨ l ∈ n.answer { f with fromBlock := last + 1 } := by
  rw [n.mem_answer, n.mem_answer, n.mem_answer]
  have hsel : ∀ a b, LogFilter.selects { f with fromBlock := a, toBlock := b } l = f.selects l := fun _ _ => rfl
  simp only [hsel]
  constructor
  · rintro ⟨hm, ht, hge, hle⟩
    by_cases h : l.blockNumber ≤ last
    · exact Or.inl ⟨hm, ht, hge, h⟩
    · exact Or.inr ⟨hm, ht, by omega, hle⟩
  · rintro (⟨hm, ht, hge, hle⟩ | ⟨hm, ht, hge, hle⟩)
    · exact ⟨hm, ht, hge, by omega⟩
    · exact ⟨hm, ht, by omega, hle⟩

theorem fetchWindows_answers (h : Answers n request) (f : LogFilter) {step : Nat} (hstep : 0 < step) {fuel start : Nat}
    (hfuel : f.toBlock + 1 ≤ start + fuel) {logs : List RpcLog} (hok : fetchWindows request f step fuel start = .ok logs)
    (l : RpcLog) : l ∈ logs ↔ l ∈ n.answer { f with fromBlock := start } := by
  induction fuel generalizing start logs with
  | zero =>
    obtain rfl := Except.ok.inj hok
    rw [answer_empty n _ (show f.toBlock < start by omega)]
  | succ fuel ih =>
    rw [fetchWindows] at hok
    by_cases hs : start ≤ f.toBlock
    · rw [if_pos hs] at hok
      obtain ⟨batch, hbatch, hok⟩ := bind_ok hok
      obtain ⟨rest, hrest, hok⟩ := bind_ok hok
      obtain rfl := Except.ok.inj hok
      rw [List.mem_append, h _ _ hbatch, ih (by omega) hrest]
      by_cases hlast : start + step - 1 < f.toBlock
      · have hnext : start + step = start + step - 1 + 1 := by omega
        rw [if_pos hlast, hnext]
        exact (mem_answer_split f (by omega) (by omega) l).symm
      · rw [if_neg hlast, answer_empty n { f with fromBlock := start + step } (show f.toBlock < start + step by omega)]
        simp
    · rw [if_neg hs] at hok
      obtain rfl := Except.ok.inj hok
      rw [answer_empty n _ (show f.toBlock < start by omega)]

theorem getLogsChunked_answers (h : Answers n request) {f : LogFilter} {maxRange : Nat} {logs : List RpcLog}
    (hok : getLogsChunked request f maxRange = .ok logs) (l : RpcLog) : l ∈ logs ↔ l ∈ n.answer f := by
  unfold getLogsChunked at hok
  split at hok
  · cases hok
  · rename_i hrange
    exact fetchWindows_answers h f (by omega) (by omega) hok l

theorem fetchBatches_answers (h : Answers n request) {f : LogFilter} {topic0 : Word} {valuePosition maxRange : Nat}
    {batches : List (List Word)} {logs : List RpcLog}
    (hok : fetchBatches request f topic0 valuePosition maxRange batches = .ok logs) (l : RpcLog) :
    l ∈ logs ↔ ∃ batch ∈ batches, l ∈ n.answer (slotFilter f topic0 valuePosition batch) := by
  induction batches generalizing logs with
  | nil =>
    obtain rfl := Except.ok.inj hok
    simp
  | cons batch batches ih =>
    rw [fetchBatches] at hok
    obtain ⟨head, hhead, hok⟩ := bind_ok hok
    obtain ⟨rest, hrest, hok⟩ := bind_ok hok
    obtain rfl := Except.ok.inj hok
    rw [List.mem_append, getLogsChunked_answers h hhead, ih hrest]
    simp [slotFilter]

/-- Sorted and told apart, the batches are the one query whatever the order of the answers. -/
theorem getLogsByTopicValues_answers (h : Answers n request) {f : LogFilter} {topic0 : Word} {valuePosition : Nat}
    (hpos : 0 < valuePosition) {values : List Word} {maxRange cap : Nat} (hcap : 0 < cap) {logs : List RpcLog}
    (hok : getLogsByTopicValues request f topic0 valuePosition values maxRange cap = .ok logs) :
    logs = valueLogs n f topic0 valuePosition values := by
  obtain ⟨fetched, hfetched, hok⟩ := bind_ok hok
  obtain rfl := Except.ok.inj hok
  refine Keyed.inOrder_uniq (valueLogs_pairwise n f topic0 valuePosition values) ?_
  intro l
  rw [fetchBatches_answers h hfetched]
  exact mem_batches n f topic0 hpos values hcap l

end AnyOrder

end LaunchAuditor.Proofs.LogRetrieval
