import LaunchAuditor.Lib.Keyed

/-! `packages/chain/src/logs.ts`, and what a consistent node answers to it. -/

namespace LaunchAuditor.Chain

/-- A 20-byte address, whatever the case of its text. -/
abbrev Address := BitVec 160

instance : LawfulBEq Address := inferInstance

/-- A 32-byte word: a topic, a hash, a slot of ABI data. -/
abbrev Word := BitVec 256

structure RpcError where
  name : String
  message : String
  deriving DecidableEq

/-- A sequence that succeeds is one of two calls that do. -/
theorem bind_ok {ε α β : Type} {x : Except ε α} {g : α → Except ε β} {b : β} (h : x >>= g = .ok b) :
    ∃ a, x = .ok a ∧ g a = .ok b := by
  cases x with
  | error e => cases h
  | ok a => exact ⟨a, rfl, h⟩

structure RpcLog where
  address : Address
  topics : List Word
  data : List Word
  blockNumber : Nat
  transactionHash : Word
  logIndex : Nat
  deriving DecidableEq

/-- The parameters of one `eth_getLogs`. A topic slot holds null or a list of values to choose from. -/
structure LogFilter where
  address : List Address
  topics : List (Option (List Word))
  fromBlock : Nat
  toBlock : Nat
  deriving DecidableEq

/-- A node's answer to `eth_getLogs`. -/
abbrev GetLogs := LogFilter → Except RpcError (List RpcLog)

/-- The loop over windows of `step` blocks; `fuel` bounds their number. -/
def fetchWindows (request : GetLogs) (f : LogFilter) (step : Nat) : Nat → Nat → Except RpcError (List RpcLog)
  | 0, _ => .ok []
  | fuel + 1, start =>
    if start ≤ f.toBlock then do
      let last := if start + step - 1 < f.toBlock then start + step - 1 else f.toBlock
      let batch ← request { f with fromBlock := start, toBlock := last }
      let rest ← fetchWindows request f step fuel (start + step)
      return batch ++ rest
    else .ok []

def getLogsChunked (request : GetLogs) (f : LogFilter) (maxRange : Nat) : Except RpcError (List RpcLog) :=
  if maxRange < 1 then .error ⟨"Error", "maxRange must be >= 1"⟩
  else fetchWindows request f maxRange (f.toBlock + 1 - f.fromBlock) f.fromBlock

/-- `values.slice(i, i + cap)` for `i = 0, cap, …` -/
def slices (cap : Nat) : Nat → List Word → List (List Word)
  | 0, _ => []
  | fuel + 1, values => if values = [] then [] else values.take cap :: slices cap fuel (values.drop cap)

/-- `topics.slice(0, valuePosition + 1)` -/
def positionTopics (topic0 : Word) (valuePosition : Nat) (batch : List Word) : List (Option (List Word)) :=
  some [topic0] :: List.replicate (valuePosition - 1) none ++ [some batch]

def fetchBatches (request : GetLogs) (f : LogFilter) (topic0 : Word) (valuePosition maxRange : Nat) :
    List (List Word) → Except RpcError (List RpcLog)
  | [] => .ok []
  | batch :: batches => do
    let logs ← getLogsChunked request { f with topics := positionTopics topic0 valuePosition batch } maxRange
    let rest ← fetchBatches request f topic0 valuePosition maxRange batches
    return logs ++ rest

/-- Logs are told apart, and ordered, by block and index. -/
def logKey (l : RpcLog) : Nat ×ₗ Nat := toLex (l.blockNumber, l.logIndex)

/-- The `maxTopicValues` of a caller that gives none. -/
def MAX_TOPIC_VALUES : Nat := 4

/-- `f.topics` is not read: the slots are `topic0` and the values. -/
def getLogsByTopicValues (request : GetLogs) (f : LogFilter) (topic0 : Word) (valuePosition : Nat) (values : List Word)
    (maxRange cap : Nat) : Except RpcError (List RpcLog) := do
  let logs ← fetchBatches request f topic0 valuePosition maxRange (slices cap values.length values)
  return Keyed.inOrder logKey (Keyed.uniq logKey logs)

def topicsMatch : List (Option (List Word)) → List Word → Bool
  | [], _ => true
  | _ :: _, [] => false
  | none :: slots, _ :: topics => topicsMatch slots topics
  | some values :: slots, t :: topics => (values.isEmpty || values.contains t) && topicsMatch slots topics

/-- A slot with values is filled with one of them. -/
theorem topicsMatch_slot {slots : List (Option (List Word))} {topics : List Word} (h : topicsMatch slots topics = true)
    {i : Nat} {values : List Word} (hi : slots[i]? = some (some values)) (hne : values ≠ []) :
    ∃ t ∈ values, topics[i]? = some t := by
  induction slots generalizing topics i with
  | nil => simp at hi
  | cons slot slots ih =>
    cases topics with
    | nil =>
      cases slot <;> cases h
    | cons t topics =>
      cases i with
      | zero =>
        obtain rfl : slot = some values := by simpa using hi
        rw [topicsMatch, Bool.and_eq_true] at h
        exact ⟨t, by simpa [hne] using h.1, rfl⟩
      | succ i =>
        have hrest : topicsMatch slots topics = true := by
          cases slot with
          | none => exact h
          | some values' =>
            rw [topicsMatch, Bool.and_eq_true] at h
            exact h.2
        exact ih hrest (by simpa using hi)

/-- The conditions of a filter other than its blocks. -/
def LogFilter.selects (f : LogFilter) (l : RpcLog) : Bool :=
  (f.address.isEmpty || f.address.contains l.address) && topicsMatch f.topics l.topics

def LogFilter.accepts (f : LogFilter) (l : RpcLog) : Bool :=
  f.selects l && decide (f.fromBlock ≤ l.blockNumber) && decide (l.blockNumber ≤ f.toBlock)

/-- The logs of a chain, in block and index order. -/
structure LogNode where
  logs : List RpcLog
  ordered : logs.Pairwise fun a b => logKey a < logKey b

namespace LogNode

def answer (n : LogNode) (f : LogFilter) : List RpcLog := n.logs.filter f.accepts

def request (n : LogNode) : GetLogs := fun f => .ok (n.answer f)

variable (n : LogNode)

theorem mem_answer {f : LogFilter} {l : RpcLog} :
    l ∈ n.answer f ↔ l ∈ n.logs ∧ f.selects l = true ∧ f.fromBlock ≤ l.blockNumber ∧ l.blockNumber ≤ f.toBlock := by
  simp [answer, LogFilter.accepts, and_assoc]

theorem answer_pairwise (f : LogFilter) : (n.answer f).Pairwise fun a b => logKey a < logKey b :=
  n.ordered.sublist List.filter_sublist

theorem blocks_ordered : n.logs.Pairwise fun a b => a.blockNumber ≤ b.blockNumber := by
  refine n.ordered.imp ?_
  intro a b h
  rcases Prod.Lex.lt_iff.mp h with h | ⟨h, _⟩
  · exact Nat.le_of_lt h
  · exact Nat.le_of_eq h

end LogNode

theorem accepts_window (f : LogFilter) (start last : Nat) :
    { f with fromBlock := start, toBlock := last }.accepts =
      fun l => f.selects l && decide (start ≤ l.blockNumber) && decide (l.blockNumber ≤ last) := rfl

/-- Two neighbouring windows are one. -/
theorem filter_windows {logs : List RpcLog} (h : logs.Pairwise fun a b => a.blockNumber ≤ b.blockNumber)
    (f : LogFilter) {start mid last : Nat} (hs : start ≤ mid + 1) (hm : mid ≤ last) :
    logs.filter { f with fromBlock := start, toBlock := mid }.accepts ++
        logs.filter { f with fromBlock := mid + 1, toBlock := last }.accepts =
      logs.filter { f with fromBlock := start, toBlock := last }.accepts := by
  rw [accepts_window, accepts_window, accepts_window, Keyed.filter_append_filter]
  · apply List.filter_congr
    intro l _
    cases f.selects l with
    | false => rfl
    | true =>
      rw [Bool.eq_iff_iff]
      simp only [Bool.true_and, Bool.or_eq_true, Bool.and_eq_true, decide_eq_true_eq]
      omega
  · refine h.imp ?_
    intro a b hab hq
    simp only [Bool.and_eq_true, decide_eq_true_eq] at hq
    have hb : ¬ b.blockNumber ≤ mid := by omega
    simp [hb]
  · intro a _ hq
    simp only [Bool.and_eq_true, decide_eq_true_eq] at hq
    have ha : ¬ a.blockNumber ≤ mid := by omega
    simp [ha]

/-- Windows that are all answered make a whole. -/
theorem getLogsChunked_ok {request : GetLogs} (h : ∀ f, ∃ logs, request f = .ok logs) (f : LogFilter) {maxRange : Nat}
    (hrange : 0 < maxRange) : ∃ logs, getLogsChunked request f maxRange = .ok logs := by
  have hwindows : ∀ fuel start, ∃ logs, fetchWindows request f maxRange fuel start = .ok logs := by
    intro fuel
    induction fuel with
    | zero => exact fun start => ⟨[], rfl⟩
    | succ fuel ih =>
      intro start
      rw [fetchWindows]
      by_cases hs : start ≤ f.toBlock
      · obtain ⟨rest, hrest⟩ := ih (start + maxRange)
        rw [if_pos hs, hrest]
        dsimp only
        obtain ⟨batch, hbatch⟩ := h { f with
          fromBlock := start
          toBlock := if start + maxRange - 1 < f.toBlock then start + maxRange - 1 else f.toBlock }
        rw [hbatch]
        exact ⟨batch ++ rest, rfl⟩
      · exact ⟨[], if_neg hs⟩
  rw [getLogsChunked, if_neg (by omega)]
  exact hwindows _ _

section Node
variable (n : LogNode)

theorem fetchWindows_request (f : LogFilter) {step : Nat} (hstep : 0 < step) {fuel start : Nat}
    (hfuel : f.toBlock + 1 ≤ start + fuel) :
    fetchWindows n.request f step fuel start = .ok (n.answer { f with fromBlock := start }) := by
  have hempty : ∀ s, ¬ s ≤ f.toBlock → n.answer { f with fromBlock := s } = [] := by
    intro s hs
    apply List.filter_eq_nil_iff.mpr
    intro l _ hl
    simp only [LogFilter.accepts, Bool.and_eq_true, decide_eq_true_eq] at hl
    omega
  induction fuel generalizing start with
  | zero =>
    rw [fetchWindows, hempty start (by omega)]
  | succ fuel ih =>
    rw [fetchWindows]
    by_cases hs : start ≤ f.toBlock
    · rw [if_pos hs, ih (by omega)]
      simp only [LogNode.request, bind, Except.bind, pure, Except.pure]
      by_cases hlast : start + step - 1 < f.toBlock
      · have hnext : start + step = start + step - 1 + 1 := by omega
        rw [if_pos hlast, hnext]
        exact congrArg Except.ok (filter_windows n.blocks_ordered f (by omega) (by omega))
      · rw [if_neg hlast, hempty (start + step) (by omega), List.append_nil]
    · rw [if_neg hs, hempty start hs]

/-- The windows together ask for the whole range. -/
theorem getLogsChunked_request (f : LogFilter) {maxRange : Nat} (h : 0 < maxRange) :
    getLogsChunked n.request f maxRange = .ok (n.answer f) := by
  rw [getLogsChunked, if_neg (by omega), fetchWindows_request n f h (by omega)]

/-- What a node that fails at times does answer, it answers as one that never fails. -/
theorem getLogsChunked_below {request : GetLogs} (hbelow : ∀ f logs, request f = .ok logs → n.request f = .ok logs)
    {f : LogFilter} {maxRange : Nat} {logs : List RpcLog} (h : getLogsChunked request f maxRange = .ok logs) :
    logs = n.answer f := by
  have hwindows : ∀ (step fuel start : Nat) (logs : List RpcLog), fetchWindows request f step fuel start = .ok logs →
      fetchWindows n.request f step fuel start = .ok logs := by
    intro step fuel
    induction fuel with
    | zero => exact fun _ _ h => h
    | succ fuel ih =>
      intro start logs h
      rw [fetchWindows] at h ⊢
      by_cases hs : start ≤ f.toBlock
      · rw [if_pos hs] at h ⊢
        obtain ⟨batch, hbatch, h⟩ := bind_ok h
        obtain ⟨rest, hrest, h⟩ := bind_ok h
        dsimp only
        rw [hbelow _ _ hbatch, ih _ _ hrest]
        exact h
      · rw [if_neg hs] at h ⊢
        exact h
  unfold getLogsChunked at h
  by_cases hrange : maxRange < 1
  · rw [if_pos hrange] at h
    cases h
  · rw [if_neg hrange] at h
    have hall := getLogsChunked_request n f (Nat.pos_of_ne_zero fun h0 => hrange (Nat.lt_one_iff.mpr h0))
    unfold getLogsChunked at hall
    rw [if_neg hrange, hwindows _ _ _ _ h] at hall
    exact Except.ok.inj hall

theorem slices_join {cap : Nat} (hcap : 0 < cap) {fuel : Nat} {values : List Word} (hfuel : values.length ≤ fuel) :
    (slices cap fuel values).flatten = values := by
  induction fuel generalizing values with
  | zero =>
    have hnil : values = [] := List.length_eq_zero_iff.mp (by omega)
    rw [hnil]
    rfl
  | succ fuel ih =>
    rw [slices]
    split
    · rename_i he
      rw [he]
      rfl
    · rename_i hne
      have hpos : 0 < values.length := List.length_pos_iff.mpr hne
      rw [List.flatten_cons, ih (by rw [List.length_drop]; omega), List.take_append_drop]

theorem slices_ne_nil {cap : Nat} (hcap : 0 < cap) {fuel : Nat} {values batch : List Word}
    (h : batch ∈ slices cap fuel values) : batch ≠ [] := by
  induction fuel generalizing values with
  | zero => cases h
  | succ fuel ih =>
    rw [slices] at h
    split at h
    · cases h
    · rename_i hne
      rcases List.mem_cons.mp h with rfl | h
      · intro he
        rcases List.take_eq_nil_iff.mp he with h0 | h0
        · omega
        · exact hne h0
      · exact ih h

/-- The logs whose slot at this position holds one of the values. -/
def selectsValue (f : LogFilter) (topic0 : Word) (valuePosition : Nat) (values : List Word) (l : RpcLog) : Bool :=
  (f.address.isEmpty || f.address.contains l.address) && decide (l.topics[0]? = some topic0) &&
    (l.topics[valuePosition]?).any values.contains

theorem topicsMatch_position {batch topics : List Word} (hne : batch ≠ []) (k : Nat) :
    topicsMatch (List.replicate k none ++ [some batch]) topics = (topics[k]?).any batch.contains := by
  induction k generalizing topics with
  | zero =>
    cases topics with
    | nil => rfl
    | cons t topics => simp [topicsMatch, hne]
  | succ k ih =>
    cases topics with
    | nil => rfl
    | cons t topics => simpa [List.replicate_succ, topicsMatch] using ih

theorem selects_positionTopics (f : LogFilter) (topic0 : Word) {valuePosition : Nat} (hpos : 0 < valuePosition)
    {batch : List Word} (hne : batch ≠ []) (l : RpcLog) :
    { f with topics := positionTopics topic0 valuePosition batch }.selects l =
      selectsValue f topic0 valuePosition batch l := by
  obtain ⟨k, rfl⟩ : ∃ k, valuePosition = k + 1 := ⟨valuePosition - 1, by omega⟩
  simp only [LogFilter.selects, selectsValue, positionTopics, Nat.add_sub_cancel, Bool.and_assoc]
  cases htopics : l.topics with
  | nil => simp [topicsMatch]
  | cons t topics =>
    rw [List.cons_append, topicsMatch, topicsMatch_position hne]
    simp [eq_comm]

theorem fetchBatches_request (f : LogFilter) (topic0 : Word) (valuePosition : Nat) {maxRange : Nat} (h : 0 < maxRange)
    (batches : List (List Word)) :
    fetchBatches n.request f topic0 valuePosition maxRange batches =
      .ok (batches.flatMap fun batch => n.answer { f with topics := positionTopics topic0 valuePosition batch }) := by
  induction batches with
  | nil => rfl
  | cons batch batches ih =>
    rw [fetchBatches, getLogsChunked_request n _ h, ih]
    rfl

/-- What the batched query returns: every matching log once, in order. -/
def valueLogs (f : LogFilter) (topic0 : Word) (valuePosition : Nat) (values : List Word) : List RpcLog :=
  n.logs.filter fun l =>
    selectsValue f topic0 valuePosition values l && decide (f.fromBlock ≤ l.blockNumber) &&
      decide (l.blockNumber ≤ f.toBlock)

/-- The batches of values together select what the whole list selects. -/
theorem mem_batches (f : LogFilter) (topic0 : Word) {valuePosition : Nat} (hpos : 0 < valuePosition)
    (values : List Word) {cap : Nat} (hcap : 0 < cap) (l : RpcLog) :
    (∃ batch ∈ slices cap values.length values,
        l ∈ n.answer { f with topics := positionTopics topic0 valuePosition batch }) ↔
      l ∈ valueLogs n f topic0 valuePosition values := by
  have hjoin := slices_join hcap (Nat.le_refl values.length)
  have hsome : (∃ batch ∈ slices cap values.length values, selectsValue f topic0 valuePosition batch l = true) ↔
      selectsValue f topic0 valuePosition values l = true := by
    conv_rhs => rw [← hjoin]
    simp only [selectsValue, Bool.and_eq_true, Option.any_eq_true, List.contains_iff_mem, List.mem_flatten]
    constructor
    · rintro ⟨batch, hb, hl, t, ht, hm⟩
      exact ⟨hl, t, ht, batch, hb, hm⟩
    · rintro ⟨hl, t, ht, batch, hb, hm⟩
      exact ⟨batch, hb, hl, t, ht, hm⟩
  simp only [n.mem_answer, valueLogs, List.mem_filter, Bool.and_eq_true, decide_eq_true_eq]
  constructor
  · rintro ⟨batch, hb, hl, hsel, hfrom, hto⟩
    rw [selects_positionTopics f topic0 hpos (slices_ne_nil hcap hb)] at hsel
    exact ⟨hl, ⟨hsome.mp ⟨batch, hb, hsel⟩, hfrom⟩, hto⟩
  · rintro ⟨hl, ⟨hsel, hfrom⟩, hto⟩
    obtain ⟨batch, hb, hsel⟩ := hsome.mpr hsel
    refine ⟨batch, hb, hl, ?_, hfrom, hto⟩
    rw [selects_positionTopics f topic0 hpos (slices_ne_nil hcap hb)]
    exact hsel

theorem valueLogs_pairwise (f : LogFilter) (topic0 : Word) (valuePosition : Nat) (values : List Word) :
    (valueLogs n f topic0 valuePosition values).Pairwise fun a b => logKey a < logKey b :=
  n.ordered.sublist List.filter_sublist

theorem getLogsByTopicValues_request (f : LogFilter) (topic0 : Word) {valuePosition : Nat} (hpos : 0 < valuePosition)
    (values : List Word) {maxRange cap : Nat} (h : 0 < maxRange) (hcap : 0 < cap) :
    getLogsByTopicValues n.request f topic0 valuePosition values maxRange cap =
      .ok (valueLogs n f topic0 valuePosition values) := by
  rw [getLogsByTopicValues, fetchBatches_request n f topic0 valuePosition h]
  refine congrArg Except.ok (Keyed.inOrder_uniq (valueLogs_pairwise n f topic0 valuePosition values) ?_)
  intro l
  rw [List.mem_flatMap]
  exact mem_batches n f topic0 hpos values hcap l

end Node

end LaunchAuditor.Chain
