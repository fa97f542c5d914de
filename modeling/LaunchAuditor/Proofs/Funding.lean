import LaunchAuditor.Api.Funding
import LaunchAuditor.Deepdive.BudgetedRun
import LaunchAuditor.Lib.Pieces
import LaunchAuditor.Proofs.ActivationCap

namespace LaunchAuditor.Proofs.Funding
open Api.Funding Deepdive Metabolism Steps ActivationCap

/-- The block is not older than 24 hours. -/
def inWindow (c : Chain) (now : Int) (n : Nat) : Bool := c.blocks[n]?.any fun b => now - 86400000 ≤ b.timestamp * 1000

/-- The activations of the trailing 24 hours, each once. -/
def windowActivations (env : FundingEnv) (c : Chain) (now : Int) : List Activated :=
  (List.range c.blocks.length).flatMap fun n => if inWindow c now n then activationsAt env c n else []

/-- The rows they make when every block is read. -/
def windowRows (env : FundingEnv) (c : Chain) (now : Int) : List FundingRow :=
  (List.range c.blocks.length).flatMap fun n => if inWindow c now n then rowsAt env c (fun _ _ => true) n else []

/-- The requests of the worker's scan. -/
def trailingRanges (c : Chain) (now : Int) : List (Nat × Nat) :=
  ranges 9999 c.head.number (c.head.number + 1 - scanStart c (daySince now)) (scanStart c (daySince now))

/-- What they are answered with. -/
def trailingLogs (env : FundingEnv) (c : Chain) (now : Int) : List Activated :=
  (trailingRanges c now).flatMap fun r => c.getContractEvents (accrues env.orbioAgentAccount) r.1 r.2

/-- The display and the budget count the activations of the trailing 24 hours, and show one figure. -/
structure Agrees (env : FundingEnv) (c : Chain) (worker : WorkerEnv) (spendableUsd : ℚ) (st : ReaderState)
    (figures : FundingFigures) (reads : ScanReads) (now : Int) : Prop where
  displayed : st.rows.filter (recent now) = windowRows env c now
  budgeted : trailingLogs env c now = windowActivations env c now
  equal : (dynamicDailyCapUsd worker spendableUsd
    (trailingCreditsUsd c env.orbioAgentAccount 9999 now reads)).trailingCreditsUsd = some figures.trailingCreditsUsd

/-- When they do. -/
structure InStep (env : FundingEnv) (c : Chain) (worker : WorkerEnv) (st : ReaderState) (reads : ScanReads)
    (now : Int) : Prop where
  configured : worker.creditConfigured = true
  read : reads.head = none ∧ reads.ref = none ∧ ∀ r ∈ trailingRanges c now, reads.getContractEvents r = none
  /-- the reader starts early enough -/
  covered : ∀ n < c.blocks.length, inWindow c now n = true → activationsAt env c n ≠ [] → env.fundingFromBlock ≤ n
  /-- only old activations lack the time of their block -/
  dated : ∀ r ∈ st.rows, r.atMs = none → inWindow c now r.blockNumber = false
  /-- the rate of the last ten thousand blocks tells which blocks are old -/
  reached : ∀ n < c.blocks.length, activationsAt env c n ≠ [] →
    (Reaches c (daySince now) n ↔ inWindow c now n = true)

/-- What a call after others returns, and the rows it leaves. -/
def display (env : FundingEnv) (c : Chain) (calls : List Call) (call : Call) : Option FundingFigures × ReaderState :=
  chainFundingReader env c (run (fun st call => (chainFundingReader env c st call).2) env.start calls) call

variable {env : FundingEnv} {c : Chain} {st st' : ReaderState} {io : RefreshIo} {now : Int} {n : Nat}

theorem headNumber_lt (c : Chain) : c.headNumber + 1 = c.blocks.length := by
  have := List.length_pos_iff.mpr c.nonempty
  unfold Chain.headNumber
  omega

/-- Every block between the first one and the next one has been scanned once. -/
structure Scanned (env : FundingEnv) (c : Chain) (st : ReaderState) : Prop where
  next : env.fundingFromBlock ≤ st.next
  rows : ∃ getBlock, st.rows =
    (List.range' env.fundingFromBlock (st.next - env.fundingFromBlock)).flatMap (rowsAt env c getBlock)

theorem rowsAt_congr {getBlock getBlock' : Nat → Nat → Bool} (h : getBlock n = getBlock' n) :
    rowsAt env c getBlock n = rowsAt env c getBlock' n := by
  unfold rowsAt
  rw [h]

theorem scanned_range {last : Nat} (h : Scanned env c st) (hle : st.next ≤ last + 1) (lastRefresh : Int) :
    Scanned env c ⟨st.rows ++ (List.range' st.next (last + 1 - st.next)).flatMap (rowsAt env c io.getBlock),
      last + 1, lastRefresh⟩ := by
  obtain ⟨hnext, getBlock, hrows⟩ := h
  refine ⟨hnext.trans hle, fun n => if n < st.next then getBlock n else io.getBlock n, ?_⟩
  have hsplit : List.range' env.fundingFromBlock (last + 1 - env.fundingFromBlock) =
      List.range' env.fundingFromBlock (st.next - env.fundingFromBlock) ++
        List.range' st.next (last + 1 - st.next) := by
    have happend := @List.range'_append_1 env.fundingFromBlock (st.next - env.fundingFromBlock) (last + 1 - st.next)
    rw [Nat.add_sub_cancel' hnext] at happend
    rw [happend]
    congr 1
    omega
  change st.rows ++ _ = (List.range' _ (last + 1 - _)).flatMap _
  rw [hsplit, List.flatMap_append, hrows]
  simp only [List.flatMap]
  congr 1
  · refine congrArg List.flatten (List.map_congr_left fun n hn => rowsAt_congr ?_)
    have := List.mem_range'_1.mp hn
    rw [if_pos (by omega)]
  · refine congrArg List.flatten (List.map_congr_left fun n hn => rowsAt_congr ?_)
    have := List.mem_range'_1.mp hn
    rw [if_neg (by omega)]

theorem scan_scanned {head fuel : Nat} (h : Scanned env c st) :
    Scanned env c (scan env c io (ranges 9999 head fuel st.next) st).2 := by
  induction fuel generalizing st with
  | zero => exact h
  | succ fuel ih =>
    unfold ranges
    split
    · dsimp only
      generalize hto : (if st.next + 9999 - 1 > head then head else st.next + 9999 - 1) = last
      have hle : st.next ≤ last + 1 := by
        split at hto
        · omega
        · omega
      unfold scan
      split
      · exact ih (scanned_range h hle st.lastRefresh)
      · exact h
    · exact h

theorem refresh_scanned (h : Scanned env c st) : Scanned env c (refresh env c io st).2 := by
  unfold refresh
  split
  · exact h
  · rename_i later _
    have hscan := @scan_scanned env c st io (c.headNumber - later)
      (c.headNumber - later + 1 - st.next) h
    dsimp only
    split
    · rename_i he
      rw [he] at hscan
      exact ⟨hscan.next, hscan.rows⟩
    · rename_i he
      rw [he] at hscan
      exact hscan

theorem reader_scanned (call : Call) (h : Scanned env c st) : Scanned env c (chainFundingReader env c st call).2 := by
  unfold chainFundingReader
  split
  · have hrefresh := @refresh_scanned env c st call.io h
    split
    · rename_i he
      rw [he] at hrefresh
      exact hrefresh
    · rename_i he
      rw [he] at hrefresh
      exact hrefresh
  · exact h

theorem run_scanned (calls : List Call) : Scanned env c (run (fun st call => (chainFundingReader env c st call).2) env.start calls) :=
  invariant_run_free (Scanned env c) (fun _ call h => reader_scanned call h)
    ⟨Nat.le_refl _, fun _ _ => true, by simp [FundingEnv.start]⟩

/-- A call that returns has drawn up the figures from the rows it leaves. -/
theorem reader_figures {call : Call} {figures : FundingFigures} (h : (chainFundingReader env c st call).1 = some figures) :
    figures = summarizeFunding env.orbioAgentAccount (chainFundingReader env c st call).2.rows call.nowMs := by
  unfold chainFundingReader at h ⊢
  split
  · rename_i hstale
    rw [if_pos hstale] at h
    split
    · rename_i he
      rw [he] at h
      exact (Option.some.inj h).symm
    · rename_i he
      rw [he] at h
      cases h
  · rename_i hstale
    rw [if_neg hstale] at h
    exact (Option.some.inj h).symm

theorem recent_row {dated : Bool} {i : Nat} {a : Activated} (hn : n < c.blocks.length) :
    recent now (fundingRow env c dated n i a) = (dated && inWindow c now n) := by
  have hblock : c.blocks[n]? = some c.blocks[n] := List.getElem?_eq_getElem hn
  cases dated with
  | false => rfl
  | true => simp [recent, fundingRow, Chain.getBlock, inWindow, hblock]

theorem recent_rowsAt {getBlock : Nat → Nat → Bool} (hn : n < c.blocks.length) :
    (rowsAt env c getBlock n).filter (recent now) =
      if inWindow c now n then
        ((activationsAt env c n).zipIdx.filter fun p => getBlock n p.2).map fun p => fundingRow env c true n p.2 p.1
      else [] := by
  unfold rowsAt
  rw [List.filter_map]
  split
  · rename_i hwindow
    have hp : (recent now ∘ fun p : Activated × Nat => fundingRow env c (getBlock n p.2) n p.2 p.1) =
        fun p => getBlock n p.2 := by
      funext p
      simp [recent_row hn, hwindow]
    rw [hp]
    refine List.map_congr_left fun p hp => ?_
    have := (List.mem_filter.mp hp).2
    rw [this]
  · rename_i hwindow
    rw [List.map_eq_nil_iff, List.filter_eq_nil_iff]
    intro p _
    simp [recent_row hn, hwindow]

/-- Of one block, the rows that count are those of the window when all of them are dated. -/
theorem recent_rowsAt_eq {getBlock : Nat → Nat → Bool} (hn : n < c.blocks.length) :
    (if env.fundingFromBlock ≤ n then (rowsAt env c getBlock n).filter (recent now) else []) =
        (if inWindow c now n then rowsAt env c (fun _ _ => true) n else []) ↔
      (inWindow c now n = true → activationsAt env c n ≠ [] →
        env.fundingFromBlock ≤ n ∧ ∀ p ∈ (activationsAt env c n).zipIdx, getBlock n p.2 = true) := by
  rw [recent_rowsAt hn]
  by_cases hwindow : inWindow c now n = true
  · rw [if_pos hwindow, if_pos hwindow]
    by_cases hfrom : env.fundingFromBlock ≤ n
    · rw [if_pos hfrom]
      constructor
      · intro h _ _
        have hlen := congrArg List.length h
        rw [List.length_map, rowsAt, List.length_map] at hlen
        have hall := List.filter_sublist.eq_of_length hlen
        exact ⟨hfrom, fun p hp => List.filter_eq_self.mp hall p hp⟩
      · intro h
        by_cases hnil : activationsAt env c n = []
        · simp [rowsAt, hnil]
        · rw [List.filter_eq_self.mpr (h hwindow hnil).2]
          rfl
    · rw [if_neg hfrom]
      constructor
      · intro h _ hne
        refine absurd ?_ hne
        have hlen := congrArg List.length h
        rw [rowsAt, List.length_map, List.length_zipIdx] at hlen
        exact List.length_eq_zero_iff.mp hlen.symm
      · intro h
        by_cases hnil : activationsAt env c n = []
        · simp [rowsAt, hnil]
        · exact absurd (h hwindow hnil).1 hfrom
  · simp [hwindow]

theorem recent_rowsAt_sublist {getBlock : Nat → Nat → Bool} (hn : n < c.blocks.length) :
    (if env.fundingFromBlock ≤ n then (rowsAt env c getBlock n).filter (recent now) else []).Sublist
      (if inWindow c now n then rowsAt env c (fun _ _ => true) n else []) := by
  rw [recent_rowsAt hn]
  split
  · split
    · exact List.filter_sublist.map _
    · exact List.Sublist.refl _
  · exact List.nil_sublist _

theorem displayed_iff (h : Scanned env c st) (hhead : st.next = c.headNumber + 1) :
    st.rows.filter (recent now) = windowRows env c now ↔
      (∀ n < c.blocks.length, inWindow c now n = true → activationsAt env c n ≠ [] → env.fundingFromBlock ≤ n) ∧
        ∀ r ∈ st.rows, r.atMs = none → inWindow c now r.blockNumber = false := by
  obtain ⟨hnext, getBlock, hrows⟩ := h
  rw [hhead, headNumber_lt] at hnext hrows
  have hfilter : st.rows.filter (recent now) = (List.range c.blocks.length).flatMap fun n =>
      if env.fundingFromBlock ≤ n then (rowsAt env c getBlock n).filter (recent now) else [] := by
    rw [hrows, List.filter_flatMap]
    exact Pieces.range'_flatMap_eq _ hnext
  rw [hfilter, windowRows, Pieces.flatMap_eq_iff fun n hn => recent_rowsAt_sublist (List.mem_range.mp hn)]
  simp only [List.mem_range]
  constructor
  · intro h
    have hall := fun n hn => (recent_rowsAt_eq hn).mp (h n hn)
    refine ⟨fun n hn hwindow hne => (hall n hn hwindow hne).1, ?_⟩
    intro r hr hnone
    rw [hrows] at hr
    obtain ⟨n, hn, hr⟩ := List.mem_flatMap.mp hr
    obtain ⟨p, hp, rfl⟩ := List.mem_map.mp hr
    have hlt : n < c.blocks.length := by
      have := List.mem_range'_1.mp hn
      omega
    change inWindow c now n = false
    by_contra hwindow
    have hne : activationsAt env c n ≠ [] := by
      intro hnil
      rw [hnil] at hp
      cases hp
    have hdated := (hall n hlt (by simpa using hwindow) hne).2 p hp
    simp [fundingRow, hdated] at hnone
  · rintro ⟨hcovered, hdated⟩ n hn
    refine (recent_rowsAt_eq hn).mpr fun hwindow hne => ⟨hcovered n hn hwindow hne, ?_⟩
    intro p hp
    have hfrom := hcovered n hn hwindow hne
    by_contra hmissing
    have hrow : fundingRow env c (getBlock n p.2) n p.2 p.1 ∈ st.rows := by
      rw [hrows]
      exact List.mem_flatMap.mpr ⟨n, List.mem_range'_1.mpr (by omega), List.mem_map.mpr ⟨p, hp, rfl⟩⟩
    have hold := hdated _ hrow (by simp [fundingRow, hmissing])
    rw [show (fundingRow env c (getBlock n p.2) n p.2 p.1).blockNumber = n by rfl, hwindow] at hold
    cases hold

theorem scanStart_le_iff {since : Int} : scanStart c since ≤ n ↔ Reaches c since n := by
  constructor
  · intro h
    unfold scanStart estimateBlockAt at h
    dsimp only at h
    split at h
    · exact .inl h
    · rename_i hno
      push Not at hno
      refine .inr ⟨hno.2, hno.1, ?_⟩
      split at h
      · omega
      · omega
  · exact scanStart_le

theorem trailingLogs_eq : trailingLogs env c now = (List.range c.blocks.length).flatMap fun n =>
    if scanStart c (daySince now) ≤ n then activationsAt env c n else [] := by
  have hstart : scanStart c (daySince now) ≤ c.headNumber + 1 := by
    have := @scanStart_le c (daySince now) c.headNumber (.inl (Nat.le_refl _))
    omega
  unfold trailingLogs trailingRanges
  rw [ranges_events c _ (by omega) _ _ (Nat.le_refl _), Chain.getContractEvents]
  change (((c.blocks.take (c.headNumber + 1)).drop _).flatMap _).filter _ = _
  rw [Pieces.slice_flatMap _ _ hstart, List.filter_flatMap, ← headNumber_lt]
  exact Pieces.range'_flatMap_eq _ hstart

theorem inWindow_mono {m : Nat} (hle : n ≤ m) (hm : m < c.blocks.length) (h : inWindow c now n = true) :
    inWindow c now m = true := by
  have hn : n < c.blocks.length := by omega
  have hlater : c.blocks[n].timestamp ≤ c.blocks[m].timestamp := by
    rcases Nat.lt_or_eq_of_le hle with hlt | rfl
    · exact List.pairwise_iff_getElem.mp c.ordered n m hn hm hlt
    · exact le_rfl
  unfold inWindow at h ⊢
  rw [List.getElem?_eq_getElem hn] at h
  rw [List.getElem?_eq_getElem hm]
  simp only [Option.any_some, decide_eq_true_eq] at h ⊢
  omega

/-- Two ends of the chain hold the same activations when none lies between their starts. -/
theorem budgeted_iff : trailingLogs env c now = windowActivations env c now ↔
    ∀ n < c.blocks.length, activationsAt env c n ≠ [] → (Reaches c (daySince now) n ↔ inWindow c now n = true) := by
  have hpiece : ∀ n < c.blocks.length, ((if scanStart c (daySince now) ≤ n then activationsAt env c n else []) =
      (if inWindow c now n then activationsAt env c n else []) ↔
        (activationsAt env c n ≠ [] → (Reaches c (daySince now) n ↔ inWindow c now n = true))) := by
    intro n _
    rw [← scanStart_le_iff]
    by_cases hstart : scanStart c (daySince now) ≤ n
    · by_cases hwindow : inWindow c now n = true
      · simp [hstart, hwindow]
      · simp [hstart, hwindow]
    · by_cases hwindow : inWindow c now n = true
      · simp [hstart, hwindow, @eq_comm _ [] (activationsAt env c n)]
      · simp [hstart, hwindow]
  rw [trailingLogs_eq, windowActivations]
  have hends : (∀ n < c.blocks.length, scanStart c (daySince now) ≤ n → inWindow c now n = true) ∨
      (∀ n < c.blocks.length, inWindow c now n = true → scanStart c (daySince now) ≤ n) := by
    by_cases h : ∀ n < c.blocks.length, scanStart c (daySince now) ≤ n → inWindow c now n = true
    · exact .inl h
    · push Not at h
      obtain ⟨n, hn, hstart, hold⟩ := h
      refine .inr fun m hm hwindow => ?_
      by_contra hbefore
      exact hold (inWindow_mono (by omega) hn hwindow)
  have hiff : ∀ {f g : Nat → List Activated}, (∀ n ∈ List.range c.blocks.length, (f n).Sublist (g n)) →
      ((List.range c.blocks.length).flatMap f = (List.range c.blocks.length).flatMap g ↔
        ∀ n < c.blocks.length, f n = g n) := by
    intro f g hpart
    rw [Pieces.flatMap_eq_iff hpart]
    simp only [List.mem_range]
  rcases hends with hends | hends
  · rw [hiff ?_]
    · exact forall₂_congr hpiece
    · intro n hn
      split
      · rename_i hstart
        rw [if_pos (hends n (List.mem_range.mp hn) hstart)]
      · exact List.nil_sublist _
  · rw [eq_comm, hiff ?_]
    · exact forall₂_congr fun n hn => eq_comm.trans (hpiece n hn)
    · intro n hn
      split
      · rename_i hwindow
        rw [if_pos (hends n (List.mem_range.mp hn) hwindow)]
      · exact List.nil_sublist _

theorem round6_formatUnits6 (n : Nat) : round6 (formatUnits6 n) = formatUnits6 n := by
  have hround : Js.mathRound ((n : ℚ) / 1000000 * 1000000) = n := by
    rw [div_mul_cancel₀ _ (by norm_num), Js.mathRound, Int.floor_eq_iff]
    constructor
    · push_cast
      linarith
    · push_cast
      linarith
  unfold round6 Js.roundTo formatUnits6
  push_cast
  rw [hround]
  push_cast
  rfl

/-- The order of the display changes no sum. -/
theorem trailing_figure (account : Hex) (rows : List FundingRow) (now : Int) :
    (summarizeFunding account rows now).trailingCreditsUsd =
      round6 ((rows.filter (recent now)).map FundingRow.amountUsd).sum := by
  have hperm := List.perm_insertionSort (fun a b : FundingActivation => b.blockNumber ≤ a.blockNumber)
    (rows.map fun r => FundingActivation.mk r (fundedBy account r))
  change round6 _ = round6 _
  rw [((hperm.filter _).map _).sum_eq, List.filter_map, List.map_map]
  rfl

theorem formatUnits6_sum (ns : List Nat) : (ns.map formatUnits6).sum = formatUnits6 ns.sum := by
  induction ns with
  | nil => simp [formatUnits6]
  | cons n ns ih => rw [List.map_cons, List.sum_cons, List.sum_cons, ih, formatUnits6_add]

theorem rowsAt_amounts {getBlock : Nat → Nat → Bool} :
    (rowsAt env c getBlock n).map FundingRow.amountUsd =
      ((activationsAt env c n).map Activated.amount).map formatUnits6 := by
  unfold rowsAt
  rw [List.map_map, List.map_map]
  have hfst : (activationsAt env c n) = (activationsAt env c n).zipIdx.map Prod.fst := by simp
  conv_rhs => rw [hfst, List.map_map]
  rfl

theorem windowRows_amounts : (windowRows env c now).map FundingRow.amountUsd =
    ((windowActivations env c now).map Activated.amount).map formatUnits6 := by
  unfold windowRows windowActivations
  simp only [List.map_flatMap]
  simp only [List.flatMap]
  refine congrArg List.flatten (List.map_congr_left fun n _ => ?_)
  split
  · exact rowsAt_amounts
  · rfl

theorem trailingCreditsUsd_iff (figure : ℚ) (reads : ScanReads) :
    trailingCreditsUsd c env.orbioAgentAccount 9999 now reads = .ok figure ↔
      (reads.head = none ∧ reads.ref = none ∧ ∀ r ∈ trailingRanges c now, reads.getContractEvents r = none) ∧
        formatUnits6 ((trailingLogs env c now).map Activated.amount).sum = figure := by
  obtain ⟨head, ref, getContractEvents⟩ := reads
  cases head with
  | some e => simp [trailingCreditsUsd]
  | none =>
    cases ref with
    | some e => simp [trailingCreditsUsd]
    | none =>
      unfold trailingCreditsUsd
      dsimp only
      split
      · rename_i e he
        obtain ⟨r, hr, hfail⟩ := List.exists_of_findSome?_eq_some he
        constructor
        · exact fun h => nomatch h
        · rintro ⟨⟨-, -, hread⟩, -⟩
          rw [hread r hr] at hfail
          cases hfail
      · rename_i hread
        have hread := List.findSome?_eq_none_iff.mp hread
        constructor
        · exact fun h => ⟨⟨rfl, rfl, hread⟩, Except.ok.inj h⟩
        · rintro ⟨-, rfl⟩
          rfl

theorem dailyCap_trailing_iff (worker : WorkerEnv) (spendableUsd figure : ℚ) (trailing : Except String ℚ) :
    (dynamicDailyCapUsd worker spendableUsd trailing).trailingCreditsUsd = some figure ↔
      worker.creditConfigured = true ∧ trailing = .ok figure := by
  unfold dynamicDailyCapUsd
  cases worker.creditConfigured with
  | false => simp
  | true => cases trailing <;> simp

/-- The display and the budget are in step exactly when the reader starts early enough and dates what
is recent, the worker reads what it asks for, and its estimate tells the old activations from the others. -/
theorem agrees_iff (env : FundingEnv) (c : Chain) (worker : WorkerEnv) (spendableUsd : ℚ) (calls : List Call)
    (call : Call) (figures : FundingFigures) (reads : ScanReads)
    (hfigures : (display env c calls call).1 = some figures)
    (hhead : (display env c calls call).2.next = c.headNumber + 1) :
    Agrees env c worker spendableUsd (display env c calls call).2 figures reads call.nowMs ↔
      InStep env c worker (display env c calls call).2 reads call.nowMs := by
  have hscanned : Scanned env c (display env c calls call).2 := reader_scanned call (run_scanned calls)
  have hfigure : figures = summarizeFunding env.orbioAgentAccount (display env c calls call).2.rows call.nowMs :=
    reader_figures hfigures
  generalize (display env c calls call).2 = st at *
  have hshown : st.rows.filter (recent call.nowMs) = windowRows env c call.nowMs →
      figures.trailingCreditsUsd = formatUnits6 ((windowActivations env c call.nowMs).map Activated.amount).sum := by
    intro hdisplayed
    rw [hfigure, trailing_figure, hdisplayed, windowRows_amounts, formatUnits6_sum, round6_formatUnits6]
  constructor
  · rintro ⟨hdisplayed, hbudgeted, hequal⟩
    obtain ⟨hcovered, hdated⟩ := (displayed_iff hscanned hhead).mp hdisplayed
    obtain ⟨hconfigured, hok⟩ := (dailyCap_trailing_iff _ _ _ _).mp hequal
    exact ⟨hconfigured, ((trailingCreditsUsd_iff _ _).mp hok).1, hcovered, hdated, budgeted_iff.mp hbudgeted⟩
  · rintro ⟨hconfigured, hread, hcovered, hdated, hreached⟩
    have hdisplayed := (displayed_iff hscanned hhead).mpr ⟨hcovered, hdated⟩
    have hbudgeted := budgeted_iff.mpr hreached
    refine ⟨hdisplayed, hbudgeted, (dailyCap_trailing_iff _ _ _ _).mpr ⟨hconfigured, ?_⟩⟩
    refine (trailingCreditsUsd_iff _ _).mpr ⟨hread, ?_⟩
    rw [hshown hdisplayed, hbudgeted]

def account : Hex := List.replicate 40 (HexDigit.ofNibble 1)

def sampleEnv : FundingEnv := ⟨account, 0, fun _ _ => ("58", "0xb7f8")⟩

def sampleWorker : WorkerEnv := ⟨1 / 5, 5, 1, 60, true⟩

def activation : Activated := ⟨account, account, 20000000⟩

/-- A block every six hours and some minutes; the first one, a day and some minutes old, activates. -/
def agedChain : Chain :=
  ⟨[⟨0, [activation]⟩, ⟨21700, []⟩, ⟨43400, []⟩, ⟨65100, []⟩, ⟨86800, []⟩], by simp, by decide⟩

/-- The chain has stood still before the block that activates. -/
def stillChain : Chain := ⟨[⟨0, []⟩, ⟨1000000, [activation]⟩, ⟨1000001, []⟩, ⟨1000002, []⟩], by simp, by decide⟩

def freshChain : Chain := ⟨[⟨0, []⟩, ⟨100000, [activation]⟩, ⟨100001, []⟩], by simp, by decide⟩

/-- A first call, at the time of the head. -/
def firstCall (c : Chain) (dated : Bool) : Call :=
  ⟨c.headTimestamp * 1000, ⟨some 0, fun _ => true, fun _ _ => dated, c.headTimestamp * 1000⟩, c.headTimestamp * 1000⟩

def allRead : ScanReads := ⟨none, none, fun _ => none⟩

/-- The figure of the display, and that of the budget. -/
def bothFigures (c : Chain) (dated : Bool) : Option ℚ × Option ℚ :=
  ((display sampleEnv c [] (firstCall c dated)).1.map FundingFigures.trailingCreditsUsd,
    (dynamicDailyCapUsd sampleWorker 10
      (trailingCreditsUsd c account 9999 (firstCall c dated).nowMs allRead)).trailingCreditsUsd)

theorem agrees_fresh :
    Agrees sampleEnv freshChain sampleWorker 10 (display sampleEnv freshChain [] (firstCall freshChain true)).2
      (summarizeFunding account (display sampleEnv freshChain [] (firstCall freshChain true)).2.rows
        (firstCall freshChain true).nowMs) allRead (firstCall freshChain true).nowMs := by
  refine (agrees_iff sampleEnv freshChain sampleWorker 10 [] (firstCall freshChain true) _ allRead rfl
    (by decide +kernel)).mpr ⟨rfl, ⟨rfl, rfl, fun _ _ => rfl⟩, fun n _ _ _ => Nat.zero_le n, by decide +kernel, ?_⟩
  have hreached : Reaches freshChain (daySince (firstCall freshChain true).nowMs) 1 := by
    refine .inr ⟨by decide +kernel, by decide +kernel, by decide +kernel⟩
  intro n hn hne
  have hone : n = 1 := by
    have hall : ∀ m < freshChain.blocks.length, activationsAt sampleEnv freshChain m ≠ [] → m = 1 := by decide +kernel
    exact hall n hn hne
  rw [hone]
  exact iff_of_true hreached (by decide +kernel)

/-- The budget counts an activation of the day before; it misses a recent one; the display
leaves out one whose block it could not read. -/
theorem figures_differ :
    bothFigures agedChain true = (some 0, some 20) ∧ bothFigures stillChain true = (some 20, some 0) ∧
      bothFigures freshChain false = (some 0, some 20) := by
  decide +kernel

end LaunchAuditor.Proofs.Funding
