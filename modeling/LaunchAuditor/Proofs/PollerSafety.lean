import LaunchAuditor.Watcher.Poller
import LaunchAuditor.Lib.Steps

namespace LaunchAuditor.Proofs.PollerSafety
open Chain Watcher

/-- A log is one that the watcher asks for. -/
def Creation (cfg : ChainConfig) (log : RpcLog) : Prop := (poolFilter cfg 0 0).selects log = true

section Poll
variable {σ : Type}

theorem ingestPools_pools (ingest : Nat → DetectedPool → σ → Except RpcError (Option String) × σ)
    (abandonThrough : Option Nat) (k : Nat) (pools : List DetectedPool) (s : σ) :
    (ingestPools ingest abandonThrough k pools s).1.map Handled.pool = pools := by
  induction pools generalizing k s with
  | nil => rfl
  | cons dp pools ih => exact congrArg (dp :: ·) (ih ..)

/-- Only a failure is abandoned, and only up to the block that was given. -/
theorem ingestPools_abandoned {ingest : Nat → DetectedPool → σ → Except RpcError (Option String) × σ}
    {abandonThrough : Option Nat} {k : Nat} {pools : List DetectedPool} {s : σ} {h : Handled}
    (hh : h ∈ (ingestPools ingest abandonThrough k pools s).1) :
    h.abandoned = (h.failed && abandonThrough.any fun through => decide (h.pool.blockNumber ≤ through)) := by
  induction pools generalizing k s with
  | nil => cases hh
  | cons dp pools ih =>
    rcases List.mem_cons.mp hh with rfl | hh
    · unfold Handled.failed
      dsimp only
      split
      · rfl
      · rw [Bool.true_and]
    · exact ih hh

theorem earliestHeldFailure_none {handled : List Handled} (h : earliestHeldFailure handled = none) :
    ∀ x ∈ handled, x.held = false := by
  rw [earliestHeldFailure, List.min?_eq_none_iff, List.map_eq_nil_iff, List.filter_eq_nil_iff] at h
  intro x hx
  simpa using h x hx

theorem earliestHeldFailure_some {handled : List Handled} {block : Nat} (h : earliestHeldFailure handled = some block) :
    (∃ x ∈ handled, x.pool.blockNumber = block) ∧ ∀ x ∈ handled, x.held = true → block ≤ x.pool.blockNumber := by
  rw [earliestHeldFailure, List.min?_eq_some_iff] at h
  obtain ⟨hmem, hle⟩ := h
  obtain ⟨x, hx, hblock⟩ := List.mem_map.mp hmem
  refine ⟨⟨x, (List.mem_filter.mp hx).1, hblock⟩, ?_⟩
  intro y hy hheld
  exact hle _ (List.mem_map.mpr ⟨y, List.mem_filter.mpr ⟨hy, hheld⟩, rfl⟩)

/-- What a poll does to a row that holds a cursor. -/
structure Moves (n : LogNode) (cfg : ChainConfig) (maxSpan cursor : Nat) (r : PollEnd σ) : Prop where
  forward : ∃ next, r.cursor = some next ∧ cursor ≤ next
  passed : ∀ next, r.cursor = some next → ∀ log ∈ n.logs, Creation cfg log → cursor < log.blockNumber →
    log.blockNumber ≤ next → ∃ h ∈ r.handled, h.pool.log = log ∧ h.held = false
  span : ∀ h ∈ r.handled, cursor < h.pool.blockNumber ∧ (maxSpan ≠ 0 → h.pool.blockNumber ≤ cursor + maxSpan)

theorem Moves.quiet {n : LogNode} {cfg : ChainConfig} {maxSpan cursor : Nat} {result : Except RpcError PollResult} {s : σ} :
    Moves n cfg maxSpan cursor ⟨result, some cursor, s, []⟩ where
  forward := ⟨cursor, rfl, Nat.le_refl cursor⟩
  passed next hnext log _ _ hafter hbefore := by
    obtain rfl := Option.some.inj hnext
    omega
  span h hh := by cases hh

theorem setCursor_row (w : Db.WriteEnd) (row : Option Nat) (next : Nat) :
    (setCursor w row next).2 = row ∨ (setCursor w row next).2 = some next :=
  w.apply_state (fun _ => some next) row

variable {n : LogNode} {cfg : ChainConfig} {maxRange : Nat}

theorem pollSpan_moves {maxSpan cursor safeHead : Nat} {start : Bool} {abandon : Option Nat} {io : PollIo σ} {s : σ}
    (hbelow : ∀ f logs, io.getLogs f = .ok logs → n.request f = .ok logs) :
    Moves n cfg maxSpan cursor (pollSpan cfg maxRange ⟨start, some maxSpan, abandon⟩ io (some cursor) cursor safeHead s) := by
  unfold pollSpan
  split
  · exact Moves.quiet
  · rename_i hbehind
    dsimp only
    generalize hto : (if maxSpan ≠ 0 ∧ cursor + 1 + maxSpan - 1 < safeHead then cursor + 1 + maxSpan - 1 else safeHead) = to_
    have hspan : cursor < to_ ∧ (maxSpan ≠ 0 → to_ ≤ cursor + maxSpan) := by
      rw [← hto]
      split
      · omega
      · omega
    cases hdetect : detectPools io.getLogs cfg (cursor + 1) to_ maxRange with
    | error e => exact Moves.quiet
    | ok detected =>
      have hmem := fun log => detectPools_mem hbelow hdetect log
      have hpools := ingestPools_pools io.ingest abandon 0 detected s
      dsimp only
      generalize (ingestPools io.ingest abandon 0 detected s).1 = handled at hpools ⊢
      have hof : ∀ log, (∃ h ∈ handled, h.pool.log = log) ↔ ∃ dp ∈ detected, dp.log = log := by
        intro log
        rw [← hpools]
        simp
      have hrange : ∀ h ∈ handled, cursor + 1 ≤ h.pool.blockNumber ∧ h.pool.blockNumber ≤ to_ := by
        intro h hh
        exact ((hmem h.pool.log).mp ((hof _).mp ⟨h, hh, rfl⟩)).2.2
      have hnext : cursor ≤ ((earliestHeldFailure handled).map fun block => block - 1).getD to_ := by
        cases hheld : earliestHeldFailure handled with
        | none => exact Nat.le_of_lt hspan.1
        | some block =>
          obtain ⟨⟨x, hx, hblock⟩, _⟩ := earliestHeldFailure_some hheld
          have hx := hrange x hx
          change cursor ≤ block - 1
          omega
      refine ⟨?_, ?_, ?_⟩
      · rcases setCursor_row io.setNextCursor (some cursor)
          (((earliestHeldFailure handled).map fun block => block - 1).getD to_) with hrow | hrow
        · exact ⟨cursor, hrow, Nat.le_refl cursor⟩
        · exact ⟨_, hrow, hnext⟩
      · intro next hrow log hlog hcreation hafter hbefore
        have hle : log.blockNumber ≤ ((earliestHeldFailure handled).map fun block => block - 1).getD to_ := by
          rcases setCursor_row io.setNextCursor (some cursor)
            (((earliestHeldFailure handled).map fun block => block - 1).getD to_) with hkept | hset
          · obtain rfl := Option.some.inj (hkept.symm.trans hrow)
            omega
          · obtain rfl := Option.some.inj (hset.symm.trans hrow)
            exact hbefore
        cases hheld : earliestHeldFailure handled with
        | none =>
          rw [hheld] at hle
          obtain ⟨h, hh, hpool⟩ := (hof log).mpr ((hmem log).mpr ⟨hlog, hcreation, hafter, hle⟩)
          exact ⟨h, hh, hpool, earliestHeldFailure_none hheld h hh⟩
        | some block =>
          rw [hheld] at hle
          change log.blockNumber ≤ block - 1 at hle
          obtain ⟨⟨x, hx, hblock⟩, hfirst⟩ := earliestHeldFailure_some hheld
          have hxrange := hrange x hx
          obtain ⟨h, hh, hpool⟩ := (hof log).mpr ((hmem log).mpr ⟨hlog, hcreation, hafter, by omega⟩)
          refine ⟨h, hh, hpool, ?_⟩
          by_contra hnot
          have hlate := hfirst h hh (by simpa using hnot)
          have hsame : h.pool.blockNumber = log.blockNumber := congrArg RpcLog.blockNumber hpool
          omega
      · intro h hh
        have hr := hrange h hh
        exact ⟨hr.1, fun hne => Nat.le_trans hr.2 (hspan.2 hne)⟩

/-- A first poll stores the head and scans nothing. -/
theorem pollOnce_first {env : WatcherEnv} {maxSpan abandon : Option Nat} {io : PollIo σ} {s : σ} :
    (pollOnce cfg env maxRange ⟨true, maxSpan, abandon⟩ io none s).handled = [] := by
  unfold pollOnce
  cases io.getBlockNumber with
  | error e => rfl
  | ok head =>
    cases io.getCursor with
    | some e => rfl
    | none =>
      dsimp only
      cases io.setFirstCursor with
      | done =>
        simp only [setCursor, Db.WriteEnd.apply]
        unfold pollSpan
        rw [if_pos (by simp)]
      | refused e => rfl
      | unacknowledged e => rfl

theorem pollOnce_moves {env : WatcherEnv} {maxSpan cursor : Nat} {abandon : Option Nat} {io : PollIo σ} {s : σ}
    (hbelow : ∀ f logs, io.getLogs f = .ok logs → n.request f = .ok logs) :
    Moves n cfg maxSpan cursor (pollOnce cfg env maxRange ⟨true, some maxSpan, abandon⟩ io (some cursor) s) := by
  unfold pollOnce
  cases io.getBlockNumber with
  | error e => exact Moves.quiet
  | ok head =>
    cases io.getCursor with
    | some e => exact Moves.quiet
    | none => exact pollSpan_moves hbelow

theorem pollOnce_abandoned {env : WatcherEnv} {opts : PollOptions} {io : PollIo σ} {row : Option Nat} {s : σ} {h : Handled}
    (hh : h ∈ (pollOnce cfg env maxRange opts io row s).handled) :
    h.abandoned =
      (h.failed && opts.abandonFailuresThroughBlock.any fun through => decide (h.pool.blockNumber ≤ through)) := by
  have hspan : ∀ row cursor safeHead, h ∈ (pollSpan cfg maxRange opts io row cursor safeHead s).handled →
      h.abandoned =
        (h.failed && opts.abandonFailuresThroughBlock.any fun through => decide (h.pool.blockNumber ≤ through)) := by
    intro row cursor safeHead hh
    unfold pollSpan at hh
    split at hh
    · cases hh
    · dsimp only at hh
      split at hh
      · cases hh
      · exact ingestPools_abandoned hh
  unfold pollOnce at hh
  cases hhead : io.getBlockNumber with
  | error e =>
    rw [hhead] at hh
    cases hh
  | ok head =>
    rw [hhead] at hh
    cases hcursor : io.getCursor with
    | some e =>
      rw [hcursor] at hh
      cases hh
    | none =>
      rw [hcursor] at hh
      cases row with
      | some cursor => exact hspan _ _ _ hh
      | none =>
        dsimp only at hh
        split at hh
        · cases hh
        · exact hspan _ _ _ hh

end Poll

section Runs
variable {σ : Type}

/-- A turn of the poller, in which some log queries fail, or a restart of the process. -/
inductive Event (σ : Type)
  | poll (logFaults : LogFilter → Option RpcError) (io : PollIo σ)
  | restart

/-- The chain answers what does not fail. -/
def served (n : LogNode) (logFaults : LogFilter → Option RpcError) (io : PollIo σ) : PollIo σ :=
  { io with getLogs := fun f =>
      match logFaults f with
      | some e => .error e
      | none => n.request f }

theorem served_below (n : LogNode) (logFaults : LogFilter → Option RpcError) (io : PollIo σ) (f : LogFilter)
    (logs : List RpcLog) (h : (served n logFaults io).getLogs f = .ok logs) : n.request f = .ok logs := by
  change (match logFaults f with
    | some e => .error e
    | none => n.request f) = Except.ok logs at h
  split at h
  · cases h
  · exact h

variable (cfg : ChainConfig) (env : WatcherEnv) (maxRange : Nat) (n : LogNode)

def step (p : Poller σ) : Event σ → Poller σ
  | .poll logFaults io => p.poll cfg env maxRange (served n logFaults io)
  | .restart => p.restart

/-- What the poll of a turn comes to. -/
def handledIn (p : Poller σ) : Event σ → List Handled
  | .restart => []
  | .poll logFaults io =>
    match p.abandonThrough env (served n logFaults io) with
    | .error _ => []
    | .ok abandon =>
      (pollOnce cfg env maxRange ⟨true, some env.maxSpanBlocks, abandon⟩ (served n logFaults io) p.cursor p.store).handled

def failedIn (log : RpcLog) (handled : List Handled) : Bool := handled.any fun h => decide (h.pool.log = log) && h.failed

/-- A pool is abandoned only after it has failed in as many polls as the limit says. -/
def Patient (before : List (List Handled)) (handled : List Handled) : Prop :=
  ∀ h ∈ handled, h.abandoned = true → STUCK_POLLS_BEFORE_SKIP ≤ before.countP (failedIn h.pool.log)

/-- Every creation the cursor has passed was ingested or skipped, or abandoned after enough failures. -/
def Accounted (p : Poller σ) : Prop :=
  ∀ started cursor log, p.started = some started → p.cursor = some cursor → log ∈ n.logs → Creation cfg log →
    started < log.blockNumber → log.blockNumber ≤ cursor →
    ∃ before handled after, p.polls = before ++ handled :: after ∧ ∃ h ∈ handled, h.pool.log = log ∧
      (h.failed = false ∨ h.abandoned = true ∧ STUCK_POLLS_BEFORE_SKIP ≤ before.countP (failedIn log))

def NeverBack (p : Poller σ) (e : Event σ) : Prop :=
  ∀ cursor, p.cursor = some cursor → ∃ next, (step cfg env maxRange n p e).cursor = some next ∧ cursor ≤ next

/-- When the counter has reached the limit, what fails has failed as often before. -/
def Seasoned (p : Poller σ) (e : Event σ) : Prop :=
  STUCK_POLLS_BEFORE_SKIP ≤ p.stuckPolls → env.maxSpanBlocks ≠ 0 →
    ∀ h ∈ handledIn cfg env maxRange n p e, h.failed = true →
      STUCK_POLLS_BEFORE_SKIP ≤ p.polls.countP (failedIn h.pool.log)

variable {cfg env maxRange n}

/-- A turn leaves the poller alone but for its counter, or it has polled. -/
theorem step_cases (p : Poller σ) (e : Event σ) :
    (handledIn cfg env maxRange n p e = [] ∧ (step cfg env maxRange n p e).cursor = p.cursor ∧
        (step cfg env maxRange n p e).started = p.started ∧ (step cfg env maxRange n p e).polls = p.polls) ∨
      ∃ logFaults io abandon r, p.abandonThrough env (served n logFaults io) = .ok abandon ∧
        r = pollOnce cfg env maxRange ⟨true, some env.maxSpanBlocks, abandon⟩ (served n logFaults io) p.cursor p.store ∧
        handledIn cfg env maxRange n p e = r.handled ∧ (step cfg env maxRange n p e).cursor = r.cursor ∧
        (step cfg env maxRange n p e).started = p.started.or r.cursor ∧
        (step cfg env maxRange n p e).polls = p.polls ++ [r.handled] := by
  cases e with
  | restart => exact Or.inl ⟨rfl, rfl, rfl, rfl⟩
  | poll logFaults io =>
    unfold handledIn step Poller.poll
    dsimp only
    cases habandon : p.abandonThrough env (served n logFaults io) with
    | error e => exact Or.inl ⟨rfl, rfl, rfl, rfl⟩
    | ok abandon => exact Or.inr ⟨logFaults, io, abandon, _, habandon, rfl, rfl, rfl, rfl, rfl⟩

theorem abandonThrough_ok {p : Poller σ} {io : PollIo σ} {abandon : Option Nat}
    (h : p.abandonThrough env io = .ok abandon) :
    abandon = if p.stuckPolls ≥ STUCK_POLLS_BEFORE_SKIP then p.cursor.map fun c => c + env.maxSpanBlocks else none := by
  unfold Poller.abandonThrough at h
  split at h
  · rename_i hstuck
    rw [if_pos hstuck]
    split at h
    · cases h
    · exact (Except.ok.inj h).symm
  · rename_i hstuck
    rw [if_neg hstuck]
    exact (Except.ok.inj h).symm

/-- What a poll abandons is all that fails in it, once the counter has reached the limit. -/
theorem abandoned_iff (p : Poller σ) (e : Event σ) {h : Handled} (hh : h ∈ handledIn cfg env maxRange n p e) :
    h.abandoned = true ↔ h.failed = true ∧ STUCK_POLLS_BEFORE_SKIP ≤ p.stuckPolls ∧ env.maxSpanBlocks ≠ 0 := by
  rcases step_cases p e with ⟨hnil, _⟩ | ⟨logFaults, io, abandon, r, habandon, rfl, hhandled, _⟩
  · rw [hnil] at hh
    cases hh
  · rw [hhandled] at hh
    rw [pollOnce_abandoned hh, abandonThrough_ok habandon]
    dsimp only
    cases hcursor : p.cursor with
    | none =>
      rw [hcursor, pollOnce_first] at hh
      cases hh
    | some cursor =>
      rw [hcursor] at hh
      have hspan := (pollOnce_moves (served_below n logFaults io)).span h hh
      by_cases hstuck : p.stuckPolls ≥ STUCK_POLLS_BEFORE_SKIP
      · rw [if_pos hstuck]
        simp only [Option.map_some, Option.any_some, Bool.and_eq_true, decide_eq_true_eq]
        constructor
        · rintro ⟨hfailed, hle⟩
          exact ⟨hfailed, hstuck, by omega⟩
        · rintro ⟨hfailed, _, hne⟩
          exact ⟨hfailed, hspan.2 hne⟩
      · rw [if_neg hstuck]
        simp only [Option.any_none, Bool.and_false, Bool.false_eq_true, false_iff]
        exact fun hall => hstuck hall.2.1

theorem patient_iff (p : Poller σ) (e : Event σ) :
    Patient p.polls (handledIn cfg env maxRange n p e) ↔ Seasoned cfg env maxRange n p e := by
  constructor
  · intro hp hstuck hspan h hh hfailed
    exact hp h hh ((abandoned_iff p e hh).mpr ⟨hfailed, hstuck, hspan⟩)
  · intro hs h hh habandoned
    obtain ⟨hfailed, hstuck, hspan⟩ := (abandoned_iff p e hh).mp habandoned
    exact hs hstuck hspan h hh hfailed

theorem patient_nil (before : List (List Handled)) : Patient before [] := by
  intro h hh
  cases hh

theorem step_patient (p : Poller σ) (e : Event σ) :
    Steps.Throughout Patient (step cfg env maxRange n p e).polls ↔
      Steps.Throughout Patient p.polls ∧ Seasoned cfg env maxRange n p e := by
  rw [← patient_iff]
  rcases step_cases p e with ⟨hnil, _, _, hpolls⟩ | ⟨_, _, _, r, _, _, hhandled, _, _, hpolls⟩
  · rw [hpolls, hnil]
    exact (and_iff_left (patient_nil _)).symm
  · rw [hpolls, hhandled, Steps.throughout_snoc]

theorem never_back (p : Poller σ) (e : Event σ) : NeverBack cfg env maxRange n p e := by
  intro cursor hcursor
  rcases step_cases p e with ⟨_, hsame, _⟩ | ⟨logFaults, io, abandon, r, _, rfl, _, hmoved, _⟩
  · exact ⟨cursor, hsame.trans hcursor, Nat.le_refl cursor⟩
  · rw [hmoved, hcursor]
    exact (pollOnce_moves (served_below n logFaults io)).forward

/-- What is passed is handled, whatever becomes of it. -/
structure Inv (cfg : ChainConfig) (n : LogNode) (p : Poller σ) : Prop where
  started : p.started = none ↔ p.cursor = none
  passed : ∀ started cursor log, p.started = some started → p.cursor = some cursor → log ∈ n.logs → Creation cfg log →
    started < log.blockNumber → log.blockNumber ≤ cursor →
    ∃ handled ∈ p.polls, ∃ h ∈ handled, h.pool.log = log ∧ h.held = false

theorem step_inv (p : Poller σ) (e : Event σ) (hp : Inv cfg n p) : Inv cfg n (step cfg env maxRange n p e) := by
  rcases step_cases p e with ⟨_, hcursor, hstarted, hpolls⟩ | ⟨logFaults, io, abandon, r, _, hr, _, hcursor, hstarted, hpolls⟩
  · constructor
    · rw [hcursor, hstarted]
      exact hp.started
    · rw [hcursor, hstarted, hpolls]
      exact hp.passed
  · cases hc : p.cursor with
    | none =>
      have hnone := hp.started.mpr hc
      rw [hnone, Option.none_or] at hstarted
      constructor
      · rw [hcursor, hstarted]
      · intro started cursor log hs hcur _ _ hafter hbefore
        rw [hstarted] at hs
        rw [hcursor, hs] at hcur
        obtain rfl := Option.some.inj hcur
        omega
    | some cursor =>
      rw [hc] at hr
      have hmoves : Moves n cfg env.maxSpanBlocks cursor r := hr ▸ pollOnce_moves (served_below n logFaults io)
      obtain ⟨next, hnext, hle⟩ := hmoves.forward
      have hsome : p.started ≠ none := fun hnone => by
        rw [hp.started.mp hnone] at hc
        cases hc
      obtain ⟨first, hfirst⟩ := Option.ne_none_iff_exists'.mp hsome
      rw [hfirst, Option.some_or] at hstarted
      constructor
      · rw [hcursor, hstarted, hnext]
        simp
      · intro started cursor' log hs hcur hlog hcreation hafter hbefore
        rw [hstarted] at hs
        obtain rfl := Option.some.inj hs
        rw [hcursor] at hcur
        rw [hpolls]
        by_cases hold : log.blockNumber ≤ cursor
        · obtain ⟨handled, hmem, hhandled⟩ := hp.passed first cursor log hfirst hc hlog hcreation hafter hold
          exact ⟨handled, List.mem_append_left _ hmem, hhandled⟩
        · exact ⟨r.handled, by simp, hmoves.passed cursor' hcur log hlog hcreation (by omega) hbefore⟩

theorem start_inv (cursor : Option Nat) (store : σ) : Inv cfg n (Poller.start cursor store) where
  started := Iff.rfl
  passed started cursor' log hs hc _ _ hafter hbefore := by
    change cursor = some started at hs
    change cursor = some cursor' at hc
    rw [hs] at hc
    obtain rfl := Option.some.inj hc
    omega

theorem accounted_of_patient {p : Poller σ} (hp : Inv cfg n p) (hpatient : Steps.Throughout Patient p.polls) :
    Accounted cfg n p := by
  intro started cursor log hs hc hlog hcreation hafter hbefore
  obtain ⟨handled, hmem, h, hh, hpool, hheld⟩ := hp.passed started cursor log hs hc hlog hcreation hafter hbefore
  obtain ⟨before, after, hsplit⟩ := List.append_of_mem hmem
  refine ⟨before, handled, after, hsplit, h, hh, hpool, ?_⟩
  cases hfailed : h.failed with
  | false => exact Or.inl rfl
  | true =>
    have habandoned : h.abandoned = true := by
      unfold Handled.held at hheld
      rw [hfailed] at hheld
      simpa using hheld
    right
    refine ⟨habandoned, ?_⟩
    rw [← hpool]
    exact hpatient before handled after hsplit h hh habandoned

/-- The poller is safe in exactly the runs in which, once it abandons, what fails has failed often enough. -/
theorem poller_safe_iff (cfg : ChainConfig) (env : WatcherEnv) (maxRange : Nat) (n : LogNode) (cursor : Option Nat)
    (store : σ) (events : List (Event σ)) :
    (Steps.Always (step cfg env maxRange n) (NeverBack cfg env maxRange n) (Poller.start cursor store) events ∧
        Accounted cfg n (Steps.run (step cfg env maxRange n) (Poller.start cursor store) events) ∧
        Steps.Throughout Patient (Steps.run (step cfg env maxRange n) (Poller.start cursor store) events).polls) ↔
      Steps.Always (step cfg env maxRange n) (Seasoned cfg env maxRange n) (Poller.start cursor store) events := by
  have hpatient : Steps.Throughout Patient (Steps.run (step cfg env maxRange n) (Poller.start cursor store) events).polls ↔
      Steps.Always (step cfg env maxRange n) (Seasoned cfg env maxRange n) (Poller.start cursor store) events := by
    rw [Steps.throughout_run_iff Poller.polls step_patient]
    exact and_iff_right Steps.throughout_nil
  have hinv : Inv cfg n (Steps.run (step cfg env maxRange n) (Poller.start cursor store) events) :=
    Steps.invariant_run_free (Inv cfg n) step_inv (start_inv cursor store)
  have hforward : Steps.Always (step cfg env maxRange n) (NeverBack cfg env maxRange n) (Poller.start cursor store) events :=
    Steps.always_free never_back _ _
  rw [← hpatient]
  constructor
  · exact fun h => h.2.2
  · exact fun h => ⟨hforward, accounted_of_patient hinv h, h⟩

end Runs

def creationLog (block : Nat) (poolId : Word) : RpcLog where
  address := 2#160
  topics := [POOL_EVENT_TOPIC0.v4Initialize, poolId, 6#256, 9#256]
  data := [3000#256, 60#256, 0#256, 1#256, 0#256]
  blockNumber := block
  transactionHash := 70#256
  logIndex := 0

def twoPools : LogNode where
  logs := [creationLog 11 77#256, creationLog 12 78#256]
  ordered := by decide +kernel

/-- Every pool in these blocks fails. -/
def failingAt (blocks : List Nat) : Event Unit :=
  .poll (fun _ => none) {
    abandonCursor := none
    getBlockNumber := .ok 100
    getCursor := none
    setFirstCursor := .done
    setNextCursor := .done
    getLogs := fun _ => .ok []
    ingest := fun _ dp s => (if dp.blockNumber ∈ blocks then .error ⟨"Error", "bad data"⟩ else .ok none, s) }

/-- The pool of block 12 fails for the first time in the poll that abandons, and is abandoned with the other. -/
theorem poller_abandons_at_once : ¬ Steps.Throughout Patient
    (Steps.run (step sampleConfig ⟨4663, 60, 4000, 5⟩ 9999 twoPools) (Poller.start (some 10) ())
      (List.replicate 6 (failingAt [11]) ++ [failingAt [11, 12]])).polls := by
  intro h
  generalize hpolls : (Steps.run (step sampleConfig ⟨4663, 60, 4000, 5⟩ 9999 twoPools) (Poller.start (some 10) ())
    (List.replicate 6 (failingAt [11]) ++ [failingAt [11, 12]])).polls = polls at h
  have hlast : (polls.getLast?.getD []).any (fun x => x.abandoned &&
      decide (polls.dropLast.countP (failedIn x.pool.log) < STUCK_POLLS_BEFORE_SKIP)) = true := by
    rw [← hpolls]
    decide +kernel
  rcases List.eq_nil_or_concat' polls with rfl | ⟨before, handled, rfl⟩
  · cases hlast
  · rw [List.getLast?_concat, List.dropLast_concat] at hlast
    obtain ⟨x, hx, hlost⟩ := List.any_eq_true.mp hlast
    rw [Bool.and_eq_true, decide_eq_true_eq] at hlost
    exact absurd (h before handled [] rfl x hx hlost.1) (Nat.not_le.mpr hlost.2)

end LaunchAuditor.Proofs.PollerSafety
