import LaunchAuditor.Lib.Pieces
import LaunchAuditor.Outcomes.Loop

namespace LaunchAuditor.Proofs.Sweeps
open Chain Db Js Outcomes Outcomes.Loop Steps

def total (out : SweepResult) : Nat := out.resolved + out.na + out.unresolvable + out.retryLater + out.failed

/-- The stored time of a row's first deferral. -/
def clock (row : OutcomeRecord) : Option Int := (textOf row.evidence "firstDeferredAt").bind dateParse

/-- What `deferRow` writes at `now` for a row it was given. -/
structure Deferral (row : OutcomeRecord) (now giveUpAfterMs : Int) (write : OutcomeWrite) : Prop where
  kind : ∃ first deferrals msg, (write = .deferred first deferrals msg ∨ write = .gaveUp first deferrals msg ∧
      ∃ c, dateParse first = some c ∧ giveUpAfterMs ≤ now - c) ∧
    ∀ c, clock row = some c → dateParse first = some c

variable {s s' : Sweep} {table table' : OutcomeTable} {e : Settled} {row : OutcomeRecord} {worker : Nat} {now : Int}

theorem dateParse_empty : dateParse "" = none := by decide +kernel

theorem isClock_iff (row : OutcomeRecord) :
    isClock (textOf row.evidence "firstDeferredAt") = true ↔ ∃ c, clock row = some c := by
  unfold clock isClock
  cases h : textOf row.evidence "firstDeferredAt" with
  | none => simp
  | some first =>
    by_cases he : first = ""
    · simp [he, dateParse_empty]
    · simp [he, Option.isSome_iff_exists]

theorem deferRow_cases (s : Sweep) (worker : Nat) (row : OutcomeRecord) (msg : String) (caught : Bool) (now : Int) :
    ∃ out write, s.deferRow worker row msg caught now =
        { s with out }.set worker (.busy row (.deferring write caught now)) ∧
      total out = total s.out + 1 ∧ out.picked = s.out.picked ∧ Deferral row now s.giveUpAfterMs write := by
  have hfirst : ∀ c, clock row = some c →
      dateParse (deferOrGiveUp (textOf row.evidence "firstDeferredAt") now s.giveUpAfterMs).firstDeferredAt = some c := by
    intro c hc
    have hclock := (isClock_iff row).mpr ⟨c, hc⟩
    unfold clock at hc
    obtain ⟨first, hf, hp⟩ := Option.bind_eq_some_iff.mp hc
    simp only [deferOrGiveUp, hclock, if_true]
    rw [hf]
    exact hp
  unfold Sweep.deferRow
  dsimp only
  split
  · rename_i hg
    obtain ⟨c, hc, hle⟩ := Option.any_eq_true .. |>.mp hg
    refine ⟨_, _, rfl, ?_, rfl, ⟨_, _, _, .inr ⟨rfl, c, hc, by simpa using hle⟩, hfirst⟩⟩
    simp only [total]
    omega
  · refine ⟨_, _, rfl, ?_, rfl, ⟨_, _, _, .inl rfl, hfirst⟩⟩
    simp only [total]
    omega

/-- What the handler of `resolveRow` leaves its worker waiting for. -/
inductive Handled (row : OutcomeRecord) (now giveUpAfterMs : Int) : RowPhase → Prop
  | deferring {write : OutcomeWrite} (h : Deferral row now giveUpAfterMs write) :
      Handled row now giveUpAfterMs (.deferring write true now)
  | backingOff : Handled row now giveUpAfterMs (.backingOff now)

theorem handle_cases (s : Sweep) (worker : Nat) (row : OutcomeRecord) (err : Thrown) (now : Int) :
    ∃ out phase, s.handle worker row err now = { s with out }.set worker (.busy row phase) ∧
      total out = total s.out + 1 ∧ out.picked = s.out.picked ∧ Handled row now s.giveUpAfterMs phase := by
  unfold Sweep.handle
  split
  · obtain ⟨out, write, he, ht, hp, hd⟩ := deferRow_cases s worker row err.message true now
    exact ⟨out, _, he, ht, hp, .deferring hd⟩
  · refine ⟨_, _, rfl, ?_, rfl, .backingOff⟩
    simp only [total]
    omega

/-- A write that failed may have been applied. -/
def Perhaps (row : OutcomeRecord) (at' : Int) (write : OutcomeWrite) (table table' : OutcomeTable) : Prop :=
  table' = table ∨ table' = updateRow row.id at' write table

/-- What one settled call does to its sweep and to the table. -/
inductive Moves (s : Sweep) (table : OutcomeTable) (e : Settled) : Sweep → OutcomeTable → Prop
  | stay (h : ∀ w, s.workers[e.worker]? = some w → w.done = true) : Moves s table e s table
  | take {row : OutcomeRecord} (h : s.workers[e.worker]? = some .idle) (hrow : s.due[s.cursor]? = some row) :
      Moves s table e ({ s with cursor := s.cursor + 1 }.set e.worker (.busy row .resolving)) table
  | finish (h : s.workers[e.worker]? = some .idle) (hend : s.due[s.cursor]? = none) :
      Moves s table e (s.set e.worker .finished) table
  | verdict {row : OutcomeRecord} {res : Resolution} (h : s.workers[e.worker]? = some (.busy row .resolving))
      (hres : transientVerdict res = false) :
      Moves s table e (s.set e.worker (.busy row (.storing res e.now))) table
  | defer {row : OutcomeRecord} {out : SweepResult} {write : OutcomeWrite}
      (h : s.workers[e.worker]? = some (.busy row .resolving)) (ht : total out = total s.out + 1)
      (hp : out.picked = s.out.picked) (hd : Deferral row e.now s.giveUpAfterMs write) :
      Moves s table e ({ s with out }.set e.worker (.busy row (.deferring write false e.now))) table
  | threw {row : OutcomeRecord} {out : SweepResult} {phase : RowPhase}
      (h : s.workers[e.worker]? = some (.busy row .resolving)) (ht : total out = total s.out + 1)
      (hp : out.picked = s.out.picked) (hh : Handled row e.now s.giveUpAfterMs phase) :
      Moves s table e ({ s with out }.set e.worker (.busy row phase)) table
  | deferred {row : OutcomeRecord} {write : OutcomeWrite} {caught : Bool} {at' : Int}
      (h : s.workers[e.worker]? = some (.busy row (.deferring write caught at'))) (hw : e.write = .ok) :
      Moves s table e (s.set e.worker .idle) (updateRow row.id at' write table)
  | again {row : OutcomeRecord} {write : OutcomeWrite} {at' : Int} {out : SweepResult} {phase : RowPhase}
      {table' : OutcomeTable} (h : s.workers[e.worker]? = some (.busy row (.deferring write false at')))
      (hw : e.write ≠ .ok) (ht : total out = total s.out + 1) (hp : out.picked = s.out.picked)
      (hh : Handled row e.now s.giveUpAfterMs phase) (htable : Perhaps row at' write table table') :
      Moves s table e ({ s with out }.set e.worker (.busy row phase)) table'
  | reject {row : OutcomeRecord} {write : OutcomeWrite} {at' : Int} {table' : OutcomeTable}
      (h : s.workers[e.worker]? = some (.busy row (.deferring write true at'))) (hw : e.write ≠ .ok)
      (htable : Perhaps row at' write table table') : Moves s table e (s.set e.worker .rejected) table'
  | stored {row : OutcomeRecord} {res : Resolution} {at' : Int} {out : SweepResult}
      (h : s.workers[e.worker]? = some (.busy row (.storing res at'))) (ht : total out = total s.out + 1)
      (hp : out.picked = s.out.picked) :
      Moves s table e ({ s with out }.set e.worker .idle) (updateRow row.id at' (.verdict res) table)
  | unstored {row : OutcomeRecord} {res : Resolution} {at' : Int} {out : SweepResult} {phase : RowPhase}
      {table' : OutcomeTable} (h : s.workers[e.worker]? = some (.busy row (.storing res at')))
      (ht : total out = total s.out + 1) (hp : out.picked = s.out.picked)
      (hh : Handled row e.now s.giveUpAfterMs phase) (htable : Perhaps row at' (.verdict res) table table') :
      Moves s table e ({ s with out }.set e.worker (.busy row phase)) table'
  | backedOff {row : OutcomeRecord} {at' : Int} {table' : OutcomeTable}
      (h : s.workers[e.worker]? = some (.busy row (.backingOff at'))) (htable : Perhaps row at' .backoff table table') :
      Moves s table e (s.set e.worker (.busy row .recording)) table'
  | recorded {row : OutcomeRecord} (h : s.workers[e.worker]? = some (.busy row .recording)) :
      Moves s table e (s.set e.worker .idle) table

theorem total_count (out : SweepResult) (status : OutcomeStatus) :
    total (out.count status) = total out + 1 ∧ (out.count status).picked = out.picked := by
  cases status <;> exact ⟨by simp only [total, SweepResult.count]; omega, rfl⟩

theorem moves_resolving (h : s.workers[e.worker]? = some (.busy row .resolving)) :
    Moves s table e (s.exec table e).1 (s.exec table e).2 := by
  unfold Sweep.exec
  rw [h]
  dsimp only
  cases e.resolution with
  | ok res =>
    dsimp only
    split
    · obtain ⟨out, write, he, ht, hp, hd⟩ := deferRow_cases s e.worker row (deferralMessage res) false e.now
      rw [he]
      exact .defer h ht hp hd
    · exact .verdict h (by simp_all)
  | error err =>
    obtain ⟨out, phase, he, ht, hp, hh⟩ := handle_cases s e.worker row err e.now
    dsimp only
    rw [he]
    exact .threw h ht hp hh

theorem moves_deferring {write : OutcomeWrite} {caught : Bool} {at' : Int}
    (h : s.workers[e.worker]? = some (.busy row (.deferring write caught at'))) :
    Moves s table e (s.exec table e).1 (s.exec table e).2 := by
  have hthrown : ∀ err table', e.write ≠ .ok → Perhaps row at' write table table' →
      Moves s table e (if caught = true then s.set e.worker .rejected else s.handle e.worker row err e.now) table' := by
    intro err table' hw htable
    cases caught with
    | true => exact .reject h hw htable
    | false =>
      obtain ⟨out, phase, he, ht, hp, hh⟩ := handle_cases s e.worker row err e.now
      rw [if_neg Bool.false_ne_true, he]
      exact .again h hw ht hp hh htable
  unfold Sweep.exec
  rw [h]
  dsimp only
  cases hw : e.write with
  | ok => exact .deferred h hw
  | failed err => exact hthrown err table (by simp [hw]) (.inl rfl)
  | ackLost err => exact hthrown err _ (by simp [hw]) (.inr rfl)

theorem moves_storing {res : Resolution} {at' : Int} (h : s.workers[e.worker]? = some (.busy row (.storing res at'))) :
    Moves s table e (s.exec table e).1 (s.exec table e).2 := by
  have hthrown : ∀ err table', Perhaps row at' (.verdict res) table table' →
      Moves s table e (s.handle e.worker row err e.now) table' := by
    intro err table' htable
    obtain ⟨out, phase, he, ht, hp, hh⟩ := handle_cases s e.worker row err e.now
    rw [he]
    exact .unstored h ht hp hh htable
  unfold Sweep.exec
  rw [h]
  dsimp only
  cases e.write with
  | ok => exact .stored h (total_count _ _).1 (total_count _ _).2
  | failed err => exact hthrown err table (.inl rfl)
  | ackLost err => exact hthrown err _ (.inr rfl)

theorem exec_moves (s : Sweep) (table : OutcomeTable) (e : Settled) :
    Moves s table e (s.exec table e).1 (s.exec table e).2 := by
  cases h : s.workers[e.worker]? with
  | none =>
    unfold Sweep.exec
    rw [h]
    exact .stay (by simp [h])
  | some w =>
    cases w with
    | finished =>
      unfold Sweep.exec
      rw [h]
      exact .stay (by simp [h, Worker.done, Worker.returned, Worker.threw])
    | rejected =>
      unfold Sweep.exec
      rw [h]
      exact .stay (by simp [h, Worker.done, Worker.returned, Worker.threw])
    | idle =>
      unfold Sweep.exec
      rw [h]
      dsimp only
      cases hrow : s.due[s.cursor]? with
      | some row => exact .take h hrow
      | none => exact .finish h hrow
    | busy row phase =>
      cases phase with
      | resolving => exact moves_resolving h
      | deferring write caught at' => exact moves_deferring h
      | storing res at' => exact moves_storing h
      | backingOff at' =>
        unfold Sweep.exec
        rw [h]
        dsimp only
        refine .backedOff h ?_
        split
        · exact .inl rfl
        · exact .inr rfl
      | recording =>
        unfold Sweep.exec
        rw [h]
        exact .recorded h

/-- Whether the row of a worker is picked and in no count yet. -/
def uncounted : Worker → Nat
  | .busy _ .resolving => 1
  | .busy _ (.storing _ _) => 1
  | _ => 0

def counted (s : Sweep) : Nat := total s.out + (s.workers.map uncounted).sum

/-- What every sweep keeps, whatever fails. -/
structure Tally (s : Sweep) : Prop where
  counted : s.cursor ≤ counted s
  cursor : s.cursor ≤ s.due.length
  ended : .finished ∈ s.workers → s.cursor = s.due.length
  picked : s.out.picked = s.due.length
  nobody : s.workers = [] → Sweeps.counted s = 0

/-- Every row taken so far is in one count, and no worker is lost. -/
structure Accounted (s : Sweep) : Prop where
  counted : counted s = s.cursor
  nobody : s.workers = [] → s.due = []
  none_lost : .rejected ∉ s.workers

/-- A write of a deferral or of a give-up neither fails nor loses its answer. -/
def DeferralWritten (s : Sweep) (e : Settled) : Prop :=
  ∀ row write caught at', s.workers[e.worker]? = some (.busy row (.deferring write caught at')) → e.write = .ok

theorem counted_set {x : Worker} (hx : s.workers[worker]? = some x) (w : Worker) (out : SweepResult) (cursor : Nat) :
    counted ({ s with out, cursor }.set worker w) + total s.out + uncounted x =
      counted s + total out + uncounted w := by
  have h := Slots.sum_set uncounted hx w
  simp only [counted, Sweep.set]
  omega

theorem set_ne_nil {x w : Worker} (hx : s.workers[worker]? = some x) : s.workers.set worker w ≠ [] := by
  intro h
  have hl : s.workers.length = 0 := by simpa using congrArg List.length h
  rw [List.length_eq_zero_iff.mp hl] at hx
  simp at hx

/-- The account of a step that replaces one worker; `more` counts a row for a second time. -/
theorem set_account (more : Nat) {x w : Worker} {out : SweepResult} {cursor : Nat} (ht : Tally s)
    (hx : s.workers[e.worker]? = some x) (hdone : x.done = false)
    (hcursor : s.cursor ≤ cursor ∧ cursor ≤ s.due.length ∧ (w = .finished → cursor = s.due.length))
    (hpicked : out.picked = s.out.picked)
    (hcount : total out + uncounted w + s.cursor = total s.out + uncounted x + cursor + more)
    (hwritten : DeferralWritten s e ↔ more = 0 ∧ w ≠ .rejected) :
    Tally ({ s with out, cursor }.set e.worker w) ∧
      (Accounted ({ s with out, cursor }.set e.worker w) ↔ Accounted s ∧ DeferralWritten s e) := by
  have hc : counted ({ s with out, cursor }.set e.worker w) + s.cursor = counted s + cursor + more := by
    have := counted_set hx w out cursor
    omega
  have hne : ∀ y : Worker, y.done = true → y ≠ x := by
    rintro y hy rfl
    simp [hy] at hdone
  have hle := ht.counted
  have hcur : ({ s with out, cursor }.set e.worker w).cursor = cursor := rfl
  have hset : ({ s with out, cursor }.set e.worker w).workers = s.workers.set e.worker w := rfl
  constructor
  · refine ⟨by rw [hcur]; omega, hcursor.2.1, ?_, hpicked.trans ht.picked, ?_⟩
    · intro hf
      rcases (Slots.mem_set hx (hne _ rfl) w).mp hf with hf | hf
      · have := ht.ended hf
        exact Nat.le_antisymm hcursor.2.1 (this ▸ hcursor.1)
      · exact hcursor.2.2 hf.symm
    · intro hnil
      exact absurd hnil (set_ne_nil hx)
  · rw [hwritten]
    constructor
    · intro h
      have hcount := h.counted
      rw [hcur] at hcount
      have hlost := fun hr => h.none_lost ((Slots.mem_set hx (hne _ rfl) w).mpr hr)
      refine ⟨⟨by omega, ?_, fun hr => hlost (.inl hr)⟩, by omega, fun hr => hlost (.inr hr.symm)⟩
      intro hnil
      rw [hnil] at hx
      simp at hx
    · rintro ⟨h, hmore, hw⟩
      have hcount := h.counted
      refine ⟨by rw [hcur]; omega, fun hnil => absurd hnil (set_ne_nil hx), ?_⟩
      intro hr
      rcases (Slots.mem_set hx (hne _ rfl) w).mp hr with hr | hr
      · exact h.none_lost hr
      · exact hw hr.symm

theorem written_of_ne (h : ∀ row write caught at', s.workers[e.worker]? ≠ some (.busy row (.deferring write caught at'))) :
    DeferralWritten s e := fun row write caught at' hd => absurd hd (h row write caught at')

theorem written_iff {write : OutcomeWrite} {caught : Bool} {at' : Int}
    (h : s.workers[e.worker]? = some (.busy row (.deferring write caught at'))) :
    DeferralWritten s e ↔ e.write = .ok := by
  constructor
  · exact fun hw => hw row write caught at' h
  · exact fun hok _ _ _ _ _ => hok

theorem Handled.uncounted {giveUpAfterMs : Int} {phase : RowPhase} (h : Handled row now giveUpAfterMs phase) :
    uncounted (.busy row phase) = 0 := by
  cases h <;> rfl

/-- A step that does not end the write of a deferral counts a row when its worker is through with it. -/
theorem plain_account {x w : Worker} {out : SweepResult} {cursor : Nat} (ht : Tally s)
    (hx : s.workers[e.worker]? = some x) (hdone : x.done = false)
    (hphase : ∀ row write caught at', x ≠ .busy row (.deferring write caught at'))
    (hcursor : s.cursor ≤ cursor ∧ cursor ≤ s.due.length ∧ (w = .finished → cursor = s.due.length))
    (hpicked : out.picked = s.out.picked) (hw : w ≠ .rejected)
    (hcount : total out + uncounted w + s.cursor = total s.out + uncounted x + cursor) :
    Tally ({ s with out, cursor }.set e.worker w) ∧
      (Accounted ({ s with out, cursor }.set e.worker w) ↔ Accounted s ∧ DeferralWritten s e) := by
  refine set_account 0 ht hx hdone hcursor hpicked hcount ⟨fun _ => ⟨rfl, hw⟩, fun _ => ?_⟩
  refine written_of_ne fun row write caught at' h => hphase row write caught at' ?_
  exact Option.some.inj (hx.symm.trans h)

theorem account_step (ht : Tally s) (h : Moves s table e s' table') :
    Tally s' ∧ (Accounted s' ↔ Accounted s ∧ DeferralWritten s e) := by
  cases h with
  | stay h =>
    refine ⟨ht, fun ha => ⟨ha, written_of_ne fun row write caught at' hx => ?_⟩, fun ha => ha.1⟩
    simpa [Worker.done, Worker.returned, Worker.threw] using h _ hx
  | take h hrow =>
    have hlt := (List.getElem?_eq_some_iff.mp hrow).1
    exact plain_account ht h rfl (by simp) ⟨by omega, hlt, by simp⟩ rfl (by simp) (by simp only [uncounted]; omega)
  | finish h hend =>
    have hle := List.getElem?_eq_none_iff.mp hend
    exact plain_account ht h rfl (by simp)
      ⟨Nat.le_refl _, ht.cursor, fun _ => Nat.le_antisymm ht.cursor hle⟩ rfl (by simp) (by simp only [uncounted])
  | verdict h _ =>
    exact plain_account ht h rfl (by simp)
      ⟨Nat.le_refl _, ht.cursor, by simp⟩ rfl (by simp) (by simp only [uncounted])
  | defer h hout hp _ =>
    exact plain_account ht h rfl (by simp) ⟨Nat.le_refl _, ht.cursor, by simp⟩ hp (by simp)
      (by simp only [uncounted]; omega)
  | threw h hout hp hh =>
    exact plain_account ht h rfl (by simp) ⟨Nat.le_refl _, ht.cursor, by simp⟩ hp (by simp)
      (by rw [hh.uncounted]; simp only [uncounted]; omega)
  | deferred h hw =>
    refine set_account 0 ht h rfl ⟨Nat.le_refl _, ht.cursor, by simp⟩ rfl
      (by simp only [uncounted]; omega) ?_
    simp [written_iff h, hw]
  | again h hw hout hp hh _ =>
    refine set_account 1 ht h rfl ⟨Nat.le_refl _, ht.cursor, by simp⟩ hp
      (by rw [hh.uncounted]; simp only [uncounted]; omega) ?_
    simp [written_iff h, hw]
  | reject h hw _ =>
    refine set_account 0 ht h rfl ⟨Nat.le_refl _, ht.cursor, by simp⟩ rfl
      (by simp only [uncounted]; omega) ?_
    simp [written_iff h, hw]
  | stored h hout hp =>
    exact plain_account ht h rfl (by simp) ⟨Nat.le_refl _, ht.cursor, by simp⟩ hp (by simp)
      (by simp only [uncounted]; omega)
  | unstored h hout hp hh _ =>
    exact plain_account ht h rfl (by simp) ⟨Nat.le_refl _, ht.cursor, by simp⟩ hp (by simp)
      (by rw [hh.uncounted]; simp only [uncounted]; omega)
  | backedOff h _ =>
    exact plain_account ht h rfl (by simp)
      ⟨Nat.le_refl _, ht.cursor, by simp⟩ rfl (by simp) (by simp only [uncounted])
  | recorded h =>
    exact plain_account ht h rfl (by simp)
      ⟨Nat.le_refl _, ht.cursor, by simp⟩ rfl (by simp) (by simp only [uncounted])

theorem workerCount_eq_zero (concurrency : Option Concurrency) (rows : Nat) :
    workerCount concurrency rows = 0 ↔ concurrency = some .nan ∨ rows = 0 := by
  have hvalue : ∀ n : ℚ, (min (max 1 n) (rows : ℚ)).floor.toNat = 0 ↔ rows = 0 := by
    intro n
    constructor
    · intro h
      by_contra hrows
      have hone : (1 : ℚ) ≤ min (max 1 n) rows :=
        le_min (le_max_left _ _) (by exact_mod_cast Nat.one_le_iff_ne_zero.mpr hrows)
      have := Rat.le_floor_iff.mpr (by exact_mod_cast hone : ((1 : Int) : ℚ) ≤ min (max 1 n) rows)
      omega
    · rintro rfl
      have hz : min (max 1 n) ((0 : Nat) : ℚ) = 0 := min_eq_right (le_trans zero_le_one (le_max_left _ _))
      rw [hz]
      rfl
  cases concurrency with
  | none => simpa [workerCount] using hvalue 1
  | some c =>
    cases c with
    | nan => simp [workerCount]
    | value n => simpa [workerCount] using hvalue n
    | infinity => simp [workerCount]

theorem workerCount_le (concurrency : Option Concurrency) (rows : Nat) : workerCount concurrency rows ≤ rows := by
  have hvalue : ∀ n : ℚ, (min (max 1 n) (rows : ℚ)).floor.toNat ≤ rows := by
    intro n
    have hle : (min (max 1 n) (rows : ℚ)).floor ≤ (rows : ℚ).floor := Rat.floor_monotone (min_le_right _ _)
    rw [show (rows : ℚ) = ((rows : Int) : ℚ) by rfl, Rat.floor_intCast] at hle
    exact Int.toNat_le.mpr hle
  unfold workerCount
  split
  · exact Nat.zero_le _
  · exact hvalue _
  · exact Nat.le_refl _

theorem start_account (due : List OutcomeRecord) (concurrency : Option Concurrency) (giveUpAfterMs : Int) :
    Tally (.start due concurrency giveUpAfterMs) ∧
      (Accounted (.start due concurrency giveUpAfterMs) ↔ (concurrency = some .nan → due = [])) := by
  have hzero : counted (.start due concurrency giveUpAfterMs) = 0 := by
    simp [counted, total, Sweep.start, uncounted]
  have hnobody : (Sweep.start due concurrency giveUpAfterMs).workers = [] ↔ concurrency = some .nan ∨ due = [] := by
    simp [Sweep.start, List.replicate_eq_nil_iff, workerCount_eq_zero]
  have hidle : ∀ w ∈ (Sweep.start due concurrency giveUpAfterMs).workers, w = .idle := by
    intro w hw
    exact List.eq_of_mem_replicate hw
  refine ⟨⟨Nat.zero_le _, Nat.zero_le _, fun hf => absurd (hidle _ hf) (by simp), rfl, fun _ => hzero⟩, ?_⟩
  constructor
  · exact fun h hnan => h.nobody (hnobody.mpr (.inl hnan))
  · intro h
    refine ⟨hzero, fun hnil => ?_, fun hr => absurd (hidle _ hr) (by simp)⟩
    exact (hnobody.mp hnil).elim h id

theorem unread_account (giveUpAfterMs : Int) : Tally (.unread giveUpAfterMs) ∧ ¬ Accounted (.unread giveUpAfterMs) := by
  refine ⟨⟨Nat.zero_le _, Nat.zero_le _, fun _ => rfl, rfl, fun _ => rfl⟩, ?_⟩
  intro h
  exact h.none_lost (List.mem_singleton.mpr rfl)

theorem returned_iff {w : Worker} : w.returned = true ↔ w = .finished := by
  cases w <;> simp [Worker.returned]

theorem returns_eq {out : SweepResult} :
    s.returns = some out ↔ (∀ w ∈ s.workers, w = .finished) ∧ s.out = out := by
  simp [Sweep.returns, returned_iff]

/-- A sweep whose workers are through returns the counts of its rows when it has accounted for them. -/
theorem returns_iff (ht : Tally s) (hdone : ∀ w ∈ s.workers, w.done = true) :
    (∃ out, s.returns = some out ∧ out.picked = total out) ↔ Accounted s := by
  have hcounted : counted s = total s.out := by
    have hzero : ∀ n ∈ s.workers.map uncounted, n = 0 := by
      intro n hn
      obtain ⟨w, hw, rfl⟩ := List.mem_map.mp hn
      have := hdone w hw
      cases w <;> first | rfl | cases this
    simp only [counted, List.sum_eq_zero hzero, Nat.add_zero]
  have hends : s.workers ≠ [] → .rejected ∉ s.workers → s.cursor = s.due.length := by
    intro hne hnone
    obtain ⟨w, hw⟩ := List.exists_mem_of_ne_nil _ hne
    have hd := hdone w hw
    cases w with
    | finished => exact ht.ended hw
    | rejected => exact absurd hw hnone
    | idle => cases hd
    | busy row phase => cases hd
  have hle := ht.counted
  have hbound := ht.cursor
  have hpicked := ht.picked
  constructor
  · rintro ⟨out, hret, hp⟩
    obtain ⟨hall, rfl⟩ := returns_eq.mp hret
    have hnone : .rejected ∉ s.workers := fun hr => by simpa using hall _ hr
    by_cases hnil : s.workers = []
    · have hc := ht.nobody hnil
      exact ⟨by omega, fun _ => List.length_eq_zero_iff.mp (by omega), hnone⟩
    · have hc := hends hnil hnone
      exact ⟨by omega, fun h => absurd h hnil, hnone⟩
  · intro h
    have hall : ∀ w ∈ s.workers, w = .finished := by
      intro w hw
      have hd := hdone w hw
      cases w with
      | finished => rfl
      | rejected => exact absurd hw h.none_lost
      | idle => cases hd
      | busy row phase => cases hd
    refine ⟨s.out, returns_eq.mpr ⟨hall, rfl⟩, ?_⟩
    have hc := h.counted
    by_cases hnil : s.workers = []
    · have := List.length_eq_zero_iff.mpr (h.nobody hnil)
      omega
    · have := hends hnil h.none_lost
      omega

/-- What is left to do for a worker, in settled calls. -/
def left : Worker → Nat
  | .idle => 1
  | .busy _ .resolving => 5
  | .busy _ (.storing _ _) => 4
  | .busy _ (.deferring _ caught _) => if caught then 3 else 4
  | .busy _ (.backingOff _) => 3
  | .busy _ .recording => 2
  | .finished => 0
  | .rejected => 0

def remaining (s : Sweep) : Nat := 5 * (s.due.length - s.cursor) + (s.workers.map left).sum

/-- The call of a worker that is not through is settled. -/
def Busy (s : Sweep) (e : Settled) : Prop := ∃ w, s.workers[e.worker]? = some w ∧ w.done = false

theorem remaining_set {x w : Worker} (out : SweepResult) (hx : s.workers[worker]? = some x) (hw : left w < left x) :
    remaining ({ s with out }.set worker w) < remaining s := by
  have h := Slots.sum_set left hx w
  simp only [remaining, Sweep.set]
  omega

theorem Handled.left {giveUpAfterMs : Int} {phase : RowPhase} (h : Handled row now giveUpAfterMs phase) :
    left (.busy row phase) = 3 := by
  cases h <;> rfl

theorem remaining_step (h : Moves s table e s' table') (hb : Busy s e) : remaining s' < remaining s := by
  cases h with
  | stay h =>
    obtain ⟨w, hw, hd⟩ := hb
    rw [h w hw] at hd
    cases hd
  | take h hrow =>
    rename_i row
    have hlt := (List.getElem?_eq_some_iff.mp hrow).1
    have hs := Slots.sum_set left h (.busy row .resolving)
    simp only [remaining, Sweep.set, left] at hs ⊢
    omega
  | finish h _ => exact remaining_set s.out h (by simp only [left]; omega)
  | verdict h _ => exact remaining_set s.out h (by simp only [left]; omega)
  | defer h _ _ _ => exact remaining_set _ h (by simp [left])
  | threw h _ _ hh => exact remaining_set _ h (by rw [hh.left]; simp [left])
  | deferred h _ => exact remaining_set s.out h (by simp only [left]; split <;> omega)
  | again h _ _ _ hh _ => exact remaining_set _ h (by rw [hh.left]; simp [left])
  | reject h _ _ => exact remaining_set s.out h (by simp [left])
  | stored h _ _ => exact remaining_set _ h (by simp only [left]; omega)
  | unstored h _ _ hh _ => exact remaining_set _ h (by rw [hh.left]; simp [left])
  | backedOff h _ => exact remaining_set s.out h (by simp only [left]; omega)
  | recorded h => exact remaining_set s.out h (by simp only [left]; omega)

theorem remaining_start (due : List OutcomeRecord) (concurrency : Option Concurrency) (giveUpAfterMs : Int) :
    remaining (.start due concurrency giveUpAfterMs) ≤ 6 * due.length := by
  have := workerCount_le concurrency due.length
  simp only [remaining, Sweep.start, List.map_replicate, List.sum_replicate_nat, left]
  omega

/-- One sweep on its own. -/
def sweepStep (st : Sweep × OutcomeTable) (e : Settled) : Sweep × OutcomeTable := st.1.exec st.2 e

/-- A sweep ends: it has at most so many calls to wait for. -/
theorem length_le_remaining {st : Sweep × OutcomeTable} {es : List Settled}
    (h : Always sweepStep (fun st e => Busy st.1 e) st es) : es.length ≤ remaining st.1 := by
  induction es generalizing st with
  | nil => exact Nat.zero_le _
  | cons e es ih =>
    have hlt := remaining_step (exec_moves st.1 st.2 e) h.1
    have hrest : es.length ≤ remaining (st.1.exec st.2 e).1 := ih h.2
    simp only [List.length_cons]
    omega

end LaunchAuditor.Proofs.Sweeps
