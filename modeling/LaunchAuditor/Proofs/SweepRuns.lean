import LaunchAuditor.Proofs.Sweeps

namespace LaunchAuditor.Proofs.SweepRuns
open Chain Db Js Outcomes Outcomes.Loop Steps Sweeps

variable {s s' : Sweep} {table table' : OutcomeTable} {e : Settled} {r row : OutcomeRecord} {w : World} {st : Step}

def rowsOf : Worker → List OutcomeRecord
  | .busy row _ => [row]
  | _ => []

/-- The rows a sweep has in hand, and those it has not taken yet. -/
def pendingRows (s : Sweep) : List OutcomeRecord := s.workers.flatMap rowsOf ++ s.due.drop s.cursor

/-- As long as the row is pending, its clock is the one that was read. -/
def Fresh (table : OutcomeTable) (r : OutcomeRecord) : Prop :=
  ∀ row ∈ table, row.id = r.id → row.status = .PENDING → clock row = clock r

/-- A worker waits for the write that its row calls for. -/
inductive Ready (giveUpAfterMs : Int) : Worker → Prop
  | idle : Ready giveUpAfterMs .idle
  | resolving {row : OutcomeRecord} : Ready giveUpAfterMs (.busy row .resolving)
  | deferring {row : OutcomeRecord} {write : OutcomeWrite} {caught : Bool} {at' : Int} (h : Deferral row at' giveUpAfterMs write) :
      Ready giveUpAfterMs (.busy row (.deferring write caught at'))
  | storing {row : OutcomeRecord} {res : Resolution} {at' : Int} (h : transientVerdict res = false) :
      Ready giveUpAfterMs (.busy row (.storing res at'))
  | backingOff {row : OutcomeRecord} {at' : Int} : Ready giveUpAfterMs (.busy row (.backingOff at'))
  | recording {row : OutcomeRecord} : Ready giveUpAfterMs (.busy row .recording)
  | finished : Ready giveUpAfterMs .finished
  | rejected : Ready giveUpAfterMs .rejected

theorem ready_handled {now giveUpAfterMs : Int} {phase : RowPhase} (h : Handled row now giveUpAfterMs phase) :
    Ready giveUpAfterMs (.busy row phase) := by
  cases h with
  | deferring h => exact .deferring h
  | backingOff => exact .backingOff

theorem ready_step (hr : ∀ x ∈ s.workers, Ready s.giveUpAfterMs x) (h : Moves s table e s' table') :
    ∀ x ∈ s'.workers, Ready s'.giveUpAfterMs x := by
  have hset : ∀ y, Ready s.giveUpAfterMs y → ∀ x ∈ s.workers.set e.worker y, Ready s.giveUpAfterMs x := by
    intro y hy x hx
    rcases List.mem_or_eq_of_mem_set hx with hx | rfl
    · exact hr x hx
    · exact hy
  cases h with
  | stay _ => exact hr
  | take _ _ => exact hset _ .resolving
  | finish _ _ => exact hset _ .finished
  | verdict _ hres => exact hset _ (.storing hres)
  | defer _ _ _ hd => exact hset _ (.deferring hd)
  | threw _ _ _ hh => exact hset _ (ready_handled hh)
  | deferred _ _ => exact hset _ .idle
  | again _ _ _ _ hh _ => exact hset _ (ready_handled hh)
  | reject _ _ _ => exact hset _ .rejected
  | stored _ _ _ => exact hset _ .idle
  | unstored _ _ _ hh _ => exact hset _ (ready_handled hh)
  | backedOff _ _ => exact hset _ .recording
  | recorded _ => exact hset _ .idle

theorem pendingRows_same {out : SweepResult} {x y : Worker} (hx : s.workers[e.worker]? = some x)
    (hrows : rowsOf y = rowsOf x) : (pendingRows ({ s with out }.set e.worker y)).Perm (pendingRows s) := by
  have hp := Slots.flatMap_set_perm rowsOf hx y
  rw [hrows] at hp
  exact ((List.perm_append_left_iff _).mp hp).append_right _

theorem pendingRows_done {out : SweepResult} {x y : Worker} (hx : s.workers[e.worker]? = some x)
    (hrows : rowsOf x = [r]) (hy : rowsOf y = []) :
    (pendingRows s).Perm (r :: pendingRows ({ s with out }.set e.worker y)) := by
  have hp := Slots.flatMap_set_perm rowsOf hx y
  rw [hrows, hy] at hp
  exact hp.symm.append_right _

theorem pendingRows_take (h : s.workers[e.worker]? = some .idle) (hrow : s.due[s.cursor]? = some r) :
    (pendingRows ({ s with cursor := s.cursor + 1 }.set e.worker (.busy r .resolving))).Perm (pendingRows s) := by
  have hp := Slots.flatMap_set_perm rowsOf h (.busy r .resolving)
  have hdrop : s.due.drop s.cursor = r :: s.due.drop (s.cursor + 1) := by
    obtain ⟨hlt, rfl⟩ := List.getElem?_eq_some_iff.mp hrow
    exact List.drop_eq_getElem_cons hlt
  unfold pendingRows
  rw [hdrop]
  exact (hp.append_right _).trans List.perm_middle.symm

theorem verdict_not_pending (now : Int) (row : OutcomeRecord) (res : Resolution) :
    ((OutcomeWrite.verdict res).apply now row).status ≠ .PENDING := by
  cases h : res.status <;> simp [OutcomeWrite.apply, OutcomeStatus.row, h]

/-- A write that is no deferral leaves no pending row with another clock. -/
theorem fresh_quiet {write : OutcomeWrite} {at' : Int} {id : String}
    (hq : write = .backoff ∨ ∃ res, write = .verdict res) (hf : Fresh table r) : Fresh (updateRow id at' write table) r := by
  intro row hrow hid hpend
  obtain ⟨old, hold, rfl⟩ := List.mem_map.mp hrow
  split at hid
  · rename_i heq
    rw [if_pos heq] at hpend ⊢
    rcases hq with rfl | ⟨res, rfl⟩
    · exact hf old hold hid hpend
    · exact absurd hpend (verdict_not_pending _ _ _)
  · rename_i hne
    rw [if_neg hne] at hpend ⊢
    exact hf old hold hid hpend

theorem apply_id (now : Int) (row : OutcomeRecord) (write : OutcomeWrite) : (write.apply now row).id = row.id := by
  cases write <;> rfl

theorem fresh_other {write : OutcomeWrite} {at' : Int} (hne : r.id ≠ row.id) (hf : Fresh table r) :
    Fresh (updateRow row.id at' write table) r := by
  intro row' hrow hid hpend
  obtain ⟨old, hold, rfl⟩ := List.mem_map.mp hrow
  split at hid
  · rename_i heq
    rw [apply_id] at hid
    exact absurd (hid.symm.trans heq) hne
  · rename_i hne
    rw [if_neg hne] at hpend ⊢
    exact hf old hold hid hpend

/-- The rows in hand stay apart from each other and from `rest`, and fresh, whatever one of them is written. -/
theorem fresh_step {rest : List OutcomeRecord} (h : Moves s table e s' table') (hw : DeferralWritten s e)
    (hids : ((pendingRows s ++ rest).map (·.id)).Nodup) (hf : ∀ r ∈ pendingRows s ++ rest, Fresh table r) :
    ((pendingRows s' ++ rest).map (·.id)).Nodup ∧ ∀ r ∈ pendingRows s' ++ rest, Fresh table' r := by
  have hkeep : (pendingRows s').Perm (pendingRows s) → (∀ r, Fresh table r → Fresh table' r) →
      ((pendingRows s' ++ rest).map (·.id)).Nodup ∧ ∀ r ∈ pendingRows s' ++ rest, Fresh table' r := by
    intro hp htable
    have hp := hp.append_right rest
    exact ⟨(hp.map _).nodup_iff.mpr hids, fun r hr => htable r (hf r (hp.mem_iff.mp hr))⟩
  have hdrop : ∀ row : OutcomeRecord, (pendingRows s).Perm (row :: pendingRows s') →
      (∀ r, r.id ≠ row.id → Fresh table r → Fresh table' r) →
      ((pendingRows s' ++ rest).map (·.id)).Nodup ∧ ∀ r ∈ pendingRows s' ++ rest, Fresh table' r := by
    intro row hp htable
    have hp := hp.append_right rest
    have hnodup := (hp.map (·.id)).nodup_iff.mp hids
    simp only [List.cons_append, List.map_cons, List.nodup_cons] at hnodup
    refine ⟨hnodup.2, fun r hr => htable r ?_ (hf r (hp.mem_iff.mpr (List.mem_cons_of_mem _ hr)))⟩
    intro heq
    exact hnodup.1 (heq ▸ List.mem_map_of_mem hr)
  have hquiet : ∀ {row : OutcomeRecord} {at' : Int} {write : OutcomeWrite}, (write = .backoff ∨ ∃ res, write = .verdict res) →
      Perhaps row at' write table table' → ∀ r, Fresh table r → Fresh table' r := by
    rintro row at' write hq (rfl | rfl) r hr
    · exact hr
    · exact fresh_quiet hq hr
  cases h with
  | stay _ => exact hkeep (.refl _) fun _ h => h
  | take h hrow => exact hkeep (pendingRows_take h hrow) fun _ h => h
  | finish h _ => exact hkeep (pendingRows_same h rfl) fun _ h => h
  | verdict h _ => exact hkeep (pendingRows_same h rfl) fun _ h => h
  | defer h _ _ _ => exact hkeep (pendingRows_same h rfl) fun _ h => h
  | threw h _ _ _ => exact hkeep (pendingRows_same h rfl) fun _ h => h
  | deferred h _ => exact hdrop _ (pendingRows_done h rfl rfl) fun _ => fresh_other
  | again h hfail _ _ _ _ => exact absurd ((written_iff h).mp hw) hfail
  | reject h hfail _ => exact absurd ((written_iff h).mp hw) hfail
  | stored h _ _ => exact hdrop _ (pendingRows_done h rfl rfl) fun _ => fresh_other
  | unstored h _ _ _ htable => exact hkeep (pendingRows_same h rfl) (hquiet (.inr ⟨_, rfl⟩) htable)
  | backedOff h htable => exact hkeep (pendingRows_same h rfl) (hquiet (.inl rfl) htable)
  | recorded h => exact hdrop _ (pendingRows_done h rfl rfl) fun _ _ h => h

/-- The writes a worker may wait for. -/
inductive Writes (s : Sweep) (e : Settled) : OutcomeRecord → Int → OutcomeWrite → Prop
  | deferral {row : OutcomeRecord} {write : OutcomeWrite} {caught : Bool} {at' : Int}
      (h : s.workers[e.worker]? = some (.busy row (.deferring write caught at'))) : Writes s e row at' write
  | verdict {row : OutcomeRecord} {res : Resolution} {at' : Int}
      (h : s.workers[e.worker]? = some (.busy row (.storing res at'))) : Writes s e row at' (.verdict res)
  | backoff {row : OutcomeRecord} {at' : Int} (h : s.workers[e.worker]? = some (.busy row (.backingOff at'))) :
      Writes s e row at' .backoff

theorem writes_step (h : Moves s table e s' table') :
    table' = table ∨ ∃ row at' write, Writes s e row at' write ∧ table' = updateRow row.id at' write table := by
  cases h with
  | deferred h _ => exact .inr ⟨_, _, _, .deferral h, rfl⟩
  | again h _ _ _ _ htable => exact htable.imp id fun ht => ⟨_, _, _, .deferral h, ht⟩
  | reject h _ htable => exact htable.imp id fun ht => ⟨_, _, _, .deferral h, ht⟩
  | stored h _ _ => exact .inr ⟨_, _, _, .verdict h, rfl⟩
  | unstored h _ _ _ htable => exact htable.imp id fun ht => ⟨_, _, _, .verdict h, ht⟩
  | backedOff h htable => exact htable.imp id fun ht => ⟨_, _, _, .backoff h, ht⟩
  | stay _ => exact .inl rfl
  | take _ _ => exact .inl rfl
  | finish _ _ => exact .inl rfl
  | verdict _ _ => exact .inl rfl
  | defer _ _ _ _ => exact .inl rfl
  | threw _ _ _ _ => exact .inl rfl
  | recorded _ => exact .inl rfl

theorem mem_pendingRows {row : OutcomeRecord} {phase : RowPhase} (h : s.workers[e.worker]? = some (.busy row phase)) :
    row ∈ pendingRows s :=
  List.mem_append_left _ (List.mem_flatMap.mpr ⟨_, List.mem_of_getElem? h, List.mem_singleton.mpr rfl⟩)

theorem Writes.pending {at' : Int} {write : OutcomeWrite} (h : Writes s e row at' write) : row ∈ pendingRows s := by
  cases h with
  | deferral h => exact mem_pendingRows h
  | verdict h => exact mem_pendingRows h
  | backoff h => exact mem_pendingRows h

/-- A transient failure has ended the row: without a value, and late enough after its first deferral. -/
structure GaveUp (giveUpAfterMs : Int) (row row' : OutcomeRecord) : Prop where
  value : row'.value = none
  waited : ∃ c now, clock row' = some c ∧ row'.measuredAt = some now ∧ giveUpAfterMs ≤ now - c
  kept : ∀ c, clock row = some c → clock row' = some c

/-- The resolver has judged the row with a verdict that is not transient. -/
def Judged (s : Sweep) (e : Settled) (row : OutcomeRecord) : Prop :=
  ∃ r res at', s.workers[e.worker]? = some (.busy r (.storing res at')) ∧ r.id = row.id ∧ transientVerdict res = false

/-- What a step may do to a pending row. -/
def KeepsRow (s : Sweep) (e : Settled) (row row' : OutcomeRecord) : Prop :=
  (row'.status = .PENDING → ∀ c, clock row = some c → clock row' = some c) ∧
    (row'.status = .UNRESOLVABLE → Judged s e row ∨ GaveUp s.giveUpAfterMs row row')

theorem keepsRow_write {at' : Int} {write : OutcomeWrite} (h : Writes s e r at' write)
    (hready : ∀ x ∈ s.workers, Ready s.giveUpAfterMs x) (hid : row.id = r.id) (hpend : row.status = .PENDING)
    (hclock : clock row = clock r) : KeepsRow s e row (write.apply at' row) := by
  cases h with
  | deferral h =>
    have hr := hready _ (List.mem_of_getElem? h)
    cases hr with
    | deferring hd =>
      obtain ⟨first, deferrals, msg, hkind, hfirst⟩ := hd
      rw [← hclock] at hfirst
      rcases hkind with rfl | ⟨rfl, c, hc, hle⟩
      · refine ⟨fun _ c hc => ?_, fun hu => ?_⟩
        · exact hfirst c hc
        · exact absurd (hpend.symm.trans hu) (by simp)
      · refine ⟨fun hp => absurd hp (by simp [OutcomeWrite.apply]), fun _ => .inr ⟨rfl, ?_, ?_⟩⟩
        · exact ⟨c, at', hc, rfl, hle⟩
        · exact fun c' hc' => hfirst c' hc'
  | verdict h =>
    have hr := hready _ (List.mem_of_getElem? h)
    cases hr with
    | storing hres =>
      exact ⟨fun hp => absurd hp (verdict_not_pending _ _ _), fun _ => .inl ⟨r, _, at', h, hid.symm, hres⟩⟩
  | backoff h =>
    refine ⟨fun _ c hc => hc, fun hu => absurd (hpend.symm.trans hu) (by simp)⟩

theorem keepsRow_same (hpend : row.status = .PENDING) : KeepsRow s e row row :=
  ⟨fun _ _ hc => hc, fun hu => absurd (hpend.symm.trans hu) (by simp)⟩

theorem keepsRow_step (h : Moves s table e s' table') (hready : ∀ x ∈ s.workers, Ready s.giveUpAfterMs x)
    (hids : (table.map (·.id)).Nodup) (hf : ∀ r ∈ pendingRows s, Fresh table r) {row row' : OutcomeRecord}
    (hrow : row ∈ table) (hrow' : row' ∈ table') (hid : row'.id = row.id) (hpend : row.status = .PENDING) :
    KeepsRow s e row row' := by
  have hinj := List.inj_on_of_nodup_map hids
  rcases writes_step h with rfl | ⟨r, at', write, hwrites, rfl⟩
  · rw [hinj hrow' hrow hid]
    exact keepsRow_same hpend
  · obtain ⟨old, hold, rfl⟩ := List.mem_map.mp hrow'
    split at hid
    · rename_i heq
      rw [apply_id] at hid
      obtain rfl := hinj hold hrow hid
      rw [if_pos heq]
      exact keepsRow_write hwrites hready heq hpend (hf r hwrites.pending _ hrow heq hpend)
    · rename_i hne
      obtain rfl := hinj hold hrow hid
      rw [if_neg hne]
      exact keepsRow_same hpend

theorem ids_step (h : Moves s table e s' table') : table'.map (·.id) = table.map (·.id) := by
  rcases writes_step h with rfl | ⟨r, at', write, -, rfl⟩
  · rfl
  · unfold updateRow
    rw [List.map_map]
    refine List.map_congr_left fun row _ => ?_
    simp only [Function.comp]
    split
    · exact apply_id _ _ _
    · rfl

/-- The rows of a sweep are read, some worker looks at them, and no write of a deferral or
of a give-up fails or loses its answer. -/
def Smooth (w : World) : Step → Prop
  | .sweep due concurrency _ =>
    w.accepts due = true → ∃ rows, due = some rows ∧ (concurrency = some .nan → rows = [])
  | .exec i e => ∀ s, w.sweeps[i]? = some s → DeferralWritten s e

theorem accounts_step (w : World) (st : Step) (ht : ∀ s ∈ w.sweeps, Tally s) :
    (∀ s ∈ (w.step st).sweeps, Tally s) ∧
      ((∀ s ∈ (w.step st).sweeps, Accounted s) ↔ (∀ s ∈ w.sweeps, Accounted s) ∧ Smooth w st) := by
  cases st with
  | sweep due concurrency giveUpAfterMs =>
    simp only [World.step, Smooth]
    split
    · rename_i hacc
      cases due with
      | some due =>
        obtain ⟨htally, hacct⟩ := start_account due concurrency giveUpAfterMs
        simp only [List.forall_mem_append, List.forall_mem_singleton, hacct]
        exact ⟨⟨ht, htally⟩, by simp [hacc]⟩
      | none =>
        obtain ⟨htally, hacct⟩ := unread_account giveUpAfterMs
        simp only [List.forall_mem_append, List.forall_mem_singleton]
        exact ⟨⟨ht, htally⟩, by simp [hacc, hacct]⟩
    · rename_i hacc
      exact ⟨ht, by simp [hacc]⟩
  | exec i e =>
    simp only [World.step, Smooth]
    cases hs : w.sweeps[i]? with
    | none => exact ⟨ht, by simp⟩
    | some s =>
      obtain ⟨htally, hacct⟩ := account_step (ht s (List.mem_of_getElem? hs)) (exec_moves s w.table e)
      refine ⟨fun s' hs' => ?_, ?_⟩
      · rcases List.mem_or_eq_of_mem_set hs' with hs' | rfl
        · exact ht s' hs'
        · exact htally
      · simpa using Slots.forall_set hs hacct

theorem accounts_run {w : World} {steps : List Step} (ht : ∀ s ∈ w.sweeps, Tally s) :
    (∀ s ∈ (run World.step w steps).sweeps, Tally s) ∧
      ((∀ s ∈ (run World.step w steps).sweeps, Accounted s) ↔
        (∀ s ∈ w.sweeps, Accounted s) ∧ Always World.step Smooth w steps) := by
  induction steps generalizing w with
  | nil => exact ⟨ht, by simp [Always]⟩
  | cons st steps ih =>
    obtain ⟨ht', hacct⟩ := accounts_step w st ht
    obtain ⟨htally, hrun⟩ := ih ht'
    refine ⟨htally, ?_⟩
    rw [run_cons, hrun, hacct, and_assoc]
    rfl

/-- A sweep that has accounted for its rows and is settled has nothing in hand. -/
theorem pendingRows_settled (ht : Tally s) (ha : Accounted s) (hs : s.settled = true) : pendingRows s = [] := by
  have hall : ∀ x ∈ s.workers, x = .finished := by
    rcases Bool.or_eq_true _ _ |>.mp hs with h | h
    · obtain ⟨x, hx, hthrew⟩ := List.any_eq_true.mp h
      cases x with
      | rejected => exact absurd hx ha.none_lost
      | idle => cases hthrew
      | busy row phase => cases hthrew
      | finished => cases hthrew
    · exact fun x hx => returned_iff.mp (List.all_eq_true.mp h x hx)
  have hrows : s.workers.flatMap rowsOf = [] := by
    refine List.flatMap_eq_nil_iff.mpr fun x hx => ?_
    rw [hall x hx]
    rfl
  have hdrop : s.due.drop s.cursor = [] := by
    cases hw : s.workers with
    | nil => simp [ha.nobody hw]
    | cons x xs =>
      have hx : x ∈ s.workers := by simp [hw]
      have := ht.ended (hall x hx ▸ hx)
      simp [this]
  rw [pendingRows, hrows, hdrop, List.append_nil]

def allPending (w : World) : List OutcomeRecord := w.sweeps.flatMap pendingRows

/-- Sweeps that account for their rows do not get into each other's way. -/
structure Steady (w : World) : Prop where
  ids : (w.table.map (·.id)).Nodup
  tally : ∀ s ∈ w.sweeps, Tally s
  accounted : ∀ s ∈ w.sweeps, Accounted s
  distinct : ((allPending w).map (·.id)).Nodup
  fresh : ∀ r ∈ allPending w, Fresh w.table r
  ready : ∀ s ∈ w.sweeps, ∀ x ∈ s.workers, Ready s.giveUpAfterMs x

/-- Each row of the table, before and after a step. -/
def Keeps (w : World) (st : Step) : Prop :=
  ∀ row ∈ w.table, ∀ row' ∈ (w.step st).table, row'.id = row.id → row.status = .PENDING →
    (row'.status = .PENDING → ∀ c, clock row = some c → clock row' = some c) ∧
      (row'.status = .UNRESOLVABLE → ∃ i e s, st = .exec i e ∧ w.sweeps[i]? = some s ∧
        (Judged s e row ∨ GaveUp s.giveUpAfterMs row row'))

theorem keeps_same (h : Steady w) (htable : (w.step st).table = w.table) : Keeps w st := by
  intro row hrow row' hrow' hid hpend
  rw [htable] at hrow'
  rw [List.inj_on_of_nodup_map h.ids hrow' hrow hid]
  exact ⟨fun _ _ hc => hc, fun hu => absurd (hpend.symm.trans hu) (by simp)⟩

theorem steady_sweep {due : List OutcomeRecord} {concurrency : Option Concurrency} {giveUpAfterMs : Int}
    (h : Steady w) (hacc : w.accepts (some due) = true) (hnan : concurrency = some .nan → due = []) :
    Steady { w with sweeps := w.sweeps ++ [.start due concurrency giveUpAfterMs] } := by
  obtain ⟨hsettled, hdue⟩ := Bool.and_eq_true _ _ |>.mp hacc
  obtain ⟨hrows, hids⟩ := Bool.and_eq_true _ _ |>.mp hdue
  have hrest : allPending w = [] := List.flatMap_eq_nil_iff.mpr fun s hs =>
    pendingRows_settled (h.tally s hs) (h.accounted s hs) (List.all_eq_true.mp hsettled s hs)
  have hstart : pendingRows (.start due concurrency giveUpAfterMs) = due := by
    simp [pendingRows, Sweep.start, rowsOf, List.flatMap_replicate]
  have hpending : allPending { w with sweeps := w.sweeps ++ [.start due concurrency giveUpAfterMs] } = due := by
    have : allPending { w with sweeps := w.sweeps ++ [.start due concurrency giveUpAfterMs] } =
        allPending w ++ pendingRows (.start due concurrency giveUpAfterMs) := by simp [allPending]
    rw [this, hrest, hstart, List.nil_append]
  obtain ⟨htally, hacct⟩ := start_account due concurrency giveUpAfterMs
  refine ⟨h.ids, ?_, ?_, ?_, ?_, ?_⟩
  · simpa [or_imp, forall_and] using ⟨h.tally, htally⟩
  · simpa [or_imp, forall_and] using ⟨h.accounted, hacct.mpr hnan⟩
  · rw [hpending]
    simpa using hids
  · rw [hpending]
    intro r hr row hrow hid _
    have hmem : r ∈ w.table := by
      have := List.all_eq_true.mp hrows r hr
      simp only [Bool.and_eq_true, decide_eq_true_eq] at this
      exact this.1
    rw [List.inj_on_of_nodup_map h.ids hrow hmem hid]
  · intro s hs
    rcases List.mem_append.mp hs with hs | hs
    · exact h.ready s hs
    · obtain rfl := List.mem_singleton.mp hs
      intro x hx
      obtain rfl : x = .idle := List.eq_of_mem_replicate hx
      exact .idle

theorem steady_exec {i : Nat} (h : Steady w) (hs : w.sweeps[i]? = some s) (hw : DeferralWritten s e) :
    Steady { table := (s.exec w.table e).2, sweeps := w.sweeps.set i (s.exec w.table e).1 } := by
  have hmem := List.mem_of_getElem? hs
  have hmoves := exec_moves s w.table e
  obtain ⟨htally, hacct⟩ := account_step (h.tally s hmem) hmoves
  obtain ⟨before, after, hsweeps, hset⟩ := Slots.split hs
  have hold : (allPending w).Perm (pendingRows s ++ (before ++ after).flatMap pendingRows) := by
    unfold allPending
    rw [hsweeps]
    simp only [List.flatMap_append, List.flatMap_cons]
    exact List.perm_append_comm_assoc _ _ _
  have hnew : ((w.sweeps.set i (s.exec w.table e).1).flatMap pendingRows).Perm
      (pendingRows (s.exec w.table e).1 ++ (before ++ after).flatMap pendingRows) := by
    rw [hset]
    simp only [List.flatMap_append, List.flatMap_cons]
    exact List.perm_append_comm_assoc _ _ _
  obtain ⟨hdistinct, hfresh⟩ := fresh_step hmoves hw ((hold.map _).nodup_iff.mp h.distinct)
    fun r hr => h.fresh r (hold.mem_iff.mpr hr)
  have hall : ∀ {P : Sweep → Prop}, (∀ s ∈ w.sweeps, P s) → P (s.exec w.table e).1 →
      ∀ s' ∈ w.sweeps.set i (s.exec w.table e).1, P s' := by
    intro P hP hnew s' hs'
    rcases List.mem_or_eq_of_mem_set hs' with hs' | rfl
    · exact hP s' hs'
    · exact hnew
  refine ⟨?_, hall h.tally htally, hall h.accounted (hacct.mpr ⟨h.accounted s hmem, hw⟩),
    (hnew.map _).nodup_iff.mpr hdistinct, fun r hr => hfresh r (hnew.mem_iff.mp hr),
    hall h.ready (ready_step (h.ready s hmem) hmoves)⟩
  change ((s.exec w.table e).2.map _).Nodup
  rw [ids_step hmoves]
  exact h.ids

theorem steady_step (h : Steady w) (hs : Smooth w st) : Steady (w.step st) ∧ Keeps w st := by
  cases st with
  | sweep due concurrency giveUpAfterMs =>
    by_cases hacc : w.accepts due = true
    · obtain ⟨rows, rfl, hnan⟩ := hs hacc
      have hstep : w.step (.sweep (some rows) concurrency giveUpAfterMs) =
          { w with sweeps := w.sweeps ++ [.start rows concurrency giveUpAfterMs] } := by
        simp only [World.step, hacc, if_true]
      rw [hstep]
      exact ⟨steady_sweep h hacc hnan, keeps_same h (by rw [hstep])⟩
    · have hstep : w.step (.sweep due concurrency giveUpAfterMs) = w := by
        simp only [World.step]
        exact if_neg hacc
      rw [hstep]
      exact ⟨h, keeps_same h (by rw [hstep])⟩
  | exec i e =>
    cases hsweep : w.sweeps[i]? with
    | none =>
      have hstep : w.step (.exec i e) = w := by simp only [World.step, hsweep]
      rw [hstep]
      exact ⟨h, keeps_same h (by rw [hstep])⟩
    | some s =>
      have hstep : w.step (.exec i e) =
          { table := (s.exec w.table e).2, sweeps := w.sweeps.set i (s.exec w.table e).1 } := by
        simp only [World.step, hsweep]
      have hmem := List.mem_of_getElem? hsweep
      have hpending : ∀ r ∈ pendingRows s, Fresh w.table r := fun r hr =>
        h.fresh r (List.mem_flatMap.mpr ⟨s, hmem, hr⟩)
      rw [hstep]
      refine ⟨steady_exec h hsweep (hs s hsweep), ?_⟩
      intro row hrow row' hrow' hid hpend
      rw [hstep] at hrow'
      obtain ⟨hclock, hgave⟩ :=
        keepsRow_step (exec_moves s w.table e) (h.ready s hmem) h.ids hpending hrow hrow' hid hpend
      exact ⟨hclock, fun hu => ⟨i, e, s, rfl, hsweep, hgave hu⟩⟩

theorem steady_empty {table : OutcomeTable} (hids : (table.map (·.id)).Nodup) : Steady ⟨table, []⟩ :=
  ⟨hids, by simp, by simp, by simp [allPending], by simp [allPending], by simp⟩

/-- Sweeps whose rows are read and whose deferrals are written, and only those, return with
every picked row in one count; then a stored clock stays, and nobody gives up before its time.
A sweep of any kind ends after a bounded number of calls. -/
theorem sweeps_account_iff (table : OutcomeTable) (steps : List Step) (hids : (table.map (·.id)).Nodup)
    (hdone : ∀ s ∈ (run World.step ⟨table, []⟩ steps).sweeps, ∀ x ∈ s.workers, x.done = true) :
    (((∀ s ∈ (run World.step ⟨table, []⟩ steps).sweeps, ∃ out, s.returns = some out ∧ out.picked = total out) ∧
        Always World.step Keeps ⟨table, []⟩ steps) ↔ Always World.step Smooth ⟨table, []⟩ steps) ∧
      ∀ (due : List OutcomeRecord) (concurrency : Option Concurrency) (giveUpAfterMs : Int) (es : List Settled),
        Always sweepStep (fun st e => Busy st.1 e) (.start due concurrency giveUpAfterMs, table) es →
          es.length ≤ 6 * due.length := by
  obtain ⟨htally, hacct⟩ := @accounts_run ⟨table, []⟩ steps (by simp)
  have hreturns : (∀ s ∈ (run World.step ⟨table, []⟩ steps).sweeps, ∃ out, s.returns = some out ∧
      out.picked = total out) ↔ Always World.step Smooth ⟨table, []⟩ steps := by
    have hiff := forall₂_congr fun s hs => returns_iff (htally s hs) (hdone s hs)
    rw [hiff, hacct]
    simp
  refine ⟨⟨fun h => hreturns.mp h.1, fun h => ⟨hreturns.mpr h, ?_⟩⟩, ?_⟩
  · exact always_of_invariant Steady (fun _ _ hw hs => (steady_step hw hs).1) (fun _ _ hw hs => (steady_step hw hs).2)
      (steady_empty hids) h
  · intro due concurrency giveUpAfterMs es h
    exact Nat.le_trans (length_le_remaining h) (remaining_start due concurrency giveUpAfterMs)

def rpcTimeout : Thrown := ⟨false, "request timeout"⟩

def dueRow : OutcomeRecord :=
  { id := "o1", chainId := 4663, tokenAddress := 1, anchorTime := 0, trigger := .qualified, launchId := some "l1"
    label := .DRAWDOWN_80, horizon := "24h", ruleVersion := "v0", horizonAt := some 0, status := .PENDING, value := none
    retrospective := false, evidence := none, coverage := none, measuredAt := none }

/-- One row is due, and four workers may take it. -/
def sweepOne : Step := .sweep (some [dueRow]) (some (.value 4)) DEFAULT_GIVE_UP_AFTER_MS

/-- The only worker goes on; a resolver times out. -/
def settle (write : WriteOutcome) (now : Int) : Step := .exec 0 ⟨0, .error rpcTimeout, write, now⟩

def deferredOnce : List Step := [sweepOne, settle .ok 0, settle .ok 1000, settle .ok 2000, settle .ok 3000]

theorem sweeps_account_once :
    (∀ s ∈ (run World.step ⟨[dueRow], []⟩ deferredOnce).sweeps, ∃ out, s.returns = some out ∧ out.picked = total out) ∧
      Always World.step Keeps ⟨[dueRow], []⟩ deferredOnce := by
  have hwritten : ∀ w now, Smooth w (settle .ok now) := fun _ _ _ _ _ _ _ _ _ => rfl
  exact (sweeps_account_iff [dueRow] deferredOnce (by decide +kernel) (by decide +kernel)).1.mpr
    ⟨fun _ => ⟨[dueRow], rfl, by simp⟩, hwritten _ _, hwritten _ _, hwritten _ _, hwritten _ _, trivial⟩

/-- The write of the deferral fails in the handler. -/
def deferralLost : List Step := [sweepOne, settle .ok 0, settle .ok 1000, settle (.failed rpcTimeout) 2000]

/-- The resolver reports the timeout, and the first write of the deferral loses its answer. -/
def deferralTwice : List Step :=
  [sweepOne, settle .ok 0, .exec 0 ⟨0, .ok ⟨.UNRESOLVABLE, none, [], none, some "request timeout"⟩, .ok, 1000⟩,
    settle (.ackLost rpcTimeout) 2000, settle .ok 3000, settle .ok 3000]

/-- One sweep throws; the other counts its row twice, and stores another first deferral. -/
theorem lost_deferral_miscounts :
    ((run World.step ⟨[dueRow], []⟩ deferralLost).sweeps.map fun s => (s.returns, s.workers.all Worker.done)) =
        [(none, true)] ∧
      (run World.step ⟨[dueRow], []⟩ deferralTwice).sweeps.map Sweep.returns = [some ⟨1, 0, 0, 0, 2, 0⟩] ∧
      (run World.step ⟨[dueRow], []⟩ (deferralTwice.take 4)).table.map clock = [some 1000] ∧
      (run World.step ⟨[dueRow], []⟩ deferralTwice).table.map (fun row => (row.status, clock row)) =
        [(.PENDING, some 2000)] := by
  decide +kernel

end LaunchAuditor.Proofs.SweepRuns
