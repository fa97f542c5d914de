import LaunchAuditor.Proofs.Progress

namespace LaunchAuditor.Proofs.Conservation
open Db Metabolism Runner Tally Windows Moves Epochs Progress Steps

/-- Every epoch that its tick has let go of carries the count and the sum of the
estimates of the rows stamped with it. -/
def Counted (w : World) : Prop :=
  ∀ e ∈ w.epochs, openEpoch w.phase ≠ some e.id →
    e.requestCount = (w.spend.filter (stampedBy e.id)).length ∧
    e.localEstimateUsd = ((w.spend.filter (stampedBy e.id)).filterMap MetabolismSpend.estimatedCostUsd).sum

/-- Recorded after the first baseline. -/
def Due (l : Watched) (r : MetabolismSpend) : Prop :=
  r ∈ l.world.spend ∧ ∃ b, l.baseline = some b ∧ b < r.atMs

def StampedWith (w : World) (rowId : String) (e : MetabolismEpoch) : Prop :=
  e ∈ w.epochs ∧ (∃ r ∈ w.spend, r.id = rowId) ∧ ∀ r ∈ w.spend, r.id = rowId → r.epochId = some e.id

theorem good_counted {l : Watched} (h : Good l) : Counted l.world := by
  intro e he hopen
  have hfigures := h.books.counted e he hopen
  rw [tally_figures] at hfigures
  exact Prod.mk.inj hfigures

abbrev after (store : OAuthBlob) (log : List LoggedRow) (is : List Step) : Watched :=
  run Watched.step (Watched.init store log) is

/-- The row has a stamp and keeps it. -/
theorem stamped_for_good {l : Watched} (h : Good l) {r : MetabolismSpend} (hr : r ∈ l.world.spend)
    {epochId : String} (hid : r.epochId = some epochId) :
    ∃ e, ∀ ks, Always Watched.step Allowed l ks →
      ∀ e', StampedWith (run Watched.step l ks).world r.id e' ↔ e' = e := by
  obtain ⟨e, he, rfl⟩ := h.books.known r hr epochId hid
  refine ⟨e, ?_⟩
  intro ks hks e'
  obtain ⟨hgood, hgrown⟩ := run_good h hks
  obtain ⟨r', hr', hrid, _, hstamp⟩ := hgrown.rows r hr
  constructor
  · intro hwith
    obtain ⟨he', _, hall⟩ := hwith
    have hsame : e.id = e'.id := Option.some.inj ((hstamp e.id hid).symm.trans (hall r' hr' hrid))
    exact (hgood.books.epoch_unique (hgrown.epochs e he) he' hsame).symm
  · intro he'
    subst he'
    refine ⟨hgrown.epochs _ he, ⟨r', hr', hrid⟩, ?_⟩
    intro x hx hxid
    rw [hgood.books.row_unique hx hr' (hxid.trans hrid.symm)]
    exact hstamp _ hid

/-- In every run whose steps are timely the figures of an epoch are those of its rows, a
row recorded after the first baseline is stamped by the next tick of its date or later
that is seen through, with one epoch for good, and nothing but failures keeps a tick from
being seen through. -/
theorem conservation_holds (store : OAuthBlob) (log : List LoggedRow) (is : List Step)
    (hok : Always Watched.step Allowed (Watched.init store log) is) :
    Counted (after store log is).world ∧
    (∀ r, Due (after store log is) r → ∀ js, Always Watched.step Allowed (after store log is) js →
      SeenThrough r.atMs (after store log is) js →
      ∃ e, ∀ ks, Always Watched.step Allowed (run Watched.step (after store log is) js) ks →
        ∀ e', StampedWith (run Watched.step (run Watched.step (after store log is) js) ks).world r.id e' ↔ e' = e) ∧
    ((after store log is).world.phase = .idle → (after store log is).world.proc.isSome →
      ∀ input now newId, ∃ ops,
        SeenThrough now (after store log is) (.tick input :: List.replicate ops (.exec .ok now newId))) := by
  have hgood := (run_good (init_good store log) hok).1
  refine ⟨good_counted hgood, ?_, fun hidle hproc => tick_seen_through hidle hproc⟩
  intro r hdue js hjs hthrough
  obtain ⟨hr, b, hb, hlt⟩ := hdue
  obtain ⟨hlater, hgrown⟩ := run_good hgood hjs
  obtain ⟨r', hr', hrid, hat, _⟩ := hgrown.rows r hr
  obtain ⟨hclosed, e, he, hdate⟩ := hthrough.epoch
  cases hstamp : r'.epochId with
  | none =>
    -- an epoch of its date or later has been left
    have hbefore := hlater.books.stamped b (hgrown.baseline b hb) r' hr' hstamp (hat ▸ hlt) e he (by simp [hclosed])
    omega
  | some epochId =>
    rw [← hrid]
    exact stamped_for_good hlater hr' hstamp

/-- The tick does not get at the row. -/
def PassedBy (rowId : String) (atMs : Int) : Phase → Prop
  | .window _ w | .lag _ w _ => atMs ≤ w.windowStart
  | .createEpoch _ g | .stamp _ g _ => atMs ≤ g.window.windowStart
  | .stampRows _ _ _ _ rows => rowId ∉ rows.map Prod.fst
  | _ => True

/-- It has no stamp and an epoch of its date or later is there already. -/
structure Lost (w : World) (rowId : String) (atMs : Int) : Prop where
  there : ∃ r ∈ w.spend, r.id = rowId
  row : ∀ r ∈ w.spend, r.id = rowId → r.atMs = atMs ∧ r.epochId = none
  behind : ∃ e ∈ w.epochs, atMs ≤ e.atMs
  passed : PassedBy rowId atMs w.phase

section Lost
variable {w w' : World} {rowId : String} {atMs : Int}

theorem passed_calm {phase : Phase} (h : early phase = true ∨ resting phase = true) : PassedBy rowId atMs phase := by
  cases phase <;> simp [early, resting, PassedBy] at h ⊢

theorem Lost.same (h : Lost w rowId atMs) (hspend : w'.spend = w.spend) (hepochs : ∀ e ∈ w.epochs, e ∈ w'.epochs)
    (hpassed : PassedBy rowId atMs w'.phase) : Lost w' rowId atMs := by
  obtain ⟨e, he, hle⟩ := h.behind
  exact ⟨hspend ▸ h.there, hspend ▸ h.row, ⟨e, hepochs e he, hle⟩, hpassed⟩

/-- No stamp is for it. -/
theorem Lost.untaken (h : Lost w rowId atMs) {r : MetabolismSpend} (hr : r ∈ w.spend) (hid : r.id = rowId) :
    takes w.phase r = false := by
  have hpassed := h.passed
  rw [Bool.eq_false_iff]
  intro htakes
  cases hp : w.phase with
  | stamp t g epochId =>
    rw [hp] at htakes hpassed
    have hin : inWindow g.window.windowStart g.window.epochAt r = true := takes_pending htakes
    simp only [inWindow, Bool.and_eq_true, decide_eq_true_eq, (h.row r hr hid).1] at hin
    exact absurd hin.1.2 (not_lt.mpr hpassed)
  | stampRows t g epochId factor rows =>
    rw [hp] at htakes hpassed
    have hin : rowId ∈ rows.map Prod.fst := by
      simpa [pending, hid] using takes_pending htakes
    exact hpassed hin
  | _ =>
    rw [hp] at htakes
    cases htakes

theorem Lost.stamps (h : Lost w rowId atMs) {epochId : String}
    (hspend : ∃ f, Stamping epochId (takes w.phase) f ∧ w'.spend = w.spend.map f) (hepochs : w'.epochs = w.epochs)
    (hpassed : PassedBy rowId atMs w'.phase) : Lost w' rowId atMs := by
  obtain ⟨f, hs, hmap⟩ := hspend
  refine ⟨?_, ?_, hepochs ▸ h.behind, hpassed⟩
  · obtain ⟨r, hr, hid⟩ := h.there
    exact ⟨f r, hmap ▸ List.mem_map_of_mem hr, (hs.id r).trans hid⟩
  · intro r' hr' hid
    rw [hmap] at hr'
    obtain ⟨r, hr, rfl⟩ := List.mem_map.mp hr'
    rw [hs.id] at hid
    rw [hs.atMs]
    exact ⟨(h.row r hr hid).1, hs.unstamped.mpr ⟨h.untaken hr hid, (h.row r hr hid).2⟩⟩

theorem Lost.moved (h : Lost w rowId atMs) {outcome : PersistOutcome} {now : Int} {newId : String}
    (hm : Moved w outcome now newId w') : Lost w' rowId atMs := by
  have hpassed := h.passed
  cases hm with
  | early _ after spend epochs => exact h.same spend (fun e he => epochs ▸ he) (passed_calm (Or.inl after))
  | ended _ _ after spend epochs => exact h.same spend (fun e he => epochs ▸ he) (passed_calm (Or.inr after))
  | found _ starts _ after spend epochs =>
    refine h.same spend (fun e he => epochs ▸ he) ?_
    rw [after]
    obtain ⟨e, he, hle⟩ := h.behind
    rcases starts with hempty | ⟨last, _, hstart, hmax⟩
    · rw [hempty] at he
      cases he
    · exact (hle.trans (hmax e he)).trans_eq hstart
  | queried before after spend epochs =>
    rw [before] at hpassed
    exact h.same spend (fun e he => epochs ▸ he) (by rw [after]; exact hpassed)
  | graded before after window _ _ spend epochs =>
    rw [before] at hpassed
    refine h.same spend (fun e he => epochs ▸ he) ?_
    rw [after, PassedBy, window]
    exact hpassed
  | created before _ after spend epochs =>
    rw [before] at hpassed
    refine h.same spend (fun e he => epochs ▸ List.mem_append_left _ he) ?_
    rcases after with ⟨_, hp⟩ | ⟨_, hp⟩
    · rw [hp]
      exact hpassed
    · rw [hp]
      trivial
  | listed before after spend epochs =>
    rw [before] at hpassed
    refine h.same spend (fun e he => epochs ▸ he) ?_
    rw [after]
    intro hmem
    obtain ⟨x, hx, hid⟩ := List.mem_map.mp hmem
    obtain ⟨r, hr, rfl⟩ := List.mem_map.mp hx
    obtain ⟨hr, hin⟩ := List.mem_filter.mp hr
    simp only [inWindow, Bool.and_eq_true, decide_eq_true_eq, (h.row r hr hid).1] at hin
    exact absurd hin.1.2 (not_lt.mpr hpassed)
  | stampedOne before after spend epochs =>
    rw [before] at hpassed
    refine h.stamps spend epochs ?_
    rw [after]
    exact fun hmem => hpassed (List.mem_cons_of_mem _ hmem)
  | stamped _ _ _ after spend epochs => exact h.stamps spend epochs (passed_calm (Or.inr after))
  | left _ _ _ after spend epochs => exact h.same spend (fun e he => epochs ▸ he) (passed_calm (Or.inr after))

theorem Lost.step {l : Watched} (h : Lost l.world rowId atMs) {s : Step} (hwritten : Written l s) :
    Lost (l.step s).world rowId atMs := by
  change Lost (l.world.step s) rowId atMs
  cases s with
  | insertSpend row =>
    obtain ⟨_, hfresh, _⟩ := hwritten
    obtain ⟨r, hr, hid⟩ := h.there
    refine ⟨⟨r, List.mem_append_left _ hr, hid⟩, ?_, h.behind, h.passed⟩
    intro x hx hxid
    rcases List.mem_append.mp hx with hx | hx
    · exact h.row x hx hxid
    · rw [List.mem_singleton.mp hx] at hxid
      exact absurd (hid.trans hxid.symm) (hfresh r hr)
  | tick input =>
    simp only [World.step]
    split
    · split <;> exact h.same rfl (fun e he => he) trivial
    · exact h
  | exec outcome now newId =>
    rcases step_moved l.world outcome now newId with hsame | hm
    · rw [hsame]
      exact h
    · exact h.moved hm
  | start cfg tie => exact h.same rfl (fun e he => he) trivial
  | reauth => exact h.same rfl (fun e he => he) h.passed

/-- No run ever stamps it. -/
theorem Lost.forever {l : Watched} (h : Lost l.world rowId atMs) {ks : List Step}
    (hks : Always Watched.step Written l ks) (e : MetabolismEpoch) :
    ¬ StampedWith (run Watched.step l ks).world rowId e := by
  have hlost := invariant_run (fun l' => Lost l'.world rowId atMs) (fun l' s hl' hs => hl'.step hs) h hks
  obtain ⟨r, hr, hid⟩ := hlost.there
  intro hwith
  have hstamp := hwith.2.2 r hr hid
  rw [(hlost.row r hr hid).2] at hstamp
  cases hstamp

end Lost

def sampleStore : OAuthBlob := ⟨some "orbio-1-secret", some "orbio-1", some ⟨"orbio-1", 5, 2, 0⟩⟩

def sampleTick : Step := .tick (Tick.polled 5 (some "orbio-1"))

/-- The first operations of a tick. -/
def sampleOps (n : Nat) : List Step := (List.range n).map fun (k : Nat) => .exec .ok (100 + k) "epoch-1"

def sampleRow : MetabolismSpend := Tick.tenCents "run-1" 50

/-- The process dies between the row of the epoch and the stamp. -/
def crashed : List Step :=
  [.start Tick.managed 0, .insertSpend sampleRow, sampleTick] ++ sampleOps 5 ++ [.start Tick.managed 0]

/-- The row becomes visible when the epoch of its window is done with. -/
def late : List Step := [.start Tick.managed 0, sampleTick] ++ sampleOps 6 ++ [.insertSpend sampleRow]

def creating : Phase → Bool
  | .createEpoch .. => true
  | _ => false

theorem written_exec {l : Watched} {outcome : PersistOutcome} {now : Int} {newId : String}
    (h : creating l.world.phase = false ∨ l.world.epochs = []) : Written l (.exec outcome now newId) := by
  intro t g hp e he
  rcases h with hnot | hempty
  · rw [hp] at hnot
    cases hnot
  · rw [hempty] at he
    cases he

theorem sampleRow_micros (x : ℚ) (h : sampleRow.estimatedCostUsd = some x) : Micros x := by
  obtain rfl := Option.some.inj h
  exact ⟨100000, by norm_num⟩

theorem written_row {l : Watched} (h : l.world.spend = []) : Written l (.insertSpend sampleRow) := by
  refine ⟨rfl, ?_, sampleRow_micros⟩
  intro r hr
  rw [h] at hr
  cases hr

theorem crashed_written : Always Watched.step Written (Watched.init sampleStore []) crashed := by
  refine ⟨trivial, written_row rfl, trivial, ?_, ?_, ?_, ?_, ?_, trivial, trivial⟩
  all_goals exact written_exec (Or.inr rfl)

theorem late_written : Always Watched.step Written (Watched.init sampleStore []) late := by
  have hlast : creating (after sampleStore [] ([.start Tick.managed 0, sampleTick] ++ sampleOps 5)).world.phase =
      false := by decide +kernel
  refine ⟨trivial, trivial, ?_, ?_, ?_, ?_, ?_, written_exec (Or.inl hlast), written_row ?_, trivial⟩
  · exact written_exec (Or.inr rfl)
  · exact written_exec (Or.inr rfl)
  · exact written_exec (Or.inr rfl)
  · exact written_exec (Or.inr rfl)
  · exact written_exec (Or.inr rfl)
  · decide +kernel

/-- A crash between the two writes leaves an epoch that counts a row without a stamp,
and a row that becomes visible too late is never stamped. -/
theorem conservation_lost :
    (∃ store log is, Always Watched.step Written (Watched.init store log) is ∧ ¬ Counted (after store log is).world) ∧
    ∃ store log is r, Always Watched.step Written (Watched.init store log) is ∧ Due (after store log is) r ∧
      ∀ ks, Always Watched.step Written (after store log is) ks →
        ∀ e, ¬ StampedWith (run Watched.step (after store log is) ks).world r.id e := by
  constructor
  · refine ⟨sampleStore, [], crashed, crashed_written, ?_⟩
    intro hcounted
    have hbad : ∃ e ∈ (after sampleStore [] crashed).world.epochs,
        openEpoch (after sampleStore [] crashed).world.phase ≠ some e.id ∧
        e.requestCount ≠ ((after sampleStore [] crashed).world.spend.filter (stampedBy e.id)).length := by
      decide +kernel
    obtain ⟨e, he, hclosed, hne⟩ := hbad
    exact hne (hcounted e he hclosed).1
  · have hdue : Due (after sampleStore [] late) sampleRow := by
      refine ⟨?_, 0, ?_, ?_⟩
      · decide +kernel
      · decide +kernel
      · decide
    have hrest : resting (after sampleStore [] late).world.phase = true := by decide +kernel
    have hlost : Lost (after sampleStore [] late).world sampleRow.id 50 := by
      refine ⟨⟨sampleRow, hdue.1, rfl⟩, ?_, ?_, passed_calm (Or.inr hrest)⟩
      · decide +kernel
      · decide +kernel
    exact ⟨sampleStore, [], late, sampleRow, late_written, hdue, fun ks hks e => hlost.forever hks e⟩

def inTime : List Step := [.start Tick.managed 0, .insertSpend sampleRow]

theorem inTime_allowed : Always Watched.step Allowed (Watched.init sampleStore []) inTime := by
  have hstart : Timely (Watched.init sampleStore []) (.start Tick.managed 0) := by
    intro r hr
    cases hr
  have hinsert : Timely (after sampleStore [] [.start Tick.managed 0]) (.insertSpend sampleRow) := by
    refine ⟨?_, rfl⟩
    intro b _ _ e he
    cases he
  exact ⟨⟨trivial, hstart⟩, ⟨written_row rfl, hinsert⟩, trivial⟩

/-- An operation that succeeds in a tick with a baseline. -/
theorem allowed_ok {l : Watched} {now : Int} {newId : String} (h : creating l.world.phase = false)
    (hbaseline : l.baseline.isSome) : Allowed l (.exec .ok now newId) := by
  refine ⟨written_exec (Or.inl h), ?_, ?_, ?_, ?_⟩
  · intro t g hp
    rw [hp] at h
    cases h
  · intro hno
    cases hno
  · intro hno
    cases hno
  · intro hnone
    rw [hnone] at hbaseline
    cases hbaseline

theorem sampleOps_allowed : Always Watched.step Allowed (after sampleStore [] inTime) (sampleTick :: sampleOps 6) := by
  have hcreate : Allowed (after sampleStore [] (inTime ++ sampleTick :: sampleOps 4)) (.exec .ok 104 "epoch-1") := by
    refine ⟨written_exec (Or.inr rfl), ?_, ?_, ?_, ?_⟩
    · intro t g hp _
      have hseen : ∀ r ∈ (after sampleStore [] (inTime ++ sampleTick :: sampleOps 4)).world.spend,
          r ∈ (after sampleStore [] (inTime ++ sampleTick :: sampleOps 4)).queried := by decide +kernel
      refine ⟨fun r hr _ => hseen r hr, ?_, ?_⟩
      · intro _ b hb r _ _ hlt _
        obtain ⟨_, rfl⟩ := Phase.createEpoch.inj hp
        obtain rfl := Option.some.inj hb
        exact hlt
      · intro hno
        cases hno
    · intro hno
      cases hno
    · intro hno
      cases hno
    · intro hno
      cases hno
  refine ⟨⟨trivial, trivial⟩, ?_, ?_, ?_, ?_, hcreate, ?_, trivial⟩
  · exact allowed_ok rfl rfl
  · exact allowed_ok rfl rfl
  · exact allowed_ok rfl rfl
  · exact allowed_ok rfl rfl
  · exact allowed_ok (by decide +kernel) rfl

theorem conservation_holds_sample :
    ∃ e, StampedWith (after sampleStore [] (inTime ++ sampleTick :: sampleOps 6)).world "run-1" e := by
  have hdue : Due (after sampleStore [] inTime) sampleRow := ⟨List.mem_cons_self, 0, rfl, by decide⟩
  have hacting : acting (after sampleStore [] (inTime ++ sampleTick :: sampleOps 6)).world.phase = true := by
    decide +kernel
  have hthrough : SeenThrough sampleRow.atMs (after sampleStore [] inTime) (sampleTick :: sampleOps 6) := by
    refine ⟨[], _, sampleOps 6, rfl, rfl, rfl, ?_, hacting⟩
    intro s hs
    obtain ⟨k, _, rfl⟩ := List.mem_map.mp hs
    have hdate : sampleRow.atMs = 50 := rfl
    refine ⟨rfl, ?_⟩
    omega
  obtain ⟨_, heventually, _⟩ := conservation_holds sampleStore [] inTime inTime_allowed
  obtain ⟨e, he⟩ := heventually sampleRow hdue (sampleTick :: sampleOps 6) sampleOps_allowed hthrough
  exact ⟨e, (he [] trivial e).mpr rfl⟩

end LaunchAuditor.Proofs.Conservation
