import LaunchAuditor.Lib.Steps
import LaunchAuditor.Proofs.Ledger
import LaunchAuditor.Proofs.Moves
import LaunchAuditor.Proofs.Spend

namespace LaunchAuditor.Proofs.Epochs
open Db Metabolism Runner Tally Windows Proofs.Ledger Moves Steps

/-- The world with two things that only an observer keeps. -/
structure Watched where
  world : World
  /-- `at` of the first baseline there was -/
  baseline : Option Int
  /-- the ledger at the last window query -/
  queried : SpendTable

def baselineAt (w : World) : Option Int := w.store.spendBaseline.map SpendBaseline.atMs

def Watched.step (l : Watched) (s : Step) : Watched :=
  { world := l.world.step s
    baseline := l.baseline <|> baselineAt (l.world.step s)
    queried := match l.world.phase, s with
      | .window _ _, .exec _ _ _ => l.world.spend
      | _, _ => l.queried }

/-- No spend and no epochs yet; the store may already hold a baseline. -/
def Watched.init (store : OAuthBlob) (log : List LoggedRow) : Watched :=
  ⟨World.init store log [] [], store.spendBaseline.map SpendBaseline.atMs, []⟩

/-- A row is inserted as `recordSpend` does it, and the database gives fresh ids. -/
def Written (l : Watched) : Step → Prop
  | .insertSpend row => row.epochId = none ∧ (∀ r ∈ l.world.spend, r.id ≠ row.id) ∧
      ∀ x, row.estimatedCostUsd = some x → Micros x
  | .exec _ _ newId => ∀ t g, l.world.phase = .createEpoch t g → ∀ e ∈ l.world.epochs, e.id ≠ newId
  | _ => True

theorem estimateCostUsd_micros {slug : String} {promptTokens completionTokens : Option ℚ} {cost : ℚ}
    (h : Deepdive.estimateCostUsd slug promptTokens completionTokens = some cost) : Micros cost := by
  obtain ⟨price, hprice, rfl⟩ := Deepdive.estimateCostUsd_rounded h
  exact micros_r6 hprice

/-- What a deep-dive run does to the ledger is such a step, or nothing. -/
theorem recordDeepdiveSpend_written (l : Watched) (lookup : String → Except String ℚ) (u : Deepdive.Usage)
    (keyHashPrefix reportId : Option String) (newId : String) (now : Int) (hfresh : ∀ r ∈ l.world.spend, r.id ≠ newId) :
    (Deepdive.recordDeepdiveSpend lookup u keyHashPrefix reportId newId now l.world.spend).1 = l.world.spend ∨
      ∃ row, Written l (.insertSpend row) ∧
        (Deepdive.recordDeepdiveSpend lookup u keyHashPrefix reportId newId now l.world.spend).1 =
          (l.step (.insertSpend row)).world.spend := by
  rw [Spend.recordDeepdiveSpend_table]
  rcases recordSpend_appends (Deepdive.spendEntry lookup u keyHashPrefix reportId) newId now l.world.spend with
    hsame | ⟨row, hrow, hid, hnone, hestimate⟩
  · exact Or.inl hsame
  · refine Or.inr ⟨row, ⟨hnone, ?_, ?_⟩, hrow⟩
    · rw [hid]
      exact hfresh
    · intro x hx
      exact estimateCostUsd_micros (hestimate.symm.trans hx)

/-- An epoch may be created: no row of its window has become visible since the query, the
first window of all leaves no row after the baseline out, and when the answer is lost, so
that nobody stamps for it, its window is empty. -/
def Creatable (l : Watched) (w : EpochWindow) (outcome : PersistOutcome) : Prop :=
  (∀ r ∈ l.world.spend, inWindow w.windowStart w.epochAt r = true → r ∈ l.queried) ∧
  (l.world.epochs = [] → ∀ b, l.baseline = some b → ∀ r ∈ l.world.spend, r.epochId = none → b < r.atMs →
    r.atMs ≤ w.epochAt → w.windowStart < r.atMs) ∧
  (outcome = .ackLost → ∀ r ∈ l.world.spend, inWindow w.windowStart w.epochAt r = false)

/-- The condition on a step. A row becomes visible before an epoch reaches its date;
an epoch is created and left, by a failure or by a restart, with no row of it unstamped;
and no row after the first baseline is already behind an epoch. -/
def Timely (l : Watched) : Step → Prop
  | .insertSpend row => Unreached l.world.epochs l.baseline row.atMs ∧ pending l.world.phase row = false
  | .exec outcome now newId =>
    (∀ t g, l.world.phase = .createEpoch t g → outcome ≠ .failed → Creatable l g.window outcome) ∧
    (outcome = .failed → ∀ r ∈ l.world.spend, pending l.world.phase r = false) ∧
    (outcome = .ackLost → ∀ r ∈ l.world.spend, pending l.world.phase r = true → takes l.world.phase r = true) ∧
    (l.baseline = none → ∀ r ∈ l.world.spend, r.epochId = none →
      Unreached l.world.epochs (l.step (.exec outcome now newId)).baseline r.atMs)
  | .start _ _ => ∀ r ∈ l.world.spend, pending l.world.phase r = false
  | _ => True

def Underway (l : Watched) : Prop :=
  match l.world.phase with
  | .window _ w => StartsAtLast l.world.epochs w
  | .lag _ w est => StartsAtLast l.world.epochs w ∧
      est = windowEstimate w.windowStart w.epochAt l.queried ∧ l.queried <+: l.world.spend
  | .createEpoch _ g => StartsAtLast l.world.epochs g.window ∧
      (g.ep.requestCount, g.ep.localEstimateUsd) =
        tally figures (inWindow g.window.windowStart g.window.epochAt) l.queried ∧ l.queried <+: l.world.spend
  | .stamp _ g epochId =>
      Open l.world.spend l.world.epochs l.baseline epochId g.window.epochAt (pending l.world.phase)
  | .stampRows _ g epochId _ rows =>
      Open l.world.spend l.world.epochs l.baseline epochId g.window.epochAt (pending l.world.phase) ∧
        (rows.map Prod.fst).Nodup ∧ ∀ row ∈ rows, ∃ r ∈ l.world.spend, r.id = row.1
  | _ => True

structure Good (l : Watched) : Prop where
  books : Books l.world.spend l.world.epochs l.baseline (openEpoch l.world.phase)
  first : l.baseline = none → l.world.store.spendBaseline = none
  underway : Underway l

theorem underway_calm {l : Watched} (h : early l.world.phase = true ∨ resting l.world.phase = true) : Underway l := by
  unfold Underway
  cases hp : l.world.phase <;> simp [hp, early, resting] at h ⊢

section Step
variable {l : Watched} {w' : World} {queried : SpendTable}

theorem Good.open_of (h : Good l) {epochId : String} (hopen : openEpoch l.world.phase = some epochId) :
    ∃ epochAt, Open l.world.spend l.world.epochs l.baseline epochId epochAt (pending l.world.phase) := by
  have hu := h.underway
  unfold Underway at hu
  cases hp : l.world.phase with
  | stamp t g id =>
    rw [hp] at hu hopen
    obtain rfl := Option.some.inj hopen
    exact ⟨_, hu⟩
  | stampRows t g id factor rows =>
    rw [hp] at hu hopen
    obtain rfl := Option.some.inj hopen
    exact ⟨_, hu.1⟩
  | _ =>
    rw [hp] at hopen
    cases hopen

/-- A tick that ends with nothing pending leaves the books in order. -/
theorem Good.close (h : Good l) (hnone : ∀ r ∈ l.world.spend, pending l.world.phase r = false) :
    Books l.world.spend l.world.epochs l.baseline none := by
  have hbooks := h.books
  cases hopen : openEpoch l.world.phase with
  | none => rwa [hopen] at hbooks
  | some epochId =>
    rw [hopen] at hbooks
    obtain ⟨epochAt, ho⟩ := h.open_of hopen
    exact hbooks.close ho hnone

theorem Good.baseline_same (h : Good l) (hstore : w'.store = l.world.store) :
    (l.baseline <|> baselineAt w') = l.baseline := by
  cases hb : l.baseline with
  | some b => rfl
  | none =>
    have hnone := h.first hb
    simp [baselineAt, hstore, hnone]

theorem first_after (baseline : Option Int) (w' : World) (h : (baseline <|> baselineAt w') = none) :
    w'.store.spendBaseline = none := by
  cases baseline with
  | some b => cases h
  | none => exact Option.map_eq_none_iff.mp h

/-- An operation that does not touch the store. -/
theorem Good.same (h : Good l) (hstore : w'.store = l.world.store)
    (hbooks : Books w'.spend w'.epochs l.baseline (openEpoch w'.phase)) (hunder : Underway ⟨w', l.baseline, queried⟩) :
    Good ⟨w', l.baseline <|> baselineAt w', queried⟩ := by
  have hsame := h.baseline_same hstore
  refine ⟨?_, first_after l.baseline w', ?_⟩
  · change Books w'.spend w'.epochs (l.baseline <|> baselineAt w') (openEpoch w'.phase)
    rw [hsame]
    exact hbooks
  · rw [hsame]
    exact hunder

/-- One that only reads. -/
theorem Good.reads (h : Good l) (hstore : w'.store = l.world.store) (hspend : w'.spend = l.world.spend)
    (hepochs : w'.epochs = l.world.epochs) (hopen : openEpoch w'.phase = openEpoch l.world.phase)
    (hunder : Underway ⟨w', l.baseline, queried⟩) : Good ⟨w', l.baseline <|> baselineAt w', queried⟩ := by
  refine h.same hstore ?_ hunder
  rw [hspend, hepochs, hopen]
  exact h.books

/-- One that touches neither the ledger nor the epochs and does not go on to a window. -/
theorem calm_good (hbooks : Books l.world.spend l.world.epochs l.baseline none)
    (hafter : early w'.phase = true ∨ resting w'.phase = true) (hspend : w'.spend = l.world.spend)
    (hepochs : w'.epochs = l.world.epochs)
    (hdate : l.baseline = none → ∀ r ∈ l.world.spend, r.epochId = none →
      Unreached l.world.epochs (l.baseline <|> baselineAt w') r.atMs) :
    Good ⟨w', l.baseline <|> baselineAt w', queried⟩ := by
  refine ⟨?_, first_after l.baseline w', underway_calm hafter⟩
  change Books w'.spend w'.epochs (l.baseline <|> baselineAt w') (openEpoch w'.phase)
  rw [hspend, hepochs, openEpoch_calm hafter]
  cases hb : l.baseline with
  | some b =>
    rw [hb] at hbooks
    exact hbooks
  | none =>
    rw [hb] at hbooks hdate
    exact hbooks.setBaseline (hdate rfl)

theorem insert_good (h : Good l) {row : MetabolismSpend} (hwritten : Written l (.insertSpend row))
    (htimely : Timely l (.insertSpend row)) : Good (l.step (.insertSpend row)) := by
  obtain ⟨hnone, hfresh, hmicros⟩ := hwritten
  obtain ⟨hdate, hout⟩ := htimely
  have hu := h.underway
  refine h.same rfl (h.books.insert hnone hfresh hmicros hdate) ?_
  unfold Underway at hu ⊢
  dsimp only [World.step]
  cases hp : l.world.phase with
  | window t w =>
    rw [hp] at hu
    exact hu
  | lag t w est =>
    rw [hp] at hu
    exact ⟨hu.1, hu.2.1, hu.2.2.trans (List.prefix_append _ _)⟩
  | createEpoch t g =>
    rw [hp] at hu
    exact ⟨hu.1, hu.2.1, hu.2.2.trans (List.prefix_append _ _)⟩
  | stamp t g epochId =>
    rw [hp] at hu hout
    exact Open.insert hu hnone hout hdate
  | stampRows t g epochId factor rows =>
    rw [hp] at hu hout
    obtain ⟨ho, hnodup, hthere⟩ := hu
    refine ⟨ho.insert hnone hout hdate, hnodup, ?_⟩
    intro x hx
    obtain ⟨r, hr, hid⟩ := hthere x hx
    exact ⟨r, List.mem_append_left _ hr, hid⟩
  | _ => trivial

theorem graded_good (h : Good l) {t : Tick} {win : EpochWindow} {est : WindowEstimate} {g : Graded}
    (before : l.world.phase = .lag t win est) (after : w'.phase = .createEpoch t g) (window : g.window = win)
    (count : g.ep.requestCount = est.count) (estimate : g.ep.localEstimateUsd = r6 (max 0 est.estimatedUsd))
    (spend : w'.spend = l.world.spend) (epochs : w'.epochs = l.world.epochs) (store : w'.store = l.world.store) :
    Good ⟨w', l.baseline <|> baselineAt w', l.queried⟩ := by
  have hbooks := h.books
  have hu := h.underway
  unfold Underway at hu
  rw [before] at hbooks hu
  obtain ⟨hstarts, hest, hqueried⟩ := hu
  refine h.reads store spend epochs (by rw [before, after]; rfl) ?_
  unfold Underway
  dsimp only
  rw [after, spend, epochs]
  refine ⟨window ▸ hstarts, ?_, hqueried⟩
  have hmicros : Micros (tally figures (inWindow win.windowStart win.epochAt) l.queried).2 := by
    apply tally_micros
    intro r hr
    exact hbooks.micros r (hqueried.subset hr)
  rw [hest, windowEstimate_eq] at count estimate
  rw [count, estimate, hmicros.r6_eq, window]

theorem created_good (h : Good l) {t : Tick} {g : Graded} {outcome : PersistOutcome} {newId : String}
    (before : l.world.phase = .createEpoch t g) (hcreate : Creatable l g.window outcome)
    (hfresh : ∀ e ∈ l.world.epochs, e.id ≠ newId)
    (after : (outcome = .ok ∧ w'.phase = .stamp t g newId) ∨ (outcome = .ackLost ∧ w'.phase = .idle))
    (spend : w'.spend = l.world.spend) (epochs : w'.epochs = l.world.epochs ++ [epochRow t g newId])
    (store : w'.store = l.world.store) : Good ⟨w', l.baseline <|> baselineAt w', queried⟩ := by
  have hbooks := h.books
  have hu := h.underway
  unfold Underway at hu
  rw [before] at hbooks hu
  obtain ⟨hstarts, hfigures, more, hmore⟩ := hu
  obtain ⟨hseen, hfirst, hempty⟩ := hcreate
  have hout : ∀ r ∈ more, inWindow g.window.windowStart g.window.epochAt r = false := by
    intro r hr
    rw [Bool.eq_false_iff]
    intro hin
    have hold := hseen r (hmore ▸ List.mem_append_right _ hr) hin
    have hids : ((l.queried ++ more).map MetabolismSpend.id).Nodup := hmore ▸ hbooks.rowIds
    rw [List.map_append] at hids
    exact List.disjoint_of_nodup_append hids (List.mem_map_of_mem hold) (List.mem_map_of_mem hr)
  have htally : ((epochRow t g newId).requestCount, (epochRow t g newId).localEstimateUsd) =
      tally figures (inWindow g.window.windowStart g.window.epochAt) l.world.spend := by
    rw [← hmore, tally_append, tally_none hout, add_zero]
    exact hfigures
  have hopen := @Open.create _ _ _ hbooks (epochRow t g newId) _ hfresh rfl htally hstarts hfirst
  have hnew := @Books.create _ _ _ hbooks (epochRow t g newId) hfresh
  rcases after with ⟨_, hstamp⟩ | ⟨hlost, hidle⟩
  · refine h.same store ?_ ?_
    · rw [spend, epochs, hstamp]
      exact hnew
    · unfold Underway
      dsimp only
      rw [hstamp, spend, epochs]
      exact hopen
  · refine h.same store ?_ (underway_calm (Or.inr (by rw [hidle]; rfl)))
    rw [spend, epochs, hidle]
    exact hnew.close hopen (hempty hlost)

theorem listed_good (h : Good l) {t : Tick} {g : Graded} {epochId : String} {factor : ℚ}
    (before : l.world.phase = .stamp t g epochId)
    (after : w'.phase = .stampRows t g epochId factor
      (windowIds g.window.windowStart g.window.epochAt l.world.spend))
    (spend : w'.spend = l.world.spend) (epochs : w'.epochs = l.world.epochs) (store : w'.store = l.world.store) :
    Good ⟨w', l.baseline <|> baselineAt w', queried⟩ := by
  have hbooks := h.books
  have hu := h.underway
  unfold Underway at hu
  rw [before] at hbooks hu
  have hids : (windowIds g.window.windowStart g.window.epochAt l.world.spend).map Prod.fst =
      (l.world.spend.filter (inWindow g.window.windowStart g.window.epochAt)).map MetabolismSpend.id := by
    unfold windowIds
    rw [List.map_map]
    rfl
  refine h.reads store spend epochs (by rw [before, after]; rfl) ?_
  unfold Underway
  dsimp only
  rw [after, spend, epochs]
  refine ⟨Open.congr hu ?_, ?_, ?_⟩
  · intro r hr
    unfold pending
    dsimp only
    rw [hids, Bool.eq_iff_iff, List.contains_iff_mem, List.mem_map]
    constructor
    · intro hin
      exact ⟨r, List.mem_filter.mpr ⟨hr, hin⟩, rfl⟩
    · intro hmem
      obtain ⟨r', hr', hid⟩ := hmem
      obtain ⟨hr', hin⟩ := List.mem_filter.mp hr'
      rwa [← hbooks.row_unique hr' hr hid]
  · rw [hids]
    exact hbooks.rowIds.sublist (List.filter_sublist.map _)
  · intro row hrow
    obtain ⟨r, hr, rfl⟩ := List.mem_map.mp hrow
    exact ⟨r, (List.mem_filter.mp hr).1, rfl⟩

theorem stampedOne_good (h : Good l) {t : Tick} {g : Graded} {epochId : String} {factor : ℚ} {row : String × Option ℚ}
    {rows : List (String × Option ℚ)} (before : l.world.phase = .stampRows t g epochId factor (row :: rows))
    (after : w'.phase = .stampRows t g epochId factor rows)
    (spend : ∃ f, Stamping epochId (takes l.world.phase) f ∧ w'.spend = l.world.spend.map f)
    (epochs : w'.epochs = l.world.epochs) (store : w'.store = l.world.store) :
    Good ⟨w', l.baseline <|> baselineAt w', queried⟩ := by
  obtain ⟨f, hs, hmap⟩ := spend
  have hbooks := h.books
  have hu := h.underway
  unfold Underway at hu
  rw [before] at hbooks hu hs
  obtain ⟨ho, hnodup, hthere⟩ := hu
  obtain ⟨hnot, hnodup⟩ := List.nodup_cons.mp hnodup
  obtain ⟨e, he, heid, _⟩ := ho.epoch
  have hfree : ∀ r ∈ l.world.spend, (r.id == row.1) = true → r.epochId = none := by
    intro r hr hid
    exact ho.free r hr (takes_pending hid)
  refine h.same store ?_ ?_
  · rw [hmap, epochs, after]
    exact hbooks.stamp hs hfree ⟨e, he, heid⟩
  · unfold Underway
    dsimp only
    rw [after, hmap, epochs]
    refine ⟨Open.stamp ho hs ?_ ?_ ?_, hnodup, ?_⟩
    · intro r _
      simp [pending, takes]
    · intro r _ hid
      have hid : r.id = row.1 := by simpa [takes] using hid
      rw [Bool.eq_false_iff]
      intro hmem
      apply hnot
      rw [← hid]
      simpa [pending] using hmem
    · intro r
      unfold pending
      dsimp only
      rw [hs.id]
    · intro x hx
      obtain ⟨r, hr, hid⟩ := hthere x (List.mem_cons_of_mem _ hx)
      exact ⟨f r, List.mem_map_of_mem hr, (hs.id r).trans hid⟩

theorem stamped_good (h : Good l) {epochId : String} (before : openEpoch l.world.phase = some epochId)
    (hall : ∀ r ∈ l.world.spend, pending l.world.phase r = true → takes l.world.phase r = true)
    (after : resting w'.phase = true)
    (spend : ∃ f, Stamping epochId (takes l.world.phase) f ∧ w'.spend = l.world.spend.map f)
    (epochs : w'.epochs = l.world.epochs) (store : w'.store = l.world.store) :
    Good ⟨w', l.baseline <|> baselineAt w', queried⟩ := by
  obtain ⟨f, hs, hmap⟩ := spend
  have hbooks := h.books
  rw [before] at hbooks
  obtain ⟨epochAt, ho⟩ := h.open_of before
  obtain ⟨e, he, heid, _⟩ := ho.epoch
  have hfree : ∀ r ∈ l.world.spend, takes l.world.phase r = true → r.epochId = none := by
    intro r hr hp
    exact ho.free r hr (takes_pending hp)
  have hnothing : Open (l.world.spend.map f) l.world.epochs l.baseline epochId epochAt fun _ => false := by
    refine ho.stamp hs ?_ (fun _ _ _ => rfl) (fun _ => rfl)
    intro r hr
    rw [Bool.or_false, Bool.eq_iff_iff]
    exact ⟨hall r hr, takes_pending⟩
  refine h.same store ?_ (underway_calm (Or.inr after))
  rw [hmap, epochs, openEpoch_calm (Or.inr after)]
  exact (hbooks.stamp hs hfree ⟨e, he, heid⟩).close hnothing (fun _ _ => rfl)

theorem queried_step (l : Watched) (s : Step) :
    (l.step s).queried = l.queried ∨ ∃ t win, l.world.phase = .window t win := by
  cases hp : l.world.phase with
  | window t win => exact Or.inr ⟨t, win, rfl⟩
  | _ => exact Or.inl (by simp [Watched.step, hp])

/-- The world is as it was, but for its trace. -/
theorem Good.stay (h : Good l) (hstore : w'.store = l.world.store) (hphase : w'.phase = l.world.phase)
    (hspend : w'.spend = l.world.spend) (hepochs : w'.epochs = l.world.epochs)
    (hqueried : queried = l.queried ∨ ∃ t win, l.world.phase = .window t win) :
    Good ⟨w', l.baseline <|> baselineAt w', queried⟩ := by
  have hu := h.underway
  refine h.reads hstore hspend hepochs (by rw [hphase]) ?_
  unfold Underway at hu ⊢
  dsimp only
  rw [hphase, hspend, hepochs]
  rcases hqueried with rfl | ⟨t, win, hp⟩
  · exact hu
  · rw [hp] at hu ⊢
    exact hu

theorem exec_good (h : Good l) {outcome : PersistOutcome} {now : Int} {newId : String}
    (hwritten : Written l (.exec outcome now newId)) (htimely : Timely l (.exec outcome now newId)) :
    Good (l.step (.exec outcome now newId)) := by
  rcases step_moved l.world outcome now newId with hsame | hm
  · unfold Watched.step
    rw [hsame]
    exact h.stay rfl rfl rfl rfl (queried_step l (.exec outcome now newId))
  obtain ⟨hcreate, hfailed, hlost, hdate⟩ := htimely
  unfold Watched.step at hdate ⊢
  generalize l.world.step (.exec outcome now newId) = w' at hm hdate ⊢
  cases hm with
  | early before after spend epochs =>
    have hclosed := openEpoch_calm (Or.inl before)
    exact calm_good (h.close fun r _ => pending_closed hclosed r) (Or.inl after) spend epochs hdate
  | ended before cut after spend epochs =>
    exact calm_good (h.close fun r _ => pending_closed before r) (Or.inr after) spend epochs hdate
  | found before starts date after spend epochs store =>
    refine h.reads store spend epochs (by rw [before, after]; rfl) ?_
    unfold Underway
    dsimp only
    rw [after, epochs]
    exact starts
  | queried before after spend epochs store =>
    have hu := h.underway
    unfold Underway at hu
    rw [before] at hu
    refine h.reads store spend epochs (by rw [before, after]; rfl) ?_
    unfold Underway
    dsimp only
    rw [before, after, spend, epochs]
    exact ⟨hu, rfl, List.prefix_rfl⟩
  | graded before after window count estimate spend epochs store =>
    rw [before]
    exact graded_good h before after window count estimate spend epochs store
  | created before made after spend epochs store =>
    exact created_good h before (hcreate _ _ before made) (hwritten _ _ before) after spend epochs store
  | listed before after spend epochs store => exact listed_good h before after spend epochs store
  | stampedOne before after spend epochs store => exact stampedOne_good h before after spend epochs store
  | stamped before made all after spend epochs store =>
    refine stamped_good h before ?_ after spend epochs store
    cases outcome with
    | ok => exact all rfl
    | failed => exact absurd rfl made
    | ackLost => exact hlost rfl
  | left before none unmade after spend epochs store =>
    have hnothing : ∀ r ∈ l.world.spend, pending l.world.phase r = false := by
      cases outcome with
      | ok => exact none rfl
      | failed => exact hfailed rfl
      | ackLost =>
        intro r hr
        rw [Bool.eq_false_iff]
        intro hp
        have htakes := hlost rfl r hr hp
        rw [unmade rfl r hr] at htakes
        cases htakes
    refine h.same store ?_ (underway_calm (Or.inr after))
    rw [spend, epochs, openEpoch_calm (Or.inr after)]
    exact h.close hnothing

theorem tick_good (h : Good l) (input : TickInput) : Good (l.step (.tick input)) := by
  have hqueried := queried_step l (.tick input)
  change Good ⟨l.world.step (.tick input), l.baseline <|> baselineAt (l.world.step (.tick input)),
    (l.step (.tick input)).queried⟩
  generalize (l.step (.tick input)).queried = queried at hqueried ⊢
  simp only [World.step]
  split
  · rename_i p hproc hp
    have hbooks := h.books
    rw [hp] at hbooks
    split
    · exact h.same rfl hbooks (underway_calm (Or.inl rfl))
    · exact h.same rfl hbooks (underway_calm (Or.inl rfl))
  · exact h.stay rfl rfl rfl rfl hqueried

/-- One step keeps the invariant. -/
theorem step_good {s : Step} (h : Good l) (hok : Written l s ∧ Timely l s) : Good (l.step s) := by
  obtain ⟨hwritten, htimely⟩ := hok
  cases s with
  | insertSpend row => exact insert_good h hwritten htimely
  | tick input => exact tick_good h input
  | exec outcome now newId => exact exec_good h hwritten htimely
  | start cfg tie => exact h.same rfl (h.close htimely) (underway_calm (Or.inr rfl))
  | reauth => exact h.stay rfl rfl rfl rfl (queried_step l .reauth)

theorem init_good (store : OAuthBlob) (log : List LoggedRow) : Good (Watched.init store log) := by
  refine ⟨⟨List.nodup_nil, List.nodup_nil, ?_, ?_, ?_, ?_⟩, ?_, trivial⟩
  · intro r hr
    cases hr
  · intro r hr
    cases hr
  · intro e he
    cases he
  · intro b _ r hr
    cases hr
  · intro hnone
    exact Option.map_eq_none_iff.mp hnone

end Step

structure Grown (l l' : Watched) : Prop where
  rows : ∀ r ∈ l.world.spend, ∃ r' ∈ l'.world.spend, r'.id = r.id ∧ r'.atMs = r.atMs ∧
    ∀ epochId, r.epochId = some epochId → r'.epochId = some epochId
  epochs : ∀ e ∈ l.world.epochs, e ∈ l'.world.epochs
  baseline : ∀ b, l.baseline = some b → l'.baseline = some b

theorem Grown.refl (l : Watched) : Grown l l :=
  ⟨fun r hr => ⟨r, hr, rfl, rfl, fun _ h => h⟩, fun _ he => he, fun _ hb => hb⟩

theorem Grown.trans {a b c : Watched} (h : Grown a b) (h' : Grown b c) : Grown a c := by
  refine ⟨?_, fun e he => h'.epochs e (h.epochs e he), fun x hx => h'.baseline x (h.baseline x hx)⟩
  intro r hr
  obtain ⟨r1, hr1, hid1, hat1, hstamp1⟩ := h.rows r hr
  obtain ⟨r2, hr2, hid2, hat2, hstamp2⟩ := h'.rows r1 hr1
  refine ⟨r2, hr2, hid2.trans hid1, hat2.trans hat1, ?_⟩
  intro epochId hid
  exact hstamp2 epochId (hstamp1 epochId hid)

theorem Good.grown {l : Watched} (h : Good l) (s : Step) : Grown l (l.step s) := by
  have hbaseline : ∀ b, l.baseline = some b → (l.step s).baseline = some b := by
    intro b hb
    simp [Watched.step, hb]
  have hw : Wrote l.world (l.step s).world := step_wrote l.world s
  rcases hw with ⟨rows, epochs, hspend, hepochs⟩ | ⟨before, ⟨f, hs, hmap⟩, hepochs⟩
  · refine ⟨?_, ?_, hbaseline⟩
    · intro r hr
      exact ⟨r, hspend ▸ List.mem_append_left _ hr, rfl, rfl, fun _ h => h⟩
    · intro e he
      exact hepochs ▸ List.mem_append_left _ he
  · obtain ⟨epochAt, ho⟩ := h.open_of before
    refine ⟨?_, fun e he => hepochs ▸ he, hbaseline⟩
    intro r hr
    refine ⟨f r, hmap ▸ List.mem_map_of_mem hr, hs.id r, hs.atMs r, ?_⟩
    intro id hid
    rw [hs.epochId]
    split
    · rename_i htakes
      rw [ho.free r hr (takes_pending htakes)] at hid
      cases hid
    · exact hid

def Allowed (l : Watched) (s : Step) : Prop := Written l s ∧ Timely l s

/-- A run keeps the invariant and all that never goes away. -/
theorem run_good {l : Watched} (h : Good l) {is : List Step} (hok : Always Watched.step Allowed l is) :
    Good (run Watched.step l is) ∧ Grown l (run Watched.step l is) := by
  refine invariant_run (fun l' => Good l' ∧ Grown l l') ?_ ⟨h, Grown.refl l⟩ hok
  intro l' s hl' hs
  exact ⟨step_good hl'.1 hs, hl'.2.trans (hl'.1.grown s)⟩

end LaunchAuditor.Proofs.Epochs
