import LaunchAuditor.Report.Assemble

/-! What a batch leaves in the tables, whatever happens to its writes. -/

namespace LaunchAuditor.Report
open Chain Outcomes Scoring Db

/-- How many of `len` drafts, from the n-th, get into the table. -/
def storedCount (calls : PersistCalls) : (n len : Nat) → Nat
  | _, 0 => 0
  | n, len + 1 =>
    if (calls.upsert n).acknowledged then storedCount calls (n + 1) len + 1
    else if (calls.upsert n).applied then 1
    else 0

def storeAll (createdAt : Nat → Int) : Nat → List ReportDraft → WorkerDb → WorkerDb
  | _, [], db => db
  | n, d :: drafts, db => storeAll createdAt (n + 1) drafts (upsertReport d (createdAt n) db)

/-- The drafts that are stored are the first ones. -/
theorem upsertReports_state (calls : PersistCalls) (n : Nat) (drafts : List ReportDraft) (db : WorkerDb) :
    (upsertReports calls n drafts db).2 =
      storeAll calls.createdAt n (drafts.take (storedCount calls n drafts.length)) db := by
  induction drafts generalizing n db with
  | nil => rfl
  | cons d drafts ih =>
    rw [upsertReports, List.length_cons, storedCount]
    cases calls.upsert n with
    | done => exact ih (n + 1) _
    | refused e => rfl
    | unacknowledged e => rfl

theorem upsertReports_ok (calls : PersistCalls) (n : Nat) (drafts : List ReportDraft) (db : WorkerDb) :
    (upsertReports calls n drafts db).1 = .ok () ↔ ∀ i < drafts.length, (calls.upsert (n + i)).acknowledged = true := by
  induction drafts generalizing n db with
  | nil => simp [upsertReports]
  | cons d drafts ih =>
    have hsplit : (∀ i < (d :: drafts).length, (calls.upsert (n + i)).acknowledged = true) ↔
        (calls.upsert n).acknowledged = true ∧
          ∀ i < drafts.length, (calls.upsert (n + 1 + i)).acknowledged = true := by
      constructor
      · intro h
        refine ⟨h 0 (by simp), ?_⟩
        intro i hi
        have hnext := h (i + 1) (by simpa using hi)
        rwa [show n + (i + 1) = n + 1 + i by omega] at hnext
      · rintro ⟨hfirst, hrest⟩ i hi
        cases i with
        | zero => exact hfirst
        | succ i =>
          rw [show n + (i + 1) = n + 1 + i by omega]
          exact hrest i (by simpa using hi)
    rw [upsertReports, hsplit]
    cases calls.upsert n with
    | done => exact (ih (n + 1) _).trans (by simp [WriteEnd.acknowledged])
    | refused e => simp [WriteEnd.apply, WriteEnd.acknowledged]
    | unacknowledged e => simp [WriteEnd.apply, WriteEnd.acknowledged]

theorem storedCount_le (calls : PersistCalls) (n len : Nat) : storedCount calls n len ≤ len := by
  induction len generalizing n with
  | zero => exact Nat.le_refl 0
  | succ len ih =>
    have hrest := ih (n + 1)
    rw [storedCount]
    split
    · omega
    · split
      · omega
      · omega

/-- All three of three. -/
theorem storedCount_three {calls : PersistCalls} : storedCount calls 0 3 = 3 ↔
    (calls.upsert 0).acknowledged = true ∧ (calls.upsert 1).acknowledged = true ∧ (calls.upsert 2).applied = true := by
  simp only [storedCount]
  cases calls.upsert 0 <;> cases calls.upsert 1 <;> cases calls.upsert 2 <;>
    simp [WriteEnd.acknowledged, WriteEnd.applied]

/-- The columns of a row are those of its content. -/
structure Copied (r : Db.Report) : Prop where
  chainId : r.chainId = r.content.chainId
  tokenAddress : r.tokenAddress = r.content.tokenAddress
  reportTime : r.reportTime = r.content.reportTime
  trigger : r.trigger = r.content.trigger
  forecaster : r.forecaster = r.content.forecaster
  launchId : r.launchId = r.content.launchId

theorem newReport_copied (d : ReportDraft) (createdAt : Int) : Copied (newReport d createdAt) :=
  ⟨rfl, rfl, rfl, rfl, rfl, rfl⟩

section Upsert
variable {d : ReportDraft} {createdAt : Int} {db : WorkerDb} {r : Db.Report}

/-- A row is new, or it was there, with another validation perhaps. -/
theorem mem_upsertReport (h : r ∈ (upsertReport d createdAt db).reports) :
    r = newReport d createdAt ∨ ∃ old ∈ db.reports, ∃ passed, r = { old with validatorPassed := passed } := by
  unfold upsertReport at h
  dsimp only at h
  split at h
  · obtain ⟨old, hold, he⟩ := List.mem_map.mp h
    right
    refine ⟨old, hold, ?_⟩
    split at he
    · exact ⟨d.validatorPassed, he.symm⟩
    · exact ⟨old.validatorPassed, he.symm⟩
  · rcases List.mem_append.mp h with h | h
    · exact Or.inr ⟨r, h, r.validatorPassed, rfl⟩
    · exact Or.inl (List.mem_singleton.mp h)

theorem upsertReport_keeps (d : ReportDraft) (createdAt : Int) (h : r ∈ db.reports) :
    ∃ passed, { r with validatorPassed := passed } ∈ (upsertReport d createdAt db).reports := by
  unfold upsertReport
  dsimp only
  split
  · by_cases hr : r.content = d.content
    · exact ⟨d.validatorPassed, List.mem_map.mpr ⟨r, h, if_pos hr⟩⟩
    · exact ⟨r.validatorPassed, List.mem_map.mpr ⟨r, h, if_neg hr⟩⟩
  · exact ⟨r.validatorPassed, List.mem_append_left _ h⟩

theorem upsertReport_stores (d : ReportDraft) (createdAt : Int) (db : WorkerDb) :
    ∃ r ∈ (upsertReport d createdAt db).reports, r.content = d.content := by
  unfold upsertReport
  dsimp only
  split
  · rename_i hthere
    obtain ⟨old, hold, he⟩ := List.any_eq_true.mp hthere
    rw [decide_eq_true_eq] at he
    exact ⟨{ old with validatorPassed := d.validatorPassed }, List.mem_map.mpr ⟨old, hold, if_pos he⟩, he⟩
  · exact ⟨newReport d createdAt, by simp, rfl⟩

end Upsert

theorem upsertReport_copied {d : ReportDraft} {createdAt : Int} {db : WorkerDb} (h : ∀ r ∈ db.reports, Copied r) :
    ∀ r ∈ (upsertReport d createdAt db).reports, Copied r := by
  intro r hr
  rcases mem_upsertReport hr with rfl | ⟨old, hold, passed, rfl⟩
  · exact newReport_copied d createdAt
  · obtain ⟨h1, h2, h3, h4, h5, h6⟩ := h old hold
    exact ⟨h1, h2, h3, h4, h5, h6⟩

/-- What every upsert of a batch keeps, the batch keeps. -/
theorem storeAll_keeps (P : WorkerDb → Prop) (createdAt : Nat → Int) (n : Nat) {drafts : List ReportDraft}
    (hstep : ∀ d ∈ drafts, ∀ at_ db, P db → P (upsertReport d at_ db)) {db : WorkerDb} (h : P db) :
    P (storeAll createdAt n drafts db) := by
  induction drafts generalizing n db with
  | nil => exact h
  | cons d drafts ih =>
    exact ih (n + 1) (fun e he => hstep e (List.mem_cons_of_mem _ he)) (hstep d List.mem_cons_self _ db h)

theorem storeAll_launches (createdAt : Nat → Int) (n : Nat) (drafts : List ReportDraft) (db : WorkerDb) :
    (storeAll createdAt n drafts db).launches = db.launches :=
  storeAll_keeps (fun db' => db'.launches = db.launches) createdAt n (fun _ _ _ _ h => h) rfl

theorem storeAll_outcomes (createdAt : Nat → Int) (n : Nat) (drafts : List ReportDraft) (db : WorkerDb) :
    (storeAll createdAt n drafts db).outcomes = db.outcomes :=
  storeAll_keeps (fun db' => db'.outcomes = db.outcomes) createdAt n (fun _ _ _ _ h => h) rfl

theorem storeAll_features (createdAt : Nat → Int) (n : Nat) (drafts : List ReportDraft) (db : WorkerDb) :
    (storeAll createdAt n drafts db).features = db.features :=
  storeAll_keeps (fun db' => db'.features = db.features) createdAt n (fun _ _ _ _ h => h) rfl

/-- A report of the launch by the forecaster, of the trigger and for the time. -/
def HasReport (db : WorkerDb) (launchId : String) (trigger : ReportTrigger) (f : ForecasterKind) (t : Int) : Prop :=
  ∃ r ∈ db.reports, r.launchId = some launchId ∧ r.trigger = trigger ∧ r.forecaster = f ∧ r.reportTime = t

/-- Such is the report with this content. -/
def Names (c : ReportContent) (launchId : String) (trigger : ReportTrigger) (f : ForecasterKind) (t : Int) : Prop :=
  c.launchId = some launchId ∧ c.trigger = trigger ∧ c.forecaster = f ∧ c.reportTime = t

section Reports
variable {db : WorkerDb} {launchId : String} {trigger : ReportTrigger} {f : ForecasterKind} {t : Int}

theorem hasReport_upsert (hcopied : ∀ r ∈ db.reports, Copied r) (d : ReportDraft) (createdAt : Int) :
    HasReport (upsertReport d createdAt db) launchId trigger f t ↔
      HasReport db launchId trigger f t ∨ Names d.content launchId trigger f t := by
  constructor
  · rintro ⟨r, hr, hkey⟩
    rcases mem_upsertReport hr with rfl | ⟨old, hold, passed, rfl⟩
    · exact Or.inr hkey
    · exact Or.inl ⟨old, hold, hkey⟩
  · rintro (⟨r, hr, hkey⟩ | ⟨hlaunch, htrigger, hf, ht⟩)
    · obtain ⟨passed, hnew⟩ := upsertReport_keeps d createdAt hr
      exact ⟨_, hnew, hkey⟩
    · obtain ⟨r, hr, hcontent⟩ := upsertReport_stores d createdAt db
      have hr' := upsertReport_copied hcopied r hr
      exact ⟨r, hr, by rw [hr'.launchId, hcontent, hlaunch], by rw [hr'.trigger, hcontent, htrigger],
        by rw [hr'.forecaster, hcontent, hf], by rw [hr'.reportTime, hcontent, ht]⟩

theorem hasReport_storeAll (createdAt : Nat → Int) (n : Nat) (drafts : List ReportDraft)
    (hcopied : ∀ r ∈ db.reports, Copied r) :
    HasReport (storeAll createdAt n drafts db) launchId trigger f t ↔
      HasReport db launchId trigger f t ∨ ∃ d ∈ drafts, Names d.content launchId trigger f t := by
  induction drafts generalizing n db with
  | nil => simp [storeAll]
  | cons d drafts ih =>
    rw [storeAll, ih (n + 1) (upsertReport_copied hcopied), hasReport_upsert hcopied, or_assoc, List.exists_mem_cons_iff]

end Reports

/-- The outcome rows of the grid for an anchor. -/
def HasGrid (db : WorkerDb) (chainId : Nat) (token : Address) (t : Int) : Prop :=
  ∀ key ∈ ALL_OUTCOME_KEYS, ∃ o ∈ db.outcomes,
    outcomeKeyOf o.toOutcomeRow = (chainId, token, t, key.label, key.horizon, "v1")

section Grid
variable {db : WorkerDb} {chainId : Nat} {token : Address} {t : Int}

theorem HasGrid.mono {db' : WorkerDb} (h : HasGrid db chainId token t) (hsub : ∀ o ∈ db.outcomes, o ∈ db'.outcomes) :
    HasGrid db' chainId token t := by
  intro key hkey
  obtain ⟨o, ho, he⟩ := h key hkey
  exact ⟨o, hsub o ho, he⟩

theorem createOutcomes_reports (rows : List Outcome) (db : WorkerDb) :
    (createOutcomes rows db).reports = db.reports := rfl

theorem createOutcomes_mem {rows : List Outcome} {o : Outcome} (h : o ∈ db.outcomes) :
    o ∈ (createOutcomes rows db).outcomes := Keyed.foldl_push_mem h

theorem mem_createOutcomes {rows : List Outcome} {o : Outcome} (h : o ∈ (createOutcomes rows db).outcomes) :
    o ∈ db.outcomes ∨ o ∈ rows := Keyed.mem_of_mem_foldl_push h

theorem createOutcomes_key {rows : List Outcome} {o : Outcome} (h : o ∈ rows) :
    ∃ p ∈ (createOutcomes rows db).outcomes, outcomeKeyOf p.toOutcomeRow = outcomeKeyOf o.toOutcomeRow :=
  Keyed.foldl_push_key h

theorem createOutcomes_grid (input : EnsureOutcomeInput) (outcomeId : OutcomeKey → String) (db : WorkerDb) :
    HasGrid (createOutcomes (ALL_OUTCOME_KEYS.map (outcomeRow input outcomeId)) db) input.chainId input.tokenAddress
      input.reportTime := by
  intro key hkey
  have hrow : outcomeRow input outcomeId key ∈ ALL_OUTCOME_KEYS.map (outcomeRow input outcomeId) :=
    List.mem_map_of_mem hkey
  exact createOutcomes_key hrow

/-- Rows for one anchor do not complete the grid of another. -/
theorem createOutcomes_other {input : EnsureOutcomeInput} {outcomeId : OutcomeKey → String}
    (ht : t ≠ input.reportTime)
    (h : HasGrid (createOutcomes (ALL_OUTCOME_KEYS.map (outcomeRow input outcomeId)) db) chainId token t) :
    HasGrid db chainId token t := by
  intro key hkey
  obtain ⟨o, ho, he⟩ := h key hkey
  rcases mem_createOutcomes ho with ho | ho
  · exact ⟨o, ho, he⟩
  · obtain ⟨key', _, rfl⟩ := List.mem_map.mp ho
    exact absurd (congrArg (fun k => k.2.2.1) he).symm ht

end Grid

/-- Whatever happens, the first drafts are stored, with rows of the grid perhaps. -/
theorem persist_rows (calls : PersistCalls) (drafts : List ReportDraft) (db : WorkerDb) :
    ∃ rows, (∀ o ∈ rows, ⟨o.label, o.horizon⟩ ∈ ALL_OUTCOME_KEYS) ∧ (persistLaunchReports calls drafts db).2 =
      createOutcomes rows (storeAll calls.createdAt 0 (drafts.take (storedCount calls 0 drafts.length)) db) := by
  rw [← upsertReports_state]
  unfold persistLaunchReports
  generalize upsertReports calls 0 drafts db = upserted
  obtain ⟨res, db'⟩ := upserted
  have hnone : ∀ o ∈ ([] : List Outcome), (⟨o.label, o.horizon⟩ : OutcomeKey) ∈ ALL_OUTCOME_KEYS := fun o ho => nomatch ho
  have hgrid : ∃ rows, (∀ o ∈ rows, ⟨o.label, o.horizon⟩ ∈ ALL_OUTCOME_KEYS) ∧
      (ensureGrid calls drafts db').2 = createOutcomes rows db' := by
    unfold ensureGrid
    split
    · exact ⟨[], hnone, rfl⟩
    · split
      · exact ⟨[], hnone, rfl⟩
      · split
        · exact ⟨[], hnone, rfl⟩
        · split
          · exact ⟨[], hnone, rfl⟩
          · rcases WriteEnd.apply_state calls.createMany (createOutcomes _) db' with h | h
            · exact ⟨[], hnone, h⟩
            · refine ⟨_, ?_, h⟩
              intro o ho
              obtain ⟨key, hkey, rfl⟩ := List.mem_map.mp ho
              exact hkey
  cases res with
  | error e => exact ⟨[], hnone, rfl⟩
  | ok _ =>
    obtain ⟨rows, hkeys, hrows⟩ := hgrid
    refine ⟨rows, hkeys, ?_⟩
    dsimp only
    rw [← hrows]
    generalize ensureGrid calls drafts db' = grid
    obtain ⟨res, after⟩ := grid
    cases res with
    | error e => rfl
    | ok _ => rfl

theorem persist_cases (calls : PersistCalls) (drafts : List ReportDraft) (db : WorkerDb) :
    ∃ rows, (persistLaunchReports calls drafts db).2 = createOutcomes rows
      (storeAll calls.createdAt 0 (drafts.take (storedCount calls 0 drafts.length)) db) := by
  obtain ⟨rows, _, hrows⟩ := persist_rows calls drafts db
  exact ⟨rows, hrows⟩

/-- Whether the last of the writes of a batch, that of its outcome rows, gets done. -/
def gridWritten (calls : PersistCalls) (len : Nat) : Prop :=
  (∀ i < len, (calls.upsert i).acknowledged = true) ∧ calls.findLaunch = none ∧ calls.createMany.applied = true

def gridInput (launch : Launch) (content : ReportContent) : EnsureOutcomeInput :=
  ⟨content.chainId, content.tokenAddress, content.reportTime, content.trigger, content.launchId,
    launch.lpLockedByConstruction, launch.retrospective⟩

/-- The first drafts are stored, and after all of them, the outcome rows perhaps. -/
theorem persist_state (calls : PersistCalls) (first : ReportDraft) (drafts : List ReportDraft) {db : WorkerDb}
    {launch : Launch} (hid : first.content.launchId = some launch.id) (hlaunch : db.launch launch.id = some launch) :
    let stored := storeAll calls.createdAt 0
      ((first :: drafts).take (storedCount calls 0 (first :: drafts).length)) db
    (gridWritten calls (first :: drafts).length ∧ (persistLaunchReports calls (first :: drafts) db).2 =
        createOutcomes (ALL_OUTCOME_KEYS.map (outcomeRow (gridInput launch first.content) calls.outcomeId)) stored) ∨
      (¬ gridWritten calls (first :: drafts).length ∧ (persistLaunchReports calls (first :: drafts) db).2 = stored) := by
  intro stored
  have hstate := upsertReports_state calls 0 (first :: drafts) db
  have hok := upsertReports_ok calls 0 (first :: drafts) db
  simp only [Nat.zero_add] at hok
  unfold persistLaunchReports gridWritten
  rw [← hok]
  generalize upsertReports calls 0 (first :: drafts) db = upserted at hstate
  obtain ⟨res, db'⟩ := upserted
  obtain rfl : db' = stored := hstate
  cases res with
  | error e => exact Or.inr ⟨by simp, rfl⟩
  | ok _ =>
    have hlaunch' : (stored : WorkerDb).launch launch.id = some launch := by
      rw [WorkerDb.launch, storeAll_launches]
      exact hlaunch
    unfold ensureGrid
    dsimp only
    rw [hid]
    dsimp only
    cases calls.findLaunch with
    | some e => exact Or.inr ⟨by simp, rfl⟩
    | none =>
      dsimp only
      rw [hlaunch']
      unfold ensureOutcomeRows gridInput
      rw [hid]
      cases calls.createMany with
      | done => exact Or.inl ⟨by simp [WriteEnd.applied], rfl⟩
      | refused e => exact Or.inr ⟨by simp [WriteEnd.applied], rfl⟩
      | unacknowledged e => exact Or.inl ⟨by simp [WriteEnd.applied], rfl⟩

end LaunchAuditor.Report
