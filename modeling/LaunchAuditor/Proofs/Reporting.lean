import LaunchAuditor.Proofs.Job

namespace LaunchAuditor.Proofs.Reporting
open Chain Outcomes Scoring Db Watcher Report Pipeline

/-- The reports of the T+10m job are there, with their outcome rows. -/
def Reported (db : WorkerDb) (l : Launch) : Prop :=
  ∃ t, (∀ f ∈ DETERMINISTIC, HasReport db l.id .launch f t) ∧ HasGrid db l.chainId l.tokenAddress t

/-- `t10ComputedAt` is set. -/
def Marked (db : WorkerDb) (launchId : String) : Prop :=
  ∃ f, db.feature launchId = some f ∧ f.t10ComputedAt.isSome = true

/-- What has to go well after the transaction. -/
def Completes (cfg : ChainConfig) (build : BuildCalls) (persist : PersistCalls) (l : Launch) (db : WorkerDb) : Prop :=
  ∃ block, (build.findLaunch = none ∧ build.countMembers = none ∧
      build.getBlock (l.launchBlock + blocksIn10m cfg) = .ok block) ∧
    ((persist.upsert 0).acknowledged = true ∧ (persist.upsert 1).acknowledged = true ∧
      (persist.upsert 2).applied = true) ∧
    (HasGrid db l.chainId l.tokenAddress (block.timestamp * 1000) ∨ gridWritten persist 3)

variable {cfg : ChainConfig} {env : T10Env} {calls : T10Calls} {db db' : WorkerDb} {l l' : Launch}

structure Grows (db db' : WorkerDb) : Prop where
  reports : ∀ id trigger f t, HasReport db id trigger f t → HasReport db' id trigger f t
  outcomes : ∀ chainId token t, HasGrid db chainId token t → HasGrid db' chainId token t

theorem Grows.of_eq (hreports : db'.reports = db.reports) (houtcomes : db'.outcomes = db.outcomes) : Grows db db' where
  reports := fun _ _ _ _ h => (hasReport_congr hreports).mpr h
  outcomes := fun _ _ _ h => h.mono fun o ho => by rwa [houtcomes]

theorem Grows.trans {db'' : WorkerDb} (h : Grows db db') (h' : Grows db' db'') : Grows db db'' where
  reports := fun id trigger f t hr => h'.reports id trigger f t (h.reports id trigger f t hr)
  outcomes := fun chainId token t ho => h'.outcomes chainId token t (h.outcomes chainId token t ho)

theorem Moved.grows (h : Moved db db') : Grows db db' := Grows.of_eq h.reports h.outcomes

theorem Reported.grows (h : Reported db l) (hgrows : Grows db db') (hkept : Kept l l') : Reported db' l' := by
  obtain ⟨t, hreports, hgrid⟩ := h
  refine ⟨t, ?_, ?_⟩
  · intro f hf
    rw [hkept.id]
    exact hgrows.reports l.id .launch f t (hreports f hf)
  · rw [hkept.chainId, hkept.tokenAddress]
    exact hgrows.outcomes l.chainId l.tokenAddress t hgrid

theorem Completes.congr {build : BuildCalls} {persist : PersistCalls} (houtcomes : db'.outcomes = db.outcomes)
    (hkept : Kept l l') : Completes cfg build persist l' db' ↔ Completes cfg build persist l db := by
  unfold Completes HasGrid
  rw [hkept.chainId, hkept.tokenAddress, hkept.launchBlock, houtcomes]

theorem persist_grows (calls : PersistCalls) (drafts : List ReportDraft) (h : Consistent db) :
    Grows db (persistLaunchReports calls drafts db).2 := by
  obtain ⟨rows, he⟩ := persist_cases calls drafts db
  rw [he]
  constructor
  · intro id trigger f t hr
    have hstored := (hasReport_storeAll calls.createdAt 0
      (drafts.take (storedCount calls 0 drafts.length)) h.copied).mpr (Or.inl hr)
    exact (hasReport_congr (createOutcomes_reports rows _)).mpr hstored
  · intro chainId token t hgrid
    apply hgrid.mono
    intro o ho
    apply createOutcomes_mem
    rwa [storeAll_outcomes]

theorem reportLaunch_grows (h : Consistent db) (env : ReportEnv) (build : BuildCalls) (persist : PersistCalls)
    (launchId : String) : Grows db (reportLaunch cfg env build persist launchId db) := by
  unfold reportLaunch
  split
  · exact Grows.of_eq rfl rfl
  · exact persist_grows persist _ h

theorem applied_of_acknowledged {w : WriteEnd} (h : w.acknowledged = true) : w.applied = true := by
  cases w with
  | done => rfl
  | refused e => cases h
  | unacknowledged e => cases h

/-- What a batch of drafts adds. -/
theorem persist_adds (h : Consistent db) (hl : l ∈ db.launches) (env : ReportEnv) (persist : PersistCalls)
    (inputs : FeatureInputs) (block : Block) :
    let after := (persistLaunchReports persist (launchDrafts env l .launch inputs block) db).2
    (∀ f t, HasReport after l.id .launch f t ↔ HasReport db l.id .launch f t ∨
      t = block.timestamp * 1000 ∧ f ∈ DETERMINISTIC.take (storedCount persist 0 3)) ∧
    ∀ t, HasGrid after l.chainId l.tokenAddress t ↔ HasGrid db l.chainId l.tokenAddress t ∨
      t = block.timestamp * 1000 ∧ gridWritten persist 3 := by
  intro after
  obtain ⟨first, rest, hdrafts, hfirst, hrest⟩ : ∃ first rest, launchDrafts env l .launch inputs block = first :: rest ∧
      (∃ fc, first.content = launchContent l .launch (coverageOf inputs) block fc) ∧ rest.length = 2 :=
    ⟨_, _, rfl, ⟨_, rfl⟩, rfl⟩
  obtain ⟨fc, hcontent⟩ := hfirst
  have hid : first.content.launchId = some l.id := by rw [hcontent]; rfl
  have hstate := persist_state persist first rest hid (h.launch_eq hl)
  have hlen : (first :: rest).length = 3 := by rw [List.length_cons, hrest]
  have hstored : ∀ f t, HasReport (storeAll persist.createdAt 0 ((first :: rest).take (storedCount persist 0 3)) db)
      l.id .launch f t ↔ HasReport db l.id .launch f t ∨
        t = block.timestamp * 1000 ∧ f ∈ DETERMINISTIC.take (storedCount persist 0 3) := by
    intro f t
    rw [hasReport_storeAll _ _ _ h.copied, ← hdrafts, names_launchDrafts]
    simp
  have houtcomes := storeAll_outcomes persist.createdAt 0 ((first :: rest).take (storedCount persist 0 3)) db
  have hafter : after = (persistLaunchReports persist (first :: rest) db).2 := by rw [← hdrafts]
  rw [hafter]
  rw [hlen] at hstate
  generalize storeAll persist.createdAt 0 ((first :: rest).take (storedCount persist 0 3)) db = stored
    at hstate hstored houtcomes
  have hgrid : ∀ chainId token t, HasGrid stored chainId token t ↔ HasGrid db chainId token t := by
    intro chainId token t
    unfold HasGrid
    rw [houtcomes]
  rcases hstate with ⟨hw, he⟩ | ⟨hw, he⟩
  · rw [he]
    refine ⟨fun f t => (hasReport_congr (createOutcomes_reports _ stored)).trans (hstored f t), ?_⟩
    intro t
    have hwritten := createOutcomes_grid (gridInput l first.content) persist.outcomeId stored
    have htime : (gridInput l first.content).reportTime = block.timestamp * 1000 := by
      change first.content.reportTime = _
      rw [hcontent]
      rfl
    by_cases ht : t = block.timestamp * 1000
    · have hkey : (gridInput l first.content).chainId = l.chainId ∧
          (gridInput l first.content).tokenAddress = l.tokenAddress := by
        change first.content.chainId = _ ∧ first.content.tokenAddress = _
        rw [hcontent]
        exact ⟨rfl, rfl⟩
      rw [htime, hkey.1, hkey.2, ← ht] at hwritten
      exact iff_of_true hwritten (Or.inr ⟨ht, hw⟩)
    · simp only [ht, false_and, or_false]
      rw [← hgrid]
      constructor
      · exact createOutcomes_other (by rw [htime]; exact ht)
      · exact fun hold => hold.mono fun o ho => createOutcomes_mem ho
  · rw [he]
    refine ⟨hstored, ?_⟩
    intro t
    rw [hgrid]
    simp [hw]

/-- One batch of drafts, of which the first ones are stored. -/
theorem persist_reported (h : Invariant db) (hl : l ∈ db.launches) (env : ReportEnv) (persist : PersistCalls)
    (inputs : FeatureInputs) (block : Block) :
    Reported (persistLaunchReports persist (launchDrafts env l .launch inputs block) db).2 l ↔
      Reported db l ∨ ((persist.upsert 0).acknowledged = true ∧ (persist.upsert 1).acknowledged = true ∧
        (persist.upsert 2).applied = true) ∧
        (HasGrid db l.chainId l.tokenAddress (block.timestamp * 1000) ∨ gridWritten persist 3) := by
  obtain ⟨hreports, hgrids⟩ := persist_adds h.1 hl env persist inputs block
  constructor
  · rintro ⟨t, hall, hgrid⟩
    rw [hgrids] at hgrid
    by_cases hdb : ∀ f ∈ DETERMINISTIC, HasReport db l.id .launch f t
    · rcases hgrid with hgrid | ⟨rfl, hw⟩
      · exact Or.inl ⟨t, hdb, hgrid⟩
      · refine Or.inr ⟨⟨hw.1 0 (by omega), hw.1 1 (by omega), ?_⟩, Or.inr hw⟩
        exact applied_of_acknowledged (hw.1 2 (by omega))
    · -- the last report was not there, and so it is stored
      rcases (hreports .det_v0_1 t).mp (hall .det_v0_1 (by decide)) with hlast | ⟨rfl, hlast⟩
      · obtain ⟨hfirst, hsecond⟩ := h.2 l.id .launch t hlast
        refine absurd ?_ hdb
        intro f hf
        simp only [DETERMINISTIC, List.mem_cons, List.not_mem_nil, or_false] at hf
        rcases hf with rfl | rfl | rfl
        · exact hfirst
        · exact hsecond
        · exact hlast
      · have hthree : storedCount persist 0 3 = 3 :=
          Nat.le_antisymm (storedCount_le persist 0 3) (last_mem_take hlast)
        exact Or.inr ⟨storedCount_three.mp hthree, hgrid.imp_right fun hw => hw.2⟩
  · rintro (hdb | ⟨hstored, hgrid⟩)
    · exact hdb.grows (persist_grows persist _ h.1) (Kept.refl l)
    · refine ⟨block.timestamp * 1000, ?_, ?_⟩
      · intro f hf
        rw [hreports, storedCount_three.mpr hstored]
        exact Or.inr ⟨rfl, hf⟩
      · rw [hgrids]
        exact hgrid.imp_right fun hw => ⟨rfl, hw⟩

theorem persist_tables (calls : PersistCalls) (drafts : List ReportDraft) (db : WorkerDb) :
    (persistLaunchReports calls drafts db).2.launches = db.launches ∧
      (persistLaunchReports calls drafts db).2.features = db.features := by
  obtain ⟨rows, he⟩ := persist_cases calls drafts db
  rw [he]
  exact ⟨storeAll_launches _ _ _ db, storeAll_features _ _ _ db⟩

theorem reportLaunch_tables (cfg : ChainConfig) (env : ReportEnv) (build : BuildCalls) (persist : PersistCalls)
    (launchId : String) (db : WorkerDb) :
    (reportLaunch cfg env build persist launchId db).launches = db.launches ∧
      (reportLaunch cfg env build persist launchId db).features = db.features := by
  unfold reportLaunch
  split
  · exact ⟨rfl, rfl⟩
  · exact persist_tables persist _ db

theorem reportLaunch_reported (cfg : ChainConfig) (h : Invariant db) (hl : l ∈ db.launches) (env : ReportEnv)
    (build : BuildCalls) (persist : PersistCalls) :
    Reported (reportLaunch cfg env build persist l.id db) l ↔ Reported db l ∨ Completes cfg build persist l db := by
  unfold reportLaunch
  rcases buildLaunchReports_cases cfg env build .launch (h.1.launch_eq hl) with
    ⟨block, inputs, hbuilt, hok⟩ | ⟨hnone, e, herror⟩
  · rw [hok]
    refine (persist_reported h hl env persist inputs block).trans (or_congr_right ?_)
    constructor
    · exact fun hstored => ⟨block, hbuilt, hstored⟩
    · rintro ⟨block', hbuilt', hstored⟩
      obtain rfl := Except.ok.inj (hbuilt.2.2.symm.trans hbuilt'.2.2)
      exact hstored
  · rw [herror]
    constructor
    · exact Or.inl
    · rintro (hdb | ⟨block, hbuilt, _⟩)
      · exact hdb
      · exact absurd ⟨block, hbuilt⟩ hnone

/-- The job comes to its transaction with a whole cluster, and the transaction is done. -/
def Marks (cfg : ChainConfig) (env : T10Env) (calls : T10Calls) (launchId : String) (db : WorkerDb) : Prop :=
  ∃ row, (prepareT10 cfg env calls launchId db).1 = .ok (some row) ∧ row.cluster.partialRules = [] ∧
    calls.transaction.applied = true

theorem reported_kept (hkept : Kept l l') : Reported db l' ↔ Reported db l := by
  unfold Reported
  rw [hkept.id, hkept.chainId, hkept.tokenAddress]

/-- What a job changes beside the reports of its launch. -/
structure Frame (launchId : String) (db db' : WorkerDb) : Prop where
  launches : SameLaunches db db'
  features : ∀ id, id ≠ launchId → db'.feature id = db.feature id
  grows : Grows db db'

theorem feature_congr (h : db'.features = db.features) (id : String) : db'.feature id = db.feature id := by
  unfold WorkerDb.feature
  rw [h]

theorem Moved.frame (h : Moved db db') (launchId : String) : Frame launchId db db' :=
  ⟨h.launches, fun id _ => feature_congr h.features id, Moved.grows h⟩

theorem Frame.trans {launchId : String} {db'' : WorkerDb} (h : Frame launchId db db') (h' : Frame launchId db' db'') :
    Frame launchId db db'' :=
  ⟨h.launches.trans h'.launches, fun id hne => (h'.features id hne).trans (h.features id hne), h.grows.trans h'.grows⟩

theorem storeT10_frame (now : Int) (launchId : String) (row : T10Row) (db : WorkerDb) :
    Frame launchId db (storeT10 now launchId row db) := by
  refine ⟨storeT10_launches now row, ?_, Grows.of_eq (storeT10_reports now row) (storeT10_outcomes now row)⟩
  intro id hne
  rw [storeT10_feature]
  cases hf : db.feature id with
  | none => rfl
  | some f =>
    have hid : f.launchId = id := by simpa using List.find?_some hf
    rw [Option.map_some, if_neg (by rw [hid]; exact hne)]

theorem reportLaunch_frame (h : Consistent db) (env : ReportEnv) (build : BuildCalls) (persist : PersistCalls)
    (launchId : String) : Frame launchId db (reportLaunch cfg env build persist launchId db) := by
  obtain ⟨hlaunches, hfeatures⟩ := reportLaunch_tables cfg env build persist launchId db
  exact ⟨SameLaunches.of_eq hlaunches, fun id _ => feature_congr hfeatures id,
    reportLaunch_grows h env build persist launchId⟩

theorem runT10_frame (h : Invariant db) (hl : l ∈ db.launches) :
    Frame l.id db (runT10ForLaunch cfg env calls l.id db).2 := by
  have hmoved : Moved db (prepareT10 cfg env calls l.id db).2 := prepareT10_moved h.1
  have hframe := Moved.frame hmoved l.id
  rcases runT10_cases cfg env calls h.1 (h.1.launch_eq hl) with
    ⟨_, he⟩ | ⟨row, _, ⟨_, he⟩ | ⟨_, _, he⟩ | ⟨_, _, _, he⟩⟩
  · rw [he]
    exact hframe
  · rw [he]
    exact hframe
  · rw [he]
    exact hframe.trans (storeT10_frame calls.now l.id row _)
  · rw [he]
    have hstored : Invariant (storeT10 calls.now l.id row _) := storeT10_invariant calls.now row (hmoved.invariant h)
    exact (hframe.trans (storeT10_frame calls.now l.id row _)).trans
      (reportLaunch_frame hstored.1 env.report calls.build calls.persist l.id)

theorem reported_congr (hreports : db'.reports = db.reports) (houtcomes : db'.outcomes = db.outcomes) :
    Reported db' l ↔ Reported db l := by
  unfold Reported HasReport HasGrid
  rw [hreports, houtcomes]

theorem marked_congr (h : db'.features = db.features) (id : String) : Marked db' id ↔ Marked db id := by
  unfold Marked
  rw [feature_congr h]

/-- The transaction sets the mark for a whole cluster, and takes it away for another. -/
theorem storeT10_marked (h : Consistent db) (hl : l ∈ db.launches) {id : String} (hid : l.id = id) (now : Int)
    (row : T10Row) : Marked (storeT10 now id row db) id ↔ row.cluster.partialRules = [] := by
  obtain ⟨f, hf⟩ := h.feature_isSome hl
  rw [hid] at hf
  have hfeature : f.launchId = id := by simpa using List.find?_some hf
  unfold Marked
  rw [storeT10_feature, hf, Option.map_some, if_pos hfeature, ← writeT10_marked now row f]
  constructor
  · rintro ⟨f', hf', hmarked⟩
    rwa [Option.some.inj hf']
  · exact fun hmarked => ⟨_, rfl, hmarked⟩

/-- A job that sets the mark, and what is reported then. -/
theorem runT10_marks (h : Invariant db) (hl : l ∈ db.launches) (hmarks : Marks cfg env calls l.id db) :
    Marked (runT10ForLaunch cfg env calls l.id db).2 l.id ∧
      (Reported (runT10ForLaunch cfg env calls l.id db).2 l ↔ Reported db l ∨
        calls.transaction.acknowledged = true ∧ Completes cfg calls.build calls.persist l db) := by
  have hmoved : Moved db (prepareT10 cfg env calls l.id db).2 := prepareT10_moved h.1
  have hprepared := hmoved.invariant h
  obtain ⟨row, hrow, hwhole, happlied⟩ := hmarks
  obtain ⟨l', hl', hkept⟩ := hmoved.launches.forward hl
  have hmarked := storeT10_marked hprepared.1 hl' hkept.id calls.now row
  have hreports : (storeT10 calls.now l.id row (prepareT10 cfg env calls l.id db).2).reports = db.reports :=
    (storeT10_reports calls.now row).trans hmoved.reports
  have houtcomes : (storeT10 calls.now l.id row (prepareT10 cfg env calls l.id db).2).outcomes = db.outcomes :=
    (storeT10_outcomes calls.now row).trans hmoved.outcomes
  rcases runT10_cases cfg env calls h.1 (h.1.launch_eq hl) with
    ⟨hno, _⟩ | ⟨row', hrow', ⟨hrefused, _⟩ | ⟨_, hno, he⟩ | ⟨_, hack, _, he⟩⟩
  · exact absurd hrow (hno row)
  · rw [happlied] at hrefused
    cases hrefused
  · obtain rfl := Option.some.inj (Except.ok.inj (hrow.symm.trans hrow'))
    rw [he]
    refine ⟨hmarked.mpr hwhole, (reported_congr hreports houtcomes).trans ?_⟩
    constructor
    · exact Or.inl
    · rintro (hdb | ⟨hack, _⟩)
      · exact hdb
      · exact absurd ⟨hack, hwhole⟩ hno
  · obtain rfl := Option.some.inj (Except.ok.inj (hrow.symm.trans hrow'))
    rw [he]
    dsimp only
    refine ⟨(marked_congr (reportLaunch_tables _ _ _ _ _ _).2 l.id).mpr (hmarked.mpr hwhole), ?_⟩
    have hstored : Invariant (storeT10 calls.now l.id row (prepareT10 cfg env calls l.id db).2) :=
      storeT10_invariant calls.now row hprepared
    have hsame : SameLaunches _ (storeT10 calls.now l.id row (prepareT10 cfg env calls l.id db).2) :=
      storeT10_launches calls.now row
    obtain ⟨l2, hl2, hkept2⟩ := hsame.forward hl'
    have hboth := hkept.trans hkept2
    have hafter := reportLaunch_reported cfg hstored hl2 env.report calls.build calls.persist
    rw [hboth.id, reported_kept hboth, reported_kept hboth, reported_congr hreports houtcomes,
      Completes.congr houtcomes hboth] at hafter
    exact hafter.trans (or_congr_right ⟨fun hc => ⟨hack, hc⟩, fun hc => hc.2⟩)

/-- Another job leaves the mark of its launch as it was, or takes it away. -/
theorem runT10_unmarked (h : Invariant db) (hl : l ∈ db.launches) (hmarks : ¬ Marks cfg env calls l.id db)
    (hmarked : Marked (runT10ForLaunch cfg env calls l.id db).2 l.id) : Marked db l.id := by
  have hmoved : Moved db (prepareT10 cfg env calls l.id db).2 := prepareT10_moved h.1
  rcases runT10_cases cfg env calls h.1 (h.1.launch_eq hl) with
    ⟨_, he⟩ | ⟨row, hrow, ⟨_, he⟩ | ⟨happlied, _, he⟩ | ⟨happlied, _, hwhole, _⟩⟩
  · rw [he] at hmarked
    exact (marked_congr hmoved.features l.id).mp hmarked
  · rw [he] at hmarked
    exact (marked_congr hmoved.features l.id).mp hmarked
  · rw [he] at hmarked
    obtain ⟨l', hl', hkept⟩ := hmoved.launches.forward hl
    rw [storeT10_marked (hmoved.invariant h).1 hl' hkept.id calls.now row] at hmarked
    exact absurd ⟨row, hrow, hmarked, happlied⟩ hmarks
  · exact absurd ⟨row, hrow, hwhole, happlied⟩ hmarks

/-- The lookups the job does not go without are answered, and every write is acknowledged. -/
structure Clean (calls : T10Calls) : Prop where
  findLaunch : calls.findLaunch = none
  cluster : ∀ rule f, ∃ logs, calls.cluster rule f = .ok logs
  findFeature : calls.findFeature = none
  updateTokenAge : calls.updateTokenAge = .done
  findLaunches : calls.creator.findLaunches = none
  findOutcomes : calls.creator.findOutcomes = none
  feature9 : ∃ f9, calls.feature9 = .ok f9
  transaction : calls.transaction = .done
  buildLaunch : calls.build.findLaunch = none
  countMembers : calls.build.countMembers = none
  getBlock : ∀ n, ∃ block, calls.build.getBlock n = .ok block
  upsert : ∀ n, calls.persist.upsert n = .done
  persistLaunch : calls.persist.findLaunch = none
  createMany : calls.persist.createMany = .done

/-- Of a chain without logs. -/
def answered : T10Calls where
  findLaunch := none
  getBlockNumber := .ok 7000
  pick := ⟨none, ⟨fun _ _ => .ok [], fun _ _ => .ok []⟩, fun _ _ _ => .ok []⟩
  updatePool := .done
  buys := fun _ => .ok []
  cluster := fun _ _ => .ok []
  findFeature := none
  getCode := fun _ _ => .ok none
  updateTokenAge := .done
  creator := ⟨fun _ => .ok 0, none, none⟩
  transfers := fun _ => .ok []
  totalSupply := .ok 1000000
  sidePools := ⟨fun _ _ => .ok [], fun _ _ => .ok []⟩
  approvals := fun _ _ => .ok []
  feature9 := .ok ⟨none, none, none, none, none, none, none, none, none, none, none, none, none, none⟩
  transaction := .done
  now := 1700000
  build := ⟨none, none, fun n => .ok ⟨n, 5#256, 1600⟩⟩
  persist := ⟨fun _ => .done, fun _ => 1700000, none, .done, fun key => key.horizon⟩

example : Clean answered where
  findLaunch := rfl
  cluster := fun _ _ => ⟨[], rfl⟩
  findFeature := rfl
  updateTokenAge := rfl
  findLaunches := rfl
  findOutcomes := rfl
  feature9 := ⟨_, rfl⟩
  transaction := rfl
  buildLaunch := rfl
  countMembers := rfl
  getBlock := fun _ => ⟨_, rfl⟩
  upsert := fun _ => rfl
  persistLaunch := rfl
  createMany := rfl

/-- Whatever is in the tables, another job finishes the launch. -/
def Rerunnable (cfg : ChainConfig) (env : T10Env) (db : WorkerDb) (l : Launch) : Prop :=
  ∀ calls, Clean calls →
    (runT10ForLaunch cfg env calls l.id db).1 = .ok () ∧ Marked (runT10ForLaunch cfg env calls l.id db).2 l.id ∧
      Reported (runT10ForLaunch cfg env calls l.id db).2 l

theorem storeTokenAge_clean (cfg : ChainConfig) (hc : Clean calls) (l : Launch) (db : WorkerDb) :
    (storeTokenAge cfg calls l db).1 = .ok () := by
  unfold storeTokenAge
  rw [hc.updateTokenAge]
  split
  · rfl
  · dsimp only
    split
    · rfl
    · rfl

theorem computeCreatorContext_clean (hc : Clean calls) (p : CreatorContextParams) :
    ∃ creatorCtx, computeCreatorContext calls.creator p db = .ok creatorCtx := by
  unfold computeCreatorContext
  rw [hc.findLaunches, hc.findOutcomes]
  dsimp only
  split
  · exact ⟨_, rfl⟩
  · exact ⟨_, rfl⟩

theorem computeRow_clean (cfg : ChainConfig) (env : T10Env) (hc : Clean calls) (l : Launch) (liquiditySource : Address)
    (db : WorkerDb) :
    ∃ row, (computeRow cfg env calls l liquiditySource db).1 = .ok row ∧ row.cluster.partialRules = [] := by
  have hfunder : ∀ addr, ∃ funder, (clusterParams cfg env calls l liquiditySource).firstFunder addr = .ok funder :=
    fun addr => ⟨none, rfl⟩
  obtain ⟨cluster, hcluster, hwhole⟩ := buildCreatorCluster_ok hc.cluster env.maxRange_pos hfunder
  obtain ⟨f9, hf9⟩ := hc.feature9
  have hage := storeTokenAge_clean cfg hc l db
  unfold computeRow
  rw [hcluster, hc.findFeature, hf9]
  dsimp only
  generalize storeTokenAge cfg calls l db = stored at hage
  obtain ⟨res, after⟩ := stored
  obtain rfl : res = .ok () := hage
  dsimp only
  obtain ⟨creatorCtx, hctx⟩ := computeCreatorContext_clean hc (creatorParams cfg l after)
  rw [hctx]
  dsimp only
  split
  · exact ⟨_, rfl, hwhole⟩
  · exact ⟨_, rfl, hwhole⟩

theorem prepareT10_clean (cfg : ChainConfig) (env : T10Env) (h : Consistent db) (hl : l ∈ db.launches) (hc : Clean calls) :
    ∃ row, (prepareT10 cfg env calls l.id db).1 = .ok (some row) ∧ row.cluster.partialRules = [] := by
  obtain ⟨hkept, _⟩ := checkPrimaryPool_moved cfg env calls h hl
  have hsource := hkept.source (h.sources l hl)
  unfold prepareT10
  rw [hc.findLaunch, h.launch_eq hl]
  dsimp only
  generalize checkPrimaryPool cfg env calls l db = checked at hsource
  obtain ⟨l', db'⟩ := checked
  dsimp only at hsource ⊢
  obtain ⟨src, hsrc⟩ : ∃ src, sourceOfLiquidity cfg l' = some src := by
    unfold sourceOfLiquidity
    split
    · exact ⟨_, rfl⟩
    · rename_i hkind
      rcases hsource with hv4 | ⟨_, haddress⟩
      · exact absurd hv4 hkind
      · exact Option.isSome_iff_exists.mp haddress
  rw [hsrc]
  dsimp only
  obtain ⟨row, hrow, hwhole⟩ := computeRow_clean cfg env hc l' src db'
  generalize computeRow cfg env calls l' src db' = computed at hrow
  obtain ⟨res, after⟩ := computed
  obtain rfl : res = .ok row := hrow
  exact ⟨row, rfl, hwhole⟩

theorem Clean.completes (hc : Clean calls) (l : Launch) (db : WorkerDb) :
    Completes cfg calls.build calls.persist l db := by
  obtain ⟨block, hblock⟩ := hc.getBlock (l.launchBlock + blocksIn10m cfg)
  have hupsert : ∀ n, (calls.persist.upsert n).acknowledged = true := fun n => by rw [hc.upsert]; rfl
  refine ⟨block, ⟨hc.buildLaunch, hc.countMembers, hblock⟩, ⟨hupsert 0, hupsert 1, ?_⟩, Or.inr ?_⟩
  · exact applied_of_acknowledged (hupsert 2)
  · exact ⟨fun i _ => hupsert i, hc.persistLaunch, by rw [hc.createMany]; rfl⟩

theorem rerunnable (h : Invariant db) (hl : l ∈ db.launches) : Rerunnable cfg env db l := by
  intro calls hc
  obtain ⟨row, hrow, hwhole⟩ := prepareT10_clean cfg env h.1 hl hc
  have happlied : calls.transaction.applied = true := by rw [hc.transaction]; rfl
  have hack : calls.transaction.acknowledged = true := by rw [hc.transaction]; rfl
  obtain ⟨hmarked, hreported⟩ := runT10_marks h hl ⟨row, hrow, hwhole, happlied⟩
  refine ⟨?_, hmarked, hreported.mpr (Or.inr ⟨hack, hc.completes l db⟩)⟩
  rcases runT10_cases cfg env calls h.1 (h.1.launch_eq hl) with
    ⟨hno, _⟩ | ⟨row', hrow', ⟨hrefused, _⟩ | ⟨_, hno, _⟩ | ⟨_, _, _, he⟩⟩
  · exact absurd hrow (hno row)
  · rw [happlied] at hrefused
    cases hrefused
  · obtain rfl := Option.some.inj (Except.ok.inj (hrow.symm.trans hrow'))
    exact absurd ⟨hack, hwhole⟩ hno
  · exact congrArg Prod.fst he

end LaunchAuditor.Proofs.Reporting
