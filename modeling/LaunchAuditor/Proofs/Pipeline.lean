import LaunchAuditor.Lib.Steps
import LaunchAuditor.Report.Assess
import LaunchAuditor.Report.Stored
import LaunchAuditor.Watcher.Ingest
import LaunchAuditor.Watcher.T10

namespace LaunchAuditor.Proofs.Pipeline
open Chain Outcomes Scoring Db Watcher Report

inductive Event
  /-- a log with a pool in it -/
  | ingest (deps : IngestDeps) (io : IngestIo) (log : RpcLog)
  | t10 (calls : T10Calls) (launchId : String)
  | assess (calls : AssessCalls) (token : Address)
  | deepdive (calls : PersistCalls) (launchId : String) (input : DeepdiveReportInput)
  /-- a batch of the reports that wait for it -/
  | commit (id : String) (blockNumber : Option Nat) (batch : List ReportContent)
  | resolve (id : String) (status : OutcomeRowStatus) (value : Option Bool)

def commitBatch (id : String) (blockNumber : Option Nat) (batch : List ReportContent) (db : WorkerDb) : WorkerDb :=
  { db with
    commits := db.commits ++ [⟨id, blockNumber⟩]
    reports := db.reports.map fun r =>
      if r.validatorPassed = true ∧ r.commitId = none ∧ r.content ∈ batch then { r with commitId := some id } else r }

def resolveOutcome (id : String) (status : OutcomeRowStatus) (value : Option Bool) (db : WorkerDb) : WorkerDb :=
  { db with outcomes := db.outcomes.map fun o => if o.id = id then { o with status, value } else o }

variable (cfg : ChainConfig) (env : T10Env)

def step (db : WorkerDb) : Event → WorkerDb
  | .ingest deps io log =>
    match decodePoolCreation log with
    | .ok (some pc) => (ingestPool cfg deps io ⟨pc, log⟩ db).2
    | _ => db
  | .t10 calls launchId => (runT10ForLaunch cfg env calls launchId db).2
  | .assess calls token => (runAssess cfg env.report calls token db).2
  | .deepdive calls launchId input =>
    match db.launch launchId with
    | none => db
    | some launch => (persistLaunchReports calls [assembleDeepdiveReportSigned env.report launch input] db).2
  | .commit id blockNumber batch => commitBatch id blockNumber batch db
  | .resolve id status value => resolveOutcome id status value db

/-- The pool is known, so that buyers can be told. -/
def HasSource (l : Launch) : Prop := l.poolKind = some .v4 ∨ l.poolKind ≠ none ∧ l.poolAddress.isSome = true

/-- The forecasters that leave reports. -/
def REPORT_FORECASTERS : List ForecasterKind := [.heuristic_v1, .det_v0, .det_v0_1, .llm_deepdive_v0]

/-- The forecasters of a launch's reports, in their order. -/
def DETERMINISTIC : List ForecasterKind := [.heuristic_v1, .det_v0, .det_v0_1]

/-- The report is about one of the launches. -/
structure About (launches : List Launch) (c : ReportContent) : Prop where
  launch : ∃ l ∈ launches, c.launchId = some l.id ∧ c.chainId = l.chainId ∧ c.tokenAddress = l.tokenAddress
  forecaster : c.forecaster ∈ REPORT_FORECASTERS

def tokenOf (l : Launch) : Nat × Address := (l.chainId, l.tokenAddress)

structure Consistent (db : WorkerDb) : Prop where
  ids : (db.launches.map Launch.id).Nodup
  tokens : (db.launches.map tokenOf).Nodup
  features : db.features.map Feature.launchId = db.launches.map Launch.id
  sources : ∀ l ∈ db.launches, HasSource l
  copied : ∀ r ∈ db.reports, Copied r
  about : ∀ r ∈ db.reports, About db.launches r.content

/-- The last of the three forecasters has a report only where the other two have. -/
def Ordered (db : WorkerDb) : Prop :=
  ∀ id trigger t, HasReport db id trigger .det_v0_1 t →
    HasReport db id trigger .heuristic_v1 t ∧ HasReport db id trigger .det_v0 t

def Invariant (db : WorkerDb) : Prop := Consistent db ∧ Ordered db

variable {cfg env} {db db' : WorkerDb} {launchId : String}

theorem hasReport_congr (h : db'.reports = db.reports) {trigger : ReportTrigger} {f : ForecasterKind} {t : Int} :
    HasReport db' launchId trigger f t ↔ HasReport db launchId trigger f t := by
  unfold HasReport
  rw [h]

theorem Ordered.congr (h : db'.reports = db.reports) (hdb : Ordered db) : Ordered db' := by
  intro id trigger t hlast
  obtain ⟨hfirst, hsecond⟩ := hdb id trigger t ((hasReport_congr h).mp hlast)
  exact ⟨(hasReport_congr h).mpr hfirst, (hasReport_congr h).mpr hsecond⟩

theorem launch_mem {l : Launch} (h : db.launch launchId = some l) : l ∈ db.launches ∧ l.id = launchId := by
  have hid := List.find?_some h
  exact ⟨List.mem_of_find?_eq_some h, by simpa using hid⟩

theorem Consistent.launch_eq (h : Consistent db) {l : Launch} (hl : l ∈ db.launches) : db.launch l.id = some l := by
  have hfound : (db.launch l.id).isSome = true := List.find?_isSome.mpr ⟨l, hl, by simp⟩
  obtain ⟨l', hl'⟩ := Option.isSome_iff_exists.mp hfound
  obtain ⟨hmem, hid⟩ := launch_mem hl'
  rw [hl', List.inj_on_of_nodup_map h.ids hmem hl hid]

theorem Consistent.feature_isSome (h : Consistent db) {l : Launch} (hl : l ∈ db.launches) :
    ∃ f, db.feature l.id = some f := by
  have hid : l.id ∈ db.features.map Feature.launchId := by
    rw [h.features]
    exact List.mem_map_of_mem hl
  obtain ⟨f, hf, he⟩ := List.mem_map.mp hid
  exact Option.isSome_iff_exists.mp (List.find?_isSome.mpr ⟨f, hf, by simpa using he⟩)

structure Kept (l l' : Launch) : Prop where
  id : l'.id = l.id
  chainId : l'.chainId = l.chainId
  tokenAddress : l'.tokenAddress = l.tokenAddress
  launchBlock : l'.launchBlock = l.launchBlock
  creatorAddress : l'.creatorAddress = l.creatorAddress
  launchAt : l'.launchAt = l.launchAt
  quotaExceeded : l'.quotaExceeded = l.quotaExceeded
  source : HasSource l → HasSource l'

theorem Kept.refl (l : Launch) : Kept l l := ⟨rfl, rfl, rfl, rfl, rfl, rfl, rfl, fun h => h⟩

theorem Kept.trans {l l' l'' : Launch} (h : Kept l l') (h' : Kept l' l'') : Kept l l'' :=
  ⟨h'.id.trans h.id, h'.chainId.trans h.chainId, h'.tokenAddress.trans h.tokenAddress,
    h'.launchBlock.trans h.launchBlock, h'.creatorAddress.trans h.creatorAddress, h'.launchAt.trans h.launchAt,
    h'.quotaExceeded.trans h.quotaExceeded, fun hl => h'.source (h.source hl)⟩

/-- The launches of two databases are the same ones. -/
def SameLaunches (db db' : WorkerDb) : Prop :=
  ∃ g : Launch → Launch, db'.launches = db.launches.map g ∧ ∀ l ∈ db.launches, Kept l (g l)

theorem SameLaunches.of_eq (h : db'.launches = db.launches) : SameLaunches db db' :=
  ⟨id, by rw [h, List.map_id], fun l _ => Kept.refl l⟩

theorem SameLaunches.trans {db'' : WorkerDb} (h : SameLaunches db db') (h' : SameLaunches db' db'') :
    SameLaunches db db'' := by
  obtain ⟨g, hg, hkept⟩ := h
  obtain ⟨g', hg', hkept'⟩ := h'
  refine ⟨g' ∘ g, by rw [hg', hg, List.map_map], ?_⟩
  intro l hl
  exact (hkept l hl).trans (hkept' (g l) (by rw [hg]; exact List.mem_map_of_mem hl))

theorem sameLaunches_update {id : String} {change : Launch → Launch}
    (h : ∀ l ∈ db.launches, l.id = id → Kept l (change l)) : SameLaunches db (updateLaunch id change db) := by
  refine ⟨fun l => if l.id = id then change l else l, rfl, ?_⟩
  intro l hl
  by_cases hid : l.id = id
  · dsimp only
    rw [if_pos hid]
    exact h l hl hid
  · dsimp only
    rw [if_neg hid]
    exact Kept.refl l

theorem SameLaunches.map_eq (h : SameLaunches db db') {α : Type} (f : Launch → α)
    (hf : ∀ l l', Kept l l' → f l' = f l) : db'.launches.map f = db.launches.map f := by
  obtain ⟨g, hg, hkept⟩ := h
  rw [hg, List.map_map]
  exact List.map_congr_left fun l hl => hf l (g l) (hkept l hl)

theorem SameLaunches.forward (h : SameLaunches db db') {l : Launch} (hl : l ∈ db.launches) :
    ∃ l' ∈ db'.launches, Kept l l' := by
  obtain ⟨g, hg, hkept⟩ := h
  exact ⟨g l, by rw [hg]; exact List.mem_map_of_mem hl, hkept l hl⟩

theorem SameLaunches.backward (h : SameLaunches db db') {l' : Launch} (hl : l' ∈ db'.launches) :
    ∃ l ∈ db.launches, Kept l l' := by
  obtain ⟨g, hg, hkept⟩ := h
  rw [hg] at hl
  obtain ⟨l, hmem, rfl⟩ := List.mem_map.mp hl
  exact ⟨l, hmem, hkept l hmem⟩

theorem About.same (h : SameLaunches db db') {c : ReportContent} (hc : About db.launches c) : About db'.launches c := by
  obtain ⟨l, hl, hid, hchain, htoken⟩ := hc.launch
  obtain ⟨l', hl', hkept⟩ := h.forward hl
  exact ⟨⟨l', hl', by rw [hid, hkept.id], by rw [hchain, hkept.chainId], by rw [htoken, hkept.tokenAddress]⟩,
    hc.forecaster⟩

theorem Consistent.same (h : Consistent db) (hlaunches : SameLaunches db db')
    (hfeatures : db'.features.map Feature.launchId = db.features.map Feature.launchId)
    (hreports : db'.reports = db.reports) : Consistent db' where
  ids := by
    rw [hlaunches.map_eq Launch.id fun l l' hk => hk.id]
    exact h.ids
  tokens := by
    rw [hlaunches.map_eq tokenOf fun l l' hk => by rw [tokenOf, tokenOf, hk.chainId, hk.tokenAddress]]
    exact h.tokens
  features := by
    rw [hfeatures, h.features, hlaunches.map_eq Launch.id fun l l' hk => hk.id]
  sources := by
    intro l' hl'
    obtain ⟨l, hl, hkept⟩ := hlaunches.backward hl'
    exact hkept.source (h.sources l hl)
  copied := by
    rw [hreports]
    exact h.copied
  about := by
    rw [hreports]
    exact fun r hr => (h.about r hr).same hlaunches

theorem upsertReport_consistent {d : ReportDraft} (hd : About db.launches d.content) (at_ : Int) (h : Consistent db) :
    Consistent (upsertReport d at_ db) where
  ids := h.ids
  tokens := h.tokens
  features := h.features
  sources := h.sources
  copied := upsertReport_copied h.copied
  about := by
    intro r hr
    rcases mem_upsertReport hr with rfl | ⟨old, hold, passed, rfl⟩
    · exact hd
    · exact h.about old hold

theorem storeAll_consistent (createdAt : Nat → Int) (n : Nat) {drafts : List ReportDraft}
    (hdrafts : ∀ d ∈ drafts, About db.launches d.content) (h : Consistent db) :
    Consistent (storeAll createdAt n drafts db) := by
  have hkeep := storeAll_keeps (fun db' => Consistent db' ∧ db'.launches = db.launches) createdAt n
    (fun d hd at_ db' hdb => ⟨upsertReport_consistent (by rw [hdb.2]; exact hdrafts d hd) at_ hdb.1, hdb.2⟩) ⟨h, rfl⟩
  exact hkeep.1

theorem createOutcomes_consistent (rows : List Outcome) (h : Consistent db) : Consistent (createOutcomes rows db) :=
  h.same (SameLaunches.of_eq rfl) rfl rfl

theorem persist_consistent (calls : PersistCalls) {drafts : List ReportDraft}
    (hdrafts : ∀ d ∈ drafts, About db.launches d.content) (h : Consistent db) :
    Consistent (persistLaunchReports calls drafts db).2 := by
  obtain ⟨rows, he⟩ := persist_cases calls drafts db
  rw [he]
  apply createOutcomes_consistent
  exact storeAll_consistent calls.createdAt 0 (fun d hd => hdrafts d (List.mem_of_mem_take hd)) h

/-- Every cell of a batch but the last forecaster's is kept in front of it. -/
theorem persist_ordered (calls : PersistCalls) {drafts : List ReportDraft} (hcopied : ∀ r ∈ db.reports, Copied r)
    (hdrafts : ∀ k id trigger t, (∃ d ∈ drafts.take k, Names d.content id trigger .det_v0_1 t) →
      (∃ d ∈ drafts.take k, Names d.content id trigger .heuristic_v1 t) ∧
        ∃ d ∈ drafts.take k, Names d.content id trigger .det_v0 t)
    (h : Ordered db) : Ordered (persistLaunchReports calls drafts db).2 := by
  obtain ⟨rows, he⟩ := persist_cases calls drafts db
  rw [he]
  have hstored : Ordered (storeAll calls.createdAt 0 (drafts.take (storedCount calls 0 drafts.length)) db) := by
    intro id trigger t hlast
    rw [hasReport_storeAll _ _ _ hcopied] at hlast ⊢
    rw [hasReport_storeAll _ _ _ hcopied]
    rcases hlast with hlast | hlast
    · exact ⟨Or.inl (h id trigger t hlast).1, Or.inl (h id trigger t hlast).2⟩
    · obtain ⟨hfirst, hsecond⟩ := hdrafts _ id trigger t hlast
      exact ⟨Or.inr hfirst, Or.inr hsecond⟩
  exact hstored.congr rfl

/-- The drafts of a launch name its forecasters in their order. -/
theorem names_launchDrafts {env : ReportEnv} {l : Launch} {trigger trigger' : ReportTrigger} {inputs : FeatureInputs}
    {block : Block} {k : Nat} {id : String} {f : ForecasterKind} {t : Int} :
    (∃ d ∈ (launchDrafts env l trigger inputs block).take k, Names d.content id trigger' f t) ↔
      id = l.id ∧ trigger' = trigger ∧ t = block.timestamp * 1000 ∧ f ∈ DETERMINISTIC.take k := by
  have hmap : ∀ d, d ∈ (launchDrafts env l trigger inputs block).take k ↔
      ∃ fc ∈ (forecasters env.math inputs).take k, signedDraft env.agent l.chainId l.tokenAddress
        (launchContent l trigger (coverageOf inputs) block fc) = d := by
    intro d
    rw [launchDrafts, ← List.map_take, List.mem_map]
  have hnames : DETERMINISTIC.take k = ((forecasters env.math inputs).take k).map ForecasterOutput.name := by
    rw [List.map_take]
    rfl
  constructor
  · rintro ⟨d, hd, hlaunch, htrigger, hf, ht⟩
    obtain ⟨fc, hfc, rfl⟩ := (hmap d).mp hd
    refine ⟨(Option.some.inj hlaunch).symm, htrigger.symm, ht.symm, ?_⟩
    rw [hnames, ← hf]
    exact List.mem_map_of_mem hfc
  · rintro ⟨rfl, rfl, rfl, hf⟩
    rw [hnames] at hf
    obtain ⟨fc, hfc, rfl⟩ := List.mem_map.mp hf
    exact ⟨_, (hmap _).mpr ⟨fc, hfc, rfl⟩, rfl, rfl, rfl, rfl⟩

/-- The last of three is there when all are. -/
theorem last_mem_take {k : Nat} (h : ForecasterKind.det_v0_1 ∈ DETERMINISTIC.take k) : 3 ≤ k := by
  by_contra hlt
  have hcases : k = 0 ∨ k = 1 ∨ k = 2 := by omega
  rcases hcases with rfl | rfl | rfl <;> simp [DETERMINISTIC] at h

theorem launchDrafts_about {env : ReportEnv} {l : Launch} (hl : l ∈ db.launches) {trigger : ReportTrigger}
    {inputs : FeatureInputs} {block : Block} {d : ReportDraft} (hd : d ∈ launchDrafts env l trigger inputs block) :
    About db.launches d.content := by
  obtain ⟨fc, hfc, rfl⟩ := List.mem_map.mp hd
  refine ⟨⟨l, hl, rfl, rfl, rfl⟩, ?_⟩
  have hname : fc.name ∈ (forecasters env.math inputs).map ForecasterOutput.name := List.mem_map_of_mem hfc
  change fc.name ∈ REPORT_FORECASTERS
  have hsub : ∀ f ∈ (forecasters env.math inputs).map ForecasterOutput.name, f ∈ REPORT_FORECASTERS := by
    change ∀ f ∈ DETERMINISTIC, f ∈ REPORT_FORECASTERS
    decide
  exact hsub fc.name hname

theorem persist_launchDrafts (h : Invariant db) (env : ReportEnv) {l : Launch} (hl : l ∈ db.launches)
    (calls : PersistCalls) (trigger : ReportTrigger) (inputs : FeatureInputs) (block : Block) :
    Invariant (persistLaunchReports calls (launchDrafts env l trigger inputs block) db).2 := by
  refine ⟨persist_consistent calls (fun d hd => launchDrafts_about hl hd) h.1,
    persist_ordered calls h.1.copied ?_ h.2⟩
  intro k id trigger' t hlast
  rw [names_launchDrafts] at hlast ⊢
  rw [names_launchDrafts]
  obtain ⟨rfl, rfl, rfl, hk⟩ := hlast
  rw [List.take_of_length_le (last_mem_take hk)]
  exact ⟨⟨rfl, rfl, rfl, by decide⟩, rfl, rfl, rfl, by decide⟩

/-- The drafts of a launch, or what keeps them from being made. -/
theorem buildLaunchReports_cases (cfg : ChainConfig) (env : ReportEnv) (calls : BuildCalls) (trigger : ReportTrigger)
    {l : Launch} (hl : db.launch launchId = some l) :
    (∃ block inputs, (calls.findLaunch = none ∧ calls.countMembers = none ∧
        calls.getBlock (l.launchBlock + blocksIn10m cfg) = .ok block) ∧
      buildLaunchReports cfg env calls launchId trigger db = .ok (launchDrafts env l trigger inputs block)) ∨
    ((¬ ∃ block, calls.findLaunch = none ∧ calls.countMembers = none ∧
        calls.getBlock (l.launchBlock + blocksIn10m cfg) = .ok block) ∧
      ∃ e, buildLaunchReports cfg env calls launchId trigger db = .error e) := by
  unfold buildLaunchReports
  rw [hl]
  cases calls.findLaunch with
  | some e => exact Or.inr ⟨by simp, e, rfl⟩
  | none =>
    cases calls.countMembers with
    | some e => exact Or.inr ⟨by simp, e, rfl⟩
    | none =>
      dsimp only
      cases calls.getBlock (l.launchBlock + blocksIn10m cfg) with
      | error e => exact Or.inr ⟨by simp, e, rfl⟩
      | ok block => exact Or.inl ⟨block, _, ⟨rfl, rfl, rfl⟩, rfl⟩

theorem decodePoolCreation_source {log : RpcLog} {pc : PoolCreation} (h : decodePoolCreation log = .ok (some pc)) :
    pc.poolKind = .v4 ∨ pc.poolAddress.isSome = true := by
  unfold decodePoolCreation at h
  simp only [bind, Except.bind, pure, Except.pure] at h
  repeat' split at h
  all_goals cases h
  · exact Or.inl rfl
  · exact Or.inr rfl
  · exact Or.inr rfl

theorem prepareLaunch_row {deps : IngestDeps} {io : IngestIo} {dp : DetectedPool} {row : LaunchRow}
    (h : prepareLaunch cfg deps io dp db = .ok (some row)) :
    ∃ pair tx, row = ⟨newLaunch cfg deps io dp pair tx
      (creatorQuotaExceeded db cfg.chainId tx.from_ (tx.timestamp * 1000) deps.quotaPerCreator24h),
      newFeature cfg io dp pair.token⟩ := by
  unfold prepareLaunch at h
  dsimp only at h
  split at h
  · cases h
  · split at h
    · cases h
    · split at h
      · cases h
      · split at h
        · cases h
        · split at h
          · cases h
          · split at h
            · cases h
            · exact ⟨_, _, (Option.some.inj (Except.ok.inj h)).symm⟩

/-- A row that keeps the unique keys and brings its own features. -/
theorem insertLaunch_invariant {row : LaunchRow} (hfeature : row.feature.launchId = row.launch.id)
    (hsource : HasSource row.launch)
    (hnew : ∀ l ∈ db.launches, l.id ≠ row.launch.id ∧ tokenOf l ≠ tokenOf row.launch) (h : Invariant db) :
    Invariant (insertLaunch row db) := by
  have hids : (insertLaunch row db).launches.map Launch.id = db.launches.map Launch.id ++ [row.launch.id] :=
    List.map_append
  refine ⟨⟨?_, ?_, ?_, ?_, h.1.copied, ?_⟩, h.2⟩
  · rw [hids]
    refine List.nodup_append.mpr ⟨h.1.ids, by simp, ?_⟩
    intro id hid id' hid'
    obtain ⟨l, hl, rfl⟩ := List.mem_map.mp hid
    rw [List.mem_singleton.mp hid']
    exact (hnew l hl).1
  · change (List.map tokenOf (db.launches ++ [row.launch])).Nodup
    rw [List.map_append]
    refine List.nodup_append.mpr ⟨h.1.tokens, by simp, ?_⟩
    intro token htoken token' htoken'
    obtain ⟨l, hl, rfl⟩ := List.mem_map.mp htoken
    rw [List.mem_singleton.mp htoken']
    exact (hnew l hl).2
  · rw [hids, ← h.1.features, ← hfeature]
    exact List.map_append
  · intro l hl
    rcases List.mem_append.mp hl with hl | hl
    · exact h.1.sources l hl
    · rw [List.mem_singleton.mp hl]
      exact hsource
  · intro r hr
    obtain ⟨⟨l, hl, hc⟩, hf⟩ := h.1.about r hr
    exact ⟨⟨l, List.mem_append_left _ hl, hc⟩, hf⟩

/-- The database after an ingestion: with a new row, or with its launches as they were. -/
theorem ingestPool_cases {deps : IngestDeps} {io : IngestIo} {dp : DetectedPool} :
    (∃ row, prepareLaunch cfg deps io dp db = .ok (some row) ∧
      (∀ l ∈ db.launches, l.id ≠ row.launch.id ∧ tokenOf l ≠ tokenOf row.launch) ∧
      ∃ jobs, (ingestPool cfg deps io dp db).2 = { insertLaunch row db with t10Jobs := jobs }) ∨
    (ingestPool cfg deps io dp db).2 = db := by
  unfold ingestPool
  cases hprepare : prepareLaunch cfg deps io dp db with
  | error e => exact Or.inr rfl
  | ok prepared =>
    cases prepared with
    | none => exact Or.inr rfl
    | some row =>
      dsimp only
      by_cases htaken : (db.launches.any fun l => decide (l.id = row.launch.id ∨
          (l.chainId = row.launch.chainId ∧ l.tokenAddress = row.launch.tokenAddress))) = true
      · have hcreate : createLaunch io.createLaunch row db = (.error _, db) := if_pos htaken
        rw [hcreate]
        exact Or.inr rfl
      · have hcreate : createLaunch io.createLaunch row db = io.createLaunch.apply (insertLaunch row) db :=
          if_neg htaken
        have hnew : ∀ l ∈ db.launches, l.id ≠ row.launch.id ∧ tokenOf l ≠ tokenOf row.launch := by
          intro l hl
          have hl' : ¬ (l.id = row.launch.id ∨
              l.chainId = row.launch.chainId ∧ l.tokenAddress = row.launch.tokenAddress) :=
            fun he => htaken (List.any_eq_true.mpr ⟨l, hl, by simpa using he⟩)
          refine ⟨fun he => hl' (Or.inl he), fun he => hl' (Or.inr ?_)⟩
          exact ⟨congrArg Prod.fst he, congrArg Prod.snd he⟩
        rw [hcreate]
        cases io.createLaunch with
        | refused e => exact Or.inr rfl
        | unacknowledged e => exact Or.inl ⟨row, rfl, hnew, (insertLaunch row db).t10Jobs, rfl⟩
        | done =>
          refine Or.inl ⟨row, rfl, hnew, ?_⟩
          simp only [WriteEnd.apply]
          have hjob : ∃ jobs, (addJob io.addJob row.launch.id (insertLaunch row db)).2 =
              { insertLaunch row db with t10Jobs := jobs } := by
            rcases WriteEnd.apply_state io.addJob (insertJob row.launch.id) (insertLaunch row db) with he | he
            · exact ⟨(insertLaunch row db).t10Jobs, he⟩
            · exact ⟨_, he⟩
          obtain ⟨jobs, hjobs⟩ := hjob
          refine ⟨jobs, ?_⟩
          rw [← hjobs]
          generalize addJob io.addJob row.launch.id (insertLaunch row db) = added
          obtain ⟨res, after⟩ := added
          cases res with
          | error e => rfl
          | ok _ => rfl

end LaunchAuditor.Proofs.Pipeline
