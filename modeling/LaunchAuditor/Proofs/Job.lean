import LaunchAuditor.Proofs.Pipeline

namespace LaunchAuditor.Proofs.Pipeline
open Chain Outcomes Scoring Db Watcher Report

variable {cfg : ChainConfig} {env : T10Env} {calls : T10Calls} {db db' : WorkerDb} {launchId : String}

/-- What a job may do before its transaction. -/
structure Moved (db db' : WorkerDb) : Prop where
  launches : SameLaunches db db'
  features : db'.features = db.features
  reports : db'.reports = db.reports
  outcomes : db'.outcomes = db.outcomes

theorem Moved.refl (db : WorkerDb) : Moved db db := ⟨SameLaunches.of_eq rfl, rfl, rfl, rfl⟩

theorem Moved.trans {db'' : WorkerDb} (h : Moved db db') (h' : Moved db' db'') : Moved db db'' :=
  ⟨h.launches.trans h'.launches, h'.features.trans h.features, h'.reports.trans h.reports,
    h'.outcomes.trans h.outcomes⟩

theorem Moved.invariant (h : Moved db db') (hdb : Invariant db) : Invariant db' :=
  ⟨hdb.1.same h.launches (by rw [h.features]) h.reports, hdb.2.congr h.reports⟩

theorem moved_update {id : String} {change : Launch → Launch} (h : ∀ l ∈ db.launches, l.id = id → Kept l (change l)) :
    Moved db (updateLaunch id change db) := ⟨sameLaunches_update h, rfl, rfl, rfl⟩

theorem Moved.apply {change : WorkerDb → WorkerDb} (w : WriteEnd) (h : Moved db (change db)) :
    Moved db (w.apply change db).2 := by
  rcases w.apply_state change db with he | he
  · rw [he]
    exact Moved.refl db
  · rw [he]
    exact h

/-- A pick makes the launch one of a v4 pool, or leaves its pool alone. -/
theorem applyPick_kept (pick : PrimaryPoolPick) (l : Launch) : Kept l (applyPick pick l) := by
  unfold applyPick
  split
  · exact Kept.refl l
  · split
    · exact ⟨rfl, rfl, rfl, rfl, rfl, rfl, rfl, fun _ => Or.inl rfl⟩
    · exact ⟨rfl, rfl, rfl, rfl, rfl, rfl, rfl, fun h => h⟩

theorem checkPrimaryPool_moved (cfg : ChainConfig) (env : T10Env) (calls : T10Calls) (h : Consistent db) {l : Launch} (hl : l ∈ db.launches) :
    Kept l (checkPrimaryPool cfg env calls l db).1 ∧ Moved db (checkPrimaryPool cfg env calls l db).2 := by
  unfold checkPrimaryPool
  split
  · rename_i hkind
    split
    · exact ⟨Kept.refl l, Moved.refl db⟩
    · rename_i pick hpick
      have hkept := applyPick_kept pick l
      refine ⟨hkept, Moved.apply calls.updatePool (moved_update ?_)⟩
      intro row hrow hid
      -- the kind, which says where the liquidity is, is not written
      obtain rfl : row = l := List.inj_on_of_nodup_map h.ids hrow hl (hid.trans hkept.id)
      have hv4 : row.poolKind = some .v4 := by
        rcases hkind with hv4 | hnone
        · exact hv4
        · rcases h.sources row hrow with hv4 | ⟨hsome, _⟩
          · exact hv4
          · exact absurd hnone hsome
      exact ⟨rfl, rfl, rfl, rfl, rfl, rfl, rfl, fun _ => Or.inl hv4⟩
  · exact ⟨Kept.refl l, Moved.refl db⟩

theorem storeTokenAge_moved (l : Launch) : Moved db (storeTokenAge cfg calls l db).2 := by
  unfold storeTokenAge
  split
  · exact Moved.refl db
  · dsimp only
    split
    · exact Moved.refl db
    · exact Moved.apply calls.updateTokenAge (moved_update fun row _ _ => ⟨rfl, rfl, rfl, rfl, rfl, rfl, rfl, fun h => h⟩)

theorem computeRow_moved (l : Launch) (liquiditySource : Address) :
    Moved db (computeRow cfg env calls l liquiditySource db).2 := by
  unfold computeRow
  split
  · exact Moved.refl db
  · split
    · exact Moved.refl db
    · have hage : Moved db (storeTokenAge cfg calls l db).2 := storeTokenAge_moved l
      generalize storeTokenAge cfg calls l db = stored at hage
      obtain ⟨res, db'⟩ := stored
      cases res with
      | error e => exact hage
      | ok _ =>
        dsimp only
        split
        · exact hage
        · split
          · split
            · exact hage
            · exact hage
          · exact hage

theorem prepareT10_moved (h : Consistent db) : Moved db (prepareT10 cfg env calls launchId db).2 := by
  unfold prepareT10
  split
  · exact Moved.refl db
  · split
    · exact Moved.refl db
    · rename_i l hl
      obtain ⟨_, hcheck⟩ := checkPrimaryPool_moved cfg env calls h (launch_mem hl).1
      generalize checkPrimaryPool cfg env calls l db = checked at hcheck
      obtain ⟨l', db'⟩ := checked
      dsimp only
      split
      · exact hcheck
      · rename_i src _
        have hrow : Moved db' (computeRow cfg env calls l' src db').2 := computeRow_moved l' src
        generalize computeRow cfg env calls l' src db' = computed at hrow
        obtain ⟨res, db''⟩ := computed
        cases res with
        | error e => exact hcheck.trans hrow
        | ok row => exact hcheck.trans hrow

/-- Without a launch there is nothing to do. -/
theorem prepareT10_unknown (cfg : ChainConfig) (env : T10Env) (calls : T10Calls) (h : db.launch launchId = none) :
    (∀ row, (prepareT10 cfg env calls launchId db).1 ≠ .ok (some row)) ∧
      (prepareT10 cfg env calls launchId db).2 = db := by
  unfold prepareT10
  split
  · exact ⟨fun _ he => (nomatch he), rfl⟩
  · rw [h]
    exact ⟨fun _ he => (nomatch he), rfl⟩

theorem writeT10_launchId (now : Int) (row : T10Row) (f : Feature) : (writeT10 now row f).launchId = f.launchId := by
  unfold writeT10
  dsimp only
  split
  · rfl
  · rfl

theorem writeT10_marked (now : Int) (row : T10Row) (f : Feature) :
    (writeT10 now row f).t10ComputedAt.isSome = true ↔ row.cluster.partialRules = [] := by
  unfold writeT10
  dsimp only
  by_cases h : row.cluster.partialRules = []
  · simp [h]
  · simp [h]

theorem feature_update {change : Feature → Feature} (h : ∀ f, (change f).launchId = f.launchId) (id id' : String) :
    (updateFeature id change db).feature id' =
      (db.feature id').map fun f => if f.launchId = id then change f else f := by
  unfold updateFeature WorkerDb.feature
  rw [List.find?_map]
  have htest : (fun f : Feature => decide (f.launchId = id')) ∘ (fun f => if f.launchId = id then change f else f) =
      fun f => decide (f.launchId = id') := by
    funext f
    simp only [Function.comp_apply]
    split
    · rw [h f]
    · rfl
  rw [htest]

theorem storeT10_launches (now : Int) (row : T10Row) : SameLaunches db (storeT10 now launchId row db) := by
  unfold storeT10
  dsimp only
  split
  · refine ⟨fun l => if l.id = launchId then { l with lane := .qualified } else l, rfl, ?_⟩
    intro l _
    dsimp only
    split
    · exact ⟨rfl, rfl, rfl, rfl, rfl, rfl, rfl, fun h => h⟩
    · exact Kept.refl l
  · exact SameLaunches.of_eq rfl

theorem storeT10_features (now : Int) (row : T10Row) :
    (storeT10 now launchId row db).features =
      db.features.map fun f => if f.launchId = launchId then writeT10 now row f else f := by
  unfold storeT10
  dsimp only
  split
  · rfl
  · rfl

theorem storeT10_feature (now : Int) (row : T10Row) (id : String) :
    (storeT10 now launchId row db).feature id =
      (db.feature id).map fun f => if f.launchId = launchId then writeT10 now row f else f := by
  rw [← feature_update (writeT10_launchId now row)]
  unfold WorkerDb.feature
  rw [storeT10_features]
  rfl

theorem storeT10_reports (now : Int) (row : T10Row) : (storeT10 now launchId row db).reports = db.reports := by
  unfold storeT10
  dsimp only
  split
  · rfl
  · rfl

theorem storeT10_outcomes (now : Int) (row : T10Row) : (storeT10 now launchId row db).outcomes = db.outcomes := by
  unfold storeT10
  dsimp only
  split
  · rfl
  · rfl

theorem storeT10_invariant (now : Int) (row : T10Row) (h : Invariant db) : Invariant (storeT10 now launchId row db) := by
  refine ⟨h.1.same (storeT10_launches now row) ?_ (storeT10_reports now row), h.2.congr (storeT10_reports now row)⟩
  rw [storeT10_features, List.map_map]
  apply List.map_congr_left
  intro f _
  simp only [Function.comp_apply]
  split
  · exact writeT10_launchId now row f
  · rfl

theorem reportLaunch_invariant (h : Invariant db) (env : ReportEnv) (build : BuildCalls) (persist : PersistCalls) :
    Invariant (reportLaunch cfg env build persist launchId db) := by
  unfold reportLaunch
  cases hl : db.launch launchId with
  | none =>
    have hnone : ∀ drafts, buildLaunchReports cfg env build launchId .launch db = .ok drafts → drafts = [] := by
      unfold buildLaunchReports
      rw [hl]
      intro drafts hd
      split at hd
      · cases hd
      · exact (Except.ok.inj hd).symm
    split
    · exact h
    · rename_i drafts hd
      rw [hnone drafts hd]
      exact h
  | some l =>
    rcases buildLaunchReports_cases cfg env build .launch hl with ⟨block, inputs, _, hok⟩ | ⟨_, e, herror⟩
    · rw [hok]
      exact persist_launchDrafts h env (launch_mem hl).1 persist .launch inputs block
    · rw [herror]
      exact h

/-- What a job has done: nothing but to prepare, its transaction, or its reports after that. -/
theorem runT10_cases (cfg : ChainConfig) (env : T10Env) (calls : T10Calls) (h : Consistent db) {l : Launch}
    (hl : db.launch launchId = some l) :
    let prepared := prepareT10 cfg env calls launchId db
    let job := runT10ForLaunch cfg env calls launchId db
    ((∀ row, prepared.1 ≠ .ok (some row)) ∧ job.2 = prepared.2) ∨
    ∃ row, prepared.1 = .ok (some row) ∧
      ((calls.transaction.applied = false ∧ job.2 = prepared.2) ∨
        (calls.transaction.applied = true ∧ ¬ (calls.transaction.acknowledged = true ∧ row.cluster.partialRules = []) ∧
          job.2 = storeT10 calls.now launchId row prepared.2) ∨
        (calls.transaction.applied = true ∧ calls.transaction.acknowledged = true ∧ row.cluster.partialRules = [] ∧
          job = (.ok (), reportLaunch cfg env.report calls.build calls.persist launchId
            (storeT10 calls.now launchId row prepared.2)))) := by
  intro prepared job
  have hmoved : Moved db prepared.2 := prepareT10_moved h
  have hjob : job = runT10ForLaunch cfg env calls launchId db := rfl
  have hprepared : prepareT10 cfg env calls launchId db = prepared := rfl
  unfold runT10ForLaunch at hjob
  rw [hprepared] at hjob
  generalize prepared = p at hmoved hjob
  obtain ⟨res, db'⟩ := p
  cases res with
  | error e => exact Or.inl ⟨fun _ he => (nomatch he), congrArg Prod.snd hjob⟩
  | ok found =>
    cases found with
    | none => exact Or.inl ⟨fun _ he => (nomatch he), congrArg Prod.snd hjob⟩
    | some row =>
      refine Or.inr ⟨row, rfl, ?_⟩
      dsimp only at hmoved hjob ⊢
      have hdb' : Consistent db' := h.same hmoved.launches (by rw [hmoved.features]) hmoved.reports
      obtain ⟨l', hl', hkept⟩ := hmoved.launches.forward (launch_mem hl).1
      have hid : l'.id = launchId := hkept.id.trans (launch_mem hl).2
      have hlaunch := hdb'.launch_eq hl'
      obtain ⟨f, hf⟩ := hdb'.feature_isSome hl'
      rw [hid] at hlaunch hf
      have htransaction : runTransaction calls.transaction calls.now launchId row db' =
          calls.transaction.apply (storeT10 calls.now launchId row) db' := by
        unfold runTransaction
        rw [hlaunch, hf]
        exact if_neg (by simp)
      rw [htransaction] at hjob
      cases htr : calls.transaction with
      | refused e =>
        rw [htr] at hjob
        exact Or.inl ⟨rfl, congrArg Prod.snd hjob⟩
      | unacknowledged e =>
        rw [htr] at hjob
        exact Or.inr (Or.inl ⟨rfl, by simp [WriteEnd.acknowledged], congrArg Prod.snd hjob⟩)
      | done =>
        rw [htr] at hjob
        simp only [WriteEnd.apply] at hjob
        by_cases hpartial : row.cluster.partialRules = []
        · rw [if_pos hpartial] at hjob
          exact Or.inr (Or.inr ⟨rfl, rfl, hpartial, hjob⟩)
        · rw [if_neg hpartial] at hjob
          exact Or.inr (Or.inl ⟨rfl, fun hboth => hpartial hboth.2, congrArg Prod.snd hjob⟩)

theorem runT10_unknown (cfg : ChainConfig) (env : T10Env) (calls : T10Calls) (h : db.launch launchId = none) :
    (runT10ForLaunch cfg env calls launchId db).2 = db := by
  obtain ⟨hnone, hsame⟩ := prepareT10_unknown cfg env calls h
  unfold runT10ForLaunch
  generalize prepareT10 cfg env calls launchId db = p at hnone hsame
  obtain ⟨res, db'⟩ := p
  cases res with
  | error e => exact hsame
  | ok found =>
    cases found with
    | none => exact hsame
    | some row => exact absurd rfl (hnone row)

/-- What holds before a job holds after it, if preparing, the transaction and the reports each leave it. -/
theorem runT10_preserves (hdb : Consistent db) {P : WorkerDb → Prop} (h : P db)
    (hprepare : ∀ db', Moved db db' → P db') (hstore : ∀ row db', P db' → P (storeT10 calls.now launchId row db'))
    (hreport : ∀ db', P db' → P (reportLaunch cfg env.report calls.build calls.persist launchId db')) :
    P (runT10ForLaunch cfg env calls launchId db).2 := by
  have hprepared : P (prepareT10 cfg env calls launchId db).2 := hprepare _ (prepareT10_moved hdb)
  cases hl : db.launch launchId with
  | none =>
    rw [runT10_unknown cfg env calls hl]
    exact h
  | some l =>
    rcases runT10_cases cfg env calls hdb hl with ⟨_, he⟩ | ⟨row, _, ⟨_, he⟩ | ⟨_, _, he⟩ | ⟨_, _, _, he⟩⟩
    · rw [he]
      exact hprepared
    · rw [he]
      exact hprepared
    · rw [he]
      exact hstore row _ hprepared
    · rw [he]
      exact hreport _ (hstore row _ hprepared)

theorem runT10_invariant (h : Invariant db) : Invariant (runT10ForLaunch cfg env calls launchId db).2 := by
  apply runT10_preserves h.1 h
  · exact fun db' hmoved => hmoved.invariant h
  · exact fun row db' hdb => storeT10_invariant calls.now row hdb
  · exact fun db' hdb => reportLaunch_invariant hdb env.report calls.build calls.persist

theorem ingestPool_invariant (h : Invariant db) {deps : IngestDeps} {io : IngestIo} {log : RpcLog} {pc : PoolCreation}
    (hpc : decodePoolCreation log = .ok (some pc)) : Invariant (ingestPool cfg deps io ⟨pc, log⟩ db).2 := by
  rcases ingestPool_cases with ⟨row, hrow, hnew, jobs, he⟩ | he
  · rw [he]
    obtain ⟨pair, tx, rfl⟩ := prepareLaunch_row hrow
    have hsource : ∀ quota, HasSource (newLaunch cfg deps io ⟨pc, log⟩ pair tx quota) := by
      intro quota
      rcases decodePoolCreation_source hpc with hv4 | haddress
      · exact Or.inl (congrArg some hv4)
      · exact Or.inr ⟨by simp [newLaunch], haddress⟩
    obtain ⟨hdb, hordered⟩ := insertLaunch_invariant rfl (hsource _) hnew h
    exact ⟨hdb.same (SameLaunches.of_eq rfl) rfl rfl, hordered.congr rfl⟩
  · rw [he]
    exact h

/-- An assessment that stores reports stores those of a launch. -/
theorem runAssess_cases (h : Consistent db) (env : ReportEnv) (calls : AssessCalls) (token : Address) :
    (runAssess cfg env calls token db).2 = db ∨ ∃ l, db.launchOf cfg.chainId token = some l ∧ ∃ inputs block,
      (runAssess cfg env calls token db).2 =
        (persistLaunchReports calls.persist (launchDrafts env l .on_demand inputs block) db).2 := by
  unfold runAssess
  split
  · exact Or.inl rfl
  · split
    · exact Or.inl rfl
    · rename_i l hl
      have hmem : l ∈ db.launches := List.mem_of_find?_eq_some hl
      rcases buildLaunchReports_cases cfg env calls.build .on_demand (h.launch_eq hmem) with
        ⟨block, inputs, _, hok⟩ | ⟨_, e, herror⟩
      · rw [hok]
        right
        refine ⟨l, hl, inputs, block, ?_⟩
        obtain ⟨first, rest, hdrafts⟩ : ∃ first rest, launchDrafts env l .on_demand inputs block = first :: rest :=
          ⟨_, _, rfl⟩
        rw [hdrafts]
        dsimp only
        generalize persistLaunchReports calls.persist (first :: rest) db = persisted
        obtain ⟨res, after⟩ := persisted
        cases res with
        | error e => rfl
        | ok _ => rfl
      · rw [herror]
        exact Or.inl rfl

theorem runAssess_invariant (h : Invariant db) (env : ReportEnv) (calls : AssessCalls) (token : Address) :
    Invariant (runAssess cfg env calls token db).2 := by
  rcases runAssess_cases h.1 env calls token with he | ⟨l, hl, inputs, block, he⟩
  · rw [he]
    exact h
  · rw [he]
    exact persist_launchDrafts h env (List.mem_of_find?_eq_some hl) calls.persist .on_demand inputs block

/-- A deep dive leaves the order of the others alone. -/
theorem deepdive_invariant (h : Invariant db) (env : ReportEnv) (calls : PersistCalls) {l : Launch}
    (hl : l ∈ db.launches) (input : DeepdiveReportInput) :
    Invariant (persistLaunchReports calls [assembleDeepdiveReportSigned env l input] db).2 := by
  refine ⟨persist_consistent calls ?_ h.1, persist_ordered calls h.1.copied ?_ h.2⟩
  · intro d hd
    rw [List.mem_singleton.mp hd]
    exact ⟨⟨l, hl, rfl, rfl, rfl⟩, (by decide : ForecasterKind.llm_deepdive_v0 ∈ REPORT_FORECASTERS)⟩
  · rintro k id trigger t ⟨d, hd, _, _, hf, _⟩
    rw [List.mem_singleton.mp (List.mem_of_mem_take hd)] at hf
    cases hf

theorem mem_commitBatch {id : String} {blockNumber : Option Nat} {batch : List ReportContent} {r : Db.Report}
    (h : r ∈ (commitBatch id blockNumber batch db).reports) : ∃ old ∈ db.reports, ∃ commitId, r = { old with commitId } := by
  obtain ⟨old, hold, he⟩ := List.mem_map.mp h
  refine ⟨old, hold, ?_⟩
  split at he
  · exact ⟨some id, he.symm⟩
  · exact ⟨old.commitId, he.symm⟩

theorem hasReport_commitBatch (id : String) (blockNumber : Option Nat) (batch : List ReportContent)
    {trigger : ReportTrigger} {f : ForecasterKind} {t : Int} :
    HasReport (commitBatch id blockNumber batch db) launchId trigger f t ↔ HasReport db launchId trigger f t := by
  constructor
  · rintro ⟨r, hr, hr'⟩
    obtain ⟨old, hold, commitId, rfl⟩ := mem_commitBatch hr
    exact ⟨old, hold, hr'⟩
  · rintro ⟨r, hr, hr'⟩
    by_cases hin : r.validatorPassed = true ∧ r.commitId = none ∧ r.content ∈ batch
    · exact ⟨{ r with commitId := some id }, List.mem_map.mpr ⟨r, hr, if_pos hin⟩, hr'⟩
    · exact ⟨r, List.mem_map.mpr ⟨r, hr, if_neg hin⟩, hr'⟩

theorem commitBatch_invariant (h : Invariant db) (id : String) (blockNumber : Option Nat)
    (batch : List ReportContent) : Invariant (commitBatch id blockNumber batch db) := by
  refine ⟨⟨h.1.ids, h.1.tokens, h.1.features, h.1.sources, ?_, ?_⟩, ?_⟩
  · intro r hr
    obtain ⟨old, hold, commitId, rfl⟩ := mem_commitBatch hr
    obtain ⟨h1, h2, h3, h4, h5, h6⟩ := h.1.copied old hold
    exact ⟨h1, h2, h3, h4, h5, h6⟩
  · intro r hr
    obtain ⟨old, hold, commitId, rfl⟩ := mem_commitBatch hr
    exact h.1.about old hold
  · intro launchId trigger t hlast
    rw [hasReport_commitBatch] at hlast ⊢
    rw [hasReport_commitBatch]
    exact h.2 launchId trigger t hlast

theorem step_invariant (db : WorkerDb) (e : Event) (h : Invariant db) : Invariant (step cfg env db e) := by
  cases e with
  | ingest deps io log =>
    unfold step
    dsimp only
    split
    · rename_i pc hpc
      exact ingestPool_invariant h hpc
    · exact h
  | t10 calls launchId => exact runT10_invariant h
  | assess calls token => exact runAssess_invariant h env.report calls token
  | deepdive calls launchId input =>
    unfold step
    dsimp only
    cases hl : db.launch launchId with
    | none => exact h
    | some l => exact deepdive_invariant h env.report calls (launch_mem hl).1 input
  | commit id blockNumber batch => exact commitBatch_invariant h id blockNumber batch
  | resolve id status value => exact ⟨h.1.same (SameLaunches.of_eq rfl) rfl rfl, h.2.congr rfl⟩

theorem empty_invariant : Invariant WorkerDb.empty := by
  refine ⟨⟨List.nodup_nil, List.nodup_nil, rfl, ?_, ?_, ?_⟩, ?_⟩
  · exact fun l hl => nomatch hl
  · exact fun r hr => nomatch hr
  · exact fun r hr => nomatch hr
  · rintro id trigger t ⟨r, hr, _⟩
    cases hr

end LaunchAuditor.Proofs.Pipeline
