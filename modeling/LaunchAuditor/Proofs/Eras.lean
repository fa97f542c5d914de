import LaunchAuditor.Proofs.Job

namespace LaunchAuditor.Proofs.Eras
open Chain Outcomes Scoring Db Watcher Report Pipeline

variable {cfg : ChainConfig} {env : T10Env} {calls : T10Calls} {db db' : WorkerDb} {launchId : String}

/-- Who the launch is, and its flag. -/
def flagOf (l : Launch) : Nat × Address × Bool := (l.chainId, l.tokenAddress, l.retrospective)

def flags (db : WorkerDb) : List (Nat × Address × Bool) := db.launches.map flagOf

/-- The row's flag is that of its token's launch. -/
def Flagged (db : WorkerDb) : Prop := ∀ o ∈ db.outcomes, (o.chainId, o.tokenAddress, o.retrospective) ∈ flags db

/-- The unique index, and one version of the rules. -/
structure Distinct (db : WorkerDb) : Prop where
  keys : (db.outcomes.map fun o => outcomeKeyOf o.toOutcomeRow).Nodup
  rules : ∀ o ∈ db.outcomes, o.ruleVersion = "v1"

theorem flags_update {id : String} {change : Launch → Launch} (h : ∀ l, flagOf (change l) = flagOf l) :
    flags (updateLaunch id change db) = flags db := by
  unfold flags updateLaunch
  rw [List.map_map]
  apply List.map_congr_left
  intro l _
  simp only [Function.comp]
  split
  · exact h l
  · rfl

theorem flags_apply {change : WorkerDb → WorkerDb} (w : WriteEnd) (h : flags (change db) = flags db) :
    flags (w.apply change db).2 = flags db := by
  rcases w.apply_state change db with he | he
  · rw [he]
  · rw [he]
    exact h

theorem checkPrimaryPool_flags (l : Launch) : flags (checkPrimaryPool cfg env calls l db).2 = flags db := by
  unfold checkPrimaryPool
  split
  · split
    · rfl
    · exact flags_apply calls.updatePool (flags_update fun _ => rfl)
  · rfl

theorem storeTokenAge_flags (l : Launch) : flags (storeTokenAge cfg calls l db).2 = flags db := by
  unfold storeTokenAge
  split
  · rfl
  · dsimp only
    split
    · rfl
    · exact flags_apply calls.updateTokenAge (flags_update fun _ => rfl)

theorem computeRow_flags (l : Launch) (liquiditySource : Address) :
    flags (computeRow cfg env calls l liquiditySource db).2 = flags db := by
  unfold computeRow
  split
  · rfl
  · split
    · rfl
    · have hage : flags (storeTokenAge cfg calls l db).2 = flags db := storeTokenAge_flags l
      generalize storeTokenAge cfg calls l db = stored at hage
      obtain ⟨res, db'⟩ := stored
      cases res with
      | error e => exact hage
      | ok _ =>
        dsimp only
        split
        · exact hage
        · split
          · split
            · exact hage
            · exact hage
          · exact hage

theorem prepareT10_flags (db : WorkerDb) : flags (prepareT10 cfg env calls launchId db).2 = flags db := by
  unfold prepareT10
  split
  · rfl
  · split
    · rfl
    · rename_i l _
      have hcheck : flags (checkPrimaryPool cfg env calls l db).2 = flags db := checkPrimaryPool_flags l
      generalize checkPrimaryPool cfg env calls l db = checked at hcheck
      obtain ⟨l', db'⟩ := checked
      dsimp only
      split
      · exact hcheck
      · rename_i src _
        have hrow : flags (computeRow cfg env calls l' src db').2 = flags db' := computeRow_flags l' src
        generalize computeRow cfg env calls l' src db' = computed at hrow
        obtain ⟨res, db''⟩ := computed
        cases res with
        | error e => exact hrow.trans hcheck
        | ok row => exact hrow.trans hcheck

theorem storeT10_flags (now : Int) (row : T10Row) : flags (storeT10 now launchId row db) = flags db := by
  unfold storeT10
  dsimp only
  split
  · exact flags_update fun _ => rfl
  · rfl

structure WellMarked (db : WorkerDb) : Prop where
  flagged : Flagged db
  distinct : Distinct db

theorem WellMarked.same (h : WellMarked db) (hflags : flags db' = flags db) (houtcomes : db'.outcomes = db.outcomes) : WellMarked db' := by
  refine ⟨?_, ?_, ?_⟩
  · intro o ho
    rw [hflags]
    exact h.flagged o (houtcomes ▸ ho)
  · rw [houtcomes]
    exact h.distinct.keys
  · rw [houtcomes]
    exact h.distinct.rules

theorem createOutcomes_marked {rows : List Outcome} (h : WellMarked db)
    (hrows : ∀ o ∈ rows, (o.chainId, o.tokenAddress, o.retrospective) ∈ flags db ∧ o.ruleVersion = "v1") :
    WellMarked (createOutcomes rows db) := by
  refine ⟨?_, ?_, ?_⟩
  · intro o ho
    rcases mem_createOutcomes ho with ho | ho
    · exact h.flagged o ho
    · exact (hrows o ho).1
  · have hfold : ∀ acc : List Outcome, (acc.map fun o => outcomeKeyOf o.toOutcomeRow).Nodup →
        ((rows.foldl (Keyed.push fun o => outcomeKeyOf o.toOutcomeRow) acc).map fun o =>
          outcomeKeyOf o.toOutcomeRow).Nodup := by
      clear hrows
      induction rows with
      | nil => exact fun _ hacc => hacc
      | cons o rows ih => exact fun acc hacc => ih _ (Keyed.push_nodup _ hacc o)
    exact hfold _ h.distinct.keys
  · intro o ho
    rcases mem_createOutcomes ho with ho | ho
    · exact h.distinct.rules o ho
    · exact (hrows o ho).2

theorem storeAll_marked (h : WellMarked db) (createdAt : Nat → Int) (n : Nat) (drafts : List ReportDraft) :
    WellMarked (storeAll createdAt n drafts db) :=
  h.same (congrArg (List.map flagOf) (storeAll_launches createdAt n drafts db)) (storeAll_outcomes createdAt n drafts db)

/-- The rows of a batch are those of its first report's launch. -/
theorem persist_marked (persist : PersistCalls) {drafts : List ReportDraft} (hdb : Consistent db)
    (hdrafts : ∀ d ∈ drafts, About db.launches d.content) (h : WellMarked db) :
    WellMarked (persistLaunchReports persist drafts db).2 := by
  cases drafts with
  | nil => exact h
  | cons first drafts =>
    obtain ⟨l, hl, hid, hchain, htoken⟩ := (hdrafts first List.mem_cons_self).launch
    have hstored := storeAll_marked h persist.createdAt 0
      ((first :: drafts).take (storedCount persist 0 (first :: drafts).length))
    rcases persist_state persist first drafts hid (hdb.launch_eq hl) with ⟨_, he⟩ | ⟨_, he⟩
    · rw [he]
      apply createOutcomes_marked hstored
      intro o ho
      obtain ⟨key, _, rfl⟩ := List.mem_map.mp ho
      refine ⟨?_, rfl⟩
      have hflag : flagOf l ∈ flags db := List.mem_map_of_mem hl
      rw [flags, storeAll_launches]
      change (first.content.chainId, first.content.tokenAddress, l.retrospective) ∈ flags db
      rw [hchain, htoken]
      exact hflag
    · rw [he]
      exact hstored

theorem reportLaunch_marked (hdb : Consistent db) (h : WellMarked db) (env : ReportEnv) (build : BuildCalls)
    (persist : PersistCalls) : WellMarked (reportLaunch cfg env build persist launchId db) := by
  unfold reportLaunch
  cases hl : db.launch launchId with
  | none =>
    split
    · exact h
    · rename_i drafts hd
      unfold buildLaunchReports at hd
      rw [hl] at hd
      split at hd
      · cases hd
      · obtain rfl := Except.ok.inj hd
        exact h
  | some l =>
    rcases buildLaunchReports_cases cfg env build .launch hl with ⟨block, inputs, _, hok⟩ | ⟨_, e, herror⟩
    · rw [hok]
      exact persist_marked persist hdb (fun d hd => launchDrafts_about (launch_mem hl).1 hd) h
    · rw [herror]
      exact h

theorem runT10_marked (hdb : Invariant db) (h : WellMarked db) : WellMarked (runT10ForLaunch cfg env calls launchId db).2 := by
  have hmoved : Moved db (prepareT10 cfg env calls launchId db).2 := prepareT10_moved hdb.1
  have hprepared : WellMarked (prepareT10 cfg env calls launchId db).2 :=
    h.same (prepareT10_flags db) hmoved.outcomes
  have hstored : ∀ row, WellMarked (storeT10 calls.now launchId row (prepareT10 cfg env calls launchId db).2) :=
    fun row => hprepared.same (storeT10_flags calls.now row) (storeT10_outcomes calls.now row)
  cases hl : db.launch launchId with
  | none =>
    rw [runT10_unknown cfg env calls hl]
    exact h
  | some l =>
    rcases runT10_cases cfg env calls hdb.1 hl with ⟨_, he⟩ | ⟨row, _, ⟨_, he⟩ | ⟨_, _, he⟩ | ⟨_, _, _, he⟩⟩
    · rw [he]
      exact hprepared
    · rw [he]
      exact hprepared
    · rw [he]
      exact hstored row
    · rw [he]
      exact reportLaunch_marked (storeT10_invariant calls.now row (hmoved.invariant hdb)).1 (hstored row) env.report
        calls.build calls.persist

theorem step_marked (db : WorkerDb) (e : Event) (hdb : Invariant db) (h : WellMarked db) : WellMarked (step cfg env db e) := by
  cases e with
  | ingest deps io log =>
    unfold step
    dsimp only
    split
    · rcases ingestPool_cases with ⟨row, _, _, jobs, he⟩ | he
      · rw [he]
        refine ⟨?_, h.distinct.keys, h.distinct.rules⟩
        intro o ho
        obtain ⟨l, hl, hflag⟩ := List.mem_map.mp (h.flagged o ho)
        exact List.mem_map.mpr ⟨l, List.mem_append_left _ hl, hflag⟩
      · rw [he]
        exact h
    · exact h
  | t10 calls launchId => exact runT10_marked hdb h
  | assess calls token =>
    unfold step
    dsimp only
    rcases runAssess_cases hdb.1 env.report calls token with he | ⟨l, hl, inputs, block, he⟩
    · rw [he]
      exact h
    · rw [he]
      exact persist_marked calls.persist hdb.1 (fun d hd => launchDrafts_about (List.mem_of_find?_eq_some hl) hd) h
  | deepdive calls launchId input =>
    unfold step
    dsimp only
    cases hl : db.launch launchId with
    | none => exact h
    | some l =>
      apply persist_marked calls hdb.1 _ h
      intro d hd
      rw [List.mem_singleton.mp hd]
      exact ⟨⟨l, (launch_mem hl).1, rfl, rfl, rfl⟩, (by decide : ForecasterKind.llm_deepdive_v0 ∈ REPORT_FORECASTERS)⟩
  | commit id blockNumber batch => exact h.same rfl rfl
  | resolve id status value =>
    have hrow : ∀ o : Outcome, (if o.id = id then { o with status, value } else o).toOutcomeRow = o.toOutcomeRow := by
      intro o
      split
      · rfl
      · rfl
    have hflag : ∀ o : Outcome, (if o.id = id then { o with status, value } else o).retrospective = o.retrospective := by
      intro o
      split
      · rfl
      · rfl
    refine ⟨?_, ?_, ?_⟩
    · intro o ho
      obtain ⟨old, hold, rfl⟩ := List.mem_map.mp ho
      rw [hrow, hflag]
      exact h.flagged old hold
    · have hkeys : ((resolveOutcome id status value db).outcomes.map fun o => outcomeKeyOf o.toOutcomeRow) =
          db.outcomes.map fun o => outcomeKeyOf o.toOutcomeRow := by
        unfold resolveOutcome
        rw [List.map_map]
        exact List.map_congr_left fun o _ => congrArg outcomeKeyOf (hrow o)
      exact hkeys ▸ h.distinct.keys
    · intro o ho
      obtain ⟨old, hold, rfl⟩ := List.mem_map.mp ho
      rw [hrow]
      exact h.distinct.rules old hold

theorem empty_marked : WellMarked WorkerDb.empty := by
  refine ⟨?_, List.nodup_nil, ?_⟩
  · exact fun o ho => nomatch ho
  · exact fun o ho => nomatch ho

theorem run_marked (cfg : ChainConfig) (env : T10Env) (events : List Event) :
    Invariant (Steps.run (step cfg env) WorkerDb.empty events) ∧ WellMarked (Steps.run (step cfg env) WorkerDb.empty events) :=
  Steps.invariant_run_free (fun db => Invariant db ∧ WellMarked db)
    (fun db e h => ⟨step_invariant db e h.1, step_marked db e h.1 h.2⟩) ⟨empty_invariant, empty_marked⟩

/-- The rows of one token are all live or all backfilled. -/
theorem same_era (hdb : Consistent db) (h : Flagged db) {o o' : Outcome} (ho : o ∈ db.outcomes) (ho' : o' ∈ db.outcomes)
    (hchain : o.chainId = o'.chainId) (htoken : o.tokenAddress = o'.tokenAddress) :
    o.retrospective = o'.retrospective := by
  obtain ⟨l, hl, he⟩ := List.mem_map.mp (h o ho)
  obtain ⟨l', hl', he'⟩ := List.mem_map.mp (h o' ho')
  simp only [flagOf, Prod.mk.injEq] at he he'
  obtain ⟨h1, h2, h3⟩ := he
  obtain ⟨h1', h2', h3'⟩ := he'
  have hsame : tokenOf l = tokenOf l' := by
    rw [tokenOf, tokenOf, h1, h2, h1', h2', hchain, htoken]
  rw [← h3, ← h3', List.inj_on_of_nodup_map hdb.tokens hl hl' hsame]

end LaunchAuditor.Proofs.Eras
