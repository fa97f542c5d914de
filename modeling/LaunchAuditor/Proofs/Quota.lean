import LaunchAuditor.Proofs.Duplicates

namespace LaunchAuditor.Proofs.Quota
open Chain Outcomes Scoring Db Watcher Report Scorer Pipeline Steps

/-- What the quota looks at of a launch. -/
structure LaunchQuota where
  chainId : Nat
  creator : Address
  launchAt : Option Int
  exceeded : Bool

def quotaOf (l : Launch) : LaunchQuota := ⟨l.chainId, l.creatorAddress, l.launchAt, l.quotaExceeded⟩

def quotas (db : WorkerDb) : List LaunchQuota := db.launches.map quotaOf

/-- The launch is the creator's, in the day from an instant on. -/
def inDay (chainId : Nat) (creator : Address) (from_ : Int) (q : LaunchQuota) : Bool :=
  decide (q.chainId = chainId ∧ q.creator = creator) && q.launchAt.any fun t => decide (from_ ≤ t ∧ t ≤ from_ + DAY_MS)

/-- A launch is flagged exactly when the creator's launches of the day before it use up the quota. -/
def Flagged (limit : Nat) (before : List LaunchQuota) (q : LaunchQuota) : Prop :=
  ∃ t, q.launchAt = some t ∧ (q.exceeded = true ↔ limit ≤ before.countP (inDay q.chainId q.creator (t - DAY_MS)))

def reported (db : WorkerDb) (l : Launch) : Bool := db.reports.any fun r => decide (r.launchId = some l.id)

/-- The benchmark has rows for the launch. -/
def scored (rows : List ScoreRow) (l : Launch) : Bool :=
  rows.any fun r => decide ((r.obsId.chainId, r.obsId.token) = tokenOf l)

/-- In every day the creator has reports and rows within the quota; what is beyond it is flagged, and left out. -/
structure QuotaHeld (limit : Nat) (db : WorkerDb) : Prop where
  flagged : Throughout (Flagged limit) (quotas db)
  reports : ∀ chainId creator from_,
    (db.launches.countP fun l => inDay chainId creator from_ (quotaOf l) && reported db l) ≤ limit
  rows : ∀ maps opts chainId creator from_,
    (db.launches.countP fun l => inDay chainId creator from_ (quotaOf l) && scored (collectScoreRows db maps opts).rows l) ≤
      limit
  withheld : ∀ l ∈ db.launches, l.quotaExceeded = true →
    reported db l = false ∧ ∀ maps opts, scored (collectScoreRows db maps opts).rows l = false

/-- The launch times are in the order of the launches. -/
def earlier (a b : LaunchQuota) : Prop := ∀ t ∈ a.launchAt, ∀ t' ∈ b.launchAt, t ≤ t'

/-- Launches come in in the order of their times, under one quota. -/
def InOrder (cfg : ChainConfig) (limit : Nat) (db : WorkerDb) : Event → Prop
  | .ingest deps io log => deps.quotaPerCreator24h = limit ∧
      ∀ pc row, decodePoolCreation log = .ok (some pc) → prepareLaunch cfg deps io ⟨pc, log⟩ db = .ok (some row) →
        ∀ q ∈ quotas db, earlier q (quotaOf row.launch)
  | _ => True

/-- Nothing is reported of a flagged launch. -/
def Heeds (cfg : ChainConfig) (db : WorkerDb) : Event → Prop
  | .t10 _ launchId => ∀ l, db.launch launchId = some l → l.quotaExceeded = false
  | .assess _ token => ∀ l, db.launchOf cfg.chainId token = some l → l.quotaExceeded = false
  | .deepdive _ launchId _ => ∀ l, db.launch launchId = some l → l.quotaExceeded = false
  | _ => True

section Windows
variable {limit : Nat} {qs : List LaunchQuota}

/-- Of a day's launches no more than the quota go unflagged. -/
theorem unflagged_le (hflags : Throughout (Flagged limit) qs) (horder : qs.Pairwise earlier) (chainId : Nat)
    (creator : Address) (from_ : Int) :
    (qs.countP fun q => inDay chainId creator from_ q && !q.exceeded) ≤ limit := by
  induction qs using List.reverseRecOn with
  | nil => exact Nat.zero_le limit
  | append_singleton qs q ih =>
    obtain ⟨hflags, t, ht, hq⟩ := throughout_snoc.mp hflags
    obtain ⟨horder, _, hlast⟩ := List.pairwise_append.mp horder
    have hrest := ih hflags horder
    rw [List.countP_append, List.countP_singleton]
    by_cases hin : (inDay chainId creator from_ q && !q.exceeded) = true
    · rw [if_pos hin]
      simp only [inDay, ht, Option.any_some, Bool.and_eq_true, decide_eq_true_eq, Bool.not_eq_true'] at hin
      obtain ⟨⟨⟨rfl, rfl⟩, hfrom, _⟩, hunflagged⟩ := hin
      -- all that is counted here was counted when the last one came in
      have hday : (qs.countP fun p => inDay q.chainId q.creator from_ p && !p.exceeded) ≤
          qs.countP (inDay q.chainId q.creator (t - DAY_MS)) := by
        apply List.countP_mono_left
        intro p hp hcounted
        have hle := hlast p hp q (List.mem_singleton.mpr rfl)
        simp only [inDay, Bool.and_eq_true, decide_eq_true_eq] at hcounted ⊢
        refine ⟨hcounted.1.1, ?_⟩
        obtain ⟨t', ht', hbounds⟩ := (Option.any_eq_true _ _).mp hcounted.1.2
        have htt := hle t' ht' t ht
        rw [decide_eq_true_eq] at hbounds
        rw [ht', Option.any_some, decide_eq_true_eq]
        omega
      have hbelow : ¬ limit ≤ qs.countP (inDay q.chainId q.creator (t - DAY_MS)) := by
        rw [← hq, hunflagged]
        decide
      omega
    · rw [if_neg hin]
      exact hrest

/-- What is counted for unflagged launches only. -/
theorem counted_le {launches : List Launch} (hflags : Throughout (Flagged limit) (launches.map quotaOf))
    (horder : (launches.map quotaOf).Pairwise earlier) {counted : Launch → Bool}
    (h : ∀ l ∈ launches, l.quotaExceeded = true → counted l = false) (chainId : Nat) (creator : Address) (from_ : Int) :
    (launches.countP fun l => inDay chainId creator from_ (quotaOf l) && counted l) ≤ limit := by
  have hle := unflagged_le hflags horder chainId creator from_
  rw [List.countP_map] at hle
  refine Nat.le_trans (List.countP_mono_left ?_) hle
  intro l hl hcounted
  rw [Bool.and_eq_true] at hcounted
  have hunflagged : l.quotaExceeded = false := by
    cases hflag : l.quotaExceeded with
    | false => rfl
    | true => exact absurd hcounted.2 (by rw [h l hl hflag]; decide)
  have hexceeded : (quotaOf l).exceeded = false := hunflagged
  rw [Function.comp_apply, hcounted.1, hexceeded]
  rfl

end Windows

structure Clean (db : WorkerDb) : Prop where
  reports : ∀ r ∈ db.reports, ∃ l ∈ db.launches, r.launchId = some l.id ∧ l.quotaExceeded = false
  outcomes : ∀ o ∈ db.outcomes, ∃ l ∈ db.launches, (o.chainId, o.tokenAddress) = tokenOf l ∧ l.quotaExceeded = false

section Steps
variable {cfg : ChainConfig} {env : T10Env} {db db' : WorkerDb}

theorem Clean.same (h : Clean db) (hsame : SameLaunches db db') (hreports : db'.reports = db.reports)
    (houtcomes : db'.outcomes = db.outcomes) : Clean db' where
  reports := by
    rw [hreports]
    intro r hr
    obtain ⟨l, hl, hid, hunflagged⟩ := h.reports r hr
    obtain ⟨l', hl', hkept⟩ := hsame.forward hl
    exact ⟨l', hl', by rw [hid, hkept.id], hkept.quotaExceeded.trans hunflagged⟩
  outcomes := by
    rw [houtcomes]
    intro o ho
    obtain ⟨l, hl, htoken, hunflagged⟩ := h.outcomes o ho
    obtain ⟨l', hl', hkept⟩ := hsame.forward hl
    refine ⟨l', hl', ?_, hkept.quotaExceeded.trans hunflagged⟩
    rw [htoken, tokenOf, tokenOf, hkept.chainId, hkept.tokenAddress]

theorem quotas_same (h : SameLaunches db db') : quotas db' = quotas db := by
  apply h.map_eq quotaOf
  intro l l' hkept
  rw [quotaOf, quotaOf, hkept.chainId, hkept.creatorAddress, hkept.launchAt, hkept.quotaExceeded]

theorem storeAll_clean (createdAt : Nat → Int) (n : Nat) {drafts : List ReportDraft} {l : Launch} (hl : l ∈ db.launches)
    (hunflagged : l.quotaExceeded = false) (hid : ∀ d ∈ drafts, d.content.launchId = some l.id) (h : Clean db) :
    Clean (storeAll createdAt n drafts db) := by
  have hstep : ∀ d ∈ drafts, ∀ at_ db', Clean db' ∧ db'.launches = db.launches →
      Clean (upsertReport d at_ db') ∧ (upsertReport d at_ db').launches = db.launches := by
    rintro d hd at_ db' ⟨hclean, hsame⟩
    refine ⟨⟨?_, hclean.outcomes⟩, hsame⟩
    intro r hr
    rcases mem_upsertReport hr with rfl | ⟨old, hold, passed, rfl⟩
    · have hl' : l ∈ db'.launches := by
        rw [hsame]
        exact hl
      exact ⟨l, hl', hid d hd, hunflagged⟩
    · exact hclean.reports old hold
  exact (storeAll_keeps (fun db' => Clean db' ∧ db'.launches = db.launches) createdAt n hstep ⟨h, rfl⟩).1

theorem createOutcomes_clean {rows : List Outcome} {l : Launch} (hl : l ∈ db.launches) (hunflagged : l.quotaExceeded = false)
    (htoken : ∀ o ∈ rows, (o.chainId, o.tokenAddress) = tokenOf l) (h : Clean db) : Clean (createOutcomes rows db) := by
  refine ⟨h.reports, ?_⟩
  intro o ho
  rcases mem_createOutcomes ho with ho | ho
  · exact h.outcomes o ho
  · exact ⟨l, hl, htoken o ho, hunflagged⟩

/-- The reports of one unflagged launch. -/
theorem persist_clean (calls : PersistCalls) {first : ReportDraft} {drafts : List ReportDraft} {l : Launch}
    (hdb : Consistent db) (hl : l ∈ db.launches) (hunflagged : l.quotaExceeded = false)
    (hid : ∀ d ∈ first :: drafts, d.content.launchId = some l.id)
    (htoken : (first.content.chainId, first.content.tokenAddress) = tokenOf l) (h : Clean db) :
    Clean (persistLaunchReports calls (first :: drafts) db).2 := by
  have hstate := persist_state calls first drafts (hid first List.mem_cons_self) (hdb.launch_eq hl)
  have hstored := storeAll_clean calls.createdAt 0 hl hunflagged
    (fun d hd => hid d (List.mem_of_mem_take (i := storedCount calls 0 (first :: drafts).length) hd)) h
  have hlaunches := storeAll_launches calls.createdAt 0
    ((first :: drafts).take (storedCount calls 0 (first :: drafts).length)) db
  dsimp only at hstate
  generalize storeAll calls.createdAt 0 ((first :: drafts).take (storedCount calls 0 (first :: drafts).length)) db =
    stored at *
  rcases hstate with ⟨_, he⟩ | ⟨_, he⟩
  · rw [he]
    refine createOutcomes_clean (hlaunches ▸ hl) hunflagged ?_ hstored
    intro o ho
    obtain ⟨key, _, rfl⟩ := List.mem_map.mp ho
    exact htoken
  · rw [he]
    exact hstored

theorem persist_launches (calls : PersistCalls) (drafts : List ReportDraft) (db : WorkerDb) :
    (persistLaunchReports calls drafts db).2.launches = db.launches := by
  obtain ⟨rows, he⟩ := persist_cases calls drafts db
  rw [he]
  exact storeAll_launches _ _ _ _

theorem launchDrafts_clean (hdb : Consistent db) {l : Launch} (hl : l ∈ db.launches) (hunflagged : l.quotaExceeded = false)
    (env : ReportEnv) (calls : PersistCalls) (trigger : ReportTrigger) (inputs : FeatureInputs) (block : Block)
    (h : Clean db) : Clean (persistLaunchReports calls (launchDrafts env l trigger inputs block) db).2 := by
  refine persist_clean calls hdb hl hunflagged ?_ rfl h
  intro d hd
  have hd' : d ∈ launchDrafts env l trigger inputs block := hd
  obtain ⟨fc, _, rfl⟩ := List.mem_map.mp hd'
  rfl

theorem reportLaunch_clean (hdb : Consistent db) {l : Launch} {launchId : String} (hl : db.launch launchId = some l)
    (hunflagged : l.quotaExceeded = false) (env : ReportEnv) (build : BuildCalls) (persist : PersistCalls) (h : Clean db) :
    Clean (reportLaunch cfg env build persist launchId db) ∧
      (reportLaunch cfg env build persist launchId db).launches = db.launches := by
  unfold reportLaunch
  rcases buildLaunchReports_cases cfg env build .launch hl with ⟨block, inputs, _, hok⟩ | ⟨_, e, herror⟩
  · rw [hok]
    exact ⟨launchDrafts_clean hdb (launch_mem hl).1 hunflagged env persist .launch inputs block h, persist_launches _ _ _⟩
  · rw [herror]
    exact ⟨h, rfl⟩

theorem runT10_clean (hdb : Consistent db) (calls : T10Calls) (launchId : String)
    (hheeds : ∀ l, db.launch launchId = some l → l.quotaExceeded = false) (h : Clean db) :
    Clean (runT10ForLaunch cfg env calls launchId db).2 ∧
      quotas (runT10ForLaunch cfg env calls launchId db).2 = quotas db := by
  cases hl : db.launch launchId with
  | none =>
    rw [runT10_unknown cfg env calls hl]
    exact ⟨h, rfl⟩
  | some l =>
    have hmoved : Moved db (prepareT10 cfg env calls launchId db).2 := prepareT10_moved hdb
    have hcases := runT10_cases cfg env calls hdb hl
    dsimp only at hcases
    generalize (prepareT10 cfg env calls launchId db) = prepared at hmoved hcases
    have hprepared : Clean prepared.2 := h.same hmoved.launches hmoved.reports hmoved.outcomes
    have hdb' : Consistent prepared.2 := hdb.same hmoved.launches (by rw [hmoved.features]) hmoved.reports
    rcases hcases with ⟨_, he⟩ | ⟨row, _, ⟨_, he⟩ | hstored⟩
    · rw [he]
      exact ⟨hprepared, quotas_same hmoved.launches⟩
    · rw [he]
      exact ⟨hprepared, quotas_same hmoved.launches⟩
    · have hsame : SameLaunches prepared.2 (storeT10 calls.now launchId row prepared.2) := storeT10_launches calls.now row
      have hclean : Clean (storeT10 calls.now launchId row prepared.2) :=
        hprepared.same hsame (storeT10_reports calls.now row) (storeT10_outcomes calls.now row)
      have hquotas := quotas_same (hmoved.launches.trans hsame)
      rcases hstored with ⟨_, _, he⟩ | ⟨_, _, _, he⟩
      · rw [he]
        exact ⟨hclean, hquotas⟩
      · rw [he]
        have hfeatures : (storeT10 calls.now launchId row prepared.2).features.map Feature.launchId =
            prepared.2.features.map Feature.launchId := by
          rw [storeT10_features, List.map_map]
          apply List.map_congr_left
          intro f _
          simp only [Function.comp_apply]
          split
          · exact writeT10_launchId calls.now row f
          · rfl
        have hconsistent := hdb'.same hsame hfeatures (storeT10_reports calls.now row)
        obtain ⟨l', hl', hkept⟩ := (hmoved.launches.trans hsame).forward (launch_mem hl).1
        have hfound := hconsistent.launch_eq hl'
        rw [hkept.id, (launch_mem hl).2] at hfound
        obtain ⟨hreported, hlaunches⟩ := reportLaunch_clean hconsistent hfound
          (hkept.quotaExceeded.trans (hheeds l hl)) env.report calls.build calls.persist hclean
        exact ⟨hreported, by rw [← hquotas, quotas, hlaunches, quotas]⟩

theorem step_clean (hdb : Consistent db) (e : Event) (hheeds : Heeds cfg db e) (h : Clean db) :
    Clean (step cfg env db e) := by
  cases e with
  | ingest deps io log =>
    unfold step
    dsimp only
    split
    · rcases ingestPool_cases with ⟨row, _, _, jobs, he⟩ | he
      · rw [he]
        constructor
        · intro r hr
          obtain ⟨l, hl, hr'⟩ := h.reports r hr
          exact ⟨l, List.mem_append_left _ hl, hr'⟩
        · intro o ho
          obtain ⟨l, hl, ho'⟩ := h.outcomes o ho
          exact ⟨l, List.mem_append_left _ hl, ho'⟩
      · rw [he]
        exact h
    · exact h
  | t10 calls launchId => exact (runT10_clean hdb calls launchId hheeds h).1
  | assess calls token =>
    unfold step
    dsimp only
    rcases runAssess_cases hdb env.report calls token with he | ⟨l, hl, inputs, block, he⟩
    · rw [he]
      exact h
    · rw [he]
      exact launchDrafts_clean hdb (List.mem_of_find?_eq_some hl) (hheeds l hl) env.report calls.persist .on_demand inputs block h
  | deepdive calls launchId input =>
    unfold step
    dsimp only
    cases hl : db.launch launchId with
    | none => exact h
    | some l =>
      refine persist_clean calls hdb (launch_mem hl).1 (hheeds l hl) ?_ rfl h
      intro d hd
      rw [List.mem_singleton.mp hd]
      rfl
  | commit id blockNumber batch =>
    refine ⟨?_, h.outcomes⟩
    intro r hr
    obtain ⟨old, hold, commitId, rfl⟩ := mem_commitBatch hr
    exact h.reports old hold
  | resolve id status value =>
    refine ⟨h.reports, ?_⟩
    intro o ho
    obtain ⟨old, hold, rfl⟩ := List.mem_map.mp ho
    split
    · exact h.outcomes old hold
    · exact h.outcomes old hold

/-- The launches of the table, or one more that the quota has been asked for. -/
theorem step_quotas (env : T10Env) (hdb : Consistent db) {limit : Nat} (e : Event) (horder : InOrder cfg limit db e)
    (hheeds : Heeds cfg db e) (h : Clean db) :
    quotas (step cfg env db e) = quotas db ∨ ∃ q, quotas (step cfg env db e) = quotas db ++ [q] ∧
      Flagged limit (quotas db) q ∧ ∀ p ∈ quotas db, earlier p q := by
  cases e with
  | ingest deps io log =>
    unfold step
    dsimp only
    split
    · rename_i pc hpc
      rcases ingestPool_cases with ⟨row, hrow, _, jobs, he⟩ | he
      · rw [he]
        refine Or.inr ⟨quotaOf row.launch, List.map_append, ?_, horder.2 pc row hpc hrow⟩
        obtain ⟨pair, tx, rfl⟩ := prepareLaunch_row hrow
        refine ⟨tx.timestamp * 1000, rfl, ?_⟩
        change creatorQuotaExceeded db cfg.chainId tx.from_ (tx.timestamp * 1000) deps.quotaPerCreator24h = true ↔ _
        rw [creatorQuotaExceeded, isOverQuota, decide_eq_true_eq, horder.1, quotas, List.countP_map]
        have hcount : priorLaunches db cfg.chainId tx.from_ (tx.timestamp * 1000) =
            db.launches.countP (inDay cfg.chainId tx.from_ ((tx.timestamp * 1000 : Int) - DAY_MS) ∘ quotaOf) := by
          apply List.countP_congr
          intro l _
          simp only [Function.comp_apply, inDay, quotaOf, sub_add_cancel]
          exact Iff.rfl
        rw [hcount]
        rfl
      · rw [he]
        exact Or.inl rfl
    · exact Or.inl rfl
  | t10 calls launchId => exact Or.inl (runT10_clean hdb calls launchId hheeds h).2
  | assess calls token =>
    left
    unfold step
    dsimp only
    rcases runAssess_cases hdb env.report calls token with he | ⟨l, _, inputs, block, he⟩
    · rw [he]
    · rw [he, quotas, persist_launches, quotas]
  | deepdive calls launchId input =>
    left
    unfold step
    dsimp only
    split
    · rfl
    · rw [quotas, persist_launches, quotas]
  | commit id blockNumber batch => exact Or.inl rfl
  | resolve id status value => exact Or.inl rfl

end Steps

/-- A pass scores what has an outcome. -/
theorem pairs_observed {db : WorkerDb} {maps : ScannerMaps} {opts : CollectOptions} {p : ScorePair}
    (hp : p ∈ collectPairs db maps opts) : ∃ o ∈ db.outcomes, obsKeyOf o = p.obsId := by
  have hkey : p.obsId ∈ OrderedMap.keys (scoredObs db opts.scope) := by
    rw [collectPairs_eq] at hp
    rcases List.mem_append.mp hp with hp | hp
    · rcases List.mem_append.mp hp with hp | hp
      · obtain ⟨r, _, hp⟩ := List.mem_flatMap.mp hp
        rw [(mem_reportPairs hp).1]
        unfold reportPairs at hp
        cases hobs : (scoredObs db opts.scope).lookup (reportObs r) with
        | none =>
          rw [hobs] at hp
          cases hp
        | some e => exact OrderedMap.mem_keys_iff.mpr ⟨e, hobs⟩
      · obtain ⟨a, ha, hp⟩ := List.mem_flatMap.mp hp
        obtain ⟨l, _, hp⟩ := List.mem_flatMap.mp hp
        rw [(mem_baseCell hp).2.1, ← (observations_entry ha).key]
        exact List.mem_map_of_mem ha
    · obtain ⟨feature, _, hp⟩ := List.mem_flatMap.mp hp
      obtain ⟨_, _, hobs, _⟩ := mem_featurePairs hp
      exact OrderedMap.mem_keys_iff.mpr (Option.isSome_iff_exists.mp hobs)
  obtain ⟨o, ho, hobs⟩ := mem_keys_observations.mp hkey
  exact ⟨o, (List.mem_filter.mp ho).1, hobs⟩

/-- Nothing is scored of a flagged launch. -/
theorem Clean.withheld {db : WorkerDb} (h : Clean db) (hdb : Consistent db) {l : Launch} (hl : l ∈ db.launches)
    (hflag : l.quotaExceeded = true) :
    reported db l = false ∧ ∀ maps opts, scored (collectScoreRows db maps opts).rows l = false := by
  constructor
  · rw [reported, List.any_eq_false]
    intro r hr hid
    obtain ⟨l', hl', hid', hunflagged⟩ := h.reports r hr
    rw [decide_eq_true_eq, hid'] at hid
    have hsame := List.inj_on_of_nodup_map hdb.ids hl' hl (Option.some.inj hid)
    rw [hsame, hflag] at hunflagged
    cases hunflagged
  · intro maps opts
    rw [scored, List.any_eq_false]
    intro row hrow htoken
    obtain ⟨p, hp, hrow⟩ := List.mem_filterMap.mp hrow
    have hobs : p.obsId = row.obsId := by
      split at hrow
      · rw [← Option.some.inj hrow]
      · cases hrow
    obtain ⟨o, ho, hko⟩ := pairs_observed hp
    obtain ⟨l', hl', htoken', hunflagged⟩ := h.outcomes o ho
    rw [decide_eq_true_eq, ← hobs, ← hko] at htoken
    have hsame := List.inj_on_of_nodup_map hdb.tokens hl' hl (htoken'.symm.trans htoken)
    rw [hsame, hflag] at hunflagged
    cases hunflagged

/-- What every run that leaves flagged launches alone keeps. -/
structure Heeded (limit : Nat) (db : WorkerDb) : Prop where
  inv : Invariant db
  clean : Clean db
  flagged : Throughout (Flagged limit) (quotas db)
  ordered : (quotas db).Pairwise earlier

theorem Heeded.held {limit : Nat} {db : WorkerDb} (h : Heeded limit db) : QuotaHeld limit db where
  flagged := h.flagged
  reports := counted_le h.flagged h.ordered fun _ hl hflag => (h.clean.withheld h.inv.1 hl hflag).1
  rows := fun maps opts => counted_le h.flagged h.ordered fun _ hl hflag => (h.clean.withheld h.inv.1 hl hflag).2 maps opts
  withheld := fun _ hl hflag => h.clean.withheld h.inv.1 hl hflag

theorem step_heeded {cfg : ChainConfig} {env : T10Env} {limit : Nat} (db : WorkerDb) (e : Event) (h : Heeded limit db)
    (hok : InOrder cfg limit db e ∧ Heeds cfg db e) : Heeded limit (step cfg env db e) := by
  refine ⟨step_invariant db e h.inv, step_clean h.inv.1 e hok.2 h.clean, ?_, ?_⟩
  · rcases step_quotas env h.inv.1 e hok.1 hok.2 h.clean with he | ⟨q, he, hflag, _⟩
    · rw [he]
      exact h.flagged
    · rw [he]
      exact throughout_snoc.mpr ⟨h.flagged, hflag⟩
  · rcases step_quotas env h.inv.1 e hok.1 hok.2 h.clean with he | ⟨q, he, _, horder⟩
    · rw [he]
      exact h.ordered
    · rw [he]
      refine List.pairwise_append.mpr ⟨h.ordered, List.pairwise_singleton _ _, ?_⟩
      intro p hp q' hq'
      rw [List.mem_singleton.mp hq']
      exact horder p hp

/-- The quota is held in every run that leaves flagged launches alone. -/
theorem quota_held (cfg : ChainConfig) (env : T10Env) (limit : Nat) (events : List Event)
    (horder : Always (step cfg env) (InOrder cfg limit) WorkerDb.empty events)
    (hheeds : Always (step cfg env) (Heeds cfg) WorkerDb.empty events) :
    QuotaHeld limit (Steps.run (step cfg env) WorkerDb.empty events) := by
  have hempty : Heeded limit WorkerDb.empty :=
    ⟨empty_invariant, ⟨fun r hr => (nomatch hr), fun o ho => (nomatch ho)⟩, throughout_nil, List.Pairwise.nil⟩
  exact (invariant_run (Heeded limit) step_heeded hempty (horder.and hheeds)).held

def oneADay : IngestDeps := ⟨1, false, false⟩

def otherIngest : IngestIo := { Enqueue.goodIngest with launchId := "l2" }

def otherPool : RpcLog :=
  { PollerSafety.creationLog 12 78#256 with topics := [POOL_EVENT_TOPIC0.v4Initialize, 78#256, 6#256, 12#256] }

def bothIndexed : List Event :=
  [.ingest oneADay Enqueue.goodIngest (PollerSafety.creationLog 11 77#256), .ingest oneADay otherIngest otherPool]

/-- With outcome rows of its own. -/
def otherAnswered : T10Calls :=
  { Reporting.answered with persist := { Reporting.answered.persist with outcomeId := fun key => "other" ++ key.horizon } }

def bothReported : List Event := bothIndexed ++ [.t10 Reporting.answered "l1", .t10 otherAnswered "l2"]

def bothScored : List Event :=
  bothReported ++
    [.commit "c1" (some 100)
        ((Steps.run (step sampleConfig Completion.sampleEnv) WorkerDb.empty bothReported).reports.map Db.Report.content),
      .resolve "72h" .RESOLVED (some true), .resolve "other72h" .RESOLVED (some true)]

/-- Both are of one time. -/
theorem bothIndexed_inOrder :
    Always (step sampleConfig Completion.sampleEnv) (InOrder sampleConfig 1) WorkerDb.empty bothIndexed := by
  refine ⟨⟨rfl, fun _ _ _ _ q hq => (nomatch hq)⟩, ⟨rfl, ?_⟩, trivial⟩
  generalize hdb : step sampleConfig Completion.sampleEnv WorkerDb.empty
    (.ingest oneADay Enqueue.goodIngest (PollerSafety.creationLog 11 77#256)) = db
  intro pc row hpc hrow q hq t ht t' ht'
  have hold : (quotas db).map LaunchQuota.launchAt = [some 1000000] := by
    rw [← hdb]
    decide +kernel
  have hnew : ((decodePoolCreation otherPool).toOption.join.map fun pc =>
      (prepareLaunch sampleConfig oneADay otherIngest ⟨pc, otherPool⟩ db).toOption.join.map fun row => row.launch.launchAt) =
        some (some (some 1000000)) := by
    rw [← hdb]
    decide +kernel
  rw [hpc] at hnew
  change some ((prepareLaunch sampleConfig oneADay otherIngest ⟨pc, otherPool⟩ db).toOption.join.map
    fun row => row.launch.launchAt) = _ at hnew
  rw [hrow] at hnew
  have hq' : q.launchAt ∈ (quotas db).map LaunchQuota.launchAt := List.mem_map_of_mem hq
  rw [hold, List.mem_singleton] at hq'
  have hrow' : (quotaOf row.launch).launchAt = some 1000000 := Option.some.inj (Option.some.inj hnew)
  rw [hq', Option.mem_some_iff] at ht
  rw [hrow', Option.mem_some_iff] at ht'
  omega

/-- The job of the launch that is not flagged has run. -/
theorem quota_held_first : QuotaHeld 1
    (Steps.run (step sampleConfig Completion.sampleEnv) WorkerDb.empty (bothIndexed ++ [.t10 Reporting.answered "l1"])) := by
  refine quota_held sampleConfig Completion.sampleEnv 1 _ (bothIndexed_inOrder.append ⟨trivial, trivial⟩)
    ⟨trivial, trivial, ?_, trivial⟩
  intro l hl
  have hflag := congrArg (Option.map Launch.quotaExceeded) hl
  have hfirst : (WorkerDb.launch (Steps.run (step sampleConfig Completion.sampleEnv) WorkerDb.empty bothIndexed) "l1").map
      Launch.quotaExceeded = some false := by decide +kernel
  exact Option.some.inj (hflag.symm.trans hfirst)

/-- The second launch is flagged, and has rows all the same. -/
theorem second_scored : ¬ ∀ cfg env limit events, Always (step cfg env) (InOrder cfg limit) WorkerDb.empty events →
    QuotaHeld limit (Steps.run (step cfg env) WorkerDb.empty events) := by
  intro h
  have hreported : Always (step sampleConfig Completion.sampleEnv) (InOrder sampleConfig 1) WorkerDb.empty bothReported :=
    bothIndexed_inOrder.append ⟨trivial, trivial, trivial⟩
  have hheld := h sampleConfig Completion.sampleEnv 1 bothScored (hreported.append ⟨trivial, trivial, trivial, trivial⟩)
  have hrows := hheld.rows ⟨fun _ => [], fun _ => []⟩ ⟨.both, fun _ => some 1900000⟩ 4663 8#160 1000000
  exact absurd hrows (by decide +kernel)

end LaunchAuditor.Proofs.Quota
