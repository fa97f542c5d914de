import LaunchAuditor.Proofs.Completion
import LaunchAuditor.Telegram.Poster

namespace LaunchAuditor.Proofs.Posts
open Chain Db Report Telegram Watcher Steps

/-- The poster among the jobs that write the tables; none of them writes `telegramPostedAt`. -/
inductive Step
  | jobs (e : Pipeline.Event)
  | sweep (now : Int)
  | send (e : SendEnd)
  | mark (w : WriteEnd) (now : Int)
  | restart

variable (cfg : ChainConfig) (env : T10Env) (deps : PosterDeps)

def step (f : Feed) : Step → Feed
  | .jobs e => { f with db := { f.db with toWorkerDb := Pipeline.step cfg env f.db.toWorkerDb e } }
  | .sweep now => f.sweep deps now
  | .send e => f.send deps e
  | .mark w now => f.mark w now
  | .restart => f.restart

/-- A feed that has posted nothing yet. -/
def fresh (db : WorkerDb) (stamps : String → CommitStamp) : Feed :=
  { db := { toWorkerDb := db, stamps, postedAt := [] }, poster := .stopped, channel := [] }

/-- The launches that are announced in the channel, in order. -/
def announced (f : Feed) : List (Option String) := f.channel.map fun p => p.row.report.launchId

/-- A message that reaches the channel is seen to, and its mark takes effect before the process ends. -/
def Marked (f : Feed) : Step → Prop
  | .send e => ∀ row rows result, f.poster = .posting (row :: rows) result → e ≠ .unanswered
  | .mark w _ => ∀ row rows result, f.poster = .marking row rows result → w.applied = true
  | .restart => ∀ row rows result, f.poster ≠ .marking row rows result
  | _ => True

/-- What may be announced, its mark, its age and the lane of its launch aside. -/
def announceable (db : FeedDb) (r : Db.Report) : Bool := r.forecaster = .det_v0 && isFresh (db.row r)

/-- The report of a launch that is about to be announced is the only one of its launch that ever could be. -/
def OnePerLaunch (db : FeedDb) (now : Int) : Prop :=
  ∀ r ∈ db.reports, db.isCandidate now r = true → isFresh (db.row r) = true →
    (db.reports.countP fun r' => announceable db r' && decide (r'.content.launchId = r.content.launchId)) ≤ 1

instance (db : FeedDb) (now : Int) : Decidable (OnePerLaunch db now) :=
  inferInstanceAs (Decidable (∀ r ∈ db.reports, _ → _ → _ ≤ 1))

/-- What a sweep reads has one report of each launch. -/
def Apart (f : Feed) : Step → Prop
  | .sweep now => OnePerLaunch f.db now
  | _ => True

/-- The reports of the messages in the channel. -/
def delivered (f : Feed) : List ReportContent := f.channel.map fun p => p.row.report

/-- The report of the message whose mark is under way. -/
def underWay : Poster → List ReportContent
  | .marking row _ _ => [row.report]
  | _ => []

/-- The reports that the sweep under way has still to send. -/
def queued : Poster → List ReportContent
  | .stopped => []
  | .posting rows _ | .marking _ rows _ => rows.map TelegramCandidateRow.report

/-- A stored report with this content may be announced. -/
def Stored (db : FeedDb) (c : ReportContent) : Prop := ∃ r ∈ db.reports, r.content = c ∧ announceable db r = true

/-- The channel holds what is marked as posted and what is about to be; and with what is still to be sent, each
launch is in it once. -/
structure Known (f : Feed) : Prop where
  marked : delivered f = (f.db.postedAt.map Prod.fst) ++ underWay f.poster
  stored : ∀ c ∈ delivered f ++ queued f.poster, Stored f.db c
  nodup : ((delivered f ++ queued f.poster).map ReportContent.launchId).Nodup

variable {cfg env deps} {f : Feed} {e : SendEnd} {w : WriteEnd} {now : Int}

theorem announced_eq (f : Feed) : announced f = (delivered f).map ReportContent.launchId := by
  rw [announced, delivered, List.map_map]
  rfl

def Keeps (db db' : WorkerDb) : Prop :=
  ∀ r ∈ db.reports, r.commitId.isSome = true → ∃ passed, { r with validatorPassed := passed } ∈ db'.reports

section Keeps
variable {db db' : WorkerDb}

theorem Keeps.of_eq (h : db'.reports = db.reports) : Keeps db db' := by
  intro r hr _
  exact ⟨r.validatorPassed, by rw [h]; exact hr⟩

theorem Keeps.trans {db'' : WorkerDb} (h : Keeps db db') (h' : Keeps db' db'') : Keeps db db'' := by
  intro r hr hcommitted
  obtain ⟨passed, hkept⟩ := h r hr hcommitted
  obtain ⟨passed', hkept'⟩ := h' _ hkept hcommitted
  exact ⟨passed', hkept'⟩

theorem persist_keeps (calls : PersistCalls) (drafts : List ReportDraft) (db : WorkerDb) :
    Keeps db (persistLaunchReports calls drafts db).2 := by
  obtain ⟨rows, he⟩ := persist_cases calls drafts db
  rw [he]
  refine (?_ : Keeps db (storeAll _ _ _ db)).trans (Keeps.of_eq rfl)
  apply storeAll_keeps (Keeps db)
  · intro d _ at_ db' h
    exact h.trans fun r hr _ => upsertReport_keeps d at_ hr
  · exact Keeps.of_eq rfl

theorem commitBatch_keeps (id : String) (blockNumber : Option Nat) (batch : List ReportContent) (db : WorkerDb) :
    Keeps db (Pipeline.commitBatch id blockNumber batch db) := by
  intro r hr hcommitted
  refine ⟨r.validatorPassed, List.mem_map.mpr ⟨r, hr, if_neg ?_⟩⟩
  intro hin
  rw [hin.2.1] at hcommitted
  cases hcommitted

theorem apply_reports (w : WriteEnd) {change : WorkerDb → WorkerDb} (h : (change db).reports = db.reports) :
    (w.apply change db).2.reports = db.reports := by
  rcases w.apply_state change db with he | he
  · rw [he]
  · rw [he, h]

variable {calls : T10Calls} {launchId : String}

theorem checkPrimaryPool_reports (l : Launch) : (checkPrimaryPool cfg env calls l db).2.reports = db.reports := by
  unfold checkPrimaryPool
  split
  · split
    · rfl
    · exact apply_reports calls.updatePool rfl
  · rfl

theorem storeTokenAge_reports (l : Launch) : (storeTokenAge cfg calls l db).2.reports = db.reports := by
  unfold storeTokenAge
  split
  · rfl
  · dsimp only
    split
    · rfl
    · exact apply_reports calls.updateTokenAge rfl

theorem computeRow_reports (l : Launch) (src : Address) : (computeRow cfg env calls l src db).2.reports = db.reports := by
  unfold computeRow
  split
  · rfl
  · split
    · rfl
    · have hage : (storeTokenAge cfg calls l db).2.reports = db.reports := storeTokenAge_reports l
      generalize storeTokenAge cfg calls l db = stored at hage
      obtain ⟨res, db'⟩ := stored
      cases res with
      | error e => exact hage
      | ok _ =>
        dsimp only
        repeat' split
        all_goals exact hage

theorem prepareT10_reports : (prepareT10 cfg env calls launchId db).2.reports = db.reports := by
  unfold prepareT10
  split
  · rfl
  · split
    · rfl
    · rename_i l hl
      have hcheck : (checkPrimaryPool cfg env calls l db).2.reports = db.reports := checkPrimaryPool_reports l
      generalize checkPrimaryPool cfg env calls l db = checked at hcheck
      obtain ⟨l', db'⟩ := checked
      dsimp only
      split
      · exact hcheck
      · rename_i src _
        have hrow : (computeRow cfg env calls l' src db').2.reports = db'.reports := computeRow_reports l' src
        generalize computeRow cfg env calls l' src db' = computed at hrow
        obtain ⟨res, db''⟩ := computed
        cases res with
        | error e => exact hrow.trans hcheck
        | ok row => exact hrow.trans hcheck

theorem runTransaction_reports (w : WriteEnd) (row : T10Row) :
    (runTransaction w now launchId row db).2.reports = db.reports := by
  unfold runTransaction
  split
  · rfl
  · exact apply_reports w (Pipeline.storeT10_reports now row)

theorem reportLaunch_keeps (env : ReportEnv) (build : BuildCalls) (persist : PersistCalls) :
    Keeps db (reportLaunch cfg env build persist launchId db) := by
  unfold reportLaunch
  split
  · exact Keeps.of_eq rfl
  · exact persist_keeps persist _ db

theorem runT10_keeps : Keeps db (runT10ForLaunch cfg env calls launchId db).2 := by
  unfold runT10ForLaunch
  have hprepared : (prepareT10 cfg env calls launchId db).2.reports = db.reports := prepareT10_reports
  generalize prepareT10 cfg env calls launchId db = prepared at hprepared
  obtain ⟨res, db'⟩ := prepared
  cases res with
  | error e => exact Keeps.of_eq hprepared
  | ok found =>
    cases found with
    | none => exact Keeps.of_eq hprepared
    | some row =>
      dsimp only at hprepared ⊢
      have hdone : (runTransaction calls.transaction calls.now launchId row db').2.reports = db'.reports :=
        runTransaction_reports calls.transaction row
      generalize runTransaction calls.transaction calls.now launchId row db' = transaction at hdone
      obtain ⟨res, db''⟩ := transaction
      have hsame : Keeps db db'' := Keeps.of_eq (hdone.trans hprepared)
      cases res with
      | error e => exact hsame
      | ok _ =>
        dsimp only
        split
        · exact hsame.trans (reportLaunch_keeps env.report calls.build calls.persist)
        · exact hsame

theorem runAssess_keeps (env : ReportEnv) (calls : AssessCalls) (token : Address) :
    Keeps db (runAssess cfg env calls token db).2 := by
  unfold runAssess
  split
  · exact Keeps.of_eq rfl
  · split
    · exact Keeps.of_eq rfl
    · split
      · exact Keeps.of_eq rfl
      · exact Keeps.of_eq rfl
      · rename_i drafts _ _
        have hkept := persist_keeps calls.persist drafts db
        generalize persistLaunchReports calls.persist drafts db = persisted at hkept
        obtain ⟨res, db'⟩ := persisted
        cases res with
        | error e => exact hkept
        | ok _ => exact hkept

theorem pipeline_keeps (e : Pipeline.Event) : Keeps db (Pipeline.step cfg env db e) := by
  cases e with
  | ingest deps io log =>
    unfold Pipeline.step
    dsimp only
    split
    · rcases Pipeline.ingestPool_cases with ⟨row, _, _, jobs, he⟩ | he
      · rw [he]
        exact Keeps.of_eq rfl
      · rw [he]
        exact Keeps.of_eq rfl
    · exact Keeps.of_eq rfl
  | t10 calls launchId => exact runT10_keeps
  | assess calls token => exact runAssess_keeps env.report calls token
  | deepdive calls launchId input =>
    unfold Pipeline.step
    dsimp only
    split
    · exact Keeps.of_eq rfl
    · exact persist_keeps calls _ db
  | commit id blockNumber batch => exact commitBatch_keeps id blockNumber batch db
  | resolve id status value => exact Keeps.of_eq rfl

end Keeps

theorem fresh_committed {db : FeedDb} {r : Db.Report} (h : isFresh (db.row r) = true) : r.commitId.isSome = true := by
  cases hid : r.commitId with
  | none => simp [isFresh, FeedDb.row, hid] at h
  | some id => rfl

theorem stored_jobs {c : ReportContent} {db : FeedDb} {db' : WorkerDb} (hkeeps : Keeps db.toWorkerDb db')
    (h : Stored db c) : Stored { db with toWorkerDb := db' } c := by
  obtain ⟨r, hr, hc, hann⟩ := h
  obtain ⟨passed, hkept⟩ := hkeeps r hr (fresh_committed ((Bool.and_eq_true _ _).mp hann).2)
  exact ⟨_, hkept, hc, hann⟩

/-- A report that is marked is not selected again. -/
theorem marked_not_candidate {db : FeedDb} {r : Db.Report} (h : r.content ∈ db.postedAt.map Prod.fst) :
    db.isCandidate now r = false := by
  obtain ⟨p, hp, he⟩ := List.mem_map.mp h
  have hposted : db.posted r.content = true := List.any_eq_true.mpr ⟨p, hp, decide_eq_true he⟩
  simp [FeedDb.isCandidate, hposted]

/-- The rows that are sent, among the stored reports. -/
def selected (db : FeedDb) (now : Int) : List Db.Report :=
  db.reports.filter fun r => db.isCandidate now r && isFresh (db.row r)

theorem mem_selected {db : FeedDb} {r : Db.Report} :
    r ∈ selected db now ↔ r ∈ db.reports ∧ db.isCandidate now r = true ∧ isFresh (db.row r) = true := by
  rw [selected, List.mem_filter, Bool.and_eq_true]

theorem selected_announceable {db : FeedDb} {r : Db.Report} (h : r ∈ selected db now) : announceable db r = true := by
  obtain ⟨_, hcandidate, hfresh⟩ := mem_selected.mp h
  have hdet : r.forecaster = .det_v0 := by
    simp only [FeedDb.isCandidate, Bool.and_eq_true, decide_eq_true_eq] at hcandidate
    exact hcandidate.1.1.1.1
  rw [announceable, hfresh, hdet]
  rfl

/-- The rows of a sweep are some of them, in some order. -/
theorem sweep_selected (db : FeedDb) (now : Int) (limit limit' : Nat) :
    ∃ rs : List Db.Report, rs.Perm (selected db now) ∧
      (((db.readCandidates now limit).filter isFresh).take limit').Sublist (rs.map db.row) := by
  let sorted := (db.reports.filter (db.isCandidate now)).insertionSort fun a b => a.createdAt ≤ b.createdAt
  refine ⟨sorted.filter fun r => isFresh (db.row r), ?_, ?_⟩
  · have hperm := (List.perm_insertionSort (fun a b : Db.Report => a.createdAt ≤ b.createdAt)
      (db.reports.filter (db.isCandidate now))).filter fun r => isFresh (db.row r)
    rw [List.filter_filter] at hperm
    refine hperm.trans (List.Perm.of_eq (List.filter_congr ?_))
    intro r _
    exact Bool.and_comm _ _
  · refine (List.take_sublist _ _).trans ?_
    rw [FeedDb.readCandidates, List.filter_map]
    exact ((List.take_sublist _ _).filter _).map _

/-- The selected reports are of different launches. -/
theorem OnePerLaunch.launches_nodup {db : FeedDb} (h : OnePerLaunch db now) :
    ((selected db now).map fun r => r.content.launchId).Nodup := by
  rw [List.nodup_iff_count_le_one]
  intro launchId
  by_cases hmem : launchId ∈ (selected db now).map fun r => r.content.launchId
  · obtain ⟨r, hr, rfl⟩ := List.mem_map.mp hmem
    obtain ⟨hstored, hcandidate, hfresh⟩ := mem_selected.mp hr
    refine le_trans ?_ (h r hstored hcandidate hfresh)
    rw [List.count, List.countP_map, selected, List.countP_filter]
    apply List.countP_mono_left
    intro r' hr' hsame
    rw [Bool.and_eq_true] at hsame ⊢
    have hann := selected_announceable (List.mem_filter.mpr ⟨hr', hsame.2⟩)
    exact ⟨hann, by simpa using hsame.1⟩
  · rw [List.count_eq_zero_of_not_mem hmem]
    exact Nat.zero_le 1

/-- A marked report of the launch of a selected one would be that one. -/
theorem OnePerLaunch.unmarked {db : FeedDb} (h : OnePerLaunch db now) {r : Db.Report} (hr : r ∈ selected db now)
    {c : ReportContent} (hc : c ∈ db.postedAt.map Prod.fst) (hstored : Stored db c) :
    c.launchId ≠ r.content.launchId := by
  intro hlaunch
  obtain ⟨r', hr', rfl, hann⟩ := hstored
  obtain ⟨hmem, hcandidate, hfresh⟩ := mem_selected.mp hr
  have hone := h r hmem hcandidate hfresh
  rw [List.countP_eq_length_filter] at hone
  have hin : r ∈ db.reports.filter fun r'' => announceable db r'' && decide (r''.content.launchId = r.content.launchId) := by
    simp [hmem, selected_announceable hr]
  have hin' : r' ∈ db.reports.filter fun r'' => announceable db r'' && decide (r''.content.launchId = r.content.launchId) := by
    simp [hr', hann, hlaunch]
  obtain ⟨r₀, hsingle⟩ := List.length_eq_one_iff.mp (Nat.le_antisymm hone (List.length_pos_of_mem hin))
  rw [hsingle, List.mem_singleton] at hin hin'
  obtain rfl : r' = r := hin'.trans hin.symm
  rw [marked_not_candidate hc] at hcandidate
  cases hcandidate

theorem fresh_known (db : WorkerDb) (stamps : String → CommitStamp) : Known (fresh db stamps) :=
  ⟨rfl, fun _ hc => (nomatch hc), List.nodup_nil⟩

theorem jobs_known (h : Known f) (e : Pipeline.Event) :
    Known { f with db := { f.db with toWorkerDb := Pipeline.step cfg env f.db.toWorkerDb e } } :=
  ⟨h.marked, fun c hc => stored_jobs (pipeline_keeps e) (h.stored c hc), h.nodup⟩

theorem send_known (h : Known f) (hm : Marked f (.send e)) : Known (f.send deps e) := by
  unfold Feed.send
  split
  · rename_i row rows result hposter
    cases e with
    | sent =>
      have hchannel : delivered { f.deliver deps row with poster := .marking row rows result } =
          delivered f ++ [row.report] := by simp [delivered, Feed.deliver]
      have hsame : delivered f ++ [row.report] ++ queued (.marking row rows result) = delivered f ++ queued f.poster := by
        rw [hposter, queued, queued, List.map_cons, List.append_assoc, List.singleton_append]
      refine ⟨?_, ?_, ?_⟩
      · rw [hchannel, h.marked, hposter]
        simp [underWay, Feed.deliver]
      · rw [hchannel, hsame]
        exact h.stored
      · rw [hchannel, hsame]
        exact h.nodup
    | refused =>
      have hsub : (delivered f ++ rows.map TelegramCandidateRow.report).Sublist (delivered f ++ queued f.poster) := by
        rw [hposter]
        exact (List.sublist_cons_self _ _).append_left _
      refine ⟨?_, fun c hc => h.stored c (hsub.subset hc), h.nodup.sublist (hsub.map _)⟩
      refine h.marked.trans ?_
      rw [hposter]
      rfl
    | unanswered => exact absurd rfl (hm row rows result hposter)
  · exact h

theorem mark_known (h : Known f) (hm : Marked f (.mark w now)) : Known (f.mark w now) := by
  unfold Feed.mark
  split
  · rename_i row rows result hposter
    rw [if_pos (hm row rows result hposter)]
    have hqueued : queued f.poster = rows.map TelegramCandidateRow.report := by rw [hposter, queued]
    refine ⟨?_, ?_, ?_⟩
    · refine h.marked.trans ?_
      rw [hposter]
      simp [underWay, FeedDb.markPosted]
    · have hstored := h.stored
      rw [hqueued] at hstored
      exact hstored
    · have hnodup := h.nodup
      rw [hqueued] at hnodup
      exact hnodup
  · exact h

theorem restart_known (h : Known f) (hm : Marked f .restart) : Known f.restart := by
  have hunder : underWay f.poster = [] := by
    cases hposter : f.poster with
    | stopped => rfl
    | posting rows result => rfl
    | marking row rows result => exact absurd hposter (hm row rows result)
  have hsub : (delivered f ++ []).Sublist (delivered f ++ queued f.poster) := (List.nil_sublist _).append_left _
  refine ⟨?_, fun c hc => h.stored c (hsub.subset hc), h.nodup.sublist (hsub.map _)⟩
  refine h.marked.trans ?_
  rw [hunder]
  rfl

/-- A sweep of an idle poster. -/
theorem begin_known (h : Known f) (hunder : underWay f.poster = []) (hone : OnePerLaunch f.db now)
    (limit limit' : Nat) (result : PosterSweepResult) :
    Known { f with poster := .posting (((f.db.readCandidates now limit).filter isFresh).take limit') result } := by
  have hmarked : delivered f = f.db.postedAt.map Prod.fst := by
    rw [h.marked, hunder, List.append_nil]
  obtain ⟨rs, hperm, hsub⟩ := sweep_selected f.db now limit limit'
  have hrow : ∀ row ∈ ((f.db.readCandidates now limit).filter isFresh).take limit', ∃ r ∈ selected f.db now,
      row.report = r.content := by
    intro row hmem
    obtain ⟨r, hr, rfl⟩ := List.mem_map.mp (hsub.subset hmem)
    exact ⟨r, hperm.mem_iff.mp hr, rfl⟩
  generalize ((f.db.readCandidates now limit).filter isFresh).take limit' = rows at hsub hrow
  refine ⟨?_, ?_, ?_⟩
  · refine hmarked.trans ?_
    simp [underWay]
  · intro c hc
    rcases List.mem_append.mp hc with hc | hc
    · exact h.stored c (List.mem_append_left _ hc)
    · obtain ⟨row, hmem, rfl⟩ := List.mem_map.mp hc
      obtain ⟨r, hr, he⟩ := hrow row hmem
      exact ⟨r, (mem_selected.mp hr).1, he.symm, selected_announceable hr⟩
  · rw [List.map_append, List.nodup_append]
    refine ⟨(List.nodup_append.mp (List.map_append ▸ h.nodup)).1, ?_, ?_⟩
    · have hnodup : (rs.map fun r => r.content.launchId).Nodup := (hperm.map _).nodup_iff.mpr hone.launches_nodup
      have hlaunches : (rows.map fun row => row.report.launchId).Sublist ((rs.map f.db.row).map fun row => row.report.launchId) :=
        hsub.map _
      rw [List.map_map] at hlaunches
      change ((rows.map TelegramCandidateRow.report).map ReportContent.launchId).Nodup
      rw [List.map_map]
      exact hnodup.sublist hlaunches
    · intro launchId hin launchId' hin' he
      obtain ⟨c, hc, rfl⟩ := List.mem_map.mp hin
      obtain ⟨c', hc', rfl⟩ := List.mem_map.mp hin'
      obtain ⟨row, hmem, rfl⟩ := List.mem_map.mp hc'
      obtain ⟨r, hr, hcontent⟩ := hrow row hmem
      rw [hcontent] at he
      exact hone.unmarked hr (hmarked ▸ hc) (h.stored c (List.mem_append_left _ hc)) he

theorem sweep_known (h : Known f) (deps : PosterDeps) (hone : OnePerLaunch f.db now) : Known (f.sweep deps now) := by
  unfold Feed.sweep
  split
  · rename_i hposter
    exact begin_known h (by rw [hposter]; rfl) hone _ _ _
  · rename_i hposter
    exact begin_known h (by rw [hposter]; rfl) hone _ _ _
  · exact h

theorem step_known (f : Feed) (s : Step) (h : Known f) (hs : Marked f s ∧ Apart f s) : Known (step cfg env deps f s) := by
  cases s with
  | jobs e => exact jobs_known h e
  | sweep now => exact sweep_known h deps hs.2
  | send e => exact send_known h hs.1
  | mark w now => exact mark_known h hs.1
  | restart => exact restart_known h hs.1

/-- As long as every message is marked, and every sweep finds for a launch that it is about to announce no other
report that could be announced, no launch is announced twice. -/
theorem announced_once (cfg : ChainConfig) (env : T10Env) (deps : PosterDeps) (db : WorkerDb)
    (stamps : String → CommitStamp) (steps : List Step)
    (hm : Always (step cfg env deps) Marked (fresh db stamps) steps)
    (ha : Always (step cfg env deps) Apart (fresh db stamps) steps) :
    (announced (run (step cfg env deps) (fresh db stamps) steps)).Nodup := by
  have hknown : Known (run (step cfg env deps) (fresh db stamps) steps) :=
    invariant_run Known step_known (fresh_known db stamps) (hm.and ha)
  rw [announced_eq]
  exact (List.nodup_append.mp (List.map_append ▸ hknown.nodup)).1

def detReport (trigger : ReportTrigger) (createdAt : Int) : Db.Report where
  chainId := 4663
  tokenAddress := 9#160
  reportTime := 600000
  trigger
  forecaster := .det_v0
  launchId := some "l1"
  columns := []
  content := ⟨4663, 9#160, some "l1", 600000, trigger, ⟨17, 5#256, 600⟩, .det_v0, "v0", [], [], none, none⟩
  validatorPassed := true
  createdAt
  commitId := some "c1"

/-- A launch of the qualified lane, with a committed report and perhaps that of an assessment. -/
def qualifiedDb (reports : List Db.Report) : WorkerDb :=
  { WorkerDb.empty with launches := [{ launchIn "l1" 17 with lane := .qualified }], reports }

def committed : String → CommitStamp := fun _ => ⟨some "0xdeadbeef", some 900000⟩

def sampleDeps : PosterDeps := ⟨"https://explorer.example", none, 5, fun _ => "0x11"⟩

def one : WorkerDb := qualifiedDb [detReport .qualified 700000]

def both : WorkerDb := qualifiedDb [detReport .qualified 700000, detReport .on_demand 800000]

def postedTwice (db : WorkerDb) (steps : List Step) : Bool :=
  announced (run (step sampleConfig Completion.sampleEnv sampleDeps) (fresh db committed) steps) = [some "l1", some "l1"]

def postedOnce : List Step := [.sweep 1000000, .send .sent, .mark .done 1000000, .restart, .sweep 1030000, .send .sent]

theorem announced_once_posted :
    (announced (run (step sampleConfig Completion.sampleEnv sampleDeps) (fresh one committed) postedOnce)).Nodup := by
  have hsent : ∀ f, Marked f (.send .sent) := by
    intro f row rows result _ h
    cases h
  refine announced_once sampleConfig Completion.sampleEnv sampleDeps one committed postedOnce ?_ ?_
  · refine ⟨trivial, hsent _, fun _ _ _ _ => rfl, ?_, trivial, hsent _, trivial⟩
    intro row rows result h
    cases h
  · have hfirst : OnePerLaunch (fresh one committed).db 1000000 := by decide +kernel
    have hagain : OnePerLaunch (run (step sampleConfig Completion.sampleEnv sampleDeps) (fresh one committed)
        [.sweep 1000000, .send .sent, .mark .done 1000000, .restart]).db 1030000 := by decide +kernel
    exact ⟨hfirst, trivial, trivial, trivial, hagain, trivial, trivial⟩

def timeout : RpcError := ⟨"TimeoutError", "timeout"⟩

/-- The mark fails; the process ends before it; a second report has a mark of its own. -/
theorem announced_twice :
    postedTwice one [.sweep 1000000, .send .sent, .mark (.refused timeout) 1000000, .sweep 1030000, .send .sent] = true ∧
      postedTwice one [.sweep 1000000, .send .sent, .restart, .sweep 1030000, .send .sent] = true ∧
      postedTwice both [.sweep 1000000, .send .sent, .mark .done 1000000, .send .sent, .mark .done 1000000] = true := by
  decide +kernel

end LaunchAuditor.Proofs.Posts
