import LaunchAuditor.Api.VerifyReceipt
import LaunchAuditor.Proofs.Duplicates

namespace LaunchAuditor.Proofs.ReceiptClasses
open Chain Outcomes Scoring Db Watcher Report Api VerifyReceipt Scorer Pipeline

/-- The verifier on a runtime whose `Date.parse` reads the texts of `toISOString`. -/
def isoVerifier (keccak : List UInt8 → Digest) (parse : String → Option Content)
    (recover : TypedData → Hex → Except String String) : Verifier := ⟨keccak, parse, Js.dateParse, recover⟩

section Parts
variable {reportTime : Js.Date} {committed : Bool} {blockTime : Option Js.Date}

/-- The class of an outcome that ends so long after the report. -/
def classAt (reportTime : Js.Date) (committed : Bool) (blockTime : Option Js.Date) (horizon : String) : Eligibility :=
  classifyEligibility ⟨reportTime.val, committed, blockTime.map Subtype.val, reportTime.val + horizonMs horizon⟩

theorem receiptOutcome_ok {o : ReceiptOutcomeRow} {part : ReceiptOutcome}
    (h : receiptOutcome reportTime committed blockTime o = .ok part) :
    (part.label, part.horizon, part.eligibility) = (o.label, o.horizon, classAt reportTime committed blockTime o.horizon) ∧
      outcomeFromChain (some reportTime.val) committed (blockTime.map Subtype.val) part =
        .ok (o.label ++ "@" ++ o.horizon, classAt reportTime committed blockTime o.horizon) := by
  unfold receiptOutcome at h
  cases hms : horizonToMs o.horizon with
  | error e =>
    rw [hms] at h
    cases h
  | ok ms =>
    rw [hms] at h
    simp only [bind, Except.bind, pure, Except.pure] at h
    split at h
    · rename_i htime
      cases h
      have hend : newDate (reportTime.val + ms) = some (reportTime.val + ms) := if_pos htime
      unfold outcomeFromChain classAt
      rw [← horizonToMs_ok hms]
      refine ⟨rfl, ?_⟩
      dsimp only
      rw [hms]
      simp only [bind, Except.bind, pure, Except.pure, Option.bind_some]
      rw [hend, classifyDates_valid]
    · cases h

theorem receiptOutcomes_ok {outcomes : List ReceiptOutcomeRow} {parts : List ReceiptOutcome}
    (h : receiptOutcomes reportTime committed blockTime outcomes = .ok parts) :
    (parts.map fun part => (part.label, part.horizon, part.eligibility)) =
        outcomes.map (fun o => (o.label, o.horizon, classAt reportTime committed blockTime o.horizon)) ∧
      outcomesFromChain (some reportTime.val) committed (blockTime.map Subtype.val) parts =
        .ok (outcomes.map fun o => (o.label ++ "@" ++ o.horizon, classAt reportTime committed blockTime o.horizon)) := by
  induction outcomes generalizing parts with
  | nil =>
    cases h
    exact ⟨rfl, rfl⟩
  | cons o outcomes ih =>
    unfold receiptOutcomes at h
    cases hfirst : receiptOutcome reportTime committed blockTime o with
    | error e =>
      rw [hfirst] at h
      cases h
    | ok part =>
      cases hrest : receiptOutcomes reportTime committed blockTime outcomes with
      | error e =>
        rw [hfirst, hrest] at h
        cases h
      | ok rest =>
        rw [hfirst, hrest] at h
        cases h
        obtain ⟨hclass, hchain⟩ := receiptOutcome_ok hfirst
        obtain ⟨hclasses, hchains⟩ := ih hrest
        refine ⟨by rw [List.map_cons, List.map_cons, hclass, hclasses], ?_⟩
        unfold outcomesFromChain
        rw [hchain, hchains]
        rfl

/-- Nothing throws when the horizons are known and end in range. -/
theorem receiptOutcomes_total {outcomes : List ReceiptOutcomeRow}
    (h : ∀ o ∈ outcomes, horizonToMs o.horizon = .ok (horizonMs o.horizon) ∧
      Js.isTime (reportTime.val + horizonMs o.horizon) = true) :
    ∃ parts, receiptOutcomes reportTime committed blockTime outcomes = .ok parts := by
  induction outcomes with
  | nil => exact ⟨[], rfl⟩
  | cons o outcomes ih =>
    obtain ⟨rest, hrest⟩ := ih fun p hp => h p (List.mem_cons_of_mem o hp)
    obtain ⟨hms, htime⟩ := h o List.mem_cons_self
    have hfirst : ∃ part, receiptOutcome reportTime committed blockTime o = .ok part := by
      unfold receiptOutcome
      rw [hms]
      simp only [bind, Except.bind, pure, Except.pure]
      rw [if_pos htime]
      exact ⟨_, rfl⟩
    obtain ⟨part, hpart⟩ := hfirst
    refine ⟨part :: rest, ?_⟩
    unfold receiptOutcomes
    rw [hpart, hrest]
    rfl

end Parts

section Rows
variable {cols : ReceiptColumns} {db : WorkerDb} {r : Db.Report} {parse : String → Option Json}
  {blockTime : Option Js.Date} {registry : Option Hex}

/-- Both say committed of the same reports. -/
theorem receiptRow_committed (h : Js.isTime r.reportTime = true) :
    (receiptRow cols db r h).committed = (db.commitBlock r).isSome := by
  unfold ReceiptRow.committed receiptRow WorkerDb.commitBlock
  dsimp only
  cases r.commitId with
  | none => rfl
  | some id =>
    dsimp only
    rw [Option.bind_some]
    cases db.commits.find? fun c => decide (c.id = id) with
    | none => rfl
    | some c => rfl

theorem buildReceipt_ok {row : ReceiptRow} {outcomes : List ReceiptOutcomeRow} {receipt : Receipt}
    (h : buildReceipt parse row outcomes blockTime registry = .ok receipt) :
    receipt.canonicalJson = row.canonicalJson ∧ receipt.commit.committed = row.committed ∧
      receiptOutcomes row.reportTime row.committed blockTime outcomes = .ok receipt.outcomes := by
  unfold buildReceipt at h
  cases hparts : receiptOutcomes row.reportTime row.committed blockTime outcomes with
  | error e =>
    rw [hparts] at h
    cases h
  | ok parts =>
    rw [hparts] at h
    cases h
    exact ⟨rfl, rfl, rfl⟩

theorem buildReceipt_total {row : ReceiptRow} {outcomes : List ReceiptOutcomeRow}
    (h : ∃ parts, receiptOutcomes row.reportTime row.committed blockTime outcomes = .ok parts) :
    ∃ receipt, buildReceipt parse row outcomes blockTime registry = .ok receipt := by
  obtain ⟨parts, hparts⟩ := h
  unfold buildReceipt
  rw [hparts]
  exact ⟨_, rfl⟩

/-- The scorer's class, from the block time that all have. -/
theorem reportClass_eq {opts : CollectOptions} (h : Js.isTime r.reportTime = true)
    (hsame : ∀ block, db.commitBlock r = some block → opts.blockTimeOf block = blockTime.map Subtype.val) (key : OutcomeKey) :
    reportClass db opts r key = classAt ⟨r.reportTime, h⟩ (db.commitBlock r).isSome blockTime key.horizon := by
  unfold reportClass classAt horizonEndOf
  dsimp only
  cases hblock : db.commitBlock r with
  | none => rfl
  | some block => rw [Option.bind_some, hsame block hblock]

end Rows

def Gridded (db : WorkerDb) : Prop := ∀ o ∈ db.outcomes, cellKey o ∈ ALL_OUTCOME_KEYS

theorem horizonToMs_grid {key : OutcomeKey} (h : key ∈ ALL_OUTCOME_KEYS) :
    horizonToMs key.horizon = .ok (horizonMs key.horizon) ∧ 0 ≤ horizonMs key.horizon ∧
      horizonMs key.horizon ≤ horizonMs "7d" := by
  have hall : ∀ key ∈ ALL_OUTCOME_KEYS, (horizonToMs key.horizon).toOption = some (horizonMs key.horizon) ∧
      0 ≤ horizonMs key.horizon ∧ horizonMs key.horizon ≤ horizonMs "7d" := by decide +kernel
  obtain ⟨hms, hrange⟩ := hall key h
  refine ⟨?_, hrange⟩
  cases hk : horizonToMs key.horizon with
  | error e =>
    rw [hk] at hms
    cases hms
  | ok ms =>
    rw [hk] at hms
    rw [Option.some.inj hms]

section Grid
variable {cfg : ChainConfig} {env : T10Env} {db db' : WorkerDb}

theorem Gridded.congr (h : db'.outcomes = db.outcomes) (hdb : Gridded db) : Gridded db' := by
  unfold Gridded
  rw [h]
  exact hdb

theorem persist_gridded (calls : PersistCalls) (drafts : List ReportDraft) (h : Gridded db) :
    Gridded (persistLaunchReports calls drafts db).2 := by
  obtain ⟨rows, hkeys, he⟩ := persist_rows calls drafts db
  rw [he]
  intro o ho
  rcases mem_createOutcomes ho with ho | ho
  · rw [storeAll_outcomes] at ho
    exact h o ho
  · exact hkeys o ho

theorem reportLaunch_gridded (h : Gridded db) (env : ReportEnv) (build : BuildCalls) (persist : PersistCalls)
    (launchId : String) : Gridded (reportLaunch cfg env build persist launchId db) := by
  unfold reportLaunch
  split
  · exact h
  · exact persist_gridded persist _ h

theorem runT10_gridded (hdb : Consistent db) (h : Gridded db) (calls : T10Calls) (launchId : String) :
    Gridded (runT10ForLaunch cfg env calls launchId db).2 := by
  apply runT10_preserves hdb h
  · exact fun db' hmoved => h.congr hmoved.outcomes
  · exact fun row db' hdb => hdb.congr (storeT10_outcomes calls.now row)
  · exact fun db' hdb => reportLaunch_gridded hdb env.report calls.build calls.persist launchId

theorem step_gridded (cfg : ChainConfig) (env : T10Env) (db : WorkerDb) (e : Event) (hdb : Invariant db) (h : Gridded db) :
    Gridded (step cfg env db e) := by
  cases e with
  | ingest deps io log =>
    unfold step
    dsimp only
    split
    · rcases ingestPool_cases with ⟨row, _, _, jobs, he⟩ | he
      · rw [he]
        exact h
      · rw [he]
        exact h
    · exact h
  | t10 calls launchId => exact runT10_gridded hdb.1 h calls launchId
  | assess calls token =>
    unfold step
    dsimp only
    rcases runAssess_cases hdb.1 env.report calls token with he | ⟨l, _, inputs, block, he⟩
    · rw [he]
      exact h
    · rw [he]
      exact persist_gridded calls.persist _ h
  | deepdive calls launchId input =>
    unfold step
    dsimp only
    split
    · exact h
    · exact persist_gridded calls _ h
  | commit id blockNumber batch => exact h
  | resolve id status value =>
    intro o ho
    obtain ⟨old, hold, rfl⟩ := List.mem_map.mp ho
    split
    · exact h old hold
    · exact h old hold

theorem run_gridded (cfg : ChainConfig) (env : T10Env) (events : List Event) :
    Gridded (Steps.run (step cfg env) WorkerDb.empty events) := by
  have hstart : Invariant WorkerDb.empty ∧ Gridded WorkerDb.empty := ⟨empty_invariant, fun o ho => nomatch ho⟩
  exact (Steps.invariant_run_free (fun db => Invariant db ∧ Gridded db)
    (fun db e hdb => ⟨step_invariant db e hdb.1, step_gridded cfg env db e hdb.1 hdb.2⟩) hstart).2

end Grid

/-- The class of every outcome of a report's anchor is one: the receipt shows the scorer's, and the verifier recomputes it
from the receipt. A receipt is built whenever the horizons end in the range of dates. -/
theorem classes_agree (cfg : ChainConfig) (env : T10Env) (events : List Event) (keccak : List UInt8 → Digest)
    (recover : TypedData → Hex → Except String String) (parse : String → Option Content)
    (parseJson : String → Option Json) (cols : ReceiptColumns) (opts : CollectOptions) (blockTime : Option Js.Date)
    (registry : Option Hex) (r : Db.Report)
    (hr : r ∈ (Steps.run (step cfg env) WorkerDb.empty events).reports) (htime : Js.isTime r.reportTime = true)
    (hprinted : (parse (cols.canonicalJson r.content)).map Content.reportTime =
      some (some (Js.toISOString r.content.reportTime)))
    (hsame : ∀ block, (Steps.run (step cfg env) WorkerDb.empty events).commitBlock r = some block →
      opts.blockTimeOf block = blockTime.map Subtype.val) :
    let db := Steps.run (step cfg env) WorkerDb.empty events
    let outcomes := anchorOutcomes db r
    let built := buildReceipt parseJson (receiptRow cols db r htime) (outcomes.map receiptOutcomeRow) blockTime registry
    (∀ receipt, built = .ok receipt →
      (receipt.outcomes.map fun o => (o.label, o.horizon, o.eligibility)) =
        (outcomes.map fun o => (o.label.text, o.horizon, reportClass db opts r (cellKey o))) ∧
      eligibilityFromChain (isoVerifier keccak parse recover) receipt (blockTime.map Subtype.val) =
        .ok (outcomes.map fun o => (keyText (cellKey o), reportClass db opts r (cellKey o)))) ∧
      (Js.isTime (r.reportTime + horizonMs "7d") = true → ∃ receipt, built = .ok receipt) := by
  intro db outcomes built
  have hinv : Invariant db := Steps.invariant_run_free Invariant (fun db e h => step_invariant db e h) empty_invariant
  have hcommitted : (receiptRow cols db r htime).committed = (db.commitBlock r).isSome := receiptRow_committed htime
  constructor
  · intro receipt hbuilt
    obtain ⟨hjson, hflag, hparts⟩ := buildReceipt_ok hbuilt
    obtain ⟨hshown, hchain⟩ := receiptOutcomes_ok hparts
    have hclass : ∀ o : Outcome, classAt (receiptRow cols db r htime).reportTime (receiptRow cols db r htime).committed
        blockTime o.horizon = reportClass db opts r (cellKey o) := by
      intro o
      rw [reportClass_eq htime hsame, hcommitted]
      rfl
    refine ⟨?_, ?_⟩
    · rw [hshown, List.map_map]
      apply List.map_congr_left
      intro o _
      exact congrArg (fun cls => (o.label.text, o.horizon, cls)) (hclass o)
    · have hreportTime : r.content.reportTime = r.reportTime := (hinv.1.copied r hr).reportTime.symm
      have hparsed : ∃ content, parse receipt.canonicalJson = some content ∧
          content.reportTime = some (Js.toISOString r.reportTime) := by
        rw [hjson]
        obtain ⟨content, hcontent, htext⟩ := Option.map_eq_some_iff.mp hprinted
        exact ⟨content, hcontent, by rw [htext, hreportTime]⟩
      obtain ⟨content, hcontent, htext⟩ := hparsed
      have hanchor : anchorOf (isoVerifier keccak parse recover) content = some r.reportTime := by
        unfold anchorOf isoVerifier
        rw [htext]
        exact Js.dateParse_toISOString htime
      unfold eligibilityFromChain
      have hread : (isoVerifier keccak parse recover).parse receipt.canonicalJson = some content := hcontent
      rw [hread]
      dsimp only
      rw [hanchor, hflag]
      refine hchain.trans (congrArg Except.ok ?_)
      rw [List.map_map]
      apply List.map_congr_left
      intro o _
      exact congrArg (fun cls => (keyText (cellKey o), cls)) (hclass o)
  · intro hend
    apply buildReceipt_total
    apply receiptOutcomes_total
    intro o ho
    obtain ⟨row, hrow, rfl⟩ := List.mem_map.mp ho
    have hmem : row ∈ db.outcomes := (List.mem_filter.mp ((List.mem_insertionSort outcomeLe).mp hrow)).1
    obtain ⟨hms, h0, h7⟩ := horizonToMs_grid (run_gridded cfg env events row hmem)
    have hlow := of_decide_eq_true htime
    have hhigh := of_decide_eq_true hend
    change horizonToMs (cellKey row).horizon = .ok (horizonMs (cellKey row).horizon) ∧
      Js.isTime (r.reportTime + horizonMs (cellKey row).horizon) = true
    exact ⟨hms, decide_eq_true ⟨by omega, by omega⟩⟩

def diveInput : DeepdiveReportInput := ⟨.on_demand, ⟨17, 5#256, 1600000⟩, "m", ⟨1 / 2, 1 / 4, 1 / 8, [], 9 / 10⟩, []⟩

def dived : List Event := [Completion.indexed, .deepdive Reporting.answered.persist "l1" diveInput]

def divedAndCommitted : List Event :=
  dived ++ [.commit "c1" (some 100)
    ((Steps.run (step sampleConfig Completion.sampleEnv) WorkerDb.empty dived).reports.map Db.Report.content)]

def divedReport : Db.Report where
  chainId := 4663
  tokenAddress := 9#160
  reportTime := 1600000
  trigger := .on_demand
  forecaster := .llm_deepdive_v0
  launchId := some "l1"
  columns := probabilitiesToColumns (deepdiveProbabilities diveInput.output)
  content := ⟨4663, 9#160, some "l1", 1600000, .on_demand, diveInput.reportBlock, .llm_deepdive_v0, "m",
    deepdiveProbabilities diveInput.output, [], some (9 / 10), some []⟩
  validatorPassed := true
  createdAt := 1700000
  commitId := some "c1"

/-- The canonical text of its report. -/
def divedJson : String :=
  "\x7b\"blockPin\":\x7b\"hash\":\"0x0000000000000000000000000000000000000000000000000000000000000005\"," ++
    "\"number\":17,\"timestamp\":\"1970-01-01T00:26:40.000Z\"\x7d,\"chainId\":4663,\"confidence\":0.9,\"coverage\":[]," ++
    "\"evidence\":[],\"forecaster\":\"llm_deepdive_v0\",\"forecasterVersion\":\"m\",\"launchId\":\"l1\"," ++
    "\"outcomeRuleVersion\":\"v1\",\"probabilities\":\x7b\"DRAWDOWN_80@7d\":0.25,\"INSIDER_EXIT@24h\":0.5," ++
    "\"SELL_IMPAIRED@24h\":0.125\x7d,\"reportTime\":\"1970-01-01T00:26:40.000Z\"," ++
    "\"tokenAddress\":\"0x0000000000000000000000000000000000000009\",\"trigger\":\"on_demand\",\"version\":\"report/v0\"\x7d"

def parseDived (text : String) : Option Content :=
  if text = divedJson then
    some ⟨some 4663, some "0x0000000000000000000000000000000000000009", some "1970-01-01T00:26:40.000Z",
      some "llm_deepdive_v0"⟩
  else none

def divedColumns : ReceiptColumns where
  canonicalJson := fun _ => divedJson
  reportHash := fun _ => keccak256 constantDigest (stringToHex divedJson)
  eip712Signature := fun _ => none
  signerAddress := fun _ => none
  txHash := fun _ => none
  merkleRoot := fun _ => keccak256 constantDigest (stringToHex divedJson)
  leaves := fun _ => none

theorem classes_agree_dived : ∃ receipt,
    let db := Steps.run (step sampleConfig Completion.sampleEnv) WorkerDb.empty divedAndCommitted
    let outcomes := anchorOutcomes db divedReport
    buildReceipt (fun _ => none) (receiptRow divedColumns db divedReport (by decide)) (outcomes.map receiptOutcomeRow)
      (some ⟨1900000, by decide⟩) none = .ok receipt ∧
    (receipt.outcomes.map fun o => (o.label, o.horizon, o.eligibility)) =
      (outcomes.map fun o =>
        (o.label.text, o.horizon, reportClass db ⟨.both, fun _ => some 1900000⟩ divedReport (cellKey o))) ∧
    eligibilityFromChain (isoVerifier constantDigest parseDived fun _ _ => .error "InvalidSignature") receipt
        (some 1900000) =
      .ok (outcomes.map fun o =>
        (keyText (cellKey o), reportClass db ⟨.both, fun _ => some 1900000⟩ divedReport (cellKey o))) := by
  obtain ⟨hagree, htotal⟩ := classes_agree sampleConfig Completion.sampleEnv divedAndCommitted constantDigest
    (fun _ _ => .error "InvalidSignature") parseDived (fun _ => none) divedColumns ⟨.both, fun _ => some 1900000⟩
    (some ⟨1900000, by decide⟩) none divedReport (by decide +kernel) (by decide) (by decide +kernel) (fun _ _ => rfl)
  obtain ⟨receipt, hbuilt⟩ := htotal (by decide +kernel)
  exact ⟨receipt, hbuilt, hagree receipt hbuilt⟩

end LaunchAuditor.Proofs.ReceiptClasses
