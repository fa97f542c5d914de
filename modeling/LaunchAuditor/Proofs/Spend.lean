import LaunchAuditor.Deepdive.BudgetedRun

namespace LaunchAuditor.Proofs.Spend
open Db Metabolism Deepdive

variable {cfg : RunConfig} {input : RunDeepdiveInput} {io : RunIo} {ledger : SpendTable}

/-- The gate let the run through and at least one model call was answered. -/
structure Billed (cfg : RunConfig) (input : RunDeepdiveInput) (io : RunIo) : Prop where
  started : ∃ gate, beforeModel cfg input io = .ok gate
  answered : io.run.turns ≠ []

/-- Exactly one row was added: this run's, with a cost that is not negative. -/
def SpendRecorded (cfg : RunConfig) (io : RunIo) (ledger ledger' : SpendTable) : Prop :=
  ∃ row, ledger' = ledger ++ [row] ∧ row.id = io.spendId ∧ row.model = cfg.openrouterModelDeepdive ∧
    0 ≤ row.costUsd

/-- No cost the provider reports for this run is negative. -/
structure CostNonneg (io : RunIo) : Prop where
  usage : ∀ c, pickNum io.run.usageObject COST_KEYS = some c → 0 ≤ c
  generations : pickNum io.run.usageObject COST_KEYS = none →
    ∀ total, generationTotal io.lookupCost (turnIds io.run.turns) = some total → 0 ≤ total

/-- Nothing between the first answered call and the ledger fails, and the ledger
takes the row. -/
structure Completes (cfg : RunConfig) (io : RunIo) (ledger : SpendTable) : Prop where
  invoked : io.run.invoked = .ok ()
  text : ∃ text output, io.run.text = .ok text ∧ cfg.parse text = .ok output
  assembled : ∃ draft, io.assemble = .ok draft
  persisted : io.persist = .ok ()
  reportId : ∃ id, io.reportId = .ok id
  cost : CostNonneg io
  generation : NewGeneration (turnIds io.run.turns).head? ledger

theorem beforeModel_slug {gate : DeepdiveRunGate} (h : beforeModel cfg input io = .ok gate) :
    cfg.openrouterModelDeepdive ≠ "" := by
  intro he
  simp [beforeModel, assertScoredModelSlug, he] at h

theorem no_row {P : MetabolismSpend → Prop} : ¬ ∃ row, ledger = ledger ++ [row] ∧ P row := by
  intro h
  obtain ⟨row, he, -⟩ := h
  have hlen := congrArg List.length he
  simp at hlen

theorem recordDeepdiveSpend_table (lookup : String → Except String ℚ) (u : Usage)
    (prefix' reportId : Option String) (newId : String) (now : Int) (ledger : SpendTable) :
    (recordDeepdiveSpend lookup u prefix' reportId newId now ledger).1 =
      (recordSpend (spendEntry lookup u prefix' reportId) newId now ledger).1 := by
  unfold recordDeepdiveSpend
  rcases recordSpend (spendEntry lookup u prefix' reportId) newId now ledger with ⟨ledger', msg | row⟩ <;> rfl

/-- The row is written exactly for a cost that is not negative and a generation
not yet recorded. -/
theorem recordDeepdiveSpend_row (lookup : String → Except String ℚ) (u : Usage) (prefix' reportId : Option String)
    (newId : String) (now : Int) (ledger : SpendTable) :
    (∃ row, (recordDeepdiveSpend lookup u prefix' reportId newId now ledger).1 = ledger ++ [row] ∧
      row.id = newId ∧ row.model = u.modelSlug ∧ 0 ≤ row.costUsd) ↔
    0 ≤ (chooseCost lookup u).1 ∧ u.modelSlug ≠ "" ∧ NewGeneration u.generationIds.head? ledger := by
  rw [recordDeepdiveSpend_table]
  rcases recordSpend_cases (spendEntry lookup u prefix' reportId) newId now ledger with
    ⟨hc, hm, hg, row, he, hid, hmodel, hcost⟩ | ⟨hno, hsame⟩
  · rw [he]
    exact ⟨fun _ => ⟨hc, hm, hg⟩, fun _ => ⟨row, rfl, hid, hmodel, hcost ▸ hc⟩⟩
  · rw [hsame]
    exact ⟨fun h => absurd h no_row, fun h => absurd h hno⟩

/-- What a run of the agent gives: a throw, a failed model run, or a priced result. -/
inductive AgentCase (cfg : RunConfig) (run : AgentRun) : Except String DeepDiveResult → Prop
  | notInvoked {msg} (hi : run.invoked = .error msg) : AgentCase cfg run (.error msg)
  | invalid {text why msg} (hi : run.invoked = .ok ()) (ht : run.text = .ok text)
      (hp : cfg.parse text = .error why) : AgentCase cfg run (.error msg)
  | modelFailed {msg r} (ht : run.text = .error msg) (hs : r.stoppedBy = .error) : AgentCase cfg run (.ok r)
  | answered {text output r} (hi : run.invoked = .ok ()) (ht : run.text = .ok text)
      (hp : cfg.parse text = .ok output) (hs : r.stoppedBy ≠ .error)
      (hids : r.generationIds = turnIds run.turns) (hmodel : r.modelSlug = cfg.openrouterModelDeepdive)
      (hcost : r.usageCostUsd = pickNum run.usageObject COST_KEYS) : AgentCase cfg run (.ok r)

theorem agent_cases (cfg : RunConfig) (run : AgentRun) (maxCostUsd : ℚ) :
    AgentCase cfg run
      (runDeepdiveAgent cfg.parse cfg.openrouterModelDeepdive cfg.deepdiveMaxSteps maxCostUsd run) := by
  unfold runDeepdiveAgent
  cases hi : run.invoked with
  | error msg => exact .notInvoked hi
  | ok u =>
    cases ht : run.text with
    | error msg => exact .modelFailed ht rfl
    | ok text =>
      cases hp : cfg.parse text with
      | error why =>
        simp only [hp]
        exact .invalid hi ht hp
      | ok output =>
        simp only [hp]
        refine .answered hi ht hp ?_ rfl rfl rfl
        dsimp only
        split
        · simp
        · split <;> simp

/-- With the report stored, what is left of the run is its ledger write. -/
theorem afterModel_ledger {r : DeepDiveResult} {draft : Draft} {reportId : Option String}
    (hs : r.stoppedBy ≠ .error) (ha : io.assemble = .ok draft) (hp : io.persist = .ok ())
    (hr : io.reportId = .ok reportId) :
    (afterModel io ledger r).1 =
      (recordDeepdiveSpend io.lookupCost r.toUsage io.keyHashPrefix reportId io.spendId io.spendAt ledger).1 := by
  unfold afterModel
  rw [if_neg hs, ha, hp, hr]
  simp only
  rcases recordDeepdiveSpend io.lookupCost r.toUsage io.keyHashPrefix reportId io.spendId io.spendAt ledger with
    ⟨ledger', msg | spend⟩
  · rfl
  · rfl

/-- Past the model, the row waits for the report: assembled, persisted and found. -/
theorem afterModel_row {r : DeepDiveResult} (hs : r.stoppedBy ≠ .error) :
    (∃ row, (afterModel io ledger r).1 = ledger ++ [row] ∧ row.id = io.spendId ∧ row.model = r.modelSlug ∧
      0 ≤ row.costUsd) ↔
    (∃ draft, io.assemble = .ok draft) ∧ io.persist = .ok () ∧ (∃ id, io.reportId = .ok id) ∧
      0 ≤ (chooseCost io.lookupCost r.toUsage).1 ∧ r.modelSlug ≠ "" ∧
      NewGeneration r.generationIds.head? ledger := by
  cases ha : io.assemble with
  | error msg => simp [afterModel, hs, ha]
  | ok draft =>
    cases hp : io.persist with
    | error msg => simp [afterModel, hs, ha, hp]
    | ok u =>
      cases hr : io.reportId with
      | error msg => simp [afterModel, hs, ha, hp, hr]
      | ok reportId =>
        rw [afterModel_ledger hs ha hp hr, recordDeepdiveSpend_row]
        simp

/-- A billed run leaves exactly one spend row exactly when it runs through to the
ledger; every earlier return or throw loses the row. -/
theorem spend_recorded_iff (cfg : RunConfig) (input : RunDeepdiveInput) (io : RunIo) (ledger : SpendTable)
    (hbilled : Billed cfg input io) :
    SpendRecorded cfg io ledger (runDeepdive cfg input io ledger).1 ↔ Completes cfg io ledger := by
  obtain ⟨gate, hgate⟩ := hbilled.started
  have hslug := beforeModel_slug hgate
  unfold SpendRecorded runDeepdive
  rw [hgate]
  simp only
  have hcase := agent_cases cfg io.run (min gate.maxRunCostUsd cfg.env.deepdiveCapPerRunUsd)
  generalize runDeepdiveAgent cfg.parse cfg.openrouterModelDeepdive cfg.deepdiveMaxSteps
    (min gate.maxRunCostUsd cfg.env.deepdiveCapPerRunUsd) io.run = out at hcase
  cases hcase with
  | notInvoked hi =>
    refine ⟨fun h => absurd h no_row, fun h => ?_⟩
    rw [h.invoked] at hi
    cases hi
  | invalid hi ht hp =>
    refine ⟨fun h => absurd h no_row, fun h => ?_⟩
    obtain ⟨text, output, ht', hp'⟩ := h.text
    obtain rfl := Except.ok.inj (ht.symm.trans ht')
    rw [hp] at hp'
    cases hp'
  | @modelFailed msg r ht hs =>
    have hsame : (afterModel io ledger r).1 = ledger := by
      rw [afterModel, if_pos hs]
    simp only [hsame]
    refine ⟨fun h => absurd h no_row, fun h => ?_⟩
    obtain ⟨text, output, ht', -⟩ := h.text
    rw [ht] at ht'
    cases ht'
  | @answered text output r hi ht hp hs hids hmodel hcost =>
    simp only
    rw [← hmodel, afterModel_row hs, chooseCost_nonneg, hids, hcost]
    constructor
    · intro h
      obtain ⟨ha, hpersist, hid, ⟨hu, hg⟩, -, hnew⟩ := h
      exact ⟨hi, ⟨text, output, ht, hp⟩, ha, hpersist, hid, ⟨hu, hg⟩, hnew⟩
    · intro h
      exact ⟨h.assembled, h.persisted, h.reportId, ⟨h.cost.usage, h.cost.generations⟩, hmodel ▸ hslug, h.generation⟩

def sampleText : String :=
  "\x7b\"p_insider_exit_24h\":0.5,\"p_drawdown_80_7d\":0.5,\"p_sell_impaired_24h\":0.5," ++
    "\"evidence\":[\x7b\"claim\":\"c\",\"tx_or_url\":null\x7d],\"confidence\":0.5\x7d"

def sampleParse (text : String) : Except String DeepDiveOutput :=
  if text = sampleText then .ok ⟨1 / 2, 1 / 2, 1 / 2, [⟨"c", none⟩], 1 / 2⟩ else .error "Unexpected token"

def sampleConfig : RunConfig :=
  { env := ⟨1 / 5, 2, 1, 60, false⟩, openrouterModelDeepdive := "sakana/fugu-max", deepdiveMaxSteps := 8
    parse := sampleParse }

def sampleInput : RunDeepdiveInput := ⟨"l1", "qualified", false⟩

/-- Two answered turns of a thousand tokens, no cost in the usage object. -/
def sampleIo (text : Except String String) : RunIo :=
  { launch := .ok (some "l1"), existing := .ok false
    budget := .ok ⟨0, 0, 9, some (.billing .aggregateOnly), 2, none, .dailyCap⟩
    packet := .ok (), client := .ok ()
    run := { turns := [none, none], invoked := .ok (), text
             usage := .ok fun key => if key = "prompt_tokens" ∨ key = "completion_tokens" then some 1000 else none }
    assemble := .ok ⟨[], true, []⟩, persist := .ok (), reportId := .ok (some "r1")
    lookupCost := fun _ => .error "HTTP 404", keyHashPrefix := none, spendId := "s1", spendAt := 0 }

theorem sampleIo_billed (text : Except String String) : Billed sampleConfig sampleInput (sampleIo text) := by
  refine ⟨?_, by simp [sampleIo]⟩
  have hok : (beforeModel sampleConfig sampleInput (sampleIo (.ok ""))).isOk = true := by decide +kernel
  cases hb : beforeModel sampleConfig sampleInput (sampleIo (.ok "")) with
  | error answer => simp [hb, Except.isOk, Except.toBool] at hok
  | ok gate => exact ⟨gate, hb⟩

theorem spend_recorded_complete :
    SpendRecorded sampleConfig (sampleIo (.ok sampleText)) []
      (runDeepdive sampleConfig sampleInput (sampleIo (.ok sampleText)) []).1 := by
  apply (spend_recorded_iff sampleConfig sampleInput (sampleIo (.ok sampleText)) [] (sampleIo_billed _)).mpr
  have hparse : sampleConfig.parse sampleText = .ok ⟨1 / 2, 1 / 2, 1 / 2, [⟨"c", none⟩], 1 / 2⟩ := by
    simp [sampleConfig, sampleParse]
  have hnone : pickNum (sampleIo (.ok sampleText)).run.usageObject COST_KEYS = none := by decide +kernel
  refine ⟨rfl, ⟨sampleText, _, rfl, hparse⟩, ⟨_, rfl⟩, rfl, ⟨_, rfl⟩, ⟨?_, ?_⟩, ?_⟩
  · intro c hc
    rw [hnone] at hc
    cases hc
  · intro _ total ht
    simp [generationTotal, sampleIo, turnIds] at ht
  · intro g hg
    simp [sampleIo, turnIds] at hg

/-- The text cannot be retrieved after two answered turns: the run returns and the
ledger stays empty. -/
theorem spend_lost :
    ¬ ∀ (cfg : RunConfig) (input : RunDeepdiveInput) (io : RunIo) (ledger : SpendTable),
      Billed cfg input io → SpendRecorded cfg io ledger (runDeepdive cfg input io ledger).1 := by
  intro h
  have hrow := h sampleConfig sampleInput (sampleIo (.error "stream closed")) [] (sampleIo_billed _)
  have hempty : (runDeepdive sampleConfig sampleInput (sampleIo (.error "stream closed")) []).1 = [] := by
    decide +kernel
  rw [hempty] at hrow
  exact no_row hrow

end LaunchAuditor.Proofs.Spend
