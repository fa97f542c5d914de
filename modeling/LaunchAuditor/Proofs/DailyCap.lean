import LaunchAuditor.Deepdive.Lanes
import LaunchAuditor.Lib.Tally
import LaunchAuditor.Proofs.Spend

namespace LaunchAuditor.Proofs.DailyCap
open Db Metabolism Deepdive Steps Tally

/-- The spend recorded that day and the maxima of the runs in flight stay within the cap. -/
def Capped (cfg : RunConfig) (w : Lanes) : Prop :=
  ∀ cap, w.capUsd = some cap → w.recordedTodayUsd + w.inFlightUsd cfg ≤ cap

/-- No run costs more than it was authorised for. -/
def WithinAuthorised (cfg : RunConfig) (w : Lanes) : LaneEvent → Prop
  | .finish lane io => ∀ input budget, w.phase lane = .inFlight input budget → ∀ result,
      runDeepdiveAgent cfg.parse cfg.openrouterModelDeepdive cfg.deepdiveMaxSteps (maxCostUsd cfg budget) io.run =
        .ok result → (chooseCost io.lookupCost result.toUsage).1 ≤ maxCostUsd cfg budget
  | _ => True

/-- What is left of the daily cap is not rounded up, or another term is below the next half cent. -/
def NotRoundedUp (i : DeepdiveRunGateInputs) : Prop :=
  min (min i.capPerRunUsd i.remainingTodayUsd) i.spendableUsd < ⌊(i.dailyCapUsd - i.spentTodayUsd) * 100⌋ / 100 + 1 / 200

/-- When a gate lets a run through there is room for a whole one besides all that is
recorded and in flight, or the gate sees both and does not round up. -/
def Covered (cfg : RunConfig) (w : Lanes) : LaneEvent → Prop
  | .gate lane => ∀ input budget, w.phase lane = .loaded input budget → (gateOf cfg budget).allowed = true →
      let i := gateInputs cfg.env budget
      let used := w.recordedTodayUsd + w.inFlightUsd cfg
      i.capPerRunUsd ≤ i.dailyCapUsd - used ∨ (used ≤ i.spentTodayUsd ∧ NotRoundedUp i)
  | _ => True

theorem round2_nonpos {x : ℚ} (h : x ≤ 0) : round2 (max 0 x) = 0 := by
  rw [max_eq_left h]
  decide +kernel

/-- A figure under the next half cent is rounded to no more than the whole cents. -/
theorem round2_le {x y : ℚ} (h : x < ⌊y * 100⌋ / 100 + 1 / 200) : round2 x ≤ y := by
  have hlt : x * 100 + 1 / 2 < (⌊y * 100⌋ + 1 : ℤ) := by
    push_cast
    linarith
  have hfloor : ⌊x * 100 + 1 / 2⌋ ≤ ⌊y * 100⌋ := Int.lt_add_one_iff.mp (Int.floor_lt.mpr hlt)
  have hcents : (⌊x * 100 + 1 / 2⌋ : ℚ) ≤ y * 100 :=
    calc (⌊x * 100 + 1 / 2⌋ : ℚ) ≤ ⌊y * 100⌋ := by exact_mod_cast hfloor
      _ ≤ y * 100 := Int.floor_le _
  unfold round2 Js.roundTo Js.mathRound
  push_cast
  rw [div_le_iff₀ (by norm_num)]
  exact hcents

theorem allowed_terms {cfg : RunConfig} {budget : LoadedBudget} (h : (gateOf cfg budget).allowed = true) :
    0 < (gateInputs cfg.env budget).remainingTodayUsd ∧ 0 < (gateInputs cfg.env budget).maxRunCostUsd ∧
      (gateOf cfg budget).maxRunCostUsd = (gateInputs cfg.env budget).maxRunCostUsd := by
  have hnot : ¬ (deepdiveRunGate (gateInputs cfg.env budget)).allowed = false := by
    simpa [gateOf] using h
  rw [deepdiveRunGate_refuses] at hnot
  push Not at hnot
  obtain ⟨hblock, hspendable, hremaining, hmax⟩ := hnot
  refine ⟨hremaining, hmax, ?_⟩
  have hnone : (gateInputs cfg.env budget).blocking = none := by simpa using hblock
  simp only [gateOf, deepdiveRunGate, hnone]
  split
  · rfl
  · split
    · rfl
    · split <;> rfl

theorem maxCostUsd_nonneg {cfg : RunConfig} {budget : LoadedBudget} (h : (gateOf cfg budget).allowed = true) :
    0 ≤ maxCostUsd cfg budget := by
  obtain ⟨_, hmax, heq⟩ := allowed_terms h
  apply le_min
  · rw [heq]
    exact hmax.le
  · by_contra hneg
    have hterm : min (min (gateInputs cfg.env budget).capPerRunUsd (gateInputs cfg.env budget).remainingTodayUsd)
        (gateInputs cfg.env budget).spendableUsd ≤ 0 :=
      (min_le_left _ _).trans ((min_le_left _ _).trans (not_le.mp hneg).le)
    have hzero := round2_nonpos hterm
    rw [DeepdiveRunGateInputs.maxRunCostUsd, hzero] at hmax
    exact lt_irrefl 0 hmax

/-- A covered gate authorises no more than what the cap leaves. -/
theorem covered_amount {cfg : RunConfig} {budget : LoadedBudget} {used : ℚ}
    (h : (gateOf cfg budget).allowed = true)
    (hcovered : (gateInputs cfg.env budget).capPerRunUsd ≤ (gateInputs cfg.env budget).dailyCapUsd - used ∨
      (used ≤ (gateInputs cfg.env budget).spentTodayUsd ∧ NotRoundedUp (gateInputs cfg.env budget))) :
    used + maxCostUsd cfg budget ≤ budget.dailyCapUsd := by
  obtain ⟨_, hmax, heq⟩ := allowed_terms h
  rcases hcovered with hroom | ⟨hseen, hdown⟩
  · have hcap : maxCostUsd cfg budget ≤ (gateInputs cfg.env budget).capPerRunUsd := min_le_right _ _
    change _ ≤ (gateInputs cfg.env budget).dailyCapUsd
    linarith
  · have hround := round2_le hdown
    have hpositive : 0 ≤ min (min (gateInputs cfg.env budget).capPerRunUsd
        (gateInputs cfg.env budget).remainingTodayUsd) (gateInputs cfg.env budget).spendableUsd := by
      by_contra hneg
      have hzero := round2_nonpos (not_le.mp hneg).le
      rw [DeepdiveRunGateInputs.maxRunCostUsd, hzero] at hmax
      exact lt_irrefl 0 hmax
    have hamount : maxCostUsd cfg budget ≤ (gateInputs cfg.env budget).dailyCapUsd - (gateInputs cfg.env budget).spentTodayUsd := by
      calc maxCostUsd cfg budget ≤ (gateOf cfg budget).maxRunCostUsd := min_le_left _ _
        _ = (gateInputs cfg.env budget).maxRunCostUsd := heq
        _ = round2 (min (min (gateInputs cfg.env budget).capPerRunUsd
            (gateInputs cfg.env budget).remainingTodayUsd) (gateInputs cfg.env budget).spendableUsd) := by
          rw [DeepdiveRunGateInputs.maxRunCostUsd, max_eq_right hpositive]
        _ ≤ _ := hround
    change _ ≤ (gateInputs cfg.env budget).dailyCapUsd
    linarith

theorem startOfUtcDay_mono {t t' : Int} (h : t ≤ t') : startOfUtcDay t ≤ startOfUtcDay t' := by
  unfold startOfUtcDay
  omega

/-- The cost of the rows from `since` on. -/
theorem totalSpendUsd_eq (since : Option Int) (rows : SpendTable) :
    totalSpendUsd since none rows =
      tally MetabolismSpend.costUsd (fun r => (since.all fun t => t ≤ r.atMs) && true) rows := rfl

/-- A later start counts no more. -/
theorem totalSpendUsd_anti {t t' : Int} (h : t ≤ t') {rows : SpendTable} (hrows : ∀ r ∈ rows, 0 ≤ r.costUsd) :
    totalSpendUsd (some t') none rows ≤ totalSpendUsd (some t) none rows := by
  rw [totalSpendUsd_eq, totalSpendUsd_eq]
  apply tally_le hrows
  intro r _ hr
  simp only [Option.all_some, Bool.and_true, decide_eq_true_eq] at hr ⊢
  exact h.trans hr

theorem totalSpendUsd_snoc (since : Option Int) (rows : SpendTable) {row : MetabolismSpend} (hrow : 0 ≤ row.costUsd) :
    totalSpendUsd since none (rows ++ [row]) ≤ totalSpendUsd since none rows + row.costUsd := by
  rw [totalSpendUsd_eq, totalSpendUsd_eq, tally_append]
  apply add_le_add le_rfl
  rw [tally_cons]
  split
  · simp [tally]
  · simpa [tally] using hrow

/-- A run adds nothing to the ledger, or one row with the cost of its answered run. -/
theorem runDeepdive_ledger (cfg : RunConfig) (input : RunDeepdiveInput) (io : RunIo) (budget : LoadedBudget)
    (hbudget : io.budget = .ok budget) (ledger : SpendTable) :
    (runDeepdive cfg input io ledger).1 = ledger ∨ ∃ result row,
      runDeepdiveAgent cfg.parse cfg.openrouterModelDeepdive cfg.deepdiveMaxSteps (maxCostUsd cfg budget) io.run =
        .ok result ∧
      (runDeepdive cfg input io ledger).1 = ledger ++ [row] ∧
      row.costUsd = (chooseCost io.lookupCost result.toUsage).1 ∧ 0 ≤ row.costUsd := by
  unfold runDeepdive
  cases hb : beforeModel cfg input io with
  | error answer => exact Or.inl rfl
  | ok gate =>
    obtain ⟨rfl, _⟩ := beforeModel_gate hbudget hb
    dsimp only
    rw [← maxCostUsd]
    cases hagent : runDeepdiveAgent cfg.parse cfg.openrouterModelDeepdive cfg.deepdiveMaxSteps
        (maxCostUsd cfg budget) io.run with
    | error msg => exact Or.inl rfl
    | ok result =>
      dsimp only
      by_cases hs : result.stoppedBy = .error
      · left
        rw [afterModel, if_pos hs]
      · cases ha : io.assemble with
        | error msg => exact Or.inl (by simp [afterModel, hs, ha])
        | ok draft =>
          cases hp : io.persist with
          | error msg => exact Or.inl (by simp [afterModel, hs, ha, hp])
          | ok u =>
            cases hr : io.reportId with
            | error msg => exact Or.inl (by simp [afterModel, hs, ha, hp, hr])
            | ok reportId =>
              rw [Spend.afterModel_ledger hs ha hp hr, Spend.recordDeepdiveSpend_table]
              rcases recordSpend_cases (spendEntry io.lookupCost result.toUsage io.keyHashPrefix reportId) io.spendId
                io.spendAt ledger with ⟨hcost, _, _, row, he, _, _, hrow⟩ | ⟨_, hsame⟩
              · exact Or.inr ⟨result, row, rfl, by rw [he], hrow, hrow ▸ hcost⟩
              · exact Or.inl hsame

/-- What holds of the lanes besides the cap. -/
structure Sound (cfg : RunConfig) (w : Lanes) : Prop where
  rows : ∀ r ∈ w.ledger, 0 ≤ r.costUsd
  gated : ∀ lane input budget, w.phase lane = .inFlight input budget → (gateOf cfg budget).allowed = true

theorem Sound.set {cfg : RunConfig} {w : Lanes} (h : Sound cfg w) (lane : Lane) {phase : Phase}
    (hphase : ∀ input budget, phase = .inFlight input budget → (gateOf cfg budget).allowed = true) :
    Sound cfg (w.set lane phase) := by
  refine ⟨h.rows, ?_⟩
  intro l input budget hl
  simp only [Lanes.set] at hl
  split at hl
  · exact hphase input budget hl
  · exact h.gated l input budget hl

/-- A phase before the gate, or none, adds nothing in flight. -/
theorem Capped.set {cfg : RunConfig} {w : Lanes} (h : Capped cfg w) {lane : Lane} {phase : Phase}
    (hold : (w.phase lane).authorisedUsd cfg = 0) (hnew : phase.authorisedUsd cfg = 0) :
    Capped cfg (w.set lane phase) := by
  intro cap hcap
  rw [Lanes.set_inFlight, hold, hnew, sub_zero, add_zero]
  exact h cap hcap

theorem clock_capped {cfg : RunConfig} {w : Lanes} (hs : Sound cfg w) (h : Capped cfg w) (now : Int) :
    Capped cfg (w.step cfg (.clock now)) := by
  intro cap hcap
  have hday : startOfUtcDay w.now ≤ startOfUtcDay (max w.now now) := startOfUtcDay_mono (le_max_left _ _)
  have hless : (w.step cfg (.clock now)).recordedTodayUsd ≤ w.recordedTodayUsd := totalSpendUsd_anti hday hs.rows
  have hsame : (w.step cfg (.clock now)).inFlightUsd cfg = w.inFlightUsd cfg := rfl
  rw [hsame]
  linarith [h cap hcap]

theorem gate_step {cfg : RunConfig} {w : Lanes} (hs : Sound cfg w) (h : Capped cfg w) (lane : Lane)
    (hcovered : Covered cfg w (.gate lane)) :
    Sound cfg (w.step cfg (.gate lane)) ∧ Capped cfg (w.step cfg (.gate lane)) := by
  simp only [Lanes.step]
  split
  · rename_i input budget hphase
    have hnone : (w.phase lane).authorisedUsd cfg = 0 := by rw [hphase]; rfl
    split
    · rename_i hallowed
      have hgated : ∀ i b, Phase.inFlight input budget = .inFlight i b → (gateOf cfg b).allowed = true := by
        intro i b he
        cases he
        exact hallowed
      refine ⟨⟨hs.rows, (hs.set lane hgated).gated⟩, ?_⟩
      intro cap hcap
      obtain rfl := Option.some.inj hcap
      have hamount := covered_amount hallowed (hcovered input budget hphase hallowed)
      have hin := Lanes.set_inFlight cfg w lane (.inFlight input budget)
      rw [hnone, sub_zero] at hin
      change w.recordedTodayUsd + (w.set lane (.inFlight input budget)).inFlightUsd cfg ≤ _
      rw [hin, ← add_assoc]
      exact hamount
    · refine ⟨hs.set lane ?_, h.set hnone rfl⟩
      intro i b he
      cases he
  · exact ⟨hs, h⟩

theorem finish_step {cfg : RunConfig} {w : Lanes} (hs : Sound cfg w) (h : Capped cfg w) (lane : Lane) (io : RunIo)
    (hwithin : WithinAuthorised cfg w (.finish lane io)) :
    Sound cfg (w.step cfg (.finish lane io)) ∧ Capped cfg (w.step cfg (.finish lane io)) := by
  simp only [Lanes.step]
  split
  · rename_i input budget hphase
    have hmax := maxCostUsd_nonneg (hs.gated lane input budget hphase)
    have hin : (w.set lane .idle).inFlightUsd cfg = w.inFlightUsd cfg - maxCostUsd cfg budget := by
      rw [Lanes.set_inFlight, hphase]
      exact add_zero _
    have hidle : Sound cfg (w.set lane .idle) := hs.set lane (by intro i b he; cases he)
    rcases runDeepdive_ledger cfg input { io with budget := .ok budget } budget rfl w.ledger with
      hsame | ⟨result, row, hagent, hrow, hcost, hpos⟩
    · rw [hsame]
      refine ⟨⟨hs.rows, hidle.gated⟩, ?_⟩
      intro cap hcap
      change w.recordedTodayUsd + (w.set lane .idle).inFlightUsd cfg ≤ cap
      rw [hin]
      linarith [h cap hcap]
    · rw [hrow]
      refine ⟨⟨?_, hidle.gated⟩, ?_⟩
      · intro r hr
        rcases List.mem_append.mp hr with hr | hr
        · exact hs.rows r hr
        · rw [List.mem_singleton.mp hr]
          exact hpos
      · intro cap hcap
        have hrecorded := totalSpendUsd_snoc (some (startOfUtcDay w.now)) w.ledger hpos
        have hcost_le : row.costUsd ≤ maxCostUsd cfg budget := by
          rw [hcost]
          exact hwithin input budget hphase result hagent
        change totalSpendUsd (some (startOfUtcDay w.now)) none (w.ledger ++ [row]) +
          (w.set lane .idle).inFlightUsd cfg ≤ cap
        rw [hin]
        have hbefore := h cap hcap
        unfold Lanes.recordedTodayUsd at hbefore
        linarith
  · exact ⟨hs, h⟩

theorem lanes_step {cfg : RunConfig} (w : Lanes) (e : LaneEvent) (h : Sound cfg w ∧ Capped cfg w)
    (hok : WithinAuthorised cfg w e ∧ Covered cfg w e) :
    Sound cfg (w.step cfg e) ∧ Capped cfg (w.step cfg e) := by
  obtain ⟨hs, hc⟩ := h
  cases e with
  | clock now => exact ⟨⟨hs.rows, hs.gated⟩, clock_capped hs hc now⟩
  | start lane input =>
    simp only [Lanes.step]
    split
    · rename_i hphase
      refine ⟨hs.set lane ?_, hc.set ?_ rfl⟩
      · intro i b he
        cases he
      · rw [hphase]
        rfl
    · exact ⟨hs, hc⟩
  | load lane epochs log tie trailing =>
    simp only [Lanes.step]
    split
    · rename_i hphase
      refine ⟨hs.set lane ?_, hc.set ?_ rfl⟩
      · intro i b he
        cases he
      · rw [hphase]
        rfl
    · exact ⟨hs, hc⟩
  | gate lane => exact gate_step hs hc lane hok.2
  | finish lane io => exact finish_step hs hc lane io hok.1
  | quit lane =>
    have hquit : ∀ phase, w.phase lane = phase → phase.authorisedUsd cfg = 0 →
        Sound cfg (w.set lane .idle) ∧ Capped cfg (w.set lane .idle) := by
      intro phase hphase hzero
      refine ⟨hs.set lane ?_, hc.set (hphase ▸ hzero) rfl⟩
      intro i b he
      cases he
    simp only [Lanes.step]
    split
    · exact hquit _ ‹_› rfl
    · exact hquit _ ‹_› rfl
    · exact ⟨hs, hc⟩

/-- A worker that has just started, over a ledger of earlier spend. -/
def started (now : Int) (ledger : SpendTable) : Lanes := ⟨now, ledger, fun _ => .idle, none⟩

/-- The daily cap bounds what is recorded and what is in flight, in every run whose gates
are covered. -/
theorem daily_cap_holds (cfg : RunConfig) (now : Int) (ledger : SpendTable)
    (hledger : ∀ r ∈ ledger, 0 ≤ r.costUsd) (events : List LaneEvent)
    (hwithin : Always (Lanes.step cfg) (WithinAuthorised cfg) (started now ledger) events)
    (hcovered : Always (Lanes.step cfg) (Covered cfg) (started now ledger) events) :
    Capped cfg (run (Lanes.step cfg) (started now ledger) events) := by
  have hs : Sound cfg (started now ledger) := by
    refine ⟨hledger, ?_⟩
    intro lane input budget h
    cases h
  have hc : Capped cfg (started now ledger) := by
    intro cap h
    cases h
  exact (invariant_run (fun w => Sound cfg w ∧ Capped cfg w) lanes_step ⟨hs, hc⟩ (hwithin.and hcovered)).2

def sampleConfig (dailyCapUsd : ℚ) : RunConfig := { Spend.sampleConfig with env := ⟨1 / 5, dailyCapUsd, 1, 60, false⟩ }

/-- Up to the gate, with nothing but the ledger to read. -/
def opens (lane : Lane) : List LaneEvent := [.start lane Spend.sampleInput, .load lane [] [] 0 (.ok 0)]

/-- An answered run whose usage object reports a cost. -/
def costing (cost : ℚ) : RunIo :=
  { Spend.sampleIo (.ok Spend.sampleText) with
    run := { turns := [none], invoked := .ok (), text := .ok Spend.sampleText
             usage := .ok fun key => if key = "cost" then some cost else none } }

def sampleBudget : LoadedBudget := defaultLoadBudget (sampleConfig 2).env ⟨[], [], []⟩ 0 (.ok 0) 0

def overlapping : List LaneEvent := opens .onDemand ++ opens .sweep ++ [.gate .onDemand, .gate .sweep]

theorem gate_other (cfg : RunConfig) (w : Lanes) (lane : Lane) :
    (w.step cfg (.gate lane)).phase lane.other = w.phase lane.other := by
  have hne : lane.other ≠ lane := by cases lane <;> simp [Lane.other]
  simp only [Lanes.step]
  split
  · split
    · exact if_neg hne
    · exact if_neg hne
  · rfl

theorem finish_other (cfg : RunConfig) (w : Lanes) (lane : Lane) (io : RunIo) :
    (w.step cfg (.finish lane io)).phase lane.other = w.phase lane.other := by
  have hne : lane.other ≠ lane := by cases lane <;> simp [Lane.other]
  simp only [Lanes.step]
  split
  · exact if_neg hne
  · rfl

theorem gate_allowed {cfg : RunConfig} {w : Lanes} {lane : Lane} {input : RunDeepdiveInput} {budget : LoadedBudget}
    (hphase : w.phase lane = .loaded input budget) (hallowed : (gateOf cfg budget).allowed = true) :
    (w.step cfg (.gate lane)).phase lane = .inFlight input budget := by
  simp only [Lanes.step, hphase, hallowed, if_true]
  exact if_pos rfl

/-- Both lanes are past the gate before either of them has a row. -/
theorem daily_cap_holds_overlapping :
    Capped (sampleConfig 2) (run (Lanes.step (sampleConfig 2)) (started 0 [])
      (overlapping ++ [.finish .onDemand (costing (1 / 10)), .finish .sweep (costing (1 / 10))])) := by
  let w := run (Lanes.step (sampleConfig 2)) (started 0 []) (opens .onDemand ++ opens .sweep)
  have hallowed : (gateOf (sampleConfig 2) sampleBudget).allowed = true := by decide +kernel
  have hloaded : ∀ lane, w.phase lane = .loaded Spend.sampleInput sampleBudget := by
    intro lane
    cases lane with
    | onDemand => rfl
    | sweep => rfl
  have hfirst : (w.step (sampleConfig 2) (.gate .onDemand)).phase .sweep = .loaded Spend.sampleInput sampleBudget :=
    (gate_other (sampleConfig 2) w .onDemand).trans (hloaded .sweep)
  have hwithin : ∀ (v : Lanes) lane, v.phase lane = .inFlight Spend.sampleInput sampleBudget →
      WithinAuthorised (sampleConfig 2) v (.finish lane (costing (1 / 10))) := by
    intro v lane hphase input budget hflight result hagent
    obtain ⟨rfl, rfl⟩ := Phase.inFlight.inj (hphase.symm.trans hflight)
    have hcost : (runDeepdiveAgent (sampleConfig 2).parse (sampleConfig 2).openrouterModelDeepdive
        (sampleConfig 2).deepdiveMaxSteps (maxCostUsd (sampleConfig 2) sampleBudget) (costing (1 / 10)).run).map
        (fun r => (chooseCost (costing (1 / 10)).lookupCost r.toUsage).1) = .ok (1 / 10) := by decide +kernel
    rw [hagent] at hcost
    calc (chooseCost (costing (1 / 10)).lookupCost result.toUsage).1 = 1 / 10 := Except.ok.inj hcost
      _ ≤ maxCostUsd (sampleConfig 2) sampleBudget := by decide +kernel
  have hsweep := gate_allowed hfirst hallowed
  have hondemand := (gate_other (sampleConfig 2) _ .sweep).trans (gate_allowed (hloaded .onDemand) hallowed)
  apply daily_cap_holds (sampleConfig 2) 0 [] (by simp)
  · refine ⟨trivial, trivial, trivial, trivial, trivial, trivial, hwithin _ _ hondemand, hwithin _ _ ?_, trivial⟩
    exact (finish_other (sampleConfig 2) _ .onDemand _).trans hsweep
  · refine ⟨trivial, trivial, trivial, trivial, ?_, ?_, trivial, trivial, trivial⟩
    · intro input budget hphase _
      obtain ⟨rfl, rfl⟩ := Phase.loaded.inj ((hloaded .onDemand).symm.trans hphase)
      left
      decide +kernel
    · intro input budget hphase _
      obtain ⟨rfl, rfl⟩ := Phase.loaded.inj (hfirst.symm.trans hphase)
      left
      decide +kernel

/-- Both lanes pass the gate on one reading of the ledger. -/
theorem daily_cap_exceeded :
    ¬ ∀ (cfg : RunConfig) (now : Int) (ledger : SpendTable) (events : List LaneEvent),
      (∀ r ∈ ledger, 0 ≤ r.costUsd) →
      Always (Lanes.step cfg) (WithinAuthorised cfg) (started now ledger) events →
      Capped cfg (run (Lanes.step cfg) (started now ledger) events) := by
  intro h
  have hwithin : Always (Lanes.step (sampleConfig (1 / 5))) (WithinAuthorised (sampleConfig (1 / 5)))
      (started 0 []) overlapping := ⟨trivial, trivial, trivial, trivial, trivial, trivial, trivial⟩
  have hcap : (run (Lanes.step (sampleConfig (1 / 5))) (started 0 []) overlapping).capUsd = some (1 / 5) := by
    decide +kernel
  have hle := h (sampleConfig (1 / 5)) 0 [] overlapping (by simp) hwithin (1 / 5) hcap
  have hover : ¬ (run (Lanes.step (sampleConfig (1 / 5))) (started 0 []) overlapping).recordedTodayUsd +
      (run (Lanes.step (sampleConfig (1 / 5))) (started 0 []) overlapping).inFlightUsd (sampleConfig (1 / 5)) ≤
      1 / 5 := by decide +kernel
  exact hover hle

end LaunchAuditor.Proofs.DailyCap
