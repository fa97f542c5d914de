import LaunchAuditor.Lib.Tally
import LaunchAuditor.Metabolism.Activation

namespace LaunchAuditor.Proofs.ActivationCap
open Metabolism Activation Steps Tally

/-- The total amount of the transactions of a kind. -/
def total (p : Tx → Bool) (txs : List Tx) : Nat := ((txs.filter p).map Tx.amount).sum

/-- The UTC day of a time in seconds and of one in milliseconds. -/
def daySec (t : Int) : Int := t / 86400
def dayMs (t : Int) : Int := t / 86400000

/-- Where and when a transaction has activated its amount. -/
def activatedIn (tx : Tx) : Option (Nat × Int) :=
  match tx.state with
  | .included block timestamp true => some (block, timestamp)
  | _ => none

/-- Activated on the chain on that day. -/
def minedOn (day : Int) (tx : Tx) : Bool := (activatedIn tx).any fun b => daySec b.2 = day

/-- Submitted on that day and activated on the chain since. -/
def submittedOn (day : Int) (tx : Tx) : Bool := (activatedIn tx).isSome && dayMs tx.submittedAt = day

/-- No day sees more CREDIT activated than the daily cap, neither by the time of the
blocks nor by the time of the submissions. A negative cap is none. -/
def DailyCap (cfg : ActivationConfig) (w : World) : Prop :=
  ∀ day, formatUnits6 (total (minedOn day) w.txs) ≤ max cfg.dailyCapUsd 0 ∧
    formatUnits6 (total (submittedOn day) w.txs) ≤ max cfg.dailyCapUsd 0

/-- From the block to the head there are no more blocks than the last ten thousand make in
the time since `sinceSec`, two per cent added. -/
def Reaches (c : Chain) (sinceSec : Int) (number : Nat) : Prop :=
  c.head.number ≤ number ∨ ((sinceSec : ℚ) < Js.double c.head.timestamp ∧
    0 < Js.double (c.head.timestamp - c.ref.timestamp : Int) ∧
    (c.head.number : Int) - number ≤ ⌈blocksSince sinceSec c.head c.ref⌉)

/-- The condition on a step. A decision to activate is taken when no transaction of the
runner waits and the scan reaches those of the day; no block takes a transaction back
to a day before its submission. -/
def Settled (cfg : ActivationConfig) (w : World) : Event → Prop
  | .query _ => ∀ i, w.phase = .querying i → ∀ amount reason,
      activationDecision (w.scanned cfg i) = .activate amount reason →
      ∀ tx ∈ w.txs, tx.state ≠ .waiting ∧ ∀ block timestamp, activatedIn tx = some (block, timestamp) →
        midnightSec w.now ≤ timestamp → Reaches w.chain (midnightSec w.now) block
  | .mine timestamp included _ => ∀ tx ∈ w.txs, tx.state = .waiting → included tx.id = some true →
      dayMs tx.submittedAt ≤ daySec timestamp
  | _ => True

theorem total_append (p : Tx → Bool) (xs ys : List Tx) : total p (xs ++ ys) = total p xs + total p ys :=
  tally_append xs ys

theorem total_le {p q : Tx → Bool} {txs : List Tx} (h : ∀ tx ∈ txs, p tx = true → q tx = true) :
    total p txs ≤ total q txs :=
  tally_le (fun tx _ => Nat.zero_le tx.amount) h

/-- A change of what becomes of the transactions, not of their amounts. -/
theorem total_map (p : Tx → Bool) {f : Tx → Tx} (hf : ∀ tx, (f tx).amount = tx.amount) (txs : List Tx) :
    total p (txs.map f) = total (fun tx => p (f tx)) txs :=
  tally_map hf txs

theorem mined_amount (included : Nat → Option Bool) (block : Nat) (timestamp : Int) (tx : Tx) :
    (tx.mined included block timestamp).amount = tx.amount := by
  unfold Tx.mined
  split <;> rfl

theorem dropped_amount (id : Nat) (tx : Tx) : (tx.dropped id).amount = tx.amount := by
  unfold Tx.dropped
  split <;> rfl

theorem formatUnits6_mono {m n : Nat} (h : m ≤ n) : formatUnits6 m ≤ formatUnits6 n := by
  unfold formatUnits6
  have hcast : (m : ℚ) ≤ n := by exact_mod_cast h
  linarith

theorem formatUnits6_add (m n : Nat) : formatUnits6 (m + n) = formatUnits6 m + formatUnits6 n := by
  unfold formatUnits6
  push_cast
  ring

theorem blocksSince_nonneg {sinceSec : Int} {head ref : BlockInfo} (href : ref.number ≤ head.number)
    (hsecs : 0 < Js.double (head.timestamp - ref.timestamp : Int)) (hsince : (sinceSec : ℚ) < Js.double head.timestamp) :
    0 ≤ blocksSince sinceSec head ref := by
  have hblocks : (0 : ℚ) ≤ (head.number - ref.number : Int) := by
    have : (0 : Int) ≤ head.number - ref.number := by omega
    exact_mod_cast this
  have hpace := Js.double_nonneg (div_nonneg (Js.double_nonneg hblocks) hsecs.le)
  have hspan := Js.double_nonneg (sub_nonneg.mpr hsince.le)
  have hmargin : (0 : ℚ) ≤ Js.double (102 / 100) := Js.double_nonneg (by norm_num)
  exact Js.double_nonneg (mul_nonneg (Js.double_nonneg (mul_nonneg hspan hpace)) hmargin)

theorem estimate_le_head (sinceSec : Int) {head ref : BlockInfo} (href : ref.number ≤ head.number) :
    estimateBlockAt sinceSec head ref ≤ head.number := by
  unfold estimateBlockAt
  dsimp only
  split
  · exact le_rfl
  · rename_i hno
    push Not at hno
    have hback : 0 ≤ ⌈blocksSince sinceSec head ref⌉ := Int.ceil_nonneg (blocksSince_nonneg href hno.1 hno.2)
    split
    · omega
    · omega

/-- The scan starts at a block it reaches, or before it. -/
theorem scanStart_le {c : Chain} {sinceSec : Int} {number : Nat} (h : Reaches c sinceSec number) :
    scanStart c sinceSec ≤ number := by
  have hhead : scanStart c sinceSec ≤ c.head.number := by
    apply estimate_le_head
    simp only [Chain.ref, Chain.getBlock]
    split
    · omega
    · omega
  rcases h with hle | ⟨hsince, href, hback⟩
  · exact hhead.trans hle
  · unfold scanStart estimateBlockAt
    dsimp only
    rw [if_neg (not_or.mpr ⟨not_le.mpr href, not_le.mpr hsince⟩)]
    split
    · omega
    · omega

def sendingUsd : Phase → ℚ
  | .sending amountUsd => amountUsd
  | _ => 0

/-- Activated on that day or later, or still waiting. -/
def held (day : Int) (tx : Tx) : Bool :=
  tx.state = .waiting || (activatedIn tx).any fun b => decide (day ≤ daySec b.2)

/-- From the day of the last decision on, what has been activated, what waits and what is about to be sent
fit into one daily cap. -/
structure Reserved (cfg : ActivationConfig) (w : World) (day : Int) : Prop where
  clock : day ≤ dayMs w.now
  waiting : ∀ tx ∈ w.txs, tx.state = .waiting → day ≤ dayMs tx.submittedAt
  room : formatUnits6 (total (held day) w.txs) + sendingUsd w.phase ≤ max cfg.dailyCapUsd 0

/-- What a block number on the transactions add up to is in the events of the wallet. -/
def minedFrom (number : Nat) (tx : Tx) : Bool := (activatedIn tx).any fun b => decide (number ≤ b.1)

def own (cfg : ActivationConfig) (a : Activated) : Bool := a.source = cfg.wallet

structure Good (cfg : ActivationConfig) (w : World) : Prop where
  capped : DailyCap cfg w
  dated : ∀ tx ∈ w.txs, ∀ block timestamp, activatedIn tx = some (block, timestamp) →
    dayMs tx.submittedAt ≤ daySec timestamp
  logged : ∀ number, total (minedFrom number) w.txs ≤ w.chain.amountFrom (own cfg) number
  asked : ∀ i, w.phase = .querying i → i.dailyCapUsd = cfg.dailyCapUsd
  exact : ∀ amountUsd, w.phase = .sending amountUsd → formatUnits6 (parseUnits6 amountUsd) = amountUsd
  reserved : ∃ day, Reserved cfg w day

theorem formatUnits6_nonneg (n : Nat) : 0 ≤ formatUnits6 n := by
  unfold formatUnits6
  positivity

theorem Good.sending_nonneg {cfg : ActivationConfig} {w : World} (h : Good cfg w) : 0 ≤ sendingUsd w.phase := by
  cases hp : w.phase with
  | sending amountUsd =>
    change 0 ≤ amountUsd
    rw [← h.exact amountUsd hp]
    exact formatUnits6_nonneg _
  | _ => exact le_rfl

/-- From the day of the reserve on, its room bounds every day. -/
theorem capped_of_room {cfg : ActivationConfig} {txs : List Tx} {day : Int}
    (hroom : formatUnits6 (total (held day) txs) ≤ max cfg.dailyCapUsd 0)
    (hdated : ∀ tx ∈ txs, ∀ block timestamp, activatedIn tx = some (block, timestamp) →
      dayMs tx.submittedAt ≤ daySec timestamp) {d : Int} (hd : day ≤ d) :
    formatUnits6 (total (minedOn d) txs) ≤ max cfg.dailyCapUsd 0 ∧
      formatUnits6 (total (submittedOn d) txs) ≤ max cfg.dailyCapUsd 0 := by
  constructor
  · refine (formatUnits6_mono (total_le ?_)).trans hroom
    intro tx _ hmined
    obtain ⟨⟨block, timestamp⟩, hin, hday⟩ := (Option.any_eq_true ..).mp hmined
    have hday : daySec timestamp = d := by simpa using hday
    simp [held, hin, hday, hd]
  · refine (formatUnits6_mono (total_le ?_)).trans hroom
    intro tx htx hsub
    obtain ⟨hsome, hday⟩ := (Bool.and_eq_true ..).mp hsub
    obtain ⟨⟨block, timestamp⟩, hin⟩ := Option.isSome_iff_exists.mp hsome
    have hday : dayMs tx.submittedAt = d := by simpa using hday
    have hle := hdated tx htx block timestamp hin
    have hlate : day ≤ daySec timestamp := by omega
    simp [held, hin, hlate]

/-- A phase without an amount. -/
structure Quiet (cfg : ActivationConfig) (phase : Phase) : Prop where
  asked : ∀ i, phase = .querying i → i.dailyCapUsd = cfg.dailyCapUsd
  sends : ∀ amountUsd, phase ≠ .sending amountUsd

theorem quiet_idle (cfg : ActivationConfig) : Quiet cfg .idle := by
  constructor
  · intro i h
    cases h
  · intro amountUsd h
    cases h

/-- A step that touches neither the chain nor the transactions and sends nothing new. -/
theorem Good.rest {cfg : ActivationConfig} {w w' : World} (h : Good cfg w) (hchain : w'.chain = w.chain)
    (htxs : w'.txs = w.txs) (hnow : w.now ≤ w'.now) (hphase : w'.phase = w.phase ∨ Quiet cfg w'.phase) :
    Good cfg w' := by
  obtain ⟨day, hclock, hwaiting, hroom⟩ := h.reserved
  have hless : sendingUsd w'.phase ≤ sendingUsd w.phase := by
    rcases hphase with hsame | hquiet
    · rw [hsame]
    · have hzero : sendingUsd w'.phase = 0 := by
        cases hp : w'.phase with
        | sending amountUsd => exact absurd hp (hquiet.sends amountUsd)
        | _ => rfl
      rw [hzero]
      exact h.sending_nonneg
  refine ⟨?_, ?_, ?_, ?_, ?_, day, ?_, ?_, ?_⟩
  · intro d
    rw [htxs]
    exact h.capped d
  · rw [htxs]
    exact h.dated
  · rw [htxs, hchain]
    exact h.logged
  · intro i hp
    rcases hphase with hsame | hquiet
    · exact h.asked i (hsame ▸ hp)
    · exact hquiet.asked i hp
  · intro amountUsd hp
    rcases hphase with hsame | hquiet
    · exact h.exact amountUsd (hsame ▸ hp)
    · exact absurd hp (hquiet.sends amountUsd)
  · unfold dayMs at hclock ⊢
    omega
  · rw [htxs]
    exact hwaiting
  · rw [htxs]
    linarith

theorem mined_cases (included : Nat → Option Bool) (block : Nat) (timestamp : Int) (tx : Tx) :
    tx.mined included block timestamp = tx ∨ ∃ success, tx.state = .waiting ∧ included tx.id = some success ∧
      tx.mined included block timestamp = { tx with state := .included block timestamp success } := by
  unfold Tx.mined
  split
  · rename_i success hstate hin
    exact Or.inr ⟨success, hstate, hin, rfl⟩
  · exact Or.inl rfl

theorem total_split {p q r : Tx → Bool} {txs : List Tx} (h : ∀ tx ∈ txs, r tx = true → p tx = true ∨ q tx = true) :
    total r txs ≤ total p txs + total q txs := by
  have hor : total r txs ≤ total (fun tx => p tx || (q tx && !p tx)) txs := by
    apply total_le
    intro tx htx hr
    cases hp : p tx with
    | true => rfl
    | false => simpa [hp] using h tx htx hr
  have hapart : ∀ tx ∈ txs, p tx = true → (q tx && !p tx) = false := by
    intro tx _ hp
    simp [hp]
  have hrest : total (fun tx => q tx && !p tx) txs ≤ total q txs := by
    apply total_le
    intro tx _ hq
    exact (Bool.and_eq_true_iff.mp hq).1
  calc total r txs ≤ total (fun tx => p tx || (q tx && !p tx)) txs := hor
    _ = total p txs + total (fun tx => q tx && !p tx) txs := tally_or hapart
    _ ≤ total p txs + total q txs := by omega

theorem events_amount (wallet : Hex) (included : Nat → Option Bool) (txs : List Tx) :
    ((txs.filterMap (Tx.event wallet included)).map Activated.amount).sum =
      total (fun tx => (tx.event wallet included).isSome) txs := by
  induction txs with
  | nil => rfl
  | cons tx txs ih =>
    unfold total at ih ⊢
    simp only [List.filterMap_cons, List.filter_cons]
    cases he : tx.event wallet included with
    | none => simpa using ih
    | some e =>
      have hamount : e.amount = tx.amount := by
        unfold Tx.event at he
        split at he
        · rw [← Option.some.inj he]
        · cases he
      simp [ih, hamount]

theorem events_own (cfg : ActivationConfig) (included : Nat → Option Bool) (txs : List Tx) :
    (txs.filterMap (Tx.event cfg.wallet included)).filter (own cfg) = txs.filterMap (Tx.event cfg.wallet included) := by
  apply List.filter_eq_self.mpr
  intro e he
  obtain ⟨tx, _, hevent⟩ := List.mem_filterMap.mp he
  unfold Tx.event at hevent
  split at hevent
  · rw [← Option.some.inj hevent]
    simp [own]
  · cases hevent

theorem amountFrom_extend (c : Chain) (b : Block) (h : c.headTimestamp ≤ b.timestamp) (args : Activated → Bool)
    {number : Nat} (hn : number ≤ c.blocks.length) :
    (c.extend b h).amountFrom args number =
      c.amountFrom args number + ((b.activated.filter args).map Activated.amount).sum := by
  simp only [Chain.amountFrom, Chain.extend]
  rw [List.drop_append_of_le_length hn]
  simp

theorem mine_logged {cfg : ActivationConfig} {w : World} (h : Good cfg w) (timestamp : Int)
    (included : Nat → Option Bool) (others : List Activated) (hlater : w.chain.headTimestamp ≤ timestamp) (number : Nat) :
    total (minedFrom number) (w.txs.map (Tx.mined included w.chain.blocks.length timestamp)) ≤
      (w.chain.extend ⟨timestamp, w.txs.filterMap (Tx.event cfg.wallet included) ++ others⟩ hlater).amountFrom
        (own cfg) number := by
  rw [total_map _ (mined_amount included w.chain.blocks.length timestamp)]
  have hold := h.logged number
  by_cases hn : number ≤ w.chain.blocks.length
  · have hsplit : total (fun tx => minedFrom number (tx.mined included w.chain.blocks.length timestamp)) w.txs ≤
        total (minedFrom number) w.txs + total (fun tx => (tx.event cfg.wallet included).isSome) w.txs := by
      apply total_split
      intro tx _ hmined
      rcases mined_cases included w.chain.blocks.length timestamp tx with hsame | ⟨success, hstate, hin, hnew⟩
      · left
        rwa [hsame] at hmined
      · right
        rw [hnew] at hmined
        cases success with
        | true => simp [Tx.event, hstate, hin]
        | false => simp [minedFrom, activatedIn] at hmined
    rw [amountFrom_extend _ _ _ _ hn, List.filter_append, events_own, List.map_append, List.sum_append, events_amount]
    omega
  · have hless : total (fun tx => minedFrom number (tx.mined included w.chain.blocks.length timestamp)) w.txs ≤
        total (minedFrom number) w.txs := by
      apply total_le
      intro tx _ hmined
      rcases mined_cases included w.chain.blocks.length timestamp tx with hsame | ⟨success, hstate, hin, hnew⟩
      · rwa [hsame] at hmined
      · rw [hnew] at hmined
        cases success with
        | true =>
          have hle : number ≤ w.chain.blocks.length := by simpa [minedFrom, activatedIn] using hmined
          exact absurd hle hn
        | false => simp [minedFrom, activatedIn] at hmined
    have hnone : w.chain.amountFrom (own cfg) number = 0 := by
      unfold Chain.amountFrom
      rw [List.drop_eq_nil_of_le (by omega)]
      rfl
    omega

section Mined
variable {txs : List Tx} {included : Nat → Option Bool} {block : Nat} {timestamp : Int}

/-- What the block includes was waiting, so it was held before. -/
theorem mined_held (day : Int) :
    total (held day) (txs.map (Tx.mined included block timestamp)) ≤ total (held day) txs := by
  rw [total_map _ (mined_amount included block timestamp)]
  apply total_le
  intro tx _ hh
  rcases mined_cases included block timestamp tx with hsame | ⟨success, hstate, _, _⟩
  · rwa [hsame] at hh
  · simp [held, hstate]

theorem mined_dated
    (hdated : ∀ tx ∈ txs, ∀ block time, activatedIn tx = some (block, time) → dayMs tx.submittedAt ≤ daySec time)
    (hok : ∀ tx ∈ txs, tx.state = .waiting → included tx.id = some true → dayMs tx.submittedAt ≤ daySec timestamp) :
    ∀ tx ∈ txs.map (Tx.mined included block timestamp), ∀ block time, activatedIn tx = some (block, time) →
      dayMs tx.submittedAt ≤ daySec time := by
  intro tx' htx' block' time hin
  obtain ⟨tx, htx, rfl⟩ := List.mem_map.mp htx'
  rcases mined_cases included block timestamp tx with hsame | ⟨success, hstate, hincluded, hnew⟩
  · rw [hsame] at hin ⊢
    exact hdated tx htx block' time hin
  · rw [hnew] at hin ⊢
    cases success with
    | true =>
      obtain ⟨_, rfl⟩ := Prod.mk.inj (Option.some.inj hin)
      exact hok tx htx hstate hincluded
    | false => cases hin

/-- A transaction of the block was submitted after an earlier day, and is not dated on it. -/
theorem mined_earlier {day d : Int} (hd : d < day)
    (hwaiting : ∀ tx ∈ txs, tx.state = .waiting → day ≤ dayMs tx.submittedAt)
    (hok : ∀ tx ∈ txs, tx.state = .waiting → included tx.id = some true → dayMs tx.submittedAt ≤ daySec timestamp) :
    total (minedOn d) (txs.map (Tx.mined included block timestamp)) ≤ total (minedOn d) txs ∧
      total (submittedOn d) (txs.map (Tx.mined included block timestamp)) ≤ total (submittedOn d) txs := by
  rw [total_map _ (mined_amount included block timestamp), total_map _ (mined_amount included block timestamp)]
  constructor
  · apply total_le
    intro tx htx hmined
    rcases mined_cases included block timestamp tx with hsame | ⟨success, hstate, hincluded, hnew⟩
    · rwa [hsame] at hmined
    · rw [hnew] at hmined
      cases success with
      | true =>
        have hday : daySec timestamp = d := by simpa [minedOn, activatedIn] using hmined
        have hsubmitted := hwaiting tx htx hstate
        have hincluded := hok tx htx hstate hincluded
        omega
      | false => simp [minedOn, activatedIn] at hmined
  · apply total_le
    intro tx htx hsub
    rcases mined_cases included block timestamp tx with hsame | ⟨success, hstate, hincluded, hnew⟩
    · rwa [hsame] at hsub
    · rw [hnew] at hsub
      have hday : dayMs tx.submittedAt = d := by simpa using ((Bool.and_eq_true ..).mp hsub).2
      have hsubmitted := hwaiting tx htx hstate
      omega

end Mined

theorem mine_good {cfg : ActivationConfig} {w : World} (h : Good cfg w) (timestamp : Int)
    (included : Nat → Option Bool) (others : List Activated) (hok : Settled cfg w (.mine timestamp included others)) :
    Good cfg (w.step cfg (.mine timestamp included others)) := by
  simp only [World.step]
  split
  · rename_i hlater
    obtain ⟨day, hclock, hwaiting, hroom⟩ := h.reserved
    have hdated := @mined_dated w.txs included w.chain.blocks.length timestamp h.dated hok
    have hroom' : formatUnits6 (total (held day) (w.txs.map (Tx.mined included w.chain.blocks.length timestamp))) +
        sendingUsd w.phase ≤ max cfg.dailyCapUsd 0 :=
      (add_le_add_left (formatUnits6_mono (mined_held day)) _).trans hroom
    refine ⟨?_, hdated, mine_logged h timestamp included others hlater, h.asked, h.exact, day, hclock, ?_, hroom'⟩
    · intro d
      by_cases hd : day ≤ d
      · have hsend := h.sending_nonneg
        exact capped_of_room (by linarith) hdated hd
      · have hold := h.capped d
        obtain ⟨hmined, hsubmitted⟩ := @mined_earlier w.txs included w.chain.blocks.length timestamp day d
          (not_le.mp hd) hwaiting hok
        exact ⟨(formatUnits6_mono hmined).trans hold.1, (formatUnits6_mono hsubmitted).trans hold.2⟩
    · intro tx' htx' hstate'
      obtain ⟨tx, htx, rfl⟩ := List.mem_map.mp htx'
      rcases mined_cases included w.chain.blocks.length timestamp tx with hsame | ⟨success, hstate, _, hnew⟩
      · rw [hsame] at hstate' ⊢
        exact hwaiting tx htx hstate'
      · rw [hnew] at hstate'
        cases hstate'
  · exact h

theorem dropped_cases (id : Nat) (tx : Tx) :
    tx.dropped id = tx ∨ (activatedIn (tx.dropped id) = none ∧ (tx.dropped id).state ≠ .waiting) := by
  unfold Tx.dropped
  split
  · exact Or.inr ⟨rfl, by simp⟩
  · exact Or.inl rfl

theorem drop_good {cfg : ActivationConfig} {w : World} (h : Good cfg w) (id : Nat) :
    Good cfg (w.step cfg (.drop id)) := by
  obtain ⟨day, hclock, hwaiting, hroom⟩ := h.reserved
  have hless : ∀ p : Tx → Bool, (∀ tx, activatedIn tx = none → tx.state ≠ .waiting → p tx = false) →
      total p (w.txs.map (Tx.dropped id)) ≤ total p w.txs := by
    intro p hp
    rw [total_map p (dropped_amount id)]
    apply total_le
    intro tx _ htrue
    rcases dropped_cases id tx with hsame | ⟨hnone, hstate⟩
    · rwa [hsame] at htrue
    · rw [hp _ hnone hstate] at htrue
      cases htrue
  have hback : ∀ tx' ∈ w.txs.map (Tx.dropped id), (activatedIn tx').isSome ∨ tx'.state = .waiting → tx' ∈ w.txs := by
    intro tx' htx' hlive
    obtain ⟨tx, htx, rfl⟩ := List.mem_map.mp htx'
    rcases dropped_cases id tx with hsame | ⟨hnone, hstate⟩
    · rwa [hsame]
    · rcases hlive with hsome | hwait
      · rw [hnone] at hsome
        cases hsome
      · exact absurd hwait hstate
  refine ⟨?_, ?_, ?_, h.asked, h.exact, day, hclock, ?_, ?_⟩
  · intro d
    have hold := h.capped d
    constructor
    · refine (formatUnits6_mono (hless _ ?_)).trans hold.1
      intro tx hnone _
      simp [minedOn, hnone]
    · refine (formatUnits6_mono (hless _ ?_)).trans hold.2
      intro tx hnone _
      simp [submittedOn, hnone]
  · intro tx htx block timestamp hin
    exact h.dated tx (hback tx htx (Or.inl (by simp [hin]))) block timestamp hin
  · intro number
    refine (hless _ ?_).trans (h.logged number)
    intro tx hnone _
    simp [minedFrom, hnone]
  · intro tx htx hstate
    exact hwaiting tx (hback tx htx (Or.inr hstate)) hstate
  · have hheld := hless (held day) (by
      intro tx hnone hstate
      simp [held, hnone, hstate])
    have hmono := formatUnits6_mono hheld
    change formatUnits6 (total (held day) (w.txs.map (Tx.dropped id))) + sendingUsd w.phase ≤ _
    linarith

/-- The amount of a decision is one of six decimals. -/
theorem amountUsd_exact {i : ActivationInputs} (h : 0 ≤ i.amountUsd) :
    formatUnits6 (parseUnits6 i.amountUsd) = i.amountUsd := by
  unfold ActivationInputs.amountUsd at h ⊢
  generalize ⌊min (min i.chunkUsd i.creditHeldUsd) i.capLeft * 1000000⌋ = n at h ⊢
  have hn : 0 ≤ n := by
    have hq : (0 : ℚ) ≤ n := by
      rw [le_div_iff₀ (by norm_num)] at h
      linarith
    exact_mod_cast hq
  have hround : Js.mathRound ((n : ℚ) / 1000000 * 1000000) = n := by
    unfold Js.mathRound
    rw [div_mul_cancel₀ _ (by norm_num), Int.floor_eq_iff]
    constructor
    · linarith
    · linarith
  unfold parseUnits6 formatUnits6
  rw [hround]
  have hcast : ((n.toNat : ℕ) : ℚ) = (n : ℚ) := by exact_mod_cast Int.toNat_of_nonneg hn
  rw [hcast]

/-- What is held from today on is in the figure of the scan. -/
theorem held_le_scan {cfg : ActivationConfig} {w : World} (h : Good cfg w)
    (hok : ∀ tx ∈ w.txs, tx.state ≠ .waiting ∧ ∀ block timestamp, activatedIn tx = some (block, timestamp) →
      midnightSec w.now ≤ timestamp → Reaches w.chain (midnightSec w.now) block) :
    formatUnits6 (total (held (dayMs w.now)) w.txs) ≤ activatedTodayUsd w.chain cfg.wallet 9999 w.now := by
  unfold activatedTodayUsd
  rw [sumActivatedSince_eq _ _ _ (by norm_num)]
  apply formatUnits6_mono
  refine le_trans (total_le ?_) (h.logged (scanStart w.chain (midnightSec w.now)))
  intro tx htx hheld
  obtain ⟨hstate, hreach⟩ := hok tx htx
  rcases (Bool.or_eq_true ..).mp hheld with hwait | hin
  · exact absurd (by simpa using hwait) hstate
  · obtain ⟨⟨block, timestamp⟩, hsome, hday⟩ := (Option.any_eq_true ..).mp hin
    have hday : dayMs w.now ≤ daySec timestamp := by simpa using hday
    have hmidnight : midnightSec w.now ≤ timestamp := by
      unfold midnightSec
      unfold dayMs daySec at hday
      omega
    have hstart := scanStart_le (hreach block timestamp hsome hmidnight)
    simp [minedFrom, hsome, hstart]

theorem query_good {cfg : ActivationConfig} {w : World} (h : Good cfg w) (decidedAt : Int)
    (hok : Settled cfg w (.query decidedAt)) : Good cfg (w.step cfg (.query decidedAt)) := by
  simp only [World.step]
  split
  · rename_i i hphase
    unfold World.conclude
    cases hdecision : activationDecision (w.scanned cfg i) with
    | skip reason =>
      exact @Good.rest cfg w _ h rfl rfl (le_max_left w.now decidedAt) (Or.inr (quiet_idle cfg))
    | activate amountUsd reason =>
      obtain ⟨_, _, _, hamount, hsmall⟩ := activationDecision_activate hdecision
      have hscan := held_le_scan h (hok i hphase amountUsd reason hdecision)
      have hleft : amountUsd ≤ cfg.dailyCapUsd - activatedTodayUsd w.chain cfg.wallet 9999 w.now := by
        rw [← h.asked i hphase, hamount]
        exact amountUsd_le (w.scanned cfg i)
      have hroom : formatUnits6 (total (held (dayMs w.now)) w.txs) + amountUsd ≤ max cfg.dailyCapUsd 0 :=
        le_trans (by linarith) (le_max_left cfg.dailyCapUsd 0)
      refine ⟨h.capped, h.dated, h.logged, ?_, ?_, dayMs w.now, ?_, ?_, hroom⟩
      · intro j hj
        cases hj
      · intro a ha
        obtain rfl := Phase.sending.inj ha
        rw [hamount]
        apply amountUsd_exact
        rw [← hamount]
        linarith
      · have hnow : w.now ≤ max w.now decidedAt := le_max_left _ _
        change dayMs w.now ≤ dayMs (max w.now decidedAt)
        unfold dayMs
        omega
      · intro tx htx hwait
        exact absurd hwait (hok i hphase amountUsd reason hdecision tx htx).1
  · exact h

/-- What is sent waits. -/
theorem submit_good {cfg : ActivationConfig} {w : World} (h : Good cfg w) {amountUsd : ℚ}
    (hphase : w.phase = .sending amountUsd) {phase : Phase} (hquiet : Quiet cfg phase) :
    Good cfg { w.submit amountUsd with phase := phase } := by
  obtain ⟨day, hclock, hwaiting, hroom⟩ := h.reserved
  have hexact := h.exact amountUsd hphase
  have hzero : sendingUsd phase = 0 := by
    cases phase with
    | sending amountUsd => exact absurd rfl (hquiet.sends amountUsd)
    | _ => rfl
  -- the new transaction has activated nothing yet
  have hsame : ∀ p : Tx → Bool, (∀ tx : Tx, tx.state = .waiting → p tx = false) →
      total p (w.submit amountUsd).txs = total p w.txs := by
    intro p hp
    have hnew : total p [⟨w.txs.length, parseUnits6 amountUsd, w.now, .waiting⟩] = 0 := by
      simp [total, hp]
    rw [World.submit, total_append, hnew, Nat.add_zero]
  have hheld : total (held day) (w.submit amountUsd).txs = total (held day) w.txs + parseUnits6 amountUsd := by
    rw [World.submit, total_append]
    simp [total, held]
  refine ⟨?_, ?_, ?_, hquiet.asked, ?_, day, hclock, ?_, ?_⟩
  · intro d
    have hmined := hsame (minedOn d) (fun tx hs => by simp [minedOn, activatedIn, hs])
    have hsubmitted := hsame (submittedOn d) (fun tx hs => by simp [submittedOn, activatedIn, hs])
    change formatUnits6 (total (minedOn d) (w.submit amountUsd).txs) ≤ _ ∧
      formatUnits6 (total (submittedOn d) (w.submit amountUsd).txs) ≤ _
    rw [hmined, hsubmitted]
    exact h.capped d
  · intro tx htx block timestamp hin
    rcases List.mem_append.mp htx with htx | htx
    · exact h.dated tx htx block timestamp hin
    · rw [List.mem_singleton.mp htx] at hin
      cases hin
  · intro number
    have hfrom := hsame (minedFrom number) (fun tx hs => by simp [minedFrom, activatedIn, hs])
    change total (minedFrom number) (w.submit amountUsd).txs ≤ _
    rw [hfrom]
    exact h.logged number
  · intro a ha
    exact absurd ha (hquiet.sends a)
  · intro tx htx hwait
    rcases List.mem_append.mp htx with htx | htx
    · exact hwaiting tx htx hwait
    · rw [List.mem_singleton.mp htx]
      exact hclock
  · change formatUnits6 (total (held day) (w.submit amountUsd).txs) + sendingUsd phase ≤ _
    rw [hheld, formatUnits6_add, hexact, hzero, add_zero]
    rw [hphase] at hroom
    exact hroom

theorem send_good {cfg : ActivationConfig} {w : World} (h : Good cfg w) (outcome : SendOutcome) :
    Good cfg (w.step cfg (.send outcome)) := by
  have hreceipt : Quiet cfg .receipt := by
    constructor
    · intro i hi
      cases hi
    · intro a ha
      cases ha
  have hfailed : Good cfg { w with phase := .idle } :=
    @Good.rest cfg w _ h rfl rfl (le_refl w.now) (Or.inr (quiet_idle cfg))
  simp only [World.step]
  split
  · rename_i amountUsd hphase
    split
    · exact hfailed
    · exact hfailed
    · exact submit_good h hphase hreceipt
    · exact submit_good h hphase (quiet_idle cfg)
  · exact h

theorem tick_good {cfg : ActivationConfig} {w : World} (h : Good cfg w) (read : ActivationRead) :
    Good cfg (w.step cfg (.tick read)) := by
  simp only [World.step]
  split
  · split
    · refine @Good.rest cfg w _ h rfl rfl (le_refl w.now) (Or.inr ?_)
      constructor
      · intro i hi
        rw [← Phase.querying.inj hi]
        rfl
      · intro a ha
        cases ha
    · rename_i hcheck
      unfold World.conclude
      cases hdecision : activationDecision (w.inputs cfg read) with
      | skip reason => exact @Good.rest cfg w _ h rfl rfl (le_refl w.now) (Or.inr (quiet_idle cfg))
      | activate amountUsd reason =>
        exact absurd hdecision (unchecked_skips (by simpa using hcheck) amountUsd reason)
  · exact h

theorem activation_step {cfg : ActivationConfig} (w : World) (e : Event) (h : Good cfg w) (hok : Settled cfg w e) :
    Good cfg (w.step cfg e) := by
  cases e with
  | clock now => exact @Good.rest cfg w _ h rfl rfl (le_max_left w.now now) (Or.inl rfl)
  | mine timestamp included others => exact mine_good h timestamp included others hok
  | drop id => exact drop_good h id
  | tick read => exact tick_good h read
  | query decidedAt => exact query_good h decidedAt hok
  | send outcome => exact send_good h outcome
  | endTick => exact @Good.rest cfg w _ h rfl rfl (le_refl w.now) (Or.inr (quiet_idle cfg))
  | restart => exact @Good.rest cfg w _ h rfl rfl (le_refl w.now) (Or.inr (quiet_idle cfg))

/-- A runner that has submitted nothing yet, before any chain. -/
def started (chain : Chain) (now : Int) : World := ⟨chain, now, [], none, .idle⟩

theorem started_good (cfg : ActivationConfig) (chain : Chain) (now : Int) : Good cfg (started chain now) := by
  have hzero : ∀ p : Tx → Bool, formatUnits6 (total p []) = 0 := by
    intro p
    simp [total, formatUnits6]
  refine ⟨?_, ?_, ?_, ?_, ?_, dayMs now, le_rfl, ?_, ?_⟩
  · intro d
    change formatUnits6 (total _ []) ≤ _ ∧ formatUnits6 (total _ []) ≤ _
    rw [hzero, hzero]
    exact ⟨le_max_right _ _, le_max_right _ _⟩
  · intro tx htx
    cases htx
  · intro number
    exact Nat.zero_le _
  · intro i hi
    cases hi
  · intro a ha
    cases ha
  · intro tx htx
    cases htx
  · change formatUnits6 (total _ []) + 0 ≤ _
    rw [hzero, add_zero]
    exact le_max_right _ _

/-- The daily activation cap holds in every run whose decisions and blocks are settled. -/
theorem activation_cap_holds (cfg : ActivationConfig) (chain : Chain) (now : Int) (events : List Event)
    (hok : Always (World.step cfg) (Settled cfg) (started chain now) events) :
    DailyCap cfg (run (World.step cfg) (started chain now) events) :=
  (invariant_run (Good cfg) activation_step (started_good cfg chain now) hok).capped

def sampleConfig (chunkUsd : ℚ) : ActivationConfig :=
  { addresses := ⟨[], none⟩, wallet := [], lowWaterUsd := 2, chunkUsd, dailyCapUsd := 5, keepWarmAfterMs := 72000000 }

def sampleChain : Chain := ⟨[⟨3000, []⟩], by simp, by simp⟩

/-- A tick over an empty account, up to the broadcast of its transaction. -/
def activates (now : Int) : List Event := [.clock now, .tick ⟨0, 20, none⟩, .query now, .send .sent, .endTick]

def all (_ : Nat) : Option Bool := some true

/-- The second transaction is decided on when the first is in the newest block. -/
theorem activation_cap_holds_twice :
    DailyCap (sampleConfig 3) (run (World.step (sampleConfig 3)) (started sampleChain 0)
      (activates 3600000 ++ .mine 3700 all [] :: activates 4300000)) := by
  have htxs : (run (World.step (sampleConfig 3)) (started sampleChain 0)
      (activates 3600000 ++ .mine 3700 all [] :: [.clock 4300000, .tick ⟨0, 20, none⟩])).txs =
      [⟨0, 3000000, 3600000, .included 1 3700 true⟩] := by decide +kernel
  have hwaiting : (run (World.step (sampleConfig 3)) (started sampleChain 0) (activates 3600000)).txs =
      [⟨0, 3000000, 3600000, .waiting⟩] := by decide +kernel
  have hhead : (run (World.step (sampleConfig 3)) (started sampleChain 0)
      (activates 3600000 ++ .mine 3700 all [] :: [.clock 4300000, .tick ⟨0, 20, none⟩])).chain.head.number = 1 := by
    decide +kernel
  apply activation_cap_holds
  refine ⟨trivial, trivial, ?_, trivial, trivial, ?_, trivial, trivial, ?_, trivial, trivial, trivial⟩
  · intro i _ amount reason _ tx htx
    cases htx
  · intro tx htx _ _
    have htx : tx ∈ (run (World.step (sampleConfig 3)) (started sampleChain 0) (activates 3600000)).txs := htx
    rw [hwaiting] at htx
    rw [List.mem_singleton.mp htx]
    decide +kernel
  · intro i _ amount reason _ tx htx
    have htx : tx ∈ (run (World.step (sampleConfig 3)) (started sampleChain 0)
        (activates 3600000 ++ .mine 3700 all [] :: [.clock 4300000, .tick ⟨0, 20, none⟩])).txs := htx
    rw [htxs] at htx
    obtain rfl := List.mem_singleton.mp htx
    refine ⟨by simp, ?_⟩
    intro block timestamp hin _
    obtain ⟨rfl, rfl⟩ := Prod.mk.inj (Option.some.inj hin)
    exact Or.inl hhead.le

/-- Eleven minutes after the first transaction, still waiting, a second one of the same
amount is sent; one block includes both. -/
def expired : List Event := activates 3600000 ++ activates 4260000 ++ [.mine 5000 all []]

theorem activation_cap_exceeded :
    ¬ ∀ (cfg : ActivationConfig) (chain : Chain) (now : Int) (events : List Event),
      DailyCap cfg (run (World.step cfg) (started chain now) events) := by
  intro h
  have hday := (h (sampleConfig 5) sampleChain 0 expired 0).1
  have hover : ¬ formatUnits6 (total (minedOn 0) (run (World.step (sampleConfig 5)) (started sampleChain 0) expired).txs) ≤
      max (sampleConfig 5).dailyCapUsd 0 := by decide +kernel
  exact hover hday

end LaunchAuditor.Proofs.ActivationCap
