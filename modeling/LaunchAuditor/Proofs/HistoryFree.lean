import LaunchAuditor.Proofs.Measurement
import LaunchAuditor.Lib.Steps

namespace LaunchAuditor.Proofs.HistoryFree
open Chain Watcher Scoring Db Outcomes Measurement

/-- A chain that grows, and what is answered while a block is its head. -/
structure World where
  /-- the timestamp of a block, mined or still to come -/
  time : Nat → Nat
  ordered : Monotone time
  getLogs : Nat → GetLogs
  quote : Nat → QuoteCall → Except RpcError Nat
  decimals : Nat → Address → Except RpcError Nat

/-- The calls of a resolution that fail although the chain has an answer. -/
structure Faults where
  getBlockNumber : Nat → Option RpcError
  getBlock : Nat → Nat → Option RpcError
  getLogs : Nat → Nat → LogFilter → Option RpcError
  quote : Nat → Option RpcError
  decimals : Option RpcError

def Faults.none : Faults := ⟨fun _ => .none, fun _ _ => .none, fun _ _ _ => .none, fun _ => .none, .none⟩

def faulty {α : Type} (fault : Option RpcError) (answer : Except RpcError α) : Except RpcError α :=
  match fault with
  | some e => .error e
  | none => answer

def World.client (w : World) (head : Nat) (f : Faults) : ResolveClient where
  blocks site :=
    { getBlockNumber := faulty (f.getBlockNumber site) (.ok head)
      getBlock := fun read n => faulty (f.getBlock site read) ((readerOf w.time head).getBlock read n) }
  getLogs scan attempt filter := faulty (f.getLogs scan attempt filter) (w.getLogs head filter)
  quote n call := faulty (f.quote n) (w.quote head call)
  decimals q := faulty f.decimals (w.decimals head q)

/-- A process of the worker: the head it saw last, and its caches. -/
structure Process where
  head : Nat
  caches : Caches

def Process.start (head : Nat) : Process := ⟨head, Caches.fresh⟩

/-- One resolution: the blocks mined since the one before, what fails, and what the database holds. -/
structure Step where
  mined : Nat
  faults : Faults
  db : LaunchTables
  row : OutcomeRow

section Runs
variable (chainConfigs : List ChainConfig) (maxRange : Option Nat) (w : World)

/-- The row of a step, resolved under these faults by a process with these caches. -/
def resolveIn (head : Nat) (s : Step) (faults : Faults) (caches : Caches) : Memo.Result RpcError Caches Resolution :=
  resolveOneOutcome chainConfigs maxRange (w.client head faults) s.db s.row caches

def step (p : Process) (s : Step) : Process :=
  ⟨p.head + s.mined, (resolveIn chainConfigs maxRange w (p.head + s.mined) s s.faults p.caches).2⟩

def verdict (r : Except RpcError Resolution) : Except RpcError (OutcomeStatus × Option Bool) :=
  r.map fun r => (r.status, r.value)

/-- When no fault has a part in a resolution, it ends as in a process that has just started. -/
def Unaffected (p : Process) (s : Step) : Prop :=
  resolveIn chainConfigs maxRange w (p.head + s.mined) s s.faults p.caches =
      resolveIn chainConfigs maxRange w (p.head + s.mined) s Faults.none p.caches →
    verdict (resolveIn chainConfigs maxRange w (p.head + s.mined) s s.faults p.caches).1 =
      verdict (resolveIn chainConfigs maxRange w (p.head + s.mined) s Faults.none Caches.fresh).1

/-- The times a row is measured by. -/
def lookedUp (row : OutcomeRow) (horizonAt : Int) : List Int :=
  [row.anchorTime, horizonAt] ++ if row.label = .DRAWDOWN_80 then [otherEnd row] else []

/-- The search for this second ends at the last block that will ever be at or before it: that block is mined,
and it is the head, or the probes that are allowed single it out. -/
def Settled (head : Nat) (t : Int) : Prop :=
  MIN_BLOCK ≤ head ∧
    if t ≤ (w.time MIN_BLOCK : Int) then head = MIN_BLOCK ∨ t < (w.time head : Int)
    else ∃ b ≤ head, (w.time b : Int) ≤ t ∧ t < (w.time (b + 1) : Int) ∧
      (b = head ∨ Bisect.search (fun n => decide (n ≤ b)) MAX_ITERS MIN_BLOCK head MIN_BLOCK = b)

/-- What a read of the decimals gives when nothing but the contract can fail it. -/
def decimalsAt (head : Nat) (quote : Address) : Nat :=
  match w.decimals head quote with
  | .ok d => d
  | .error _ => 18

/-- The decimals are not read, or what the read leaves behind stays right. -/
def DecimalsKnown (head : Nat) (faults : Faults) (cache : DecimalsCache) (quote : Address) : Prop :=
  quote = ZERO_ADDRESS ∨ (cache.lookup quote).isSome = true ∨
    ((faults.decimals = none ∨ decimalsAt w head quote = 18) ∧
      ∀ later, head ≤ later → decimalsAt w later quote = decimalsAt w head quote)

/-- What a step that reads the chain is asked for. -/
def Orderly (p : Process) (s : Step) : Prop :=
  ∀ launchId horizonAt launch cfg, Measurable chainConfigs s.db s.row launchId horizonAt launch cfg →
    (∀ t ∈ lookedUp s.row horizonAt, Settled w (p.head + s.mined) (targetSec t)) ∧
      DecimalsKnown w (p.head + s.mined) s.faults p.caches.decimals (launchQuote launch)

end Runs

section Blocks
variable {w : World}

/-- The block a second will always be resolved to. -/
def Final (w : World) (t : Int) (v : Nat) : Prop :=
  if t ≤ (w.time MIN_BLOCK : Int) then v = MIN_BLOCK else (w.time v : Int) ≤ t ∧ t < (w.time (v + 1) : Int)

theorem World.lt_of_time_lt (w : World) {a b : Nat} (h : w.time a < w.time b) : a < b := w.ordered.reflect_lt h

theorem Final.unique {t : Int} {u v : Nat} (hu : Final w t u) (hv : Final w t v) : u = v := by
  unfold Final at hu hv
  split at hu
  · rename_i hearly
    rw [if_pos hearly] at hv
    rw [hu, hv]
  · rename_i hearly
    rw [if_neg hearly] at hv
    have huv : u < v + 1 := w.lt_of_time_lt (by omega)
    have hvu : v < u + 1 := w.lt_of_time_lt (by omega)
    omega

theorem Settled.findBlock {head : Nat} {t : Int} (h : Settled w head t) :
    ∃ v, Outcomes.findBlock (readerOf w.time head) t = .ok v ∧ Final w t v := by
  obtain ⟨hmin, h⟩ := h
  rw [findBlock_readerOf w.time hmin]
  refine ⟨_, rfl, ?_⟩
  unfold Final
  by_cases hearly : t ≤ (w.time MIN_BLOCK : Int)
  · rw [if_pos hearly] at h ⊢
    rcases h with rfl | hlt
    · split
      · rfl
      · rfl
    · rw [if_neg (by omega), if_pos hearly]
  · rw [if_neg hearly] at h ⊢
    obtain ⟨b, hb, hle, hlt, hfound⟩ := h
    have hpast : ∀ n, (w.time n : Int) ≤ t ↔ n ≤ b := by
      intro n
      constructor
      · intro hn
        have hnb : n < b + 1 := w.lt_of_time_lt (by omega)
        omega
      · intro hn
        have hmono := w.ordered hn
        omega
    by_cases hhead : t ≥ (w.time head : Int)
    · have hheadb := (hpast head).mp hhead
      have heq : head = b := by omega
      rw [if_pos hhead, heq]
      exact ⟨hle, hlt⟩
    · rw [if_neg hhead, if_neg hearly]
      have hpred : (fun n => decide ((w.time n : Int) ≤ t)) = fun n => decide (n ≤ b) := by
        funext n
        exact decide_eq_decide.mpr (hpast n)
      rw [hpred]
      rcases hfound with rfl | hfound
      · exact absurd hle (by omega)
      · rw [hfound]
        exact ⟨hle, hlt⟩

/-- A chain this short is searched to the end. -/
theorem settled_of_short {head : Nat} {t : Int} (hmin : MIN_BLOCK ≤ head) (hshort : head < 2 ^ MAX_ITERS)
    (hpast : t < (w.time head : Int)) : Settled w head t := by
  refine ⟨hmin, ?_⟩
  by_cases hearly : t ≤ (w.time MIN_BLOCK : Int)
  · rw [if_pos hearly]
    exact Or.inr hpast
  · rw [if_neg hearly]
    have hex : ∃ n, t < (w.time n : Int) := ⟨head, hpast⟩
    have hspec := Nat.find_spec hex
    have hfind : Nat.find hex ≤ head := Nat.find_le hpast
    have hpos : MIN_BLOCK < Nat.find hex := by
      by_contra hle
      have hmono := w.ordered (not_lt.mp hle)
      omega
    have hbefore : (w.time (Nat.find hex - 1) : Int) ≤ t := not_lt.mp (Nat.find_min hex (Nat.sub_one_lt (by omega)))
    refine ⟨Nat.find hex - 1, by omega, hbefore, ?_, Or.inr ?_⟩
    · rw [Nat.sub_add_cancel (by omega)]
      exact hspec
    · apply Bisect.search_eq
      · intro n _ _
        exact decide_eq_true_iff
      · omega
      · exact Or.inl (Nat.le_sub_one_of_lt hpos)
      · unfold MIN_BLOCK
        omega

def BlocksSound (w : World) (cache : BlockTimeCache) : Prop := Memo.Sound (fun k v => Final w k.2 v) cache

theorem client_below (head : Nat) (f : Faults) (site : Nat) :
    ((w.client head f).blocks site).Below (readerOf w.time head) where
  getBlockNumber n h := by
    change faulty (f.getBlockNumber site) (.ok head) = .ok n at h
    unfold faulty at h
    split at h
    · cases h
    · exact h
  getBlock read n ts h := by
    change faulty (f.getBlock site read) ((readerOf w.time head).getBlock read n) = .ok ts at h
    unfold faulty at h
    split at h
    · cases h
    · exact h

theorem blockAtTime_sound {head : Nat} (f : Faults) (site chainId : Nat) {ms : Int} {cache : BlockTimeCache}
    (h : BlocksSound w cache) (hsettled : Settled w head (targetSec ms)) :
    BlocksSound w (blockAtTime ((w.client head f).blocks site) chainId ms cache).2 := by
  apply Memo.Sound.lookup h
  intro v hv
  obtain ⟨u, hu, hfinal⟩ := hsettled.findBlock
  have hsame := (client_below head f site).findBlock hv
  rw [hu] at hsame
  rw [← Except.ok.inj hsame]
  exact hfinal

theorem blockAtTime_clean {head chainId site v : Nat} {ms : Int} {cache : BlockTimeCache} (h : BlocksSound w cache)
    (hv : findBlock (readerOf w.time head) (targetSec ms) = .ok v) (hfinal : Final w (targetSec ms) v) :
    (blockAtTime ((w.client head Faults.none).blocks site) chainId ms cache).1 = .ok v :=
  Memo.Sound.lookup_eq h hv fun _ hu => hu.unique hfinal

theorem windowsOf_sound {head : Nat} (f : Faults) {row : OutcomeRow} {horizonAt : Int} {cache : BlockTimeCache}
    (h : BlocksSound w cache) (hsettled : ∀ t ∈ lookedUp row horizonAt, Settled w head (targetSec t)) :
    BlocksSound w (windowsOf (w.client head f) row horizonAt cache).2 := by
  have hanchor := hsettled row.anchorTime (by simp [lookedUp])
  have hhorizon := hsettled horizonAt (by simp [lookedUp])
  refine Memo.andThen_keeps (BlocksSound w) (blockAtTime_sound f 0 row.chainId h hanchor) ?_
  intro anchorBlock _ _ h
  refine Memo.andThen_keeps (BlocksSound w) (blockAtTime_sound f 1 row.chainId h hhorizon) ?_
  intro horizonBlock _ _ h
  split
  · rename_i hdrawdown
    have hother := hsettled (otherEnd row) (by simp [lookedUp, hdrawdown])
    refine Memo.andThen_keeps (BlocksSound w) (blockAtTime_sound f 2 row.chainId h hother) ?_
    intro other _ _ h
    split
    · exact h
    · exact h
  · exact h

/-- Without faults the windows do not depend on what is cached. -/
theorem windowsOf_clean {head : Nat} {row : OutcomeRow} {horizonAt : Int}
    (hsettled : ∀ t ∈ lookedUp row horizonAt, Settled w head (targetSec t)) :
    ∃ windows, ∀ cache, BlocksSound w cache →
      (windowsOf (w.client head Faults.none) row horizonAt cache).1 = .ok windows := by
  have hanchor := hsettled row.anchorTime (by simp [lookedUp])
  have hhorizon := hsettled horizonAt (by simp [lookedUp])
  obtain ⟨anchorBlock, ha, hafinal⟩ := hanchor.findBlock
  obtain ⟨horizonBlock, hh, hhfinal⟩ := hhorizon.findBlock
  by_cases hdrawdown : row.label = .DRAWDOWN_80
  · have hother := hsettled (otherEnd row) (by simp [lookedUp, hdrawdown])
    obtain ⟨other, ho, hofinal⟩ := hother.findBlock
    refine ⟨if row.trigger = .launch ∨ row.trigger = .qualified then ⟨anchorBlock, horizonBlock, anchorBlock, other⟩
      else ⟨anchorBlock, horizonBlock, other, anchorBlock⟩, ?_⟩
    intro cache h
    have h1 := blockAtTime_sound Faults.none 0 row.chainId h hanchor
    have h2 := blockAtTime_sound Faults.none 1 row.chainId h1 hhorizon
    unfold windowsOf
    rw [Memo.andThen_of_ok (blockAtTime_clean h ha hafinal), Memo.andThen_of_ok (blockAtTime_clean h1 hh hhfinal),
      if_pos hdrawdown, Memo.andThen_of_ok (blockAtTime_clean h2 ho hofinal)]
    split
    · rfl
    · rfl
  · refine ⟨⟨anchorBlock, horizonBlock, anchorBlock, anchorBlock⟩, ?_⟩
    intro cache h
    have h1 := blockAtTime_sound Faults.none 0 row.chainId h hanchor
    unfold windowsOf
    rw [Memo.andThen_of_ok (blockAtTime_clean h ha hafinal), Memo.andThen_of_ok (blockAtTime_clean h1 hh hhfinal),
      if_neg hdrawdown]

end Blocks

section Decimals
variable {w : World} {head : Nat} {cache : DecimalsCache}

/-- What is cached is what the contract answers from now on. -/
def DecimalsSound (w : World) (head : Nat) (cache : DecimalsCache) : Prop :=
  Memo.Sound (fun quote d => ∀ later, head ≤ later → d.value = decimalsAt w later quote) cache

theorem readDecimals_value {quote : Address} (f : Faults) (hf : f.decimals = none ∨ decimalsAt w head quote = 18) :
    (readDecimals (w.client head f) quote).value = decimalsAt w head quote := by
  have hread : (w.client head f).decimals quote = faulty f.decimals (w.decimals head quote) := rfl
  unfold readDecimals
  rw [hread]
  rcases hf with hf | hf
  · rw [hf]
    unfold decimalsAt faulty
    cases w.decimals head quote with
    | ok d => rfl
    | error e => rfl
  · cases hfault : f.decimals with
    | some e => exact hf.symm
    | none =>
      unfold decimalsAt faulty
      cases w.decimals head quote with
      | ok d => rfl
      | error e => rfl

theorem quoteDecimals_sound {quote : Address} {f : Faults} (h : DecimalsSound w head cache)
    (hknown : DecimalsKnown w head f cache quote) :
    DecimalsSound w head (quoteDecimals (w.client head f) quote cache).2 := by
  unfold quoteDecimals
  split
  · exact h
  · rename_i hzero
    unfold Memo.lookup
    cases hk : cache.lookup quote with
    | some d => exact h
    | none =>
      rcases hknown with hz | hsome | ⟨hf, hsteady⟩
      · exact absurd hz hzero
      · rw [hk] at hsome
        cases hsome
      · apply Memo.Sound.cons h
        intro later hlater
        rw [readDecimals_value f hf, hsteady later hlater]

theorem quoteDecimals_clean (quote : Address) (h : DecimalsSound w head cache) :
    ∃ d d', (quoteDecimals (w.client head Faults.none) quote cache).1 = .ok d ∧
      (quoteDecimals (w.client head Faults.none) quote []).1 = .ok d' ∧ d.value = d'.value := by
  unfold quoteDecimals
  split
  · exact ⟨_, _, rfl, rfl, rfl⟩
  · have hfresh : (readDecimals (w.client head Faults.none) quote).value = decimalsAt w head quote :=
      readDecimals_value Faults.none (Or.inl rfl)
    unfold Memo.lookup
    cases hk : cache.lookup quote with
    | some d => exact ⟨d, _, rfl, rfl, (h quote d hk head (Nat.le_refl head)).trans hfresh.symm⟩
    | none => exact ⟨_, _, rfl, rfl, rfl⟩

end Decimals

section Main
variable {chainConfigs : List ChainConfig} {maxRange : Option Nat} {w : World}

/-- What the caches of a process hold is final. -/
structure Inv (w : World) (p : Process) : Prop where
  blocks : BlocksSound w p.caches.blocks
  decimals : DecimalsSound w p.head p.caches.decimals

theorem start_inv (head : Nat) : Inv w (Process.start head) := ⟨Memo.sound_nil, Memo.sound_nil⟩

/-- A longer chain asks no more of the decimals. -/
theorem DecimalsSound.mono {head later : Nat} {cache : DecimalsCache} (h : DecimalsSound w head cache)
    (hle : head ≤ later) : DecimalsSound w later cache :=
  h.imp fun _ _ hd l hl => hd l (Nat.le_trans hle hl)

theorem step_inv (p : Process) (s : Step) (h : Inv w p) (hok : Orderly chainConfigs w p s) :
    Inv w (step chainConfigs maxRange w p s) := by
  have hdec := h.decimals.mono (Nat.le_add_right p.head s.mined)
  unfold step resolveIn
  rcases resolveOneOutcome_cases chainConfigs maxRange s.db s.row with
    ⟨r, hr⟩ | ⟨launchId, horizonAt, launch, cfg, hmeasurable, hr⟩
  · rw [hr]
    exact ⟨h.blocks, hdec⟩
  · obtain ⟨hsettled, hknown⟩ := hok launchId horizonAt launch cfg hmeasurable
    have hblocks := windowsOf_sound s.faults h.blocks hsettled
    have hdecimals := quoteDecimals_sound hdec hknown
    rw [hr]
    unfold measureOutcome
    dsimp only
    split
    · exact ⟨hblocks, hdec⟩
    · exact ⟨hblocks, hdecimals⟩

/-- Without faults a process whose caches are final resolves as one that has just started. -/
theorem resolveIn_clean (p : Process) (s : Step) (h : Inv w p) (hok : Orderly chainConfigs w p s) :
    (resolveIn chainConfigs maxRange w (p.head + s.mined) s Faults.none p.caches).1 =
      (resolveIn chainConfigs maxRange w (p.head + s.mined) s Faults.none Caches.fresh).1 := by
  unfold resolveIn
  rcases resolveOneOutcome_cases chainConfigs maxRange s.db s.row with
    ⟨r, hr⟩ | ⟨launchId, horizonAt, launch, cfg, hmeasurable, hr⟩
  · rw [hr, hr]
  · obtain ⟨hsettled, _⟩ := hok launchId horizonAt launch cfg hmeasurable
    obtain ⟨windows, hwindows⟩ := windowsOf_clean hsettled
    obtain ⟨d, d', hd, hd', hvalue⟩ :=
      quoteDecimals_clean (launchQuote launch) (h.decimals.mono (Nat.le_add_right p.head s.mined))
    have hfresh := hwindows Caches.fresh.blocks Memo.sound_nil
    change (quoteDecimals (w.client (p.head + s.mined) Faults.none) (launchQuote launch) Caches.fresh.decimals).1 = _ at hd'
    rw [hr, hr]
    unfold measureOutcome
    dsimp only
    rw [hwindows _ h.blocks, hfresh]
    dsimp only
    rw [hd, hd']
    simp only [Except.bind, contextOf, hvalue]

/-- In a run whose steps look up settled times and read the decimals they need, no resolution depends on
the ones before it. -/
theorem history_free (head : Nat) (steps : List Step)
    (h : Steps.Always (step chainConfigs maxRange w) (Orderly chainConfigs w) (Process.start head) steps) :
    Steps.Always (step chainConfigs maxRange w) (Unaffected chainConfigs maxRange w) (Process.start head) steps := by
  refine Steps.always_of_invariant (Inv w) step_inv ?_ (start_inv head) h
  intro p s hinv hok hclean
  rw [hclean, resolveIn_clean p s hinv hok]

end Main

def sampleWorld : World where
  time n := 10 * n
  ordered _ _ h := Nat.mul_le_mul_left 10 h
  getLogs _ := swapNode.request
  quote _ call := .ok (min call.amountIn 100000000000000)
  decimals _ _ := .ok 6

def sampleTables : LaunchTables := ⟨fun _ => some sampleLaunch, fun _ => []⟩

def sampleStep (mined : Nat) (row : OutcomeRow) : Step := ⟨mined, Faults.none, sampleTables, row⟩

theorem sample_orderly {p : Process} (h : 9000 ≤ p.head) (hshort : p.head < 200000) :
    Orderly [sampleConfig] sampleWorld p (sampleStep 0 (sampleRow .SELL_IMPAIRED)) := by
  intro launchId horizonAt launch cfg hm
  obtain rfl : 88000000 = horizonAt := Option.some.inj hm.due
  refine ⟨?_, Or.inr (Or.inr ⟨Or.inl rfl, fun _ _ => rfl⟩)⟩
  intro t ht
  have hlate : t ≤ 88000000 := by
    rcases List.mem_pair.mp (show t ∈ [1600000, 88000000] from ht) with rfl | rfl
    · omega
    · omega
  apply settled_of_short
  · unfold MIN_BLOCK
    change 1 ≤ p.head + 0
    omega
  · unfold MAX_ITERS
    change p.head + 0 < 2 ^ 18
    omega
  · unfold targetSec
    change t / 1000 < ((10 * (p.head + 0) : ℕ) : ℤ)
    omega

theorem history_free_sales :
    Steps.Always (step [sampleConfig] none sampleWorld) (Unaffected [sampleConfig] none sampleWorld) (Process.start 9000)
      [sampleStep 0 (sampleRow .SELL_IMPAIRED), sampleStep 0 (sampleRow .SELL_IMPAIRED)] :=
  history_free 9000 _ ⟨sample_orderly (by decide) (by decide), sample_orderly (by decide) (by decide), trivial⟩

/-- The decimals cannot be read. -/
def unreadable : Step :=
  { sampleStep 0 (sampleRow .SELL_IMPAIRED) with
    faults := { Faults.none with decimals := some ⟨"TimeoutError", "The request took too long to respond."⟩ } }

/-- A row that is due after 250 seconds, when the 25th block is mined. -/
def aliveRow : OutcomeRow := { sampleRow .TRADING_ALIVE with anchorTime := 100000, horizonAt := some 250000 }

/-- A read that fails once, and a look at a time the chain has not reached, decide the label of the resolution after. -/
theorem history_kept :
    (¬ Steps.Always (step [sampleConfig] none sampleWorld) (Unaffected [sampleConfig] none sampleWorld)
        (Process.start 9000) [unreadable, sampleStep 0 (sampleRow .SELL_IMPAIRED)]) ∧
      ¬ Steps.Always (step [sampleConfig] none sampleWorld) (Unaffected [sampleConfig] none sampleWorld)
        (Process.start 15) [sampleStep 0 aliveRow, sampleStep 100 aliveRow] := by
  constructor
  · intro h
    have hsame := congrArg Except.toOption (h.2.1 rfl)
    have hkept : (verdict (resolveIn [sampleConfig] none sampleWorld 9000 (sampleStep 0 (sampleRow .SELL_IMPAIRED))
        Faults.none (step [sampleConfig] none sampleWorld (Process.start 9000) unreadable).caches).1).toOption =
        some (.RESOLVED, some true) := by decide +kernel
    have hfresh : (verdict (resolveIn [sampleConfig] none sampleWorld 9000 (sampleStep 0 (sampleRow .SELL_IMPAIRED))
        Faults.none Caches.fresh).1).toOption = some (.RESOLVED, some false) := by decide +kernel
    cases hkept.symm.trans (hsame.trans hfresh)
  · intro h
    have hsame := congrArg Except.toOption (h.2.1 rfl)
    have hkept : (verdict (resolveIn [sampleConfig] none sampleWorld 115 (sampleStep 100 aliveRow)
        Faults.none (step [sampleConfig] none sampleWorld (Process.start 15) (sampleStep 0 aliveRow)).caches).1).toOption =
        some (.RESOLVED, some false) := by decide +kernel
    have hfresh : (verdict (resolveIn [sampleConfig] none sampleWorld 115 (sampleStep 100 aliveRow)
        Faults.none Caches.fresh).1).toOption = some (.RESOLVED, some true) := by decide +kernel
    cases hkept.symm.trans (hsame.trans hfresh)

end LaunchAuditor.Proofs.HistoryFree
