import LaunchAuditor.Proofs.PollerSafety
import LaunchAuditor.Watcher.PoolActivity

namespace LaunchAuditor.Proofs.PoolChoice
open Chain Outcomes Watcher

/-- A node that answers everything from its logs. -/
def nodeCalls (n : LogNode) : PickCalls where
  readHead := none
  requests := ⟨fun _ => n.request, fun _ => n.request⟩
  swaps := fun _ _ => n.request

/-- The pool that is chosen, when the job sees this head. -/
def choose (cfg : ChainConfig) (args : PickArgs) (n : LogNode) (head : Option Nat) : Except RpcError (Option PoolCandidate) :=
  (pickPrimaryV4Pool (nodeCalls n) cfg { args with headBlock := head }).map PrimaryPoolPick.chosen

/-- The blocks up to this one are the same. -/
def AgreeUpTo (b : Nat) (n n' : LogNode) : Prop := ∀ l : RpcLog, l.blockNumber ≤ b → (l ∈ n.logs ↔ l ∈ n'.logs)

/-- The job runs after the block. -/
def RunsAfter (b : Nat) (head : Option Nat) : Prop := ∀ h, head = some h → b ≤ h

/-- The log says that a pool with the token has been initialized. -/
def initializes (cfg : ChainConfig) (token : Address) (l : RpcLog) : Bool :=
  decide (l.address = cfg.v4PoolManager ∧ l.topics[0]? = some POOL_EVENT_TOPIC0.v4Initialize) &&
    decide (l.topics[2]? = some (addressToTopic token) ∨ l.topics[3]? = some (addressToTopic token))

/-- The pools of the token that come after the activity window and that the scan still sees. -/
def laterPools (cfg : ChainConfig) (args : PickArgs) (n : LogNode) (head : Option Nat) : List RpcLog :=
  n.logs.filter fun l => initializes cfg args.token l &&
    decide (args.activityTo < l.blockNumber ∧ l.blockNumber ≤ clampToHead head args.scanTo)

variable {cfg : ChainConfig} {args : PickArgs} {n n' : LogNode} {head head' : Option Nat}

theorem clampToHead_eq {b : Nat} (h : RunsAfter b head) : clampToHead head b = b := by
  cases head with
  | none => rfl
  | some head =>
    have hle := h head rfl
    exact if_neg (by omega)

theorem mem_laterPools {l : RpcLog} : l ∈ laterPools cfg args n head ↔ l ∈ n.logs ∧ initializes cfg args.token l = true ∧
    args.activityTo < l.blockNumber ∧ l.blockNumber ≤ clampToHead head args.scanTo := by
  simp [laterPools]

theorem answer_eq {f f' : LogFilter} (h : ∀ l, l ∈ n.answer f ↔ l ∈ n'.answer f') : n.answer f = n'.answer f' :=
  Keyed.eq_of_mem_iff (n.answer_pairwise f) (n'.answer_pairwise f') h

theorem answer_agree {b : Nat} (h : AgreeUpTo b n n') {f : LogFilter} (hb : f.toBlock ≤ b) :
    n.answer f = n'.answer f := by
  apply answer_eq
  intro l
  rw [n.mem_answer, n'.mem_answer]
  constructor
  · rintro ⟨hl, hsel, hfrom, hto⟩
    exact ⟨(h l (Nat.le_trans hto hb)).mp hl, hsel, hfrom, hto⟩
  · rintro ⟨hl, hsel, hfrom, hto⟩
    exact ⟨(h l (Nat.le_trans hto hb)).mpr hl, hsel, hfrom, hto⟩

/-- The two queries for the pools of the token. -/
def poolTopics (token : Address) : List (List (Option (List Word))) :=
  [[some [POOL_EVENT_TOPIC0.v4Initialize], none, some [addressToTopic token]],
    [some [POOL_EVENT_TOPIC0.v4Initialize], none, none, some [addressToTopic token]]]

theorem selects_initializes {topics : List (Option (List Word))} (ht : topics ∈ poolTopics args.token) {fromBlock toBlock : Nat}
    {l : RpcLog} (h : (LogFilter.mk [cfg.v4PoolManager] topics fromBlock toBlock).selects l = true) :
    initializes cfg args.token l = true := by
  unfold LogFilter.selects at h
  rw [Bool.and_eq_true] at h
  obtain ⟨haddress, htopics⟩ := h
  have hpm : l.address = cfg.v4PoolManager := by simpa using haddress
  rcases List.mem_cons.mp ht with rfl | ht
  · obtain ⟨t0, ht0, h0⟩ := topicsMatch_slot htopics (i := 0) rfl (List.cons_ne_nil _ _)
    obtain ⟨t2, ht2, h2⟩ := topicsMatch_slot htopics (i := 2) rfl (List.cons_ne_nil _ _)
    rw [List.mem_singleton.mp ht0] at h0
    rw [List.mem_singleton.mp ht2] at h2
    simp [initializes, hpm, h0, h2]
  · rw [List.mem_singleton.mp ht] at htopics
    obtain ⟨t0, ht0, h0⟩ := topicsMatch_slot htopics (i := 0) rfl (List.cons_ne_nil _ _)
    obtain ⟨t3, ht3, h3⟩ := topicsMatch_slot htopics (i := 3) rfl (List.cons_ne_nil _ _)
    rw [List.mem_singleton.mp ht0] at h0
    rw [List.mem_singleton.mp ht3] at h3
    simp [initializes, hpm, h0, h3]

theorem le_clampToHead (hafter : RunsAfter args.activityTo head) {b : Nat} (hb : b ≤ args.activityTo) :
    b ≤ clampToHead head args.scanTo ↔ b ≤ args.scanTo := by
  unfold clampToHead
  split
  · exact Iff.rfl
  · rename_i h
    have hle := hafter h rfl
    split
    · omega
    · exact Iff.rfl

/-- What the one scan brings, the other brings. -/
theorem answer_pools_subset (hagree : AgreeUpTo args.activityTo n n') (hafter : RunsAfter args.activityTo head)
    (hafter' : RunsAfter args.activityTo head') (hlater : laterPools cfg args n head = laterPools cfg args n' head')
    {topics : List (Option (List Word))} (ht : topics ∈ poolTopics args.token) {l : RpcLog}
    (hl : l ∈ n.answer ⟨[cfg.v4PoolManager], topics, args.scanFrom, clampToHead head args.scanTo⟩) :
    l ∈ n'.answer ⟨[cfg.v4PoolManager], topics, args.scanFrom, clampToHead head' args.scanTo⟩ := by
  rw [n.mem_answer] at hl
  rw [n'.mem_answer]
  obtain ⟨hmem, hsel, hfrom, hto⟩ := hl
  by_cases hb : l.blockNumber ≤ args.activityTo
  · refine ⟨(hagree l hb).mp hmem, hsel, hfrom, ?_⟩
    exact (le_clampToHead hafter' hb).mpr ((le_clampToHead hafter hb).mp hto)
  · have hpool : l ∈ laterPools cfg args n head :=
      mem_laterPools.mpr ⟨hmem, selects_initializes ht hsel, by omega, hto⟩
    rw [hlater, mem_laterPools] at hpool
    exact ⟨hpool.1, hsel, hfrom, hpool.2.2.2⟩

theorem AgreeUpTo.symm {b : Nat} (h : AgreeUpTo b n n') : AgreeUpTo b n' n := fun l hl => (h l hl).symm

/-- The scans of the two jobs bring the same events. -/
theorem answer_pools (hagree : AgreeUpTo args.activityTo n n') (hafter : RunsAfter args.activityTo head)
    (hafter' : RunsAfter args.activityTo head') (hlater : laterPools cfg args n head = laterPools cfg args n' head')
    {topics : List (Option (List Word))} (ht : topics ∈ poolTopics args.token) :
    n.answer ⟨[cfg.v4PoolManager], topics, args.scanFrom, clampToHead head args.scanTo⟩ =
      n'.answer ⟨[cfg.v4PoolManager], topics, args.scanFrom, clampToHead head' args.scanTo⟩ := by
  apply answer_eq
  intro l
  exact ⟨answer_pools_subset hagree hafter hafter' hlater ht,
    answer_pools_subset hagree.symm hafter' hafter hlater.symm ht⟩

/-- A query asks for the logs of its filter, or fails on its range. -/
theorem getLogsChunked_congr {f f' : LogFilter} (h : n.answer f = n'.answer f') (maxRange : Nat) :
    getLogsChunked n.request f maxRange = getLogsChunked n'.request f' maxRange := by
  by_cases hrange : 0 < maxRange
  · rw [getLogsChunked_request n f hrange, getLogsChunked_request n' f' hrange, h]
  · rw [getLogsChunked, getLogsChunked, if_pos (by omega), if_pos (by omega)]

/-- Two jobs after the activity window choose the same pool, when the chains agree up to its end and the scans see the
same pools of the token after it. -/
theorem choose_agree (cfg : ChainConfig) (args : PickArgs) (n n' : LogNode) (head head' : Option Nat)
    (hagree : AgreeUpTo args.activityTo n n') (hafter : RunsAfter args.activityTo head)
    (hafter' : RunsAfter args.activityTo head') (hlater : laterPools cfg args n head = laterPools cfg args n' head') :
    choose cfg args n head = choose cfg args n' head' := by
  have hpools : findTokenV4Pools (nodeCalls n).requests cfg args.token args.scanFrom (clampToHead head args.scanTo)
        args.maxRange =
      findTokenV4Pools (nodeCalls n').requests cfg args.token args.scanFrom (clampToHead head' args.scanTo)
        args.maxRange := by
    have hanswer := fun topics (ht : topics ∈ poolTopics args.token) => answer_pools hagree hafter hafter' hlater ht
    have hquery0 := getLogsChunked_congr (hanswer _ List.mem_cons_self) args.maxRange
    have hquery1 := getLogsChunked_congr (hanswer _ (List.mem_cons_of_mem _ List.mem_cons_self)) args.maxRange
    unfold findTokenV4Pools initializeLogs nodeCalls
    dsimp only
    rw [hquery0, hquery1]
  have hactivity : ∀ poolId, poolActivity ((nodeCalls n).swaps poolId) cfg poolId args.activityFrom args.activityTo
        args.maxRange =
      poolActivity ((nodeCalls n').swaps poolId) cfg poolId args.activityFrom args.activityTo args.maxRange := by
    intro poolId
    unfold poolActivity nodeCalls
    dsimp only
    rw [getLogsChunked_congr (answer_agree hagree (Nat.le_refl _)) args.maxRange]
  have hprobe : ∀ cands, probeActivity (nodeCalls n) cfg { args with headBlock := head } args.activityTo cands =
      probeActivity (nodeCalls n') cfg { args with headBlock := head' } args.activityTo cands := by
    intro cands
    unfold probeActivity
    dsimp only
    simp only [hactivity]
  have hhead : ∀ (n : LogNode) (head : Option Nat), head.or (nodeCalls n).readHead = head := fun n head => Option.or_none
  unfold choose pickPrimaryV4Pool
  dsimp only
  rw [hhead, hhead, clampToHead_eq hafter, clampToHead_eq hafter', hpools]
  simp only [hprobe]

def sideLog : RpcLog where
  address := 2#160
  topics := [POOL_EVENT_TOPIC0.v4Initialize, 76#256, 8#256, 9#256]
  data := [3000#256, 60#256, 0#256, 1#256, 0#256]
  blockNumber := 11
  transactionHash := 70#256
  logIndex := 0

def sidePool : LogNode where
  logs := [sideLog]
  ordered := List.pairwise_singleton _ _

def sidePoolThen (block : Nat) (h : 11 < block) : LogNode where
  logs := [sideLog, PollerSafety.creationLog block 77#256]
  ordered := by
    have hlt : logKey sideLog < logKey (PollerSafety.creationLog block 77#256) := Prod.Lex.left _ _ h
    simpa using hlt

/-- The windows of a launch in block 11. -/
def sampleArgs : PickArgs := ⟨9#160, none, 11, 72011, 11, 6011, 9999, none⟩

theorem sidePool_agree {b block : Nat} (h : 11 < block) (hb : b < block) :
    AgreeUpTo b sidePool (sidePoolThen block h) := by
  intro l hl
  have hne : l ≠ PollerSafety.creationLog block 77#256 := by
    rintro rfl
    exact absurd hl (Nat.not_le.mpr hb)
  simp [sidePool, sidePoolThen, hne]

/-- A pool that is initialized three hours after the launch changes nothing. -/
theorem choose_agree_late : choose sampleConfig sampleArgs sidePool (some 6011) =
    choose sampleConfig sampleArgs (sidePoolThen 108011 (by decide)) (some 200000) :=
  choose_agree sampleConfig sampleArgs sidePool (sidePoolThen 108011 (by decide)) (some 6011) (some 200000)
    (sidePool_agree (by decide) (by decide)) (by intro h he; cases he; decide) (by intro h he; cases he; decide)
    (by decide +kernel)

/-- A pool that is initialized half an hour after the launch is chosen by a job that sees it. -/
theorem later_pool_chosen : ¬ ∀ (cfg : ChainConfig) (args : PickArgs) (n n' : LogNode) (head head' : Option Nat),
    AgreeUpTo args.activityTo n n' → RunsAfter args.activityTo head → RunsAfter args.activityTo head' →
      choose cfg args n head = choose cfg args n' head' := by
  intro h
  have hagree : AgreeUpTo sampleArgs.activityTo sidePool (sidePoolThen 18011 (by decide)) :=
    sidePool_agree (by decide) (by decide)
  have hafter : RunsAfter sampleArgs.activityTo (some 20000) := by
    intro h he
    cases he
    decide
  have hsame := h sampleConfig sampleArgs sidePool _ (some 20000) (some 20000) hagree hafter hafter
  have hchosen := congrArg (fun r => r.toOption.map fun c => c.map PoolCandidate.poolId) hsame
  revert hchosen
  decide +kernel

end LaunchAuditor.Proofs.PoolChoice
