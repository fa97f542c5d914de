import LaunchAuditor.Outcomes.Insider
import LaunchAuditor.Proofs.LogRetrieval

namespace LaunchAuditor.Proofs.InsiderOrder
open Chain Outcomes Watcher LogRetrieval

/-- The launch and its window. -/
structure SameLaunch (ctx ctx' : ResolverContext) : Prop where
  token : ctx.token = ctx'.token
  launchBlock : ctx.launchBlock = ctx'.launchBlock
  horizonBlock : ctx.horizonBlock = ctx'.horizonBlock
  pool : ctx.pool = ctx'.pool
  cluster : ∀ a, a ∈ ctx.clusterWallets ↔ a ∈ ctx'.clusterWallets

theorem SameLaunch.mem_setOf {ctx ctx' : ResolverContext} (h : SameLaunch ctx ctx') (a : Address) :
    a ∈ Js.setOf ctx.clusterWallets ↔ a ∈ Js.setOf ctx'.clusterWallets := by
  rw [Js.mem_setOf, Js.mem_setOf, h.cluster]

theorem SameLaunch.clusterSize {ctx ctx' : ResolverContext} (h : SameLaunch ctx ctx') :
    (Js.setOf ctx.clusterWallets).length = (Js.setOf ctx'.clusterWallets).length := by
  apply List.Perm.length_eq
  exact (List.perm_ext_iff_of_nodup (Js.setOf_nodup _) (Js.setOf_nodup _)).mpr h.mem_setOf

/-- The transfers in the window whose sender (1) or recipient (2) is in the cluster, once each. -/
def clusterLogs (n : LogNode) (ctx : ResolverContext) (valuePosition : Nat) : List RpcLog :=
  valueLogs n ⟨[ctx.token], [], ctx.launchBlock, ctx.horizonBlock⟩ TRANSFER_TOPIC0 valuePosition
    ((Js.setOf ctx.clusterWallets).map addressToTopic)

theorem SameLaunch.clusterLogs {ctx ctx' : ResolverContext} (h : SameLaunch ctx ctx') (n : LogNode)
    (valuePosition : Nat) : clusterLogs n ctx valuePosition = clusterLogs n ctx' valuePosition := by
  have hcontains : ∀ t, ((Js.setOf ctx.clusterWallets).map addressToTopic).contains t =
      ((Js.setOf ctx'.clusterWallets).map addressToTopic).contains t := by
    intro t
    rw [Bool.eq_iff_iff, List.contains_iff_mem, List.contains_iff_mem, List.mem_map, List.mem_map]
    simp only [h.mem_setOf]
  unfold InsiderOrder.clusterLogs valueLogs
  apply List.filter_congr
  intro l _
  simp only [selectsValue, h.token, h.launchBlock, h.horizonBlock, funext hcontains]

/-- The node's answers brought together: the set of transfers in the order of the chain. -/
theorem clusterTransfers_answers {n : LogNode} {ctx : ResolverContext}
    (h : ∀ scan attempt, Answers n (ctx.client.getLogs scan attempt)) {valuePosition : Nat} (hpos : 0 < valuePosition)
    {logs : List RpcLog} (hok : clusterTransfers ctx valuePosition = .ok logs) :
    logs = clusterLogs n ctx valuePosition := by
  obtain ⟨attempt, hattempt⟩ := withRetry_ok hok
  exact getLogsByTopicValues_answers (h _ _) hpos (by decide) hattempt

theorem replay_congr {cluster cluster' : List Address} (h : ∀ a, a ∈ cluster ↔ a ∈ cluster') (poolSinks : List Address)
    (events : List Ev) : replay cluster poolSinks events = replay cluster' poolSinks events := by
  have hstep : ∀ r e, replayStep cluster poolSinks r e = replayStep cluster' poolSinks r e := by
    intro r e
    simp only [replayStep, h]
  unfold replay
  rw [funext₂ hstep]

/-- What a resolution says of its label. -/
structure SameFigures (r r' : Resolution) : Prop where
  status : r.status = r'.status
  value : r.value = r'.value
  evidence : r.evidence = r'.evidence

theorem insiderVerdict_congr {ctx ctx' : ResolverContext} (h : SameLaunch ctx ctx') (coverage coverage' : Coverage)
    (events : List Ev) : SameFigures (insiderVerdict ctx coverage events) (insiderVerdict ctx' coverage' events) := by
  have hreplay := replay_congr h.mem_setOf ctx.pool.sinks events
  simp only [insiderVerdict, ← h.pool, ← h.clusterSize, ← hreplay]
  split
  · exact ⟨rfl, rfl, rfl⟩
  · exact ⟨rfl, rfl, rfl⟩

/-- Neither query reaches the cap. -/
def BelowCap (n : LogNode) (ctx : ResolverContext) : Prop :=
  (clusterLogs n ctx 1).length < MAX_INSIDER_LOGS ∧ (clusterLogs n ctx 2).length < MAX_INSIDER_LOGS

instance (n : LogNode) (ctx : ResolverContext) : Decidable (BelowCap n ctx) := instDecidableAnd

theorem BelowCap.capHit {n : LogNode} {ctx : ResolverContext} (h : BelowCap n ctx) :
    capHit (clusterLogs n ctx 1) (clusterLogs n ctx 2) = false := by
  obtain ⟨hout, hin⟩ := h
  simp only [Outcomes.capHit, Bool.or_eq_false_iff, decide_eq_false_iff_not]
  omega

/-- A resolution that comes back is computed from the two sets of transfers. -/
theorem resolveInsiderExit_answers {n : LogNode} {ctx : ResolverContext}
    (h : ∀ scan attempt, Answers n (ctx.client.getLogs scan attempt)) (hcap : BelowCap n ctx)
    (hcluster : Js.setOf ctx.clusterWallets ≠ []) {r : Resolution} (hok : resolveInsiderExit ctx = .ok r) :
    ∃ coverage, r = insiderVerdict ctx coverage (replayEvents (clusterLogs n ctx 1) (clusterLogs n ctx 2)) := by
  unfold resolveInsiderExit at hok
  rw [if_neg hcluster] at hok
  obtain ⟨outLogs, hout, hok⟩ := bind_ok hok
  obtain ⟨inLogs, hin, hok⟩ := bind_ok hok
  rw [clusterTransfers_answers h (by decide) hout, clusterTransfers_answers h (by decide) hin, hcap.capHit] at hok
  exact ⟨_, (Except.ok.inj hok).symm⟩

theorem resolveInsiderExit_returns {ctx : ResolverContext}
    (h : ∀ scan attempt f, ∃ logs, ctx.client.getLogs scan attempt f = .ok logs) (hrange : 0 < ctx.maxRange) :
    ∃ r, resolveInsiderExit ctx = .ok r := by
  have hquery : ∀ pos, ∃ logs, clusterTransfers ctx pos = .ok logs := by
    intro pos
    have hbatches : ∀ f batches,
        ∃ logs, fetchBatches (ctx.client.getLogs pos 0) f TRANSFER_TOPIC0 pos ctx.maxRange batches = .ok logs := by
      intro f batches
      induction batches with
      | nil => exact ⟨[], rfl⟩
      | cons batch batches ih =>
        obtain ⟨rest, hrest⟩ := ih
        obtain ⟨logs, hlogs⟩ := getLogsChunked_ok (h pos 0)
          { f with topics := positionTopics TRANSFER_TOPIC0 pos batch } hrange
        rw [fetchBatches, hlogs, hrest]
        exact ⟨logs ++ rest, rfl⟩
    obtain ⟨logs, hlogs⟩ := hbatches ⟨[ctx.token], [], ctx.launchBlock, ctx.horizonBlock⟩
      (slices MAX_TOPIC_VALUES ((Js.setOf ctx.clusterWallets).map addressToTopic).length
        ((Js.setOf ctx.clusterWallets).map addressToTopic))
    refine ⟨Keyed.inOrder logKey (Keyed.uniq logKey logs), withRetry_of_ok (by decide) ?_⟩
    rw [getLogsByTopicValues, hlogs]
    rfl
  obtain ⟨outLogs, hout⟩ := hquery 1
  obtain ⟨inLogs, hin⟩ := hquery 2
  unfold resolveInsiderExit
  split
  · exact ⟨_, rfl⟩
  · rw [hout, hin]
    simp only [bind, Except.bind]
    split
    · exact ⟨_, rfl⟩
    · exact ⟨_, rfl⟩

/-- Two resolutions of one launch over one set of transfers, with the answers in any order and any
number of times, the cluster listed in any way and the range cut into any windows. -/
theorem insider_figures (n : LogNode) (ctx ctx' : ResolverContext) (hsame : SameLaunch ctx ctx')
    (h : ∀ scan attempt, Answers n (ctx.client.getLogs scan attempt))
    (h' : ∀ scan attempt, Answers n (ctx'.client.getLogs scan attempt)) (hcap : BelowCap n ctx) :
    (∀ r r', resolveInsiderExit ctx = .ok r → resolveInsiderExit ctx' = .ok r' → SameFigures r r') ∧
      ((∀ scan attempt f, ∃ logs, ctx.client.getLogs scan attempt f = .ok logs) → 0 < ctx.maxRange →
        ∃ r, resolveInsiderExit ctx = .ok r) := by
  refine ⟨?_, resolveInsiderExit_returns⟩
  intro r r' hr hr'
  by_cases hcluster : Js.setOf ctx.clusterWallets = []
  · have hcluster' : Js.setOf ctx'.clusterWallets = [] := by
      rw [← List.length_eq_zero_iff, ← hsame.clusterSize, hcluster, List.length_nil]
    rw [resolveInsiderExit, if_pos hcluster] at hr
    rw [resolveInsiderExit, if_pos hcluster'] at hr'
    obtain rfl := Except.ok.inj hr
    obtain rfl := Except.ok.inj hr'
    exact ⟨rfl, rfl, rfl⟩
  · have hcluster' : Js.setOf ctx'.clusterWallets ≠ [] := by
      intro he
      apply hcluster
      rw [← List.length_eq_zero_iff, hsame.clusterSize, he, List.length_nil]
    have hcap' : BelowCap n ctx' := by
      simpa only [BelowCap, hsame.clusterLogs] using hcap
    obtain ⟨coverage, rfl⟩ := resolveInsiderExit_answers h hcap hcluster hr
    obtain ⟨coverage', rfl⟩ := resolveInsiderExit_answers h' hcap' hcluster' hr'
    rw [← hsame.clusterLogs, ← hsame.clusterLogs]
    exact insiderVerdict_congr hsame coverage coverage' _

theorem answers_request (n : LogNode) : Answers n n.request := by
  intro f logs hok l
  rw [Except.ok.inj hok]

/-- Every answer from its end and then once more from its start. -/
def mirrored (n : LogNode) : GetLogs := fun f => .ok ((n.answer f).reverse ++ n.answer f)

theorem answers_mirrored (n : LogNode) : Answers n (mirrored n) := by
  intro f logs hok l
  rw [← Except.ok.inj hok]
  simp

def transferLog (block index : Nat) (from_ to_ : Address) (value : Word) : RpcLog :=
  ⟨9, [TRANSFER_TOPIC0, addressToTopic from_, addressToTopic to_], [value], block, 0, index⟩

/-- A mint to one member, a transfer to another in the same block and a sale. -/
def memberTransfers : LogNode where
  logs := [transferLog 10 0 0 1 1000, transferLog 10 1 1 4 400, transferLog 12 3 4 2 400]
  ordered := by decide

def contextOf (getLogs : GetLogs) (maxRange : Nat) (clusterWallets : List Address) : ResolverContext where
  client := ⟨fun _ => ⟨.ok 200, fun _ _ => .ok 0⟩, fun _ _ => getLogs, fun _ _ => .ok 0, fun _ => .ok 18⟩
  chainId := 4663
  maxRange := maxRange
  pool := ⟨.v4, 2, none, some 77, false⟩
  token := 9
  quote := 0
  poolKey := none
  quoter := 3
  quoteDecimals := 18
  launchBlock := 10
  lpLockedByConstruction := false
  clusterWallets := clusterWallets
  label := "INSIDER_EXIT"
  horizon := "24h"
  trigger := "launch"
  anchorBlock := 10
  horizonBlock := 20
  drawdownRefStart := 10
  drawdownRefEnd := 20

theorem insider_figures_mirrored :
    (∀ r r', resolveInsiderExit (contextOf memberTransfers.request 2000 [1, 4]) = .ok r →
        resolveInsiderExit (contextOf (mirrored memberTransfers) 3 [4, 1, 4]) = .ok r' → SameFigures r r') ∧
      ((∀ scan attempt f, ∃ logs,
          (contextOf memberTransfers.request 2000 [1, 4]).client.getLogs scan attempt f = .ok logs) →
        0 < (contextOf memberTransfers.request 2000 [1, 4]).maxRange →
        ∃ r, resolveInsiderExit (contextOf memberTransfers.request 2000 [1, 4]) = .ok r) := by
  refine insider_figures memberTransfers _ _ ⟨rfl, rfl, rfl, rfl, ?_⟩ (fun _ _ => answers_request _)
    (fun _ _ => answers_mirrored _) (by decide +kernel)
  intro a
  simp only [contextOf, List.mem_cons, List.not_mem_nil, or_false]
  tauto

end LaunchAuditor.Proofs.InsiderOrder
