import LaunchAuditor.Watcher.Erc20
import LaunchAuditor.Js

/-! `apps/worker/src/watcher/cluster.ts` -/

namespace LaunchAuditor.Watcher
open Chain

inductive ClusterRule
  | CREATOR
  | LAUNCH_BLOCK_BUY
  | DIRECT_TRANSFER
  | FIRST_INBOUND
  deriving DecidableEq, Repr

def RULE_CONFIDENCE : ClusterRule → ℚ
  | .CREATOR => 1
  | .LAUNCH_BLOCK_BUY => 9 / 10
  | .DIRECT_TRANSFER => 7 / 10
  | .FIRST_INBOUND => 85 / 100

structure ClusterMemberResult where
  address : Address
  rule : ClusterRule
  evidenceTx : Option Word
  confidence : ℚ
  deriving DecidableEq

structure ClusterResult where
  members : List ClusterMemberResult
  /-- distinct member addresses -/
  size : Nat
  confidence : ℚ
  /-- `partial`: the rules whose lookup failed -/
  partialRules : List ClusterRule

structure BuildClusterParams where
  /-- the queries of rules 2 and 3 -/
  request : ClusterRule → GetLogs
  token : Address
  creator : Address
  /-- address tokens leave on a buy: v4 PoolManager, else the v2/v3 pool contract -/
  liquiditySource : Address
  launchBlock : Nat
  windowBlocks : Nat
  maxRange : Nat
  firstFunder : Address → Except RpcError (Option Address)

/-- `UNAVAILABLE_FIRST_INBOUND`, what production runs with. -/
def UNAVAILABLE_FIRST_INBOUND : Address → Except RpcError (Option Address) := fun _ => .ok none

def addMember (rows : List ClusterMemberResult) (address : Address) (rule : ClusterRule) (evidenceTx : Option Word) :
    List ClusterMemberResult :=
  if rows.any fun r => r.address = address ∧ r.rule = rule then rows
  else rows ++ [⟨address, rule, evidenceTx, RULE_CONFIDENCE rule⟩]

namespace BuildClusterParams
variable (p : BuildClusterParams)

/-- The recipient of a log the rules look at, unless it is the pool or the creator. -/
def recipient (log : RpcLog) : Option Address := do
  let to_ ← log.topics[2]?.map topicToAddress
  if to_ = p.liquiditySource ∨ to_ = p.creator then none else some to_

/-- One row a recipient, with the log's transaction as evidence. -/
def addRecipients (rule : ClusterRule) (rows : List ClusterMemberResult) (logs : List RpcLog) :
    List ClusterMemberResult :=
  logs.foldl (fun rows log =>
    match p.recipient log with
    | none => rows
    | some to_ => addMember rows to_ rule (some log.transactionHash)) rows

def transfersFrom (rule : ClusterRule) (source : Address) (toBlock : Nat) : Except RpcError (List RpcLog) :=
  getLogsChunked (p.request rule)
    ⟨[p.token], [some [TRANSFER_TOPIC0], some [addressToTopic source]], p.launchBlock, toBlock⟩ p.maxRange

/-- Rule 4, for the wallets rule 3 has found. -/
def addFirstInbound (rows : List ClusterMemberResult) : List Address → Except RpcError (List ClusterMemberResult)
  | [] => .ok rows
  | addr :: recipients =>
    if rows.any fun r => r.address = addr ∧ r.rule = .FIRST_INBOUND then addFirstInbound rows recipients
    else do
      let funder ← p.firstFunder addr
      if funder = some p.creator then addFirstInbound (addMember rows addr .FIRST_INBOUND none) recipients
      else addFirstInbound rows recipients

end BuildClusterParams

def buildCreatorCluster (p : BuildClusterParams) : Except RpcError ClusterResult := do
  -- a failure of one rule must not lose the others
  let launchBlockBuys := p.transfersFrom .LAUNCH_BLOCK_BUY p.liquiditySource p.launchBlock
  let fromCreator := p.transfersFrom .DIRECT_TRANSFER p.creator (p.launchBlock + p.windowBlocks)
  let failed (rule : ClusterRule) (logs : Except RpcError (List RpcLog)) :=
    match logs with
    | .ok _ => []
    | .error _ => [rule]
  let rows := addMember [] p.creator .CREATOR none
  let rows := p.addRecipients .LAUNCH_BLOCK_BUY rows (launchBlockBuys.toOption.getD [])
  let rows := p.addRecipients .DIRECT_TRANSFER rows (fromCreator.toOption.getD [])
  let recipients := Js.setOf ((fromCreator.toOption.getD []).filterMap p.recipient)
  let members ← p.addFirstInbound rows recipients
  return {
    members
    size := (Js.setOf (members.map ClusterMemberResult.address)).length
    confidence := if members = [] then 0 else (members.map ClusterMemberResult.confidence).sum / members.length
    partialRules := failed .LAUNCH_BLOCK_BUY launchBlockBuys ++ failed .DIRECT_TRANSFER fromCreator }

/-- `clusterAddresses` -/
def ClusterResult.addresses (r : ClusterResult) : List Address := Js.setOf (r.members.map ClusterMemberResult.address)

theorem mem_addMember {rows : List ClusterMemberResult} {address : Address} {rule : ClusterRule} {tx : Option Word}
    {r : ClusterMemberResult} (h : r ∈ rows) : r ∈ addMember rows address rule tx := by
  unfold addMember
  split
  · exact h
  · exact List.mem_append_left _ h

theorem BuildClusterParams.mem_addRecipients (p : BuildClusterParams) {rule : ClusterRule} {logs : List RpcLog}
    {rows : List ClusterMemberResult} {r : ClusterMemberResult} (h : r ∈ rows) : r ∈ p.addRecipients rule rows logs := by
  unfold addRecipients
  induction logs generalizing rows with
  | nil => exact h
  | cons log logs ih =>
    rw [List.foldl_cons]
    apply ih
    cases p.recipient log with
    | none => exact h
    | some to_ => exact mem_addMember h

theorem BuildClusterParams.mem_addFirstInbound (p : BuildClusterParams) {recipients : List Address}
    {rows members : List ClusterMemberResult} (h : p.addFirstInbound rows recipients = .ok members)
    {r : ClusterMemberResult} (hr : r ∈ rows) : r ∈ members := by
  induction recipients generalizing rows with
  | nil =>
    obtain rfl := Except.ok.inj h
    exact hr
  | cons addr recipients ih =>
    rw [addFirstInbound] at h
    split at h
    · exact ih h hr
    · obtain ⟨funder, _, h⟩ := bind_ok h
      split at h
      · exact ih h (mem_addMember hr)
      · exact ih h hr

/-- Whatever fails, the creator is in. -/
theorem creator_mem {p : BuildClusterParams} {result : ClusterResult} (h : buildCreatorCluster p = .ok result) :
    p.creator ∈ result.members.map ClusterMemberResult.address := by
  unfold buildCreatorCluster at h
  dsimp only at h
  generalize hrows : p.addFirstInbound _ _ = rows at h
  cases rows with
  | error e => cases h
  | ok members =>
    obtain rfl := Except.ok.inj h
    have hstart : (⟨p.creator, .CREATOR, none, RULE_CONFIDENCE .CREATOR⟩ : ClusterMemberResult) ∈
        addMember [] p.creator .CREATOR none := by simp [addMember]
    have hmem := p.mem_addFirstInbound hrows (p.mem_addRecipients (p.mem_addRecipients hstart))
    exact List.mem_map.mpr ⟨_, hmem, rfl⟩

theorem BuildClusterParams.addFirstInbound_ok (p : BuildClusterParams) (h : ∀ addr, ∃ funder, p.firstFunder addr = .ok funder)
    (recipients : List Address) (rows : List ClusterMemberResult) : ∃ members, p.addFirstInbound rows recipients = .ok members := by
  induction recipients generalizing rows with
  | nil => exact ⟨rows, rfl⟩
  | cons addr recipients ih =>
    rw [addFirstInbound]
    split
    · exact ih rows
    · obtain ⟨funder, hfunder⟩ := h addr
      rw [hfunder]
      simp only [bind, Except.bind]
      split
      · exact ih _
      · exact ih rows

/-- A cluster whose lookups are all answered is a whole one. -/
theorem buildCreatorCluster_ok {p : BuildClusterParams} (hrequest : ∀ rule f, ∃ logs, p.request rule f = .ok logs)
    (hrange : 0 < p.maxRange) (hfunder : ∀ addr, ∃ funder, p.firstFunder addr = .ok funder) :
    ∃ result, buildCreatorCluster p = .ok result ∧ result.partialRules = [] := by
  obtain ⟨buys, hbuys⟩ : ∃ logs, p.transfersFrom .LAUNCH_BLOCK_BUY p.liquiditySource p.launchBlock = .ok logs :=
    getLogsChunked_ok (hrequest _) _ hrange
  obtain ⟨sent, hsent⟩ : ∃ logs, p.transfersFrom .DIRECT_TRANSFER p.creator (p.launchBlock + p.windowBlocks) = .ok logs :=
    getLogsChunked_ok (hrequest _) _ hrange
  unfold buildCreatorCluster
  rw [hbuys, hsent]
  dsimp only
  obtain ⟨members, hmembers⟩ := p.addFirstInbound_ok hfunder
    (Js.setOf (((Except.ok sent : Except RpcError (List RpcLog)).toOption.getD []).filterMap p.recipient))
    (p.addRecipients .DIRECT_TRANSFER (p.addRecipients .LAUNCH_BLOCK_BUY (addMember [] p.creator .CREATOR none)
      ((Except.ok buys : Except RpcError (List RpcLog)).toOption.getD []))
      ((Except.ok sent : Except RpcError (List RpcLog)).toOption.getD []))
  rw [hmembers]
  exact ⟨_, rfl, rfl⟩

end LaunchAuditor.Watcher
