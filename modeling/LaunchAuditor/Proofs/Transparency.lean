import LaunchAuditor.RpcBudget.Transport

namespace LaunchAuditor.Proofs.Transparency
open RpcBudget Steps

variable {σ β : Type} (node : Node σ β)

/-- Where a method takes the block it reads at. -/
def blockPlace : String → Option Nat
  | "eth_getBlockByNumber" => some 0
  | "eth_getCode" => some 1
  | "eth_getBalance" => some 1
  | "eth_getTransactionCount" => some 1
  | "eth_call" => some 1
  | "eth_getStorageAt" => some 2
  | _ => none

def hexDigits : Nat → List Char → Option Nat
  | n, [] => some n
  | n, c :: cs => if Json.hexValue c.toLower < 16 then hexDigits (16 * n + Json.hexValue c.toLower) cs else none

/-- The number of a hexadecimal quantity. -/
def quantity : Json → Option Nat
  | .str s =>
    match s.toList with
    | '0' :: 'x' :: c :: cs => hexDigits 0 (c :: cs)
    | _ => none
  | _ => none

/-- A block by its hash of 32 bytes, or by a number that is not past the head. -/
def NamesBlock (head : Nat) (param : Json) : Prop :=
  (∃ s, param = .str s ∧ hexText (some param) ∧ s.length = 66) ∨ ∃ n, quantity param = some n ∧ n ≤ head

/-- A filter for logs says where its range starts and ends, and the end is reached. -/
def RangeReached (head : Nat) (filter : Json) : Prop :=
  (∃ from_ n, property "fromBlock" filter = some from_ ∧ quantity from_ = some n) ∧
    ∃ to_ n, property "toBlock" filter = some to_ ∧ quantity to_ = some n ∧ n ≤ head

/-- A transaction with the block that includes it. -/
def Included (transaction : Json) : Prop :=
  ∃ block, property "blockNumber" transaction = some block ∧ isNull block = false

/-- The answer to a request is the same after one more block. -/
def Kept (s : σ) (method : String) (params value : Json) : Prop :=
  node.answer s method params = .result value → ∀ b, node.answer (node.extend s b) method params = .result value

/-- No reorganisation, and no change of an answer about included blocks. -/
structure GrowsOnly : Prop where
  /-- the order of an object's members says nothing -/
  members : ∀ s method params, node.answer s method (sortKeys params) = node.answer s method params
  head : ∀ s b, node.head s ≤ node.head (node.extend s b)
  chainId : ∀ s params value, Kept node s "eth_chainId" params value
  transaction : ∀ s params value, Included value → Kept node s "eth_getTransactionByHash" params value
  receipt : ∀ s params value, isNull value = false → Kept node s "eth_getTransactionReceipt" params value
  blockByHash : ∀ s params value, isNull value = false → Kept node s "eth_getBlockByHash" params value
  readAt : ∀ s method place params param value, blockPlace method = some place →
    (arrayOf params)[place]? = some param → NamesBlock (node.head s) param → isNull value = false →
    Kept node s method params value
  logs : ∀ s params filter value, (arrayOf params).head? = some filter → RangeReached (node.head s) filter →
    isNull value = false → Kept node s "eth_getLogs" params value

/-- The transaction is included, the block is named in its place and reached, the range
of the logs has a start and a reached end. -/
def Settled (head : Nat) (method : String) (params value : Json) : Prop :=
  (method = "eth_getTransactionByHash" → Included value) ∧
    (∀ place, blockPlace method = some place →
      ∃ param, (arrayOf params)[place]? = some param ∧ NamesBlock head param) ∧
    (method = "eth_getLogs" → ∃ filter, (arrayOf params).head? = some filter ∧ RangeReached head filter)

/-- The answer of the node in this state and in every later one. -/
def Lasting (s : σ) (method : String) (params value : Json) : Prop :=
  ∀ blocks, node.answer (run node.extend s blocks) method params = .result value

variable {node}

theorem NamesBlock.mono {h h' : Nat} {param : Json} (hp : NamesBlock h param) (hle : h ≤ h') : NamesBlock h' param := by
  rcases hp with hp | ⟨n, hn, hnle⟩
  · exact Or.inl hp
  · exact Or.inr ⟨n, hn, le_trans hnle hle⟩

theorem Settled.mono {h h' : Nat} {method : String} {params value : Json} (hs : Settled h method params value)
    (hle : h ≤ h') : Settled h' method params value := by
  obtain ⟨htx, hread, hlogs⟩ := hs
  refine ⟨htx, ?_, ?_⟩
  · intro place hplace
    obtain ⟨param, hparam, hnames⟩ := hread place hplace
    exact ⟨param, hparam, hnames.mono hle⟩
  · intro hmethod
    obtain ⟨filter, hfilter, hfrom, to_, n, hto, hn, hnle⟩ := hlogs hmethod
    exact ⟨filter, hfilter, hfrom, to_, n, hto, hn, le_trans hnle hle⟩

/-- One case for every method that is cached. -/
theorem settled_kept (hnode : GrowsOnly node) {s : σ} {method : String} {params value : Json}
    (hmethod : method ∈ IMMUTABLE_METHODS) (hvalue : isNull value = false)
    (hsettled : Settled (node.head s) method params value) : Kept node s method params value := by
  obtain ⟨htx, hread, hlogs⟩ := hsettled
  have hplaced : ∀ place, blockPlace method = some place → Kept node s method params value := by
    intro place hplace
    obtain ⟨param, hparam, hnames⟩ := hread place hplace
    exact hnode.readAt s method place params param value hplace hparam hnames hvalue
  simp only [IMMUTABLE_METHODS, List.mem_cons, List.not_mem_nil, or_false] at hmethod
  rcases hmethod with rfl | rfl | rfl | rfl | rfl | rfl | rfl | rfl | rfl | rfl | rfl
  · exact hnode.chainId s params value
  · exact hnode.transaction s params value (htx rfl)
  · exact hnode.receipt s params value hvalue
  · exact hnode.blockByHash s params value hvalue
  · exact hplaced 0 rfl
  · exact hplaced 1 rfl
  · exact hplaced 1 rfl
  · exact hplaced 1 rfl
  · exact hplaced 2 rfl
  · exact hplaced 1 rfl
  · obtain ⟨filter, hfilter, hrange⟩ := hlogs rfl
    exact hnode.logs s params filter value hfilter hrange hvalue

theorem settled_lasting (hnode : GrowsOnly node) {s : σ} {method : String} {params value : Json}
    (hmethod : method ∈ IMMUTABLE_METHODS) (hvalue : isNull value = false)
    (hsettled : Settled (node.head s) method params value)
    (hanswer : node.answer s method params = .result value) : Lasting node s method params value := by
  intro blocks
  induction blocks generalizing s with
  | nil => exact hanswer
  | cons b blocks ih =>
    apply ih
    · exact hsettled.mono (hnode.head s b)
    · exact settled_kept hnode hmethod hvalue hsettled hanswer b

theorem Lasting.later {s : σ} {method : String} {params value : Json} (h : Lasting node s method params value)
    (blocks : List β) : Lasting node (run node.extend s blocks) method params value := by
  intro more
  have happ : run node.extend (run node.extend s blocks) more = run node.extend s (blocks ++ more) :=
    (List.foldl_append ..).symm
  rw [happ]
  exact h (blocks ++ more)

/-- Calls of one key have one answer, whichever clients make them. -/
theorem answer_of_key (hnode : GrowsOnly node) {c d : RpcCall} {key : String} (hc : c.key = some key)
    (hd : d.key = some key) (s : σ) : node.answer s d.method d.args = node.answer s c.method c.args := by
  unfold RpcCall.key at hc hd
  split at hc
  · split at hd
    · obtain ⟨hmethod, hargs⟩ := cacheKey_inj hc hd
      rw [← hnode.members s d.method, ← hnode.members s c.method, hmethod, hargs]
    · cases hd
  · cases hc

theorem key_method {c : RpcCall} {key : String} (hc : c.key = some key) : c.method ∈ IMMUTABLE_METHODS := by
  unfold RpcCall.key at hc
  split at hc
  · unfold cacheKey at hc
    split at hc
    · exact isCacheable_method ‹_›
    · cases hc
  · cases hc

/-- Every response is the node's own answer at its moment, and what is stored is the
answer to every call of its key from now on. -/
structure Transparent (node : Node σ β) (t : TransportState σ) : Prop where
  served : ∀ r ∈ t.responses, node.answer r.node r.call.method r.call.args = .result r.value
  stored : ∀ e ∈ t.cache.map, ∀ call : RpcCall, call.key = some e.1 →
    Lasting node t.node call.method call.args e.2

structure Good (node : Node σ β) (t : TransportState σ) : Prop extends Transparent node t where
  replies : ∀ w ∈ t.waiting, ∀ s reply, w.reply = some (s, reply) →
    reply = node.answer s w.call.method w.call.args ∧ ∃ blocks, t.node = run node.extend s blocks

/-- What a step puts into the cache is settled when the node gives it. -/
def StoresSettled (node : Node σ β) (t : TransportState σ) : TransportEvent β → Prop
  | .arrive id none => ∀ w ∈ t.waiting, w.id = id → ∀ s value, w.reply = some (s, .result value) →
      isNull value = false → ∀ key, w.call.key = some key → t.cache.has key = false →
      Settled (node.head s) w.call.method w.call.args value
  | _ => True

theorem good_init (s : σ) (maxEntries : Nat) : Good node (.init s { maxEntries := maxEntries }) := by
  refine ⟨⟨?_, ?_⟩, ?_⟩
  · intro r hr
    cases hr
  · intro e he
    cases he
  · intro w hw
    cases hw

theorem good_grow {t : TransportState σ} (h : Good node t) (b : β) : Good node (t.step node (.grow b)) := by
  refine ⟨⟨h.served, ?_⟩, ?_⟩
  · intro e he call hkey
    exact (h.stored e he call hkey).later [b]
  · intro w hw s reply hreply
    obtain ⟨heq, blocks, hnow⟩ := h.replies w hw s reply hreply
    refine ⟨heq, blocks ++ [b], ?_⟩
    calc node.extend t.node b = node.extend (run node.extend s blocks) b := by rw [hnow]
      _ = run node.extend s (blocks ++ [b]) := by simp [run]

theorem good_wait {t : TransportState σ} (h : Good node t) (call : RpcCall) :
    Good node { t with waiting := t.waiting ++ [⟨t.nextId, call, 0, none⟩], nextId := t.nextId + 1 } := by
  refine ⟨⟨h.served, h.stored⟩, ?_⟩
  intro w hw s reply hreply
  rcases List.mem_append.mp hw with hw | hw
  · exact h.replies w hw s reply hreply
  · rw [List.mem_singleton.mp hw] at hreply
    cases hreply

/-- A hit returns what the node would answer now. -/
theorem good_request {t : TransportState σ} (h : Good node t) (call : RpcCall) : Good node (t.request call) := by
  unfold TransportState.request
  cases hkey : call.key with
  | none => exact good_wait h call
  | some key =>
    dsimp only
    have hmap := ResponseCache.get_map t.cache key
    rcases hget : t.cache.get key with ⟨found, cache⟩
    rw [hget] at hmap
    cases found with
    | none => exact good_wait h call
    | some value =>
      have hmem : (key, value) ∈ t.cache.map := ResponseCache.lookup_mem (congrArg Prod.fst hget)
      refine ⟨⟨?_, ?_⟩, h.replies⟩
      · intro r hr
        rcases List.mem_append.mp hr with hr | hr
        · exact h.served r hr
        · rw [List.mem_singleton.mp hr]
          exact h.stored _ hmem call hkey []
      · intro e he
        rw [hmap] at he
        exact h.stored e he

theorem good_handle {t : TransportState σ} (h : Good node t) (id : Nat) : Good node (t.step node (.handle id)) := by
  refine ⟨⟨h.served, h.stored⟩, ?_⟩
  intro w hw s reply hreply
  obtain ⟨v, hv, rfl⟩ := List.mem_map.mp hw
  split at hreply
  · obtain ⟨rfl, rfl⟩ := Prod.mk.inj (Option.some.inj hreply)
    rw [if_pos ‹_›]
    exact ⟨rfl, [], rfl⟩
  · rw [if_neg ‹_›]
    exact h.replies v hv s reply hreply

/-- The waiting calls after an attempt has ended are waiting calls of before, those of
its own call without a reply. -/
theorem good_settle_error {t : TransportState σ} (h : Good node t) (w : Waiting σ) (s : σ) (message : String) :
    Good node (t.settle w s (.error message)) := by
  simp only [TransportState.settle]
  split
  · refine ⟨⟨h.served, h.stored⟩, ?_⟩
    intro v hv
    exact h.replies v (List.mem_of_mem_filter hv)
  · refine ⟨⟨h.served, h.stored⟩, ?_⟩
    intro v hv s reply hreply
    obtain ⟨u, hu, rfl⟩ := List.mem_map.mp hv
    split at hreply
    · cases hreply
    · rw [if_neg ‹_›]
      exact h.replies u hu s reply hreply

theorem good_settle_result (hnode : GrowsOnly node) {t : TransportState σ} (h : Good node t) {w : Waiting σ}
    (hw : w ∈ t.waiting) {s : σ} {value : Json} (hreply : w.reply = some (s, .result value))
    (hok : isNull value = false → ∀ key, w.call.key = some key → t.cache.has key = false →
      Settled (node.head s) w.call.method w.call.args value) :
    Good node (t.settle w s (.result value)) := by
  obtain ⟨hanswer, blocks, hnow⟩ := h.replies w hw s _ hreply
  refine ⟨⟨?_, ?_⟩, ?_⟩
  · intro r hr
    rcases List.mem_append.mp hr with hr | hr
    · exact h.served r hr
    · rw [List.mem_singleton.mp hr]
      exact hanswer.symm
  · intro e he call hcall
    simp only [TransportState.settle] at he ⊢
    cases hkey : w.call.key with
    | none =>
      rw [hkey] at he
      exact h.stored e he call hcall
    | some key =>
      rw [hkey] at he
      cases hvalue : isNull value with
      | true =>
        simp only [hvalue, if_true] at he
        exact h.stored e he call hcall
      | false =>
        simp only [hvalue, Bool.false_eq_true, if_false] at he
        rcases ResponseCache.mem_set he with he | ⟨hnew, rfl⟩
        · exact h.stored e he call hcall
        · have hsettled := hok hvalue key hkey hnew
          have hlasting := settled_lasting hnode (key_method hkey) hvalue hsettled hanswer.symm
          have hlater := hlasting.later blocks
          rw [← hnow] at hlater
          intro more
          rw [answer_of_key hnode hkey hcall]
          exact hlater more
  · intro v hv
    exact h.replies v (List.mem_of_mem_filter hv)

theorem good_step (hnode : GrowsOnly node) (t : TransportState σ) (e : TransportEvent β) (h : Good node t)
    (hok : StoresSettled node t e) : Good node (t.step node e) := by
  cases e with
  | grow b => exact good_grow h b
  | request call => exact good_request h call
  | handle id => exact good_handle h id
  | arrive id failure =>
    simp only [TransportState.step]
    cases hfind : t.waiting.find? fun w => w.id = id with
    | none => exact h
    | some w =>
      have hw := List.mem_of_find?_eq_some hfind
      have hid : w.id = id := by simpa using List.find?_some hfind
      dsimp only
      cases failure with
      | some message => exact good_settle_error h w t.node message
      | none =>
        cases hreply : w.reply with
        | none => exact h
        | some at_ =>
          obtain ⟨s, reply⟩ := at_
          cases reply with
          | error message => exact good_settle_error h w s message
          | result value => exact good_settle_result hnode h hw hreply (hok w hw hid s value hreply)

/-- The budgeted transport is transparent in every run that stores settled answers only. -/
theorem transport_transparent (node : Node σ β) (hnode : GrowsOnly node) (s : σ) (maxEntries : Nat)
    (events : List (TransportEvent β))
    (hok : Always (TransportState.step node) (StoresSettled node) (.init s { maxEntries := maxEntries }) events) :
    Transparent node (run (TransportState.step node) (.init s { maxEntries := maxEntries }) events) :=
  (invariant_run (Good node) (good_step hnode) (good_init s maxEntries) hok).toTransparent

namespace Sample

def transaction (blocks : Nat) : Json :=
  .obj [("hash", .str "0xa1"), ("blockNumber", if blocks = 0 then .null else .str "0x1")]

def chainNode : Node Nat Unit where
  extend blocks _ := blocks + 1
  head := id
  answer blocks method params :=
    match (arrayOf params).head? with
    | some (.str "0xa1") =>
      if method = "eth_getTransactionByHash" then .result (transaction blocks) else .error "not available"
    | _ => .error "not available"

theorem head_sortKeys (params : Json) :
    (arrayOf (sortKeys params)).head? = (arrayOf params).head?.map sortKeys := by
  cases params with
  | arr items => cases items <;> simp [sortKeys, sortItems, arrayOf]
  | _ => simp [sortKeys, arrayOf]

theorem answers_members (blocks : Nat) (method : String) (params : Json) :
    chainNode.answer blocks method (sortKeys params) = chainNode.answer blocks method params := by
  simp only [chainNode, head_sortKeys]
  cases (arrayOf params).head? with
  | none => rfl
  | some v => cases v <;> rfl

theorem answers_transaction {blocks : Nat} {method : String} {params value : Json}
    (h : chainNode.answer blocks method params = .result value) :
    method = "eth_getTransactionByHash" ∧ value = transaction blocks := by
  simp only [chainNode] at h
  split at h
  · split at h
    · exact ⟨‹_›, (Reply.result.inj h).symm⟩
    · cases h
  · cases h

theorem kept_other {method : String} (hmethod : method ≠ "eth_getTransactionByHash") (blocks : Nat)
    (params value : Json) : Kept chainNode blocks method params value :=
  fun h => absurd (answers_transaction h).1 hmethod

theorem kept_included (blocks : Nat) (params value : Json) (hvalue : Included value) :
    Kept chainNode blocks "eth_getTransactionByHash" params value := by
  intro h b
  obtain rfl := (answers_transaction h).2
  have hblocks : blocks ≠ 0 := by
    rintro rfl
    obtain ⟨block, hblock, hnull⟩ := hvalue
    have hpending : property "blockNumber" (transaction 0) = some .null := rfl
    rw [hpending] at hblock
    rw [← Option.some.inj hblock] at hnull
    cases hnull
  rw [← h]
  simp [chainNode, transaction, hblocks]

theorem chainNode_growsOnly : GrowsOnly chainNode where
  members := answers_members
  head blocks _ := Nat.le_succ blocks
  chainId := kept_other (by decide)
  transaction := kept_included
  receipt blocks params value _ := kept_other (by decide) blocks params value
  blockByHash blocks params value _ := kept_other (by decide) blocks params value
  readAt blocks method place params param value hplace _ _ _ := by
    apply kept_other
    rintro rfl
    cases hplace
  logs blocks params filter value _ _ _ := kept_other (by decide) blocks params value

def call : RpcCall := ⟨⟨4663, true, none⟩, "eth_getTransactionByHash", some (.arr [.str "0xa1"])⟩

end Sample

open Sample in
/-- A transaction that was pending when it was first asked for stays pending. -/
theorem transport_freezes :
    ¬ ∀ (σ β : Type) (node : Node σ β), GrowsOnly node → ∀ (s : σ) (maxEntries : Nat)
      (events : List (TransportEvent β)),
      Transparent node (run (TransportState.step node) (.init s { maxEntries := maxEntries }) events) := by
  intro h
  have hrun := h Nat Unit chainNode chainNode_growsOnly 0 20000
    [.request call, .handle 0, .arrive 0 none, .grow (), .request call]
  have hresponses : (run (TransportState.step chainNode) (.init 0 { maxEntries := 20000 })
      [.request call, .handle 0, .arrive 0 none, .grow (), .request call]).responses =
      [⟨call, 0, transaction 0⟩, ⟨call, 1, transaction 0⟩] := rfl
  have hserved := hrun.served
  rw [hresponses] at hserved
  cases hserved ⟨call, 1, transaction 0⟩ (by simp)

open Sample in
theorem transport_transparent_included : Transparent chainNode
    (run (TransportState.step chainNode) (.init 0 { maxEntries := 20000 })
      [.grow (), .request call, .handle 0, .arrive 0 none, .grow (), .request call]) := by
  apply transport_transparent chainNode chainNode_growsOnly
  refine ⟨trivial, trivial, trivial, ?_, trivial, trivial, trivial⟩
  intro w hw _ s value hreply _ _ _ _
  have hw : w = ⟨0, call, 0, some (1, .result (transaction 1))⟩ := List.mem_singleton.mp hw
  rw [hw] at hreply ⊢
  cases hreply
  refine ⟨fun _ => ⟨.str "0x1", rfl, rfl⟩, ?_, ?_⟩
  · intro place hplace
    cases hplace
  · intro hmethod
    exact absurd hmethod (by decide)

end LaunchAuditor.Proofs.Transparency
