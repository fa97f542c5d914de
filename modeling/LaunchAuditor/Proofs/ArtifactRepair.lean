import LaunchAuditor.Commit.Reconcile

namespace LaunchAuditor.Proofs.ArtifactRepair
open Chain Commit.Artifacts Commit.Job

section Scan
variable (n : LogNode) (registry : Address) (sig kind : Word)

def eventsIn (fromBlock toBlock : Nat) : List RpcLog := n.answer (eventFilter registry sig kind fromBlock toBlock)

/-- The oldest block the windows reach: the floor itself is left out when it would start a window. -/
def lowest (floor head : Nat) : Nat := if (head - floor) % 10000 = 0 then floor + 1 else floor

theorem eventsIn_append {fromBlock mid toBlock : Nat} (hs : fromBlock ≤ mid + 1) (hm : mid ≤ toBlock) :
    eventsIn n registry sig kind fromBlock mid ++ eventsIn n registry sig kind (mid + 1) toBlock =
      eventsIn n registry sig kind fromBlock toBlock :=
  filter_windows n.blocks_ordered (eventFilter registry sig kind fromBlock toBlock) hs hm

theorem eventsIn_empty {fromBlock toBlock : Nat} (h : toBlock < fromBlock) :
    eventsIn n registry sig kind fromBlock toBlock = [] := by
  apply List.eq_nil_iff_forall_not_mem.mpr
  intro l hl
  obtain ⟨_, _, hfrom, hto⟩ := n.mem_answer.mp hl
  exact absurd (Nat.le_trans hfrom hto) (Nat.not_le.mpr h)

/-- One window, and what is before it. -/
theorem eventsIn_window {floor head : Nat} (h : floor < head) :
    eventsIn n registry sig kind (lowest floor (head - 10000)) (head - 10000) ++
        eventsIn n registry sig kind (if head > floor + 9999 then head - 9999 else floor) head =
      eventsIn n registry sig kind (lowest floor head) head := by
  by_cases hfar : head > floor + 9999
  · have hlow : lowest floor (head - 10000) = lowest floor head := by
      unfold lowest
      rw [show (head - 10000 - floor) % 10000 = (head - floor) % 10000 by omega]
    have hle : lowest floor head ≤ head - 10000 + 1 := by
      unfold lowest
      split <;> omega
    have hnext : head - 9999 = head - 10000 + 1 := by omega
    rw [if_pos hfar, hlow, hnext]
    exact eventsIn_append n registry sig kind hle (by omega)
  · have hlow : lowest floor head = floor := by
      unfold lowest
      rw [if_neg (by omega)]
    have hnone : eventsIn n registry sig kind (lowest floor (head - 10000)) (head - 10000) = [] := by
      apply eventsIn_empty
      unfold lowest
      split <;> omega
    rw [if_neg hfar, hnone, hlow, List.nil_append]

/-- The last event of the kind in the blocks that are looked at. -/
def latestIn (floor head : Nat) : Option OnChain :=
  (eventsIn n registry sig kind (lowest floor head) head).getLast?.map ofLog

theorem walkBack_latest {request : GetLogs} (hbelow : ∀ f logs, request f = .ok logs → n.request f = .ok logs)
    {floor fuel head : Nat} (hfuel : head ≤ fuel) {found : Option OnChain}
    (h : walkBack request registry sig kind floor fuel head = .ok found) :
    found = latestIn n registry sig kind floor head := by
  have hnone : ∀ head, head ≤ floor → latestIn n registry sig kind floor head = none := by
    intro head hle
    have hempty : eventsIn n registry sig kind (lowest floor head) head = [] := by
      apply eventsIn_empty
      unfold lowest
      split <;> omega
    rw [latestIn, hempty]
    rfl
  induction fuel generalizing head with
  | zero =>
    obtain rfl := Except.ok.inj h
    exact (hnone head (by omega)).symm
  | succ fuel ih =>
    rw [walkBack] at h
    by_cases hs : head > floor
    · rw [if_pos hs] at h
      obtain ⟨logs, hlogs, h⟩ := bind_ok h
      have hwindow : logs = eventsIn n registry sig kind (if head > floor + 9999 then head - 9999 else floor) head :=
        getLogsChunked_below n hbelow hlogs
      rw [latestIn, ← eventsIn_window n registry sig kind hs, ← hwindow, List.getLast?_append]
      cases hlast : logs.getLast? with
      | some l =>
        rw [hlast] at h
        exact (Except.ok.inj h).symm
      | none =>
        rw [hlast] at h
        exact ih (by omega) h
    · rw [if_neg hs] at h
      obtain rfl := Except.ok.inj h
      exact (hnone head (by omega)).symm

end Scan

theorem orderedInsert_append {α : Type} {r : α → α → Prop} [DecidableRel r] (a : α) (xs : List α) {ys : List α}
    (h : ∀ y ∈ ys, r a y) : (xs ++ ys).orderedInsert r a = xs.orderedInsert r a ++ ys := by
  induction xs with
  | nil =>
    cases ys with
    | nil => rfl
    | cons y ys => simp [h y List.mem_cons_self]
  | cons x xs ih =>
    simp only [List.cons_append, List.orderedInsert]
    split
    · rfl
    · rw [ih]
      rfl

/-- Rows that come later stay behind. -/
theorem insertionSort_append {α : Type} {r : α → α → Prop} [DecidableRel r] (xs : List α) {ys : List α}
    (h : ∀ x ∈ xs, ∀ y ∈ ys, r x y) : (xs ++ ys).insertionSort r = xs.insertionSort r ++ ys.insertionSort r := by
  induction xs with
  | nil => rfl
  | cons x xs ih =>
    rw [List.cons_append, List.insertionSort_cons, List.insertionSort_cons,
      ih fun a ha => h a (List.mem_cons_of_mem _ ha)]
    apply orderedInsert_append
    intro y hy
    exact h x List.mem_cons_self y ((List.mem_insertionSort r).mp hy)

def setLeaves (last : List (ArtifactLabel × Hex)) (r : ArtifactRow) : List (ArtifactLabel × Hex) :=
  match r.leaves with
  | some (label, hash) => OrderedMap.set label hash.toLowerCase last
  | none => last

theorem lastCommitted_append {rows new : List ArtifactRow} {createdAt : Int} (hrows : ∀ r ∈ rows, r.createdAt ≤ createdAt)
    (hnew : ∀ r ∈ new, r.createdAt = createdAt ∧ r.leaves.isSome) :
    lastCommitted (rows ++ new) = new.foldl setLeaves (lastCommitted rows) := by
  have hsorted : new.insertionSort (fun a b => a.createdAt ≤ b.createdAt) = new := by
    apply List.Pairwise.insertionSort_eq
    refine List.Pairwise.imp_of_mem ?_ (List.pairwise_of_forall fun _ _ => trivial)
    intro a b ha hb _
    rw [(hnew a ha).1, (hnew b hb).1]
  unfold lastCommitted
  rw [insertionSort_append, hsorted, List.foldl_append]
  · apply List.foldl_ext
    intro last r hr
    obtain ⟨leaf, hleaf⟩ := Option.isSome_iff_exists.mp (hnew r hr).2
    rw [setLeaves, hleaf]
  · intro a ha b hb
    rw [(hnew b hb).1]
    exact hrows a ha

section Script
variable (keccak : List UInt8 → Digest) (env : WorkerEnv) (n : LogNode) (registry : Hex) (head : Nat)
  (files : ArtifactHashes)

def fileHash (label : ArtifactLabel) : Hex := (files.get label).toLowerCase

/-- The last event of the label's kind, of the recent ones. -/
def latest (label : ArtifactLabel) : Option OnChain :=
  latestIn n (registryAddress registry) (topicOf (keccak EVENT_TEXT.toUTF8.toList)) (topicOf (ARTIFACT_KIND keccak label))
    (floorOf head) head

def chainHash (label : ArtifactLabel) : Option Hex := (latest keccak n registry head label).map OnChain.hash

/-- The file's hash is on chain, but not in the table. -/
def Missing (db : List (ArtifactLabel × Hex)) (label : ArtifactLabel) : Prop :=
  chainHash keccak n registry head label = some (fileHash files label) ∧ db.lookup label ≠ some (fileHash files label)

instance (db : List (ArtifactLabel × Hex)) : DecidablePred (Missing keccak n registry head files db) :=
  fun _ => inferInstanceAs (Decidable (_ ∧ _))

/-- The row of a label, when it is missing. -/
def insertsOf (db : List (ArtifactLabel × Hex)) (io : ReconcileIo) (label : ArtifactLabel) : List ArtifactRow :=
  match latest keccak n registry head label with
  | some event =>
    if Missing keccak n registry head files db label then [missingRow env label (fileHash files label) event io] else []
  | none => []

theorem statusOf_insert {fileHash : Hex} {chainHash db : Option Hex} :
    statusOf fileHash chainHash db = .insert ↔ chainHash = some fileHash ∧ db ≠ some fileHash := by
  unfold statusOf
  by_cases hc : chainHash = some fileHash
  · by_cases hd : db = some fileHash <;> simp [hc, hd]
  · simp [hc]

theorem insertsOf_cases (db : List (ArtifactLabel × Hex)) (io : ReconcileIo) (label : ArtifactLabel) :
    (Missing keccak n registry head files db label ∧ ∃ event, latest keccak n registry head label = some event ∧
        insertsOf keccak env n registry head files db io label = [missingRow env label (fileHash files label) event io]) ∨
      (¬ Missing keccak n registry head files db label ∧ insertsOf keccak env n registry head files db io label = []) := by
  unfold insertsOf
  by_cases hm : Missing keccak n registry head files db label
  · left
    obtain ⟨event, hevent, -⟩ := Option.map_eq_some_iff.mp hm.1
    rw [hevent]
    exact ⟨hm, event, rfl, if_pos hm⟩
  · right
    refine ⟨hm, ?_⟩
    cases latest keccak n registry head label with
    | none => rfl
    | some event => exact if_neg hm

variable {keccak env n registry head files}

theorem reconcileLabels_spec {db : List (ArtifactLabel × Hex)} {io : ReconcileIo}
    (hbelow : ∀ f logs, io.request f = .ok logs → n.request f = .ok logs) {labels : List ArtifactLabel}
    {statuses : List (ArtifactLabel × ReconcileStatus)} {inserts : List ArtifactRow}
    (h : reconcileLabels keccak env registry head files db io labels = .ok (statuses, inserts)) :
    statuses = labels.map (fun label =>
        (label, statusOf (fileHash files label) (chainHash keccak n registry head label) (db.lookup label))) ∧
      inserts = labels.flatMap (insertsOf keccak env n registry head files db io) := by
  induction labels generalizing statuses inserts with
  | nil =>
    obtain ⟨rfl, rfl⟩ := Prod.mk.inj (Except.ok.inj h)
    exact ⟨rfl, rfl⟩
  | cons label labels ih =>
    obtain ⟨found, hfound, h⟩ := bind_ok h
    have hlatest : found = latest keccak n registry head label :=
      walkBack_latest n _ _ _ hbelow (Nat.le_succ head) hfound
    subst hlatest
    dsimp only at h
    obtain ⟨⟨restStatuses, restInserts⟩, hrest, h⟩ := bind_ok h
    obtain ⟨rfl, rfl⟩ := ih hrest
    obtain ⟨rfl, rfl⟩ := Prod.mk.inj (Except.ok.inj h)
    refine ⟨rfl, ?_⟩
    rw [List.flatMap_cons]
    congr 1
    unfold insertsOf
    cases hl : latest keccak n registry head label with
    | none => rfl
    | some event =>
      have hiff : statusOf (fileHash files label) (some event.hash) (db.lookup label) = .insert ↔
          Missing keccak n registry head files db label := by
        rw [statusOf_insert, Missing, chainHash, hl]
        rfl
      exact if_congr hiff rfl rfl

@[simp] theorem missingRow_leaves (label : ArtifactLabel) (hash : Hex) (event : OnChain) (io : ReconcileIo) :
    (missingRow env label hash event io).leaves = some (label, hash) := by
  cases label <;> rfl

@[simp] theorem missingRow_createdAt (label : ArtifactLabel) (hash : Hex) (event : OnChain) (io : ReconcileIo) :
    (missingRow env label hash event io).createdAt = io.createdAt := by
  cases label <;> rfl

/-- The rows of the labels write their hashes over what the table had. -/
theorem lookup_inserts {db : List (ArtifactLabel × Hex)} {io : ReconcileIo} {labels : List ArtifactLabel}
    (last : List (ArtifactLabel × Hex)) (label : ArtifactLabel) :
    ((labels.flatMap (insertsOf keccak env n registry head files db io)).foldl setLeaves last).lookup label =
      if label ∈ labels ∧ Missing keccak n registry head files db label then some (fileHash files label)
      else last.lookup label := by
  induction labels generalizing last with
  | nil => simp
  | cons l labels ih =>
    rw [List.flatMap_cons, List.foldl_append, ih]
    rcases insertsOf_cases keccak env n registry head files db io l with ⟨hm, event, -, hrow⟩ | ⟨hm, hrow⟩
    · rw [hrow]
      simp only [List.foldl_cons, List.foldl_nil, setLeaves, missingRow_leaves, OrderedMap.set, OrderedMap.lookup_alter,
        fileHash, Hex.toLowerCase_toLowerCase]
      by_cases hl : label = l
      · subst hl
        simp [hm]
      · simp [hl]
    · rw [hrow]
      by_cases hl : label = l
      · subst hl
        simp [hm]
      · simp [hl]

theorem inserts_later {db : List (ArtifactLabel × Hex)} {io : ReconcileIo} {labels : List ArtifactLabel} {r : ArtifactRow}
    (hr : r ∈ labels.flatMap (insertsOf keccak env n registry head files db io)) :
    r.createdAt = io.createdAt ∧ ∃ label ∈ labels, ∃ event, latest keccak n registry head label = some event ∧
      Missing keccak n registry head files db label ∧ r = missingRow env label (fileHash files label) event io := by
  obtain ⟨label, hlabel, hr⟩ := List.mem_flatMap.mp hr
  rcases insertsOf_cases keccak env n registry head files db io label with ⟨hm, event, hevent, hrow⟩ | ⟨-, hrow⟩
  · rw [hrow] at hr
    obtain rfl := List.mem_singleton.mp hr
    exact ⟨missingRow_createdAt _ _ _ _, label, hlabel, event, hevent, hm, rfl⟩
  · rw [hrow] at hr
    cases hr

theorem createRow_chain (w : DbOutcome) (row : ArtifactRow) (s : ArtifactState) : (createRow w row s).1.chain = s.chain := by
  unfold createRow
  cases w <;> rfl

/-- An item broadcasts its hash once, or is rejected. -/
theorem post_chain (keccak : List UInt8 → Digest) (env : WorkerEnv) (finish : ArtifactRow → ArtifactRow) (label : ArtifactLabel) (hash : Hex) (io : ArtifactIo)
    (s : ArtifactState) :
    ((postArtifact keccak env finish label hash io s).1.chain = s.chain ∧
        ∃ msg, (postArtifact keccak env finish label hash io s).2 = .error msg) ∨
      ∃ tx, (postArtifact keccak env finish label hash io s).1.chain = s.chain ++ [tx] ∧
        tx.kind = ARTIFACT_KIND keccak label ∧ tx.hash = hash := by
  unfold postArtifact sendArtifact
  cases io.submission with
  | rejected msg => exact Or.inl ⟨rfl, msg, rfl⟩
  | replyLost txHash msg => exact Or.inr ⟨_, rfl, rfl, rfl⟩
  | sent txHash =>
    right
    refine ⟨⟨txHash, ARTIFACT_KIND keccak label, hash, io.status⟩, ?_, rfl, rfl⟩
    dsimp only
    cases io.receipt txHash with
    | error msg => rfl
    | ok receipt =>
      have hchain := createRow_chain io.createCommit (finish (baseRow env hash io txHash receipt))
        (s.broadcast ⟨txHash, ARTIFACT_KIND keccak label, hash, io.status⟩)
      simp only [Except.map]
      split
      · rename_i heq
        rw [heq] at hchain
        exact hchain
      · rename_i heq
        rw [heq] at hchain
        exact hchain

/-- What a run has to post. -/
def due (last : List (ArtifactLabel × Hex)) (files : ArtifactHashes) (labels : List ArtifactLabel) : List ArtifactLabel :=
  labels.filter fun label => decide (last.lookup label ≠ some (fileHash files label))

def postOf (keccak : List UInt8 → Digest) (files : ArtifactHashes) (label : ArtifactLabel) : Digest × Hex :=
  (ARTIFACT_KIND keccak label, files.get label)

theorem recommitItems_chain (keccak : List UInt8 → Digest) (env : WorkerEnv) (files : ArtifactHashes)
    (last : List (ArtifactLabel × Hex)) (item : ArtifactLabel → ArtifactIo) (labels : List ArtifactLabel)
    (committed skipped : List String) (s : ArtifactState) :
    ∃ txs, (recommitItems keccak env false files last item labels committed skipped s).1.chain = s.chain ++ txs ∧
      txs.map (fun tx => (tx.kind, tx.hash)) <+: (due last files labels).map (postOf keccak files) ∧
      ∀ r, (recommitItems keccak env false files last item labels committed skipped s).2 = .ok r →
        txs.map (fun tx => (tx.kind, tx.hash)) = (due last files labels).map (postOf keccak files) := by
  induction labels generalizing committed skipped s with
  | nil => exact ⟨[], (List.append_nil _).symm, List.nil_prefix, fun _ _ => rfl⟩
  | cons label labels ih =>
    by_cases hskip : last.lookup label = some (fileHash files label)
    · have hcond : (!false && decide (last.lookup label = some (files.get label).toLowerCase)) = true := by
        simpa [fileHash] using hskip
      have hdue : due last files (label :: labels) = due last files labels := by
        simp [due, hskip]
      rw [recommitItems, if_pos hcond, hdue]
      exact ih _ _ s
    · have hcond : ¬ (!false && decide (last.lookup label = some (files.get label).toLowerCase)) = true := by
        simpa [fileHash] using hskip
      have hdue : due last files (label :: labels) = label :: due last files labels := by
        simp [due, hskip]
      rw [recommitItems, if_neg hcond, hdue]
      obtain ⟨out, hout⟩ : ∃ out, postArtifact keccak env
          (fun row => setColumn label { row with leaves := some (label, files.get label) }) label (files.get label)
          (item label) s = out := ⟨_, rfl⟩
      have hpost := post_chain keccak env
        (fun row => setColumn label { row with leaves := some (label, files.get label) }) label (files.get label)
        (item label) s
      rw [hout] at hpost
      simp only [hout]
      obtain ⟨after, res⟩ := out
      cases res with
      | error msg =>
        rcases hpost with ⟨hchain, -⟩ | ⟨tx, hchain, hkind, hhash⟩
        · exact ⟨[], by rw [List.append_nil]; exact hchain, List.nil_prefix, fun _ h => by cases h⟩
        · refine ⟨[tx], hchain, ?_, fun _ h => by cases h⟩
          rw [List.map_singleton, hkind, hhash, List.map_cons]
          exact ⟨_, rfl⟩
      | ok txHash =>
        rcases hpost with ⟨-, msg, hmsg⟩ | ⟨tx, hchain, hkind, hhash⟩
        · cases hmsg
        · obtain ⟨txs, htxs, hprefix, hall⟩ :=
            ih (committed ++ [s!"{label.text} {(files.get label).toString} -> {txHash.toString}"]) skipped after
          refine ⟨tx :: txs, ?_, ?_, ?_⟩
          · dsimp only at hchain ⊢
            rw [htxs, hchain, List.append_assoc]
            rfl
          · rw [List.map_cons, List.map_cons, hkind, hhash]
            exact List.prefix_cons_inj _ |>.mpr hprefix
          · intro r hr
            rw [List.map_cons, List.map_cons, hkind, hhash, hall r hr]
            rfl

/-- A run that is not forced posts what is due, in order, each label at most once. -/
theorem recommit_posts {io : RecommitIo} (hforce : io.force = false) (hfiles : io.hashes = .ok files)
    (s : ArtifactState) :
    ∃ txs, (recommitArtifacts keccak env io s).1.chain = s.chain ++ txs ∧
      txs.map (fun tx => (tx.kind, tx.hash)) <+:
        (due (lastCommitted s.rows) files ARTIFACT_LABELS).map (postOf keccak files) ∧
      ∀ r, (recommitArtifacts keccak env io s).2 = .ok r → r.reason = none →
        txs.map (fun tx => (tx.kind, tx.hash)) =
          (due (lastCommitted s.rows) files ARTIFACT_LABELS).map (postOf keccak files) := by
  unfold recommitArtifacts
  cases henv : requireCommitEnv env with
  | error reason =>
    refine ⟨[], (List.append_nil _).symm, List.nil_prefix, ?_⟩
    intro r hr hreason
    obtain rfl := Except.ok.inj hr
    cases hreason
  | ok _ =>
    rw [hfiles]
    dsimp only
    cases io.findMany with
    | error msg => exact ⟨[], (List.append_nil _).symm, List.nil_prefix, fun _ h => by cases h⟩
    | ok _ =>
      dsimp only
      rw [hforce]
      obtain ⟨txs, hchain, hprefix, hall⟩ := recommitItems_chain keccak env files _ io.item ARTIFACT_LABELS [] [] _
      exact ⟨txs, hchain, hprefix, fun r hr _ => hall r hr⟩

/-- A run of the script over this table, which has read the chain as it is. -/
structure Run (keccak : List UInt8 → Digest) (env : WorkerEnv) (n : LogNode) (registry : Hex) (head : Nat)
    (files : ArtifactHashes) (io : ReconcileIo) (s : ArtifactState) : Prop where
  registry : env.commitRegistryAddress = some registry
  head : io.head = .ok head
  files : io.hashes = .ok files
  honest : ∀ f logs, io.request f = .ok logs → n.request f = .ok logs
  clock : ∀ r ∈ s.rows, r.createdAt ≤ io.createdAt

/-- What a run does to the table, however it ends. -/
theorem reconcile_rows {io : ReconcileIo} {s : ArtifactState} (hrun : Run keccak env n registry head files io s)
    (apply : Bool) :
    let inserts := ARTIFACT_LABELS.flatMap (insertsOf keccak env n registry head files (lastCommitted s.rows) io)
    let out := reconcile keccak env apply io s
    (out.1 = s ∨ out.1 = { s with rows := s.rows ++ inserts }) ∧
      ∀ statuses, out.2 = .ok statuses →
        statuses = ARTIFACT_LABELS.map (fun label => (label, statusOf (fileHash files label)
          (chainHash keccak n registry head label) ((lastCommitted s.rows).lookup label))) ∧
        (apply = true → out.1 = { s with rows := s.rows ++ inserts }) := by
  intro inserts out
  have hout : out = reconcile keccak env apply io s := rfl
  rw [reconcile, hrun.registry, hrun.head, hrun.files] at hout
  dsimp only at hout
  cases hfind : io.findMany with
  | error msg =>
    rw [hfind] at hout
    rw [hout]
    exact ⟨Or.inl rfl, fun _ h => by cases h⟩
  | ok _ =>
    rw [hfind] at hout
    dsimp only at hout
    cases hlabels : reconcileLabels keccak env registry head files (lastCommitted s.rows) io ARTIFACT_LABELS with
    | error e =>
      rw [hlabels] at hout
      rw [hout]
      exact ⟨Or.inl rfl, fun _ h => by cases h⟩
    | ok found =>
      obtain ⟨statuses, rows⟩ := found
      obtain ⟨hstatuses, hrows⟩ := reconcileLabels_spec hrun.honest hlabels
      rw [hlabels] at hout
      dsimp only at hout
      change rows = inserts at hrows
      rw [hrows] at hout
      by_cases hnothing : (decide (inserts = []) || !apply) = true
      · rw [if_pos (by simpa using hnothing)] at hout
        rw [hout]
        refine ⟨Or.inl rfl, ?_⟩
        intro found hfound
        obtain rfl := Except.ok.inj hfound
        refine ⟨hstatuses, ?_⟩
        intro happly
        have hempty : inserts = [] := by simpa [happly] using hnothing
        rw [hempty, List.append_nil]
      · rw [if_neg (by simpa using hnothing)] at hout
        cases hcreate : io.createMany with
        | ok =>
          rw [hcreate] at hout
          rw [hout]
          refine ⟨Or.inr rfl, ?_⟩
          intro found hfound
          obtain rfl := Except.ok.inj hfound
          exact ⟨hstatuses, fun _ => rfl⟩
        | failed msg =>
          rw [hcreate] at hout
          rw [hout]
          exact ⟨Or.inl rfl, fun _ h => by cases h⟩
        | ackLost msg =>
          rw [hcreate] at hout
          rw [hout]
          exact ⟨Or.inr rfl, fun _ h => by cases h⟩

/-- Where nothing is missing, a run changes nothing. -/
theorem reconcile_settled {io : ReconcileIo} {s : ArtifactState} (hrun : Run keccak env n registry head files io s)
    (h : ∀ label, ¬ Missing keccak n registry head files (lastCommitted s.rows) label) (apply : Bool) :
    (reconcile keccak env apply io s).1 = s := by
  have hnone : ARTIFACT_LABELS.flatMap (insertsOf keccak env n registry head files (lastCommitted s.rows) io) = [] := by
    apply List.flatMap_eq_nil_iff.mpr
    intro label _
    rcases insertsOf_cases keccak env n registry head files (lastCommitted s.rows) io label with ⟨hm, -⟩ | ⟨-, hrow⟩
    · exact absurd hm (h label)
    · exact hrow
  obtain ⟨hsame | hsame, -⟩ := reconcile_rows hrun apply
  · exact hsame
  · rw [hsame, hnone, List.append_nil]

/-- The table afterwards, on the last hash of each label. -/
theorem lookup_repaired {io : ReconcileIo} {s : ArtifactState} (hrun : Run keccak env n registry head files io s)
    (label : ArtifactLabel) :
    (lastCommitted (s.rows ++
        ARTIFACT_LABELS.flatMap (insertsOf keccak env n registry head files (lastCommitted s.rows) io))).lookup label =
      if Missing keccak n registry head files (lastCommitted s.rows) label then some (fileHash files label)
      else (lastCommitted s.rows).lookup label := by
  have hlabel : label ∈ ARTIFACT_LABELS := by cases label <;> decide
  rw [lastCommitted_append hrun.clock, lookup_inserts]
  · simp only [hlabel, true_and]
  · intro r hr
    obtain ⟨hcreated, l, -, event, -, -, rfl⟩ := inserts_later hr
    exact ⟨hcreated, by simp⟩

/-- After the script: the table knows what the blocks hold that the script looks at, and nothing else is new in it;
running it again changes nothing; and the next run posts what neither these blocks nor the table hold, each label once. -/
structure Repaired (keccak : List UInt8 → Digest) (env : WorkerEnv) (n : LogNode) (registry : Hex) (head : Nat)
    (files : ArtifactHashes) (s s' : ArtifactState) : Prop where
  known : ∀ label, (lastCommitted s'.rows).lookup label = some (fileHash files label) ↔
    chainHash keccak n registry head label = some (fileHash files label) ∨
      (lastCommitted s.rows).lookup label = some (fileHash files label)
  kept : ∀ label, chainHash keccak n registry head label ≠ some (fileHash files label) →
    (lastCommitted s'.rows).lookup label = (lastCommitted s.rows).lookup label
  rows : ∃ inserted, s'.rows = s.rows ++ inserted ∧ ∀ row ∈ inserted, ∃ label event,
    latest keccak n registry head label = some event ∧ row.leaves = some (label, event.hash) ∧
      row.merkleRoot = event.hash ∧ row.txHash = event.tx ∧ row.blockNumber = event.block
  again : ∀ apply io', Run keccak env n registry head files io' s' → (reconcile keccak env apply io' s').1 = s'
  posted : ∀ io' : RecommitIo, io'.force = false → io'.hashes = .ok files →
    ∃ txs, (recommitArtifacts keccak env io' s').1.chain = s'.chain ++ txs ∧
      txs.map (fun tx => (tx.kind, tx.hash)) <+: (ARTIFACT_LABELS.filter fun label =>
        decide (chainHash keccak n registry head label ≠ some (fileHash files label) ∧
          (lastCommitted s.rows).lookup label ≠ some (fileHash files label))).map (postOf keccak files) ∧
      ∀ r, (recommitArtifacts keccak env io' s').2 = .ok r → r.reason = none →
        txs.map (fun tx => (tx.kind, tx.hash)) = (ARTIFACT_LABELS.filter fun label =>
          decide (chainHash keccak n registry head label ≠ some (fileHash files label) ∧
            (lastCommitted s.rows).lookup label ≠ some (fileHash files label))).map (postOf keccak files)

theorem known_iff {io : ReconcileIo} {s : ArtifactState} (hrun : Run keccak env n registry head files io s)
    (label : ArtifactLabel) :
    (lastCommitted (s.rows ++ ARTIFACT_LABELS.flatMap
        (insertsOf keccak env n registry head files (lastCommitted s.rows) io))).lookup label =
        some (fileHash files label) ↔
      chainHash keccak n registry head label = some (fileHash files label) ∨
        (lastCommitted s.rows).lookup label = some (fileHash files label) := by
  rw [lookup_repaired hrun]
  by_cases hm : Missing keccak n registry head files (lastCommitted s.rows) label
  · simp [if_pos hm, hm.1]
  · rw [if_neg hm]
    constructor
    · exact Or.inr
    · intro h
      rcases h with hc | hd
      · by_contra hd
        exact hm ⟨hc, hd⟩
      · exact hd

end Script

theorem artifacts_repaired (keccak : List UInt8 → Digest) (env : WorkerEnv) (n : LogNode) (registry : Hex) (head : Nat)
    (files : ArtifactHashes) (io : ReconcileIo) (s : ArtifactState) (hrun : Run keccak env n registry head files io s)
    (statuses : List (ArtifactLabel × ReconcileStatus)) (hok : (reconcile keccak env true io s).2 = .ok statuses) :
    Repaired keccak env n registry head files s (reconcile keccak env true io s).1 := by
  obtain ⟨-, hend⟩ := reconcile_rows hrun true
  obtain ⟨-, hstate⟩ := hend statuses hok
  have hs' := hstate rfl
  rw [hs']
  have hknown := known_iff hrun
  refine ⟨hknown, ?_, ⟨_, rfl, ?_⟩, ?_, ?_⟩
  · intro label hstale
    rw [lookup_repaired hrun, if_neg]
    exact fun hm => hstale hm.1
  · intro row hrow
    obtain ⟨-, label, -, event, hevent, hm, rfl⟩ := inserts_later hrow
    have hhash : event.hash = fileHash files label := by
      have hc := hm.1
      rw [chainHash, hevent] at hc
      exact Option.some.inj hc
    refine ⟨label, event, hevent, ?_, ?_, ?_, ?_⟩
    · rw [missingRow_leaves, hhash]
    · rw [hhash]
      cases label <;> rfl
    · cases label <;> rfl
    · cases label <;> rfl
  · intro apply io' hrun'
    exact reconcile_settled hrun' (fun label hm => hm.2 ((hknown label).mpr (Or.inl hm.1))) apply
  · intro io' hforce hfiles
    have hdue : due (lastCommitted (s.rows ++ ARTIFACT_LABELS.flatMap
        (insertsOf keccak env n registry head files (lastCommitted s.rows) io))) files ARTIFACT_LABELS =
        ARTIFACT_LABELS.filter fun label =>
          decide (chainHash keccak n registry head label ≠ some (fileHash files label) ∧
            (lastCommitted s.rows).lookup label ≠ some (fileHash files label)) := by
      apply List.filter_congr
      intro label _
      simp only [ne_eq, hknown label, not_or]
    rw [← hdue]
    exact recommit_posts hforce hfiles _

section Sample

def sampleKeccak : List UInt8 → Digest := fun _ => ⟨List.replicate 32 0, rfl⟩

def sampleEnv : WorkerEnv := ⟨some [], some [.ofNibble 9], 60, 100, 4663⟩

/-- One event, which every label takes for its own under this hash function. -/
def sampleChain : LogNode where
  logs := [⟨9#160, [0, 0], [5, 1700000000], 40, 3, 0⟩]
  ordered := by simp

def sampleFiles : ArtifactHashes := ⟨wordText 5, [.ofNibble 1], [.ofNibble 2], [.ofNibble 3], [.ofNibble 4], [.ofNibble 6]⟩

def sampleIo : ReconcileIo where
  head := .ok 50
  request := sampleChain.request
  hashes := .ok sampleFiles
  findMany := .ok ()
  createMany := .ok
  committedAt := 7
  createdAt := 7

def sampleStatuses : List (ArtifactLabel × ReconcileStatus) :=
  [(.weights, .insert), (.weightsV01, .stale), (.featureCode, .stale), (.outcomeRule, .stale),
    (.forecasterMappings, .stale), (.scorerCode, .stale)]

theorem artifacts_repaired_weights :
    Repaired sampleKeccak sampleEnv sampleChain [.ofNibble 9] 50 sampleFiles ⟨[], []⟩
      (reconcile sampleKeccak sampleEnv true sampleIo ⟨[], []⟩).1 :=
  artifacts_repaired sampleKeccak sampleEnv sampleChain [.ofNibble 9] 50 sampleFiles sampleIo ⟨[], []⟩
    ⟨rfl, rfl, rfl, fun _ _ h => h, by simp⟩ sampleStatuses rfl

end Sample

end LaunchAuditor.Proofs.ArtifactRepair
