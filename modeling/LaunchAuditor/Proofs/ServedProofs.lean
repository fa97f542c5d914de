import LaunchAuditor.Api.Proof
import LaunchAuditor.Proofs.Inclusion
import LaunchAuditor.Proofs.Pending

namespace LaunchAuditor.Proofs.ServedProofs
open Chain Commit Job Api Api.VerifyReceipt Steps Pending Inclusion

/-- The transactions that were executed, by hash. -/
abbrev Executed := Hex → Option TxReceipt

/-- The transaction succeeded in this block and emitted the root from the registry. -/
def Emitted (mined : Executed) (registry txHash root : Hex) (blockNumber : Nat) : Prop :=
  ∃ tx, mined txHash = some tx ∧ tx.success = true ∧ tx.blockNumber = blockNumber ∧
    rootInTxLogs tx.logs registry root = true

/-- The row of a batch with these hashes. -/
def Covers (keccak : List UInt8 → Digest) (row : CommitRow) (hashes : List Hex) : Prop :=
  ∃ tree, buildMerkleTree keccak hashes = .ok tree ∧ row.merkleRoot = tree.root ∧
    row.leaves = hashes.map (storedLeaf tree)

def Known (db : Db) (p : PendingReport) : Prop := ∃ row ∈ db.reports, row.toPending = p

def commitRow (db : Db) (id : String) : Option CommitRow := db.commits.find? fun c => decide (c.id = id)

/-- Every link points to a row that covers the report, and every row is on chain. -/
structure Sound (keccak : List UInt8 → Digest) (mined : Executed) (registry : Hex) (s : JobState) : Prop where
  ids : (s.db.reports.map Report.id).Nodup
  held : ∀ u, s.unconfirmed = some u → ∀ p ∈ u.batch, Known s.db p
  emitted : ∀ c ∈ s.db.commits, Emitted mined registry c.txHash c.merkleRoot c.blockNumber
  linked : ∀ r ∈ s.db.reports, ∀ id, r.commitId = some id →
    ∃ c, commitRow s.db id = some c ∧ ∃ hashes, Covers keccak c hashes ∧ r.reportHash ∈ hashes

/-- The primary key of a new commit is new, and a receipt of a successful transaction is that of
the call that carried the root. -/
def Permitted (keccak : List UInt8 → Digest) (mined : Executed) (registry : Hex) (env : WorkerEnv) (s : JobState) :
    Step → Prop
  | .tick io => (∀ c ∈ s.db.commits, c.id ≠ io.commitId) ∧
      ∀ r, (prepare keccak env s io).2 = .record r →
        Emitted mined registry r.txHash r.tree.root r.receipt.blockNumber
  | .arrive _ _ => True

variable {keccak : List UInt8 → Digest} {mined : Executed} {registry : Hex} {env : WorkerEnv}

/-- Tables before the first commit; the ids are the primary key. -/
structure FreshTables (db : Db) : Prop where
  ids : (db.reports.map Report.id).Nodup
  commits : db.commits = []
  links : ∀ r ∈ db.reports, r.commitId = none

theorem FreshTables.sound {db : Db} (h : FreshTables db) : Sound keccak mined registry (start db) := by
  refine ⟨h.ids, ?_, ?_, ?_⟩
  · intro u hu
    cases hu
  · simp [start, h.commits]
  · intro r hr id hid
    simp [h.links r hr] at hid

theorem Known.of_reports {db db' : Db} {p : PendingReport} (h : Known db p) (he : db'.reports = db.reports) :
    Known db' p := by
  obtain ⟨row, hrow, hp⟩ := h
  exact ⟨row, he ▸ hrow, hp⟩

/-- The invariant looks at the tables and at the slot only. -/
theorem Sound.of_eq {s s' : JobState} (h : Sound keccak mined registry s) (hdb : s'.db = s.db)
    (hu : ∀ u, s'.unconfirmed = some u → ∀ p ∈ u.batch, Known s.db p) : Sound keccak mined registry s' :=
  ⟨hdb ▸ h.ids, hdb ▸ hu, hdb ▸ h.emitted, hdb ▸ h.linked⟩

theorem arrive_commits (db : Db) (p : PendingReport) (validatorPassed : Bool) :
    (db.arrive p validatorPassed).commits = db.commits := by
  unfold Db.arrive
  split <;> rfl

/-- A report whose id is there is not inserted again. -/
theorem arrive_cases (db : Db) (p : PendingReport) (validatorPassed : Bool) :
    db.arrive p validatorPassed = db ∨ (∀ r ∈ db.reports, r.id ≠ p.id) ∧
      (db.arrive p validatorPassed).reports =
        db.reports ++ [⟨p.id, p.reportHash, p.createdAt, validatorPassed, none, none⟩] := by
  by_cases hp : db.reports.any fun r => r.id == p.id
  · exact Or.inl (by simp [Db.arrive, hp])
  · exact Or.inr ⟨by simpa using hp, by simp [Db.arrive, hp]⟩

theorem Sound.arrive {s : JobState} (h : Sound keccak mined registry s) (p : PendingReport) (validatorPassed : Bool) :
    Sound keccak mined registry { s with db := s.db.arrive p validatorPassed } := by
  rcases arrive_cases s.db p validatorPassed with he | ⟨hnew, he⟩
  · rw [he]
    exact h
  · refine ⟨?_, ?_, ?_, ?_⟩
    · simp only [he, List.map_append, List.map_cons, List.map_nil]
      refine List.Nodup.append h.ids (by simp) ?_
      simpa [List.disjoint_singleton] using hnew
    · intro u hu q hq
      obtain ⟨row, hrow, hq⟩ := h.held u hu q hq
      exact ⟨row, he ▸ List.mem_append_left _ hrow, hq⟩
    · rw [arrive_commits]
      exact h.emitted
    · intro r hr id hid
      simp only [he, List.mem_append, List.mem_singleton] at hr
      rcases hr with hr | rfl
      · simpa [commitRow, arrive_commits] using h.linked r hr id hid
      · cases hid

theorem mem_findPending_known {db : Db} {held : List String} {p : PendingReport} (h : p ∈ findPending db held) :
    Known db p := by
  unfold findPending at h
  rw [List.mem_insertionSort] at h
  obtain ⟨row, hrow, rfl⟩ := List.mem_map.mp h
  exact ⟨row, (List.mem_filter.mp hrow).1, rfl⟩

theorem mem_selectBatch_known {db : Db} {held : List String} {force : Bool} {now : Int} {batch : List PendingReport}
    (h : selectBatch env db held force now = .ok batch) {p : PendingReport} (hp : p ∈ batch) : Known db p := by
  unfold selectBatch at h
  cases hf : findPending db held with
  | nil => simp [hf] at h
  | cons oldest others =>
    simp only [hf] at h
    split at h
    · obtain rfl := Except.ok.inj h
      have hpending : p ∈ findPending db held := by
        rw [hf]
        exact List.mem_of_mem_take hp
      exact mem_findPending_known hpending
    · cases h

/-- What is about to be recorded: known reports, and the tree over their hashes. -/
structure Recordable (keccak : List UInt8 → Digest) (db : Db) (r : Recording) : Prop where
  known : ∀ p ∈ r.batch, Known db p
  tree : buildMerkleTree keccak (r.batch.map PendingReport.reportHash) = .ok r.tree

def StageOk (keccak : List UInt8 → Digest) (db : Db) : Stage → Prop
  | .done _ => True
  | .record r => Recordable keccak db r

theorem send_sound {s s' : JobState} {held : List String} {io : CommitIo} {stage : Stage}
    (h : Sound keccak mined registry s) (hc : SendCase keccak env s held io s' stage) :
    Sound keccak mined registry s' ∧ StageOk keccak s.db stage := by
  have known : ∀ {batch}, Sends env s.db held io batch → ∀ p ∈ batch, Known s.db p :=
    fun hs p hp => mem_selectBatch_known hs.selected hp
  cases hc with
  | idle out => exact ⟨h, trivial⟩
  | replyLost out hs hsub => exact ⟨h.of_eq rfl h.held, trivial⟩
  | unconfirmed out hs hsub hw =>
    refine ⟨h.of_eq rfl ?_, trivial⟩
    intro u hu
    obtain rfl := Option.some.inj hu
    exact known hs
  | reverted out hs hsub => exact ⟨h.of_eq rfl h.held, trivial⟩
  | mined hs hsub ht => exact ⟨h.of_eq rfl h.held, known hs, ht⟩

/-- Letting go of the held batch changes no table. -/
theorem Sound.free {s s' : JobState} (h : Sound keccak mined registry s) (hdb : s'.db = s.db)
    (hu : s'.unconfirmed = none) : Sound keccak mined registry s' := by
  refine h.of_eq hdb ?_
  intro u hu'
  rw [hu] at hu'
  cases hu'

theorem prepare_sound {s s' : JobState} {io : CommitIo} {stage : Stage} (h : Sound keccak mined registry s)
    (hc : PrepareCase keccak env s io s' stage) : Sound keccak mined registry s' ∧ StageOk keccak s.db stage := by
  cases hc with
  | empty hu hc => exact send_sound h hc
  | @waiting u _ _ hu ha hc =>
    have hnote : Sound keccak mined registry (s.note (u.lookupEvent io)) := h.of_eq rfl h.held
    have hsend := send_sound hnote hc
    exact hsend
  | @dropped u _ _ hu ha hc =>
    have hfree : Sound keccak mined registry { s.note (u.lookupEvent io) with unconfirmed := none } := h.free rfl rfl
    have hsend := send_sound hfree hc
    exact hsend
  | finalized hu ha ht => exact ⟨h.free rfl rfl, h.held _ hu, ht⟩
  | empty_batch out hu ha hb => exact ⟨h.free rfl rfl, trivial⟩

/-- A new row takes nothing away from the links that are there. -/
theorem insert_sound {s : JobState} (h : Sound keccak mined registry s) {row : CommitRow} (ids : List String)
    (hrow : Emitted mined registry row.txHash row.merkleRoot row.blockNumber) :
    Sound keccak mined registry (s.insertCommit row ids) := by
  refine ⟨h.ids, h.held, ?_, ?_⟩
  · intro c hc
    rcases List.mem_append.mp hc with hc | hc
    · exact h.emitted c hc
    · obtain rfl := List.mem_singleton.mp hc
      exact hrow
  · intro r hr id hid
    obtain ⟨c, hc, hcover⟩ := h.linked r hr id hid
    refine ⟨c, ?_, hcover⟩
    unfold commitRow at hc
    simp [commitRow, JobState.insertCommit, JobState.note, List.find?_append, hc]

/-- With unique ids a known report is the row of its id. -/
theorem Known.reportHash {db : Db} (hids : (db.reports.map Report.id).Nodup) {p : PendingReport} (h : Known db p)
    {row : Report} (hrow : row ∈ db.reports) (hid : row.id = p.id) : row.reportHash = p.reportHash := by
  obtain ⟨row', hrow', rfl⟩ := h
  obtain rfl := List.inj_on_of_nodup_map hids hrow hrow' hid
  rfl

/-- The links go to the row that was inserted for the batch. -/
theorem link_sound {s : JobState} (h : Sound keccak mined registry s) {commitId : String} {row : CommitRow}
    {batch : List PendingReport} (hrow : commitRow s.db commitId = some row)
    (hcover : Covers keccak row (batch.map PendingReport.reportHash)) (hknown : ∀ p ∈ batch, Known s.db p) :
    Sound keccak mined registry { s with db := s.db.linkReports commitId batch } := by
  have hcommit : ∀ id, commitRow (s.db.linkReports commitId batch) id = commitRow s.db id := by
    intro id
    simp [commitRow, linkReports_commits]
  refine ⟨?_, ?_, ?_, ?_⟩
  · simp only [linkReports_reports, List.map_map]
    rw [show Report.id ∘ linkRow commitId batch = Report.id from funext (linkRow_id commitId batch)]
    exact h.ids
  · intro u hu p hp
    obtain ⟨row, hr, he⟩ := h.held u hu p hp
    refine ⟨linkRow commitId batch row, ?_, by rw [linkRow_toPending, he]⟩
    rw [linkReports_reports]
    exact List.mem_map_of_mem hr
  · rw [linkReports_commits]
    exact h.emitted
  · intro r hr id hid
    dsimp only at hr
    rw [linkReports_reports] at hr
    obtain ⟨old, hold, rfl⟩ := List.mem_map.mp hr
    rw [linkRow_commitId] at hid
    rw [hcommit, linkRow_reportHash]
    split at hid
    · rename_i hin
      obtain rfl := Option.some.inj hid
      obtain ⟨p, hp, hpid⟩ := List.mem_map.mp hin
      refine ⟨row, hrow, _, hcover, ?_⟩
      rw [(hknown p hp).reportHash h.ids hold hpid.symm]
      exact List.mem_map_of_mem hp
    · exact h.linked old hold id hid

theorem commitRow_insert {s : JobState} {row : CommitRow} (ids : List String) (h : ∀ c ∈ s.db.commits, c.id ≠ row.id) :
    commitRow (s.insertCommit row ids).db row.id = some row := by
  have hnone : s.db.commits.find? (fun c => decide (c.id = row.id)) = none := by simpa using h
  simp [commitRow, JobState.insertCommit, JobState.note, List.find?_append, hnone]

theorem record_sound {s s' : JobState} {r : Recording} {io : CommitIo} (h : Sound keccak mined registry s)
    (hr : Recordable keccak s.db r) (hfresh : ∀ c ∈ s.db.commits, c.id ≠ io.commitId)
    (hemit : Emitted mined registry r.txHash r.tree.root r.receipt.blockNumber) (hc : RecordCase env r s io s') :
    Sound keccak mined registry s' := by
  have hinsert : Sound keccak mined registry (s.insertCommit (r.row env io) r.ids) := insert_sound h r.ids hemit
  cases hc with
  | nothing hc => exact h
  | rowOnly hc hl => exact hinsert
  | both hc hl =>
    have hrow : commitRow (s.insertCommit (r.row env io) r.ids).db io.commitId = some (r.row env io) :=
      commitRow_insert r.ids hfresh
    refine link_sound hinsert hrow ⟨r.tree, hr.tree, rfl, ?_⟩ ?_
    · simp [Recording.row, Function.comp_def]
    · exact fun p hp => (hr.known p hp).of_reports rfl

theorem step_sound (s : JobState) (i : Step) (h : Sound keccak mined registry s)
    (hi : Permitted keccak mined registry env s i) : Sound keccak mined registry (step keccak env s i) := by
  cases i with
  | arrive p validatorPassed => exact h.arrive p validatorPassed
  | tick io =>
    obtain ⟨hfresh, hemit⟩ := hi
    have hdb : (prepare keccak env s io).1.db = s.db := prepare_db s io
    obtain ⟨hprep, hstage⟩ := prepare_sound h (prepare_cases keccak env s io)
    rcases runCommitBatch_cases keccak env s io with ⟨reason, -, he⟩ | ⟨out, -, he⟩ | ⟨r, hrec, hc⟩
    · rw [step, he]
      exact h
    · rw [step, he]
      exact hprep
    · rw [hrec] at hstage
      exact record_sound hprep (hdb ▸ hstage) (hdb ▸ hfresh) (hemit r hrec) hc

/-- The invariant of every run. -/
theorem run_sound {s : JobState} {steps : List Step} (h : Sound keccak mined registry s)
    (hok : Always (step keccak env) (Permitted keccak mined registry env) s steps) :
    Sound keccak mined registry (run (step keccak env) s steps) :=
  invariant_run (Sound keccak mined registry) (fun s i hs hi => step_sound s i hs hi) h hok

@[simp] theorem toLower_toString (h : Hex) : h.toString.toLower = h.toLowerCase.toString := by
  have hc : ∀ d : HexDigit, d.toChar.toLower = d.toLowerCase.toChar := by
    intro d
    cases d with
    | dec n => revert n; decide
    | lower n => revert n; decide
    | upper n => revert n; decide
  have hlower : h.toString.toLower.toList = h.toString.toList.map Char.toLower := String.toList_map
  apply String.toList_injective
  rw [hlower]
  simp [Hex.toString, Hex.toLowerCase, Function.comp_def, hc]

/-- The first leaf with the hash is one for this hash, whichever of its reports it was stored for. -/
theorem leafOf_covers {row : CommitRow} {hashes : List Hex} (hc : Covers keccak row hashes) {hash : Hex}
    (hm : hash ∈ hashes) (hlower : hash.toLowerCase = hash) :
    ∃ leaf, leafOf row hash = some leaf ∧ foldVerifies (sortedPairHash keccak) hash leaf.proof row.merkleRoot = true := by
  obtain ⟨tree, htree, hroot, hleaves⟩ := hc
  obtain ⟨tree', t, hok, hb, ht, -⟩ := Merkle.buildMerkleTree_spec keccak (List.ne_nil_of_mem hm)
  obtain rfl := Except.ok.inj (htree.symm.trans hok)
  have hsome : (leafOf row hash).isSome = true := by
    rw [leafOf, List.find?_isSome, hleaves]
    exact ⟨storedLeaf tree hash, List.mem_map_of_mem hm, by simp [storedLeaf, hlower]⟩
  obtain ⟨leaf, hleaf⟩ := Option.isSome_iff_exists.mp hsome
  have hmem : leaf ∈ hashes.map (storedLeaf tree) := hleaves ▸ List.mem_of_find?_eq_some hleaf
  have heq : leaf.reportHash.toLowerCase = hash := by simpa using List.find?_some hleaf
  obtain ⟨h', hm', rfl⟩ := List.mem_map.mp hmem
  have hh : h'.toLowerCase = hash := by simpa [storedLeaf] using heq
  refine ⟨_, hleaf, ?_⟩
  have hfold := storedLeaf_fold hb ht hm'
  rw [hh] at hfold
  simp [foldVerifies, hlower, hfold, hroot]

/-- All three readers of a proof take it. -/
structure Accepted (keccak : List UInt8 → Digest) (hash : Hex) (p : ServedProof) : Prop where
  served : p.proofValid = true
  worker : Commit.verifyProof keccak hash p.proof p.merkleRoot = true
  receipt : ∀ canonicalJson : String, keccak256 keccak (stringToHex canonicalJson) = hash →
    (merkleCheck keccak canonicalJson (some p.proof) (some p.merkleRoot)).ok = true

theorem merkleCheck_ok {hash root : Hex} {proof : List Hex}
    (h : foldVerifies (sortedPairHash keccak) hash proof root = true) {canonicalJson : String}
    (hjson : keccak256 keccak (stringToHex canonicalJson) = hash) :
    (merkleCheck keccak canonicalJson (some proof) (some root)).ok = true := by
  rw [← hjson] at h
  exact h

/-- An answer of the node for a block has every root that was emitted there. -/
def Faithful (mined : Executed) (registry : Hex) (getLogs : RootLogs) : Prop :=
  ∀ block logs, getLogs registry block = .ok logs →
    ∀ txHash root, Emitted mined registry txHash root block → rootLogged logs root = true

/-- What the route and the script make of a report, asked for in any letter case. -/
structure Serves (keccak : List UInt8 → Digest) (registry : Hex) (api : ProofEnv) (getLogs : RootLogs) (db : Db)
    (hash : Hex) (report : Report) : Prop where
  uncommitted : report.commitId = none →
    hashRoute (prismaProofReader keccak api getLogs db) hash.toString = .ok ⟨hash.toLowerCase, false, none, none⟩ ∧
      commitVerify keccak (some registry) getLogs db (some hash.toString) = .uncommitted hash.toLowerCase
  committed : report.commitId ≠ none →
    ∃ p, hashRoute (prismaProofReader keccak api getLogs db) hash.toString =
        .ok ⟨hash.toLowerCase, true, some true, some p⟩ ∧
      Accepted keccak hash.toLowerCase p ∧ p.onChainConfirmed ≠ some false ∧
      ((getLogs registry p.blockNumber).toOption ≠ none →
        (api.rpcUrl ≠ "" → p.onChainConfirmed = some true) ∧
          (commitVerify keccak (some registry) getLogs db (some hash.toString)).exitCode = 0)

/-- The row that is served with a proof. -/
def provedRow (keccak : List UInt8 → Digest) (api : ProofEnv) (getLogs : RootLogs) (hash : Hex) (c : CommitRow)
    (leaf : StoredLeaf) : ServedProof where
  proofValid := Api.verifyProof keccak hash leaf.proof c.merkleRoot
  merkleRoot := c.merkleRoot
  leafIndex := leaf.index
  proof := leaf.proof
  txHash := c.txHash
  blockNumber := c.blockNumber
  onChainConfirmed := onChainConfirmed api getLogs c

theorem onChainConfirmed_logged {api : ProofEnv} (hapi : api.commitRegistryAddress = some registry) {getLogs : RootLogs}
    {c : CommitRow} (hlogged : ∀ logs, getLogs registry c.blockNumber = .ok logs → rootLogged logs c.merkleRoot = true) :
    onChainConfirmed api getLogs c =
      if api.rpcUrl = "" ∨ (getLogs registry c.blockNumber).toOption = none then none else some true := by
  cases hg : getLogs registry c.blockNumber with
  | error e => simp [onChainConfirmed, hapi, hg, Except.toOption]
  | ok logs => simp [onChainConfirmed, hapi, hg, Except.toOption, hlogged logs hg]

theorem Sound.serves {s : JobState} (h : Sound keccak mined registry s) {api : ProofEnv}
    (hapi : api.commitRegistryAddress = some registry) {getLogs : RootLogs} (hnode : Faithful mined registry getLogs)
    {hash : Hex} (hlen : hash.length = 64) {report : Report} (hr : reportOf s.db hash.toLowerCase = some report) :
    Serves keccak registry api getLogs s.db hash report := by
  have hasked : matchHex 64 hash.toString = some hash := hlen ▸ matchHex_toString hash
  have harg : matchHex 64 hash.toLowerCase.toString = some hash.toLowerCase := by
    rw [← hlen, ← Hex.length_toLowerCase]
    exact matchHex_toString _
  constructor
  · intro hc
    have hnone : commitOf s.db report = none := by simp [commitOf, hc]
    simp [hashRoute, prismaProofReader, commitVerify, hasked, harg, hr, hnone]
  · intro hc
    obtain ⟨id, hid⟩ := Option.ne_none_iff_exists'.mp hc
    obtain ⟨c, hcommit, hashes, hcover, hmem⟩ := h.linked report (List.mem_of_find?_eq_some hr) id hid
    have hhash : report.reportHash = hash.toLowerCase := by simpa using List.find?_some hr
    obtain ⟨leaf, hleaf, hfold⟩ := leafOf_covers hcover (hhash ▸ hmem) (Hex.toLowerCase_toLowerCase hash)
    have hof : commitOf s.db report = some c := by rw [commitOf, hid]; exact hcommit
    have hemit := h.emitted c (List.mem_of_find?_eq_some hcommit)
    have hlogged : ∀ logs, getLogs registry c.blockNumber = .ok logs → rootLogged logs c.merkleRoot = true :=
      fun logs hlogs => hnode _ logs hlogs _ _ hemit
    have hchain := onChainConfirmed_logged hapi hlogged
    refine ⟨provedRow keccak api getLogs hash.toLowerCase c leaf,
      by simp [hashRoute, prismaProofReader, hasked, hr, hof, hleaf, provedRow],
      ⟨hfold, hfold, fun _ => merkleCheck_ok hfold⟩, ?_, ?_⟩
    · simp only [provedRow, hchain]
      split <;> simp
    · intro hsome
      dsimp only [provedRow] at hsome ⊢
      refine ⟨fun hrpc => by simp [hchain, hrpc, hsome], ?_⟩
      cases hg : getLogs registry c.blockNumber with
      | error e => simp [hg, Except.toOption] at hsome
      | ok logs =>
        have hv : Commit.verifyProof keccak hash.toLowerCase leaf.proof c.merkleRoot = true := hfold
        simp [commitVerify, harg, hr, hof, hleaf, rootCommitted, hg, Except.map, VerifyRun.exitCode,
          hlogged logs hg, hv]

/-- From tables without commits, through any ticks, failed writes, held batches and inserts: a hash is
unknown, or its report is served as it stands in the tables. -/
theorem served_proofs (keccak : List UInt8 → Digest) (mined : Executed) (registry : Hex) (env : WorkerEnv) (db : Db)
    (hdb : FreshTables db) (steps : List Step) (h : Always (step keccak env) (Permitted keccak mined registry env) (start db) steps)
    (api : ProofEnv) (hapi : api.commitRegistryAddress = some registry) (getLogs : RootLogs)
    (hnode : Faithful mined registry getLogs) (hash : Hex) (hlen : hash.length = 64) :
    let db' := (run (step keccak env) (start db) steps).db
    (reportOf db' hash.toLowerCase = none →
      hashRoute (prismaProofReader keccak api getLogs db') hash.toString = .error 404 "unknown report hash") ∧
      ∀ report, reportOf db' hash.toLowerCase = some report → Serves keccak registry api getLogs db' hash report := by
  intro db'
  refine ⟨?_, fun report hr => (run_sound hdb.sound h).serves hapi hnode hlen hr⟩
  intro hnone
  have hasked : matchHex 64 hash.toString = some hash := hlen ▸ matchHex_toString hash
  simp [hashRoute, prismaProofReader, hasked, hnone]

section Sample

/-- A digest with the sum of its input in every byte. -/
def sumDigest (bytes : List UInt8) : Digest := ⟨List.replicate 32 (bytes.foldl (· + ·) 0), by simp⟩

/-- What the digest answers to an input of this sum. -/
def sumHash (sum : UInt8) : Hex := Hex.bytesToHex (List.replicate 32 sum)

def twoReports : Db :=
  ⟨[⟨"a", sumHash 0x40, 0, true, none, none⟩, ⟨"b", sumHash 0x41, 0, true, none, none⟩], []⟩

def pairEnv : WorkerEnv := { smallEnv with commitMaxLeaves := 2 }

def pairRoot : Word := 0x2020202020202020202020202020202020202020202020202020202020202020#256

/-- The call of the first tick, with the root of its batch. -/
def pairTx : TxReceipt := ⟨7, true, [⟨[], [BATCH_COMMITTED, 0], [pairRoot, 2, 0]⟩]⟩

def pairMined : Executed := fun txHash => if txHash = [.ofNibble 1] then some pairTx else none

/-- A tick in which the node is not reached. -/
def lostTick : CommitIo :=
  ⟨true, .error "not found", 0, .ok (), 1000, .sent [.ofNibble 1], 1000, [], .ok, "c1", 2000, .ok⟩

/-- The batch is held and settled by the second tick. -/
def heldThenSettled : List Step :=
  [.tick lostTick, .tick { lostTick with lookup := .ok ⟨.success, [], 7⟩, lookupAt := 5000 }]

/-- The transaction, the root and the block of what is about to be recorded. -/
def Stage.recording : Stage → Option (Hex × Hex × Nat)
  | .done _ => none
  | .record r => some (r.txHash, r.tree.root, r.receipt.blockNumber)

theorem permitted_of_recording {s : JobState} {io : CommitIo} (x : Option (Hex × Hex × Nat))
    (hfresh : ∀ c ∈ s.db.commits, c.id ≠ io.commitId) (hx : Stage.recording (prepare keccak env s io).2 = x)
    (h : ∀ y, x = some y → Emitted mined registry y.1 y.2.1 y.2.2) : Permitted keccak mined registry env s (.tick io) := by
  refine ⟨hfresh, ?_⟩
  intro r hr
  rw [hr] at hx
  exact h _ hx.symm

theorem pair_emitted : Emitted pairMined [] [.ofNibble 1] (wordText pairRoot) 7 :=
  ⟨pairTx, rfl, rfl, rfl, by decide +kernel⟩

theorem twoReports_fresh : FreshTables twoReports := ⟨by simp [twoReports], rfl, by simp [twoReports]⟩

theorem heldThenSettled_permitted :
    Always (step sumDigest pairEnv) (Permitted sumDigest pairMined [] pairEnv) (start twoReports) heldThenSettled := by
  refine ⟨?_, ?_, trivial⟩
  · exact permitted_of_recording none (by simp [start, twoReports]) (by decide +kernel) (by simp)
  · apply permitted_of_recording (some ([.ofNibble 1], wordText pairRoot, 7))
    · decide +kernel
    · decide +kernel
    · intro y hy
      obtain rfl := Option.some.inj hy
      exact pair_emitted

/-- Both reports are in the one commit. -/
theorem heldThenSettled_linked : ∀ hash ∈ [sumHash 0x40, sumHash 0x41],
    (reportOf (run (step sumDigest pairEnv) (start twoReports) heldThenSettled).db hash).map Report.commitId =
      some (some "c1") := by
  decide +kernel

def pairNode : RootLogs := fun _ block => .ok (if block = 7 then [some (wordText pairRoot)] else [])

theorem pairNode_faithful : Faithful pairMined [] pairNode := by
  intro block logs hlogs txHash root hemit
  obtain ⟨tx, htx, -, hblock, hroot⟩ := hemit
  unfold pairMined at htx
  split at htx
  · obtain rfl := Option.some.inj htx
    obtain rfl : logs = [some (wordText pairRoot)] := by simpa [pairNode, ← hblock, pairTx] using hlogs.symm
    have hone : decodeBatchCommitted ⟨[], [BATCH_COMMITTED, 0], [pairRoot, 2, 0]⟩ = some (wordText pairRoot) := by
      simp [decodeBatchCommitted]
    unfold rootInTxLogs pairTx at hroot
    rw [List.any_cons, hone] at hroot
    simpa [rootLogged] using hroot
  · cases htx

/-- The proofs of two reports of one batch. -/
theorem served_proofs_two :
    let db' := (run (step sumDigest pairEnv) (start twoReports) heldThenSettled).db
    ∀ hash ∈ [sumHash 0x40, sumHash 0x41], ∃ p,
      hashRoute (prismaProofReader sumDigest ⟨some [], "rpc"⟩ pairNode db') hash.toString =
        .ok ⟨hash, true, some true, some p⟩ ∧ Accepted sumDigest hash p := by
  intro db' hash hmem
  have hown : hash.length = 64 ∧ hash.toLowerCase = hash := by
    revert hash
    simp [sumHash]
  obtain ⟨-, h⟩ := served_proofs sumDigest pairMined [] pairEnv twoReports twoReports_fresh heldThenSettled
    heldThenSettled_permitted ⟨some [], "rpc"⟩ rfl pairNode pairNode_faithful hash hown.1
  rw [hown.2] at h
  obtain ⟨report, hr, hid⟩ := Option.map_eq_some_iff.mp (heldThenSettled_linked hash hmem)
  obtain ⟨p, hp, hacc, -⟩ := (h report hr).committed (by simp [hid])
  rw [hown.2] at hp hacc
  exact ⟨p, hp, hacc⟩

end Sample

end LaunchAuditor.Proofs.ServedProofs
