import LaunchAuditor.Commit.Artifacts

namespace LaunchAuditor.Proofs.Artifacts
open Commit Job Commit.Artifacts Steps

/-- A transaction that emits the hash has succeeded. -/
def Emitted (s : ArtifactState) (hash : Hex) : Prop := ∃ tx ∈ s.chain, tx.hash = hash ∧ tx.status = .success

/-- No artifact is recorded that is not on the chain. -/
def Truthful (s : ArtifactState) : Prop := ∀ row ∈ s.rows, Emitted s row.merkleRoot

def Recorded (s : ArtifactState) (hash : Hex) : Prop := ∃ row ∈ s.rows, row.merkleRoot = hash

variable (keccak : List UInt8 → Digest) (env : WorkerEnv)

/-- The first commit of the artifacts, when it ends without a failure, leaves all of them recorded. -/
def Completes (s : ArtifactState) : Call → Prop
  | .ensure io => ∀ h n, (requireCommitEnv env).isOk = true → io.hashes = .ok h →
      (ensureArtifactsCommitted keccak env io s).2 = .ok n →
      ∀ label ∈ FROZEN_LABELS, Recorded (ensureArtifactsCommitted keccak env io s).1 (h.get label)
  | .recommit _ => True

/-- The receipt is found, and the row written. -/
def Confirms (io : ArtifactIo) : Prop :=
  ∃ txHash receipt, io.submission = .sent txHash ∧ io.receipt txHash = .ok receipt ∧ io.createCommit.applied = true

def itemOf : Call → ArtifactLabel → ArtifactIo
  | .ensure io => io.item
  | .recommit io => io.item

/-- What is confirmed has not been reverted, and the first commit finds either no row or its artifacts. -/
def Sound (s : ArtifactState) (c : Call) : Prop :=
  (∀ label, Confirms (itemOf c label) → (itemOf c label).status = .success) ∧
    ∀ io h, c = .ensure io → io.findFirst = .ok () → io.hashes = .ok h →
      s.rows = [] ∨ ∀ label ∈ FROZEN_LABELS, Recorded s (h.get label)

section Post
variable {keccak env} {finish : ArtifactRow → ArtifactRow} {label : ArtifactLabel} {hash : Hex} {io : ArtifactIo}
  {s s' : ArtifactState}

/-- The rows of a state are kept, and so are its transactions. -/
structure Extends (s s' : ArtifactState) : Prop where
  rows : ∀ row ∈ s.rows, row ∈ s'.rows
  chain : ∀ tx ∈ s.chain, tx ∈ s'.chain

theorem Extends.refl (s : ArtifactState) : Extends s s := ⟨fun _ h => h, fun _ h => h⟩

theorem Extends.trans {s'' : ArtifactState} (h : Extends s s') (h' : Extends s' s'') : Extends s s'' :=
  ⟨fun row hrow => h'.rows row (h.rows row hrow), fun tx htx => h'.chain tx (h.chain tx htx)⟩

theorem Emitted.mono (h : Emitted s hash) (hs : Extends s s') : Emitted s' hash := by
  obtain ⟨tx, htx, hhash, hstatus⟩ := h
  exact ⟨tx, hs.chain tx htx, hhash, hstatus⟩

theorem Recorded.mono (h : Recorded s hash) (hs : Extends s s') : Recorded s' hash := by
  obtain ⟨row, hrow, hhash⟩ := h
  exact ⟨row, hs.rows row hrow, hhash⟩

theorem createRow_rows (w : DbOutcome) (row : ArtifactRow) (s : ArtifactState) :
    (createRow w row s).1 = (if w.applied then { s with rows := s.rows ++ [row] } else s) ∧
      ((createRow w row s).2 = .ok () → w.applied = true) := by
  unfold createRow
  cases w with
  | ok => exact ⟨rfl, fun _ => rfl⟩
  | failed msg => exact ⟨rfl, fun h => (nomatch h)⟩
  | ackLost msg => exact ⟨rfl, fun h => (nomatch h)⟩

/-- An item adds its transaction perhaps, and after that its row perhaps. -/
theorem post_spec (keccak : List UInt8 → Digest) (env : WorkerEnv) (label : ArtifactLabel) (hash : Hex) (io : ArtifactIo)
    (s : ArtifactState) (hfinish : ∀ row, (finish row).merkleRoot = row.merkleRoot) :
    let out := postArtifact keccak env finish label hash io s
    Extends s out.1 ∧ (∀ row ∈ out.1.rows, row ∈ s.rows ∨
        row.merkleRoot = hash ∧ Confirms io ∧ ∃ tx ∈ out.1.chain, tx.hash = hash ∧ tx.status = io.status) ∧
      (∀ txHash, out.2 = .ok txHash → Recorded out.1 hash) := by
  intro out
  have hout : out = postArtifact keccak env finish label hash io s := rfl
  unfold postArtifact sendArtifact at hout
  cases hsub : io.submission with
  | rejected msg =>
    rw [hsub] at hout
    rw [hout]
    exact ⟨Extends.refl s, fun row hrow => Or.inl hrow, fun _ h => (nomatch h)⟩
  | replyLost txHash msg =>
    rw [hsub] at hout
    rw [hout]
    exact ⟨⟨fun _ h => h, fun tx htx => List.mem_append_left _ htx⟩, fun row hrow => Or.inl hrow, fun _ h => (nomatch h)⟩
  | sent txHash =>
    rw [hsub] at hout
    dsimp only at hout
    cases hreceipt : io.receipt txHash with
    | error msg =>
      rw [hreceipt] at hout
      rw [hout]
      exact ⟨⟨fun _ h => h, fun tx htx => List.mem_append_left _ htx⟩, fun row hrow => Or.inl hrow, fun _ h => (nomatch h)⟩
    | ok receipt =>
      rw [hreceipt] at hout
      simp only [Except.map] at hout
      obtain ⟨hstate, hres⟩ := createRow_rows io.createCommit (finish (baseRow env hash io txHash receipt))
        (s.broadcast ⟨txHash, ARTIFACT_KIND keccak label, hash, io.status⟩)
      generalize createRow io.createCommit (finish (baseRow env hash io txHash receipt))
        (s.broadcast ⟨txHash, ARTIFACT_KIND keccak label, hash, io.status⟩) = created at hout hstate hres
      obtain ⟨after, res⟩ := created
      have hafter : out.1 = after := by
        rw [hout]
        cases res with
        | error msg => rfl
        | ok _ => rfl
      have hok : ∀ txHash, out.2 = .ok txHash → io.createCommit.applied = true := by
        intro txHash' h
        cases res with
        | error msg =>
          rw [hout] at h
          cases h
        | ok _ => exact hres rfl
      dsimp only at hstate
      rw [hafter, hstate]
      by_cases happlied : io.createCommit.applied = true
      · rw [if_pos happlied]
        refine ⟨⟨fun _ h => List.mem_append_left _ h, fun tx htx => List.mem_append_left _ htx⟩, ?_, ?_⟩
        · intro row hrow
          rcases List.mem_append.mp hrow with hrow | hrow
          · exact Or.inl hrow
          · rw [List.mem_singleton.mp hrow]
            exact Or.inr ⟨hfinish _, ⟨txHash, receipt, hsub, hreceipt, happlied⟩,
              ⟨txHash, ARTIFACT_KIND keccak label, hash, io.status⟩, List.mem_append_right _ List.mem_cons_self, rfl, rfl⟩
        · intro _ _
          exact ⟨_, List.mem_append_right _ List.mem_cons_self, hfinish _⟩
      · rw [if_neg happlied]
        exact ⟨⟨fun _ h => h, fun tx htx => List.mem_append_left _ htx⟩, fun row hrow => Or.inl hrow,
          fun txHash' h => absurd (hok txHash' h) happlied⟩

theorem post_truthful (hfinish : ∀ row, (finish row).merkleRoot = row.merkleRoot)
    (hconfirms : Confirms io → io.status = .success) (h : Truthful s) :
    Truthful (postArtifact keccak env finish label hash io s).1 := by
  obtain ⟨hext, hrows, _⟩ := post_spec keccak env label hash io s hfinish
  intro row hrow
  rcases hrows row hrow with hold | ⟨hhash, hconf, tx, htx, htxhash, hstatus⟩
  · exact (h row hold).mono hext
  · exact ⟨tx, htx, htxhash.trans hhash.symm, hstatus.trans (hconfirms hconf)⟩

end Post

section Loops
variable {keccak env} {s : ArtifactState} {h : ArtifactHashes} {item : ArtifactLabel → ArtifactIo}

theorem setColumn_merkleRoot (label : ArtifactLabel) (row : ArtifactRow) :
    (setColumn label row).merkleRoot = row.merkleRoot := by
  cases label <;> rfl

/-- The loop records every item unless it throws. -/
theorem ensureItems_spec (keccak : List UInt8 → Digest) (env : WorkerEnv) (labels : List ArtifactLabel) (committed : Nat)
    (hconfirms : ∀ label, Confirms (item label) → (item label).status = .success) (hs : Truthful s) :
    let out := ensureItems keccak env h item labels committed s
    Truthful out.1 ∧ Extends s out.1 ∧ (∀ n, out.2 = .ok n → ∀ label ∈ labels, Recorded out.1 (h.get label)) := by
  induction labels generalizing committed s with
  | nil => exact ⟨hs, Extends.refl s, fun _ _ label hlabel => (nomatch hlabel)⟩
  | cons label labels ih =>
    intro out
    have hout : out = ensureItems keccak env h item (label :: labels) committed s := rfl
    unfold ensureItems at hout
    have htruthful : Truthful (postArtifact keccak env (setColumn label) label (h.get label) (item label) s).1 :=
      post_truthful (setColumn_merkleRoot label) (hconfirms label) hs
    obtain ⟨hext, _, hrecorded⟩ := post_spec keccak env label (h.get label) (item label) s (setColumn_merkleRoot label)
    generalize postArtifact keccak env (setColumn label) label (h.get label) (item label) s = posted at *
    obtain ⟨after, res⟩ := posted
    cases res with
    | error msg =>
      rw [hout]
      exact ⟨htruthful, hext, fun _ he => (nomatch he)⟩
    | ok txHash =>
      obtain ⟨hrest, hextends, hlabels⟩ := ih (committed + 1) htruthful
      dsimp only at hout
      rw [← hout] at hrest hextends hlabels
      refine ⟨hrest, hext.trans hextends, ?_⟩
      intro n hn l hl
      rcases List.mem_cons.mp hl with rfl | hl
      · exact (hrecorded txHash rfl).mono hextends
      · exact hlabels n hn l hl

theorem recommitItems_truthful (force : Bool) (last : List (ArtifactLabel × Hex)) (labels : List ArtifactLabel)
    (committed skipped : List String) (hconfirms : ∀ label, Confirms (item label) → (item label).status = .success)
    (hs : Truthful s) : Truthful (recommitItems keccak env force h last item labels committed skipped s).1 := by
  induction labels generalizing committed skipped s with
  | nil => exact hs
  | cons label labels ih =>
    unfold recommitItems
    dsimp only
    split
    · exact ih _ _ hs
    · have hfinish : ∀ row : ArtifactRow,
          (setColumn label { row with leaves := some (label, h.get label) }).merkleRoot = row.merkleRoot :=
        fun row => setColumn_merkleRoot label _
      have htruthful : Truthful (postArtifact keccak env
          (fun row => setColumn label { row with leaves := some (label, h.get label) }) label (h.get label)
            (item label) s).1 :=
        post_truthful hfinish (hconfirms label) hs
      generalize postArtifact keccak env (fun row => setColumn label { row with leaves := some (label, h.get label) }) label
        (h.get label) (item label) s = posted at htruthful
      obtain ⟨after, res⟩ := posted
      cases res with
      | error msg => exact htruthful
      | ok txHash => exact ih _ _ htruthful

end Loops

/-- One call under the condition. -/
theorem runCall_spec (s : ArtifactState) (c : Call) (hs : Truthful s) (hsound : Sound s c) :
    Truthful (runCall keccak env s c) ∧ Completes keccak env s c := by
  cases c with
  | ensure io =>
    unfold runCall Completes ensureArtifactsCommitted
    dsimp only
    cases hcfg : requireCommitEnv env with
    | error msg => exact ⟨hs, fun _ _ h => (nomatch h)⟩
    | ok cfg =>
      cases hfind : io.findFirst with
      | error msg => exact ⟨hs, fun _ _ _ _ h => (nomatch h)⟩
      | ok _ =>
        dsimp only
        by_cases hrows : s.rows = []
        · rw [if_neg (not_not.mpr hrows)]
          cases hhashes : io.hashes with
          | error msg => exact ⟨hs, fun _ _ _ h => (nomatch h)⟩
          | ok h =>
            obtain ⟨htruthful, _, hrecorded⟩ := ensureItems_spec keccak env FROZEN_LABELS 0 hsound.1 hs
            refine ⟨htruthful, ?_⟩
            intro h' n _ hh hn
            rw [← Except.ok.inj hh]
            exact hrecorded n hn
        · rw [if_pos hrows]
          refine ⟨hs, ?_⟩
          intro h n _ hh _
          exact (hsound.2 io h rfl hfind hh).resolve_left hrows
  | recommit io =>
    refine ⟨?_, trivial⟩
    unfold runCall recommitArtifacts
    dsimp only
    cases requireCommitEnv env with
    | error msg => exact hs
    | ok cfg =>
      cases io.hashes with
      | error msg => exact hs
      | ok h =>
        cases io.findMany with
        | error msg => exact hs
        | ok _ => exact recommitItems_truthful io.force _ ARTIFACT_LABELS [] [] hsound.1 hs

def noArtifacts : ArtifactState := ⟨[], []⟩

/-- What is recorded is on the chain, and first commits are complete, in every run that meets the condition. -/
theorem artifacts_recorded (calls : List Call) (h : Always (runCall keccak env) Sound noArtifacts calls) :
    Truthful (run (runCall keccak env) noArtifacts calls) ∧
      Always (runCall keccak env) (Completes keccak env) noArtifacts calls := by
  have hempty : Truthful noArtifacts := fun row hrow => nomatch hrow
  refine ⟨invariant_run Truthful (fun s c hs hc => (runCall_spec keccak env s c hs hc).1) hempty h, ?_⟩
  exact always_of_invariant Truthful (fun s c hs hc => (runCall_spec keccak env s c hs hc).1)
    (fun s c hs hc => (runCall_spec keccak env s c hs hc).2) hempty h

def sampleHashes : ArtifactHashes := ⟨[.ofNibble 1], [.ofNibble 2], [.ofNibble 3], [.ofNibble 4], [.ofNibble 5], [.ofNibble 6]⟩

/-- A transaction that is mined in block 10. -/
def mined (status : TxStatus) : ArtifactIo :=
  ⟨.sent [.ofNibble 7], status, [], [.error "Transaction receipt could not be found.", .ok 10], .ok, 0, 0⟩

def minedAll : EnsureIo := ⟨.ok (), .ok sampleHashes, fun _ => mined .success⟩

/-- The weights are mined; the node refuses the second transaction. -/
def refusedSecond : EnsureIo where
  findFirst := .ok ()
  hashes := .ok sampleHashes
  item label :=
    if label = .weights then mined .success else { mined .success with submission := .rejected "nonce too low" }

/-- The first call commits the artifacts, and the second finds them. -/
theorem artifacts_recorded_once :
    Truthful (run (runCall constantDigest smallEnv) noArtifacts [.ensure minedAll, .ensure minedAll]) ∧
      Always (runCall constantDigest smallEnv) (Completes constantDigest smallEnv) noArtifacts
        [.ensure minedAll, .ensure minedAll] := by
  refine artifacts_recorded constantDigest smallEnv _ ⟨⟨fun _ _ => rfl, ?_⟩, ⟨fun _ _ => rfl, ?_⟩, trivial⟩
  · exact fun _ _ _ _ _ => Or.inl rfl
  · intro io h hio _ hhashes
    have hrecorded : ∀ label ∈ FROZEN_LABELS,
        ∃ row ∈ (runCall constantDigest smallEnv noArtifacts (.ensure minedAll)).rows,
          row.merkleRoot = sampleHashes.get label := by
      decide +kernel
    obtain rfl : minedAll = io := Call.ensure.inj hio
    obtain rfl : sampleHashes = h := Except.ok.inj hhashes
    exact Or.inr hrecorded

/-- The weights stay recorded although they were reverted; what a failed call has left out is never made up for. -/
theorem artifacts_missed :
    (¬ ∀ keccak env calls, Truthful (run (runCall keccak env) noArtifacts calls)) ∧
      ¬ ∀ keccak env calls, Always (runCall keccak env) (Completes keccak env) noArtifacts calls := by
  constructor
  · intro h
    have htruthful := h constantDigest smallEnv [.ensure { minedAll with item := fun _ => mined .reverted }]
    have hrow : ∃ row ∈ (run (runCall constantDigest smallEnv) noArtifacts
        [.ensure { minedAll with item := fun _ => mined .reverted }]).rows, row.merkleRoot = [.dec 1] := by decide +kernel
    obtain ⟨row, hrow, hhash⟩ := hrow
    have hemitted := htruthful row hrow
    rw [hhash] at hemitted
    exact absurd hemitted (by unfold Emitted; decide +kernel)
  · intro h
    have hcomplete := (h constantDigest smallEnv [.ensure refusedSecond, .ensure minedAll]).2.1 sampleHashes
    generalize hafter : runCall constantDigest smallEnv noArtifacts (.ensure refusedSecond) = after at hcomplete
    have hresult : (ensureArtifactsCommitted constantDigest smallEnv minedAll after).2.toOption = some 0 := by
      rw [← hafter]
      decide +kernel
    cases hout : (ensureArtifactsCommitted constantDigest smallEnv minedAll after).2 with
    | error msg =>
      rw [hout] at hresult
      cases hresult
    | ok n =>
      have hrecorded := hcomplete n rfl rfl hout .outcomeRule (by decide)
      rw [← hafter] at hrecorded
      exact absurd hrecorded (by unfold Recorded; decide +kernel)

end LaunchAuditor.Proofs.Artifacts
