import LaunchAuditor.Api.VerifyReceipt

namespace LaunchAuditor.Proofs.Independence
open Chain Scoring Api VerifyReceipt

/-- The receipts agree on everything that is to be checked. -/
structure SameEvidence (r r' : Receipt) : Prop where
  canonicalJson : r.canonicalJson = r'.canonicalJson
  signature : r.signature = r'.signature
  proof : r.commit.proof = r'.commit.proof
  merkleRoot : r.commit.merkleRoot = r'.commit.merkleRoot
  txHash : r.commit.txHash = r'.commit.txHash
  blockNumber : r.commit.blockNumber = r'.commit.blockNumber
  outcomes : (r.outcomes.map fun o => (o.label, o.horizon)) = r'.outcomes.map fun o => (o.label, o.horizon)

/-- A horizon that is not in the table. -/
def unknownHorizon (o : ReceiptOutcome) : Bool := (HORIZON_MS.lookup o.horizon).isNone

/-- The classes are not computed, or there are none. -/
def Unclassified (v : Verifier) (r : Receipt) : Prop :=
  v.parse r.canonicalJson = none ∨ r.outcomes = [] ∨ r.outcomes.any unknownHorizon = true

variable {v : Verifier} {r r' : Receipt} {anchor : Option Int} {blockTime : Option Int}

theorem offline_eq (h : SameEvidence r r') (expectedHash : Hex) (expectedSigner : String) :
    verifyReceiptOffline v r expectedHash expectedSigner = verifyReceiptOffline v r' expectedHash expectedSigner := by
  unfold verifyReceiptOffline
  rw [h.canonicalJson, h.signature, h.proof, h.merkleRoot]

theorem onChain_eq (h : SameEvidence r r') (rpc : Rpc) (registry : Hex) :
    verifyReceiptOnChain rpc r registry = verifyReceiptOnChain rpc r' registry := by
  unfold verifyReceiptOnChain
  rw [h.blockNumber, h.merkleRoot, h.txHash]

theorem horizonToMs_known {o : ReceiptOutcome} (h : unknownHorizon o = false) :
    ∃ ms, horizonToMs o.horizon = .ok ms := by
  unfold unknownHorizon at h
  unfold horizonToMs
  cases hlookup : HORIZON_MS.lookup o.horizon with
  | none =>
    rw [hlookup] at h
    cases h
  | some ms => exact ⟨ms, rfl⟩

theorem horizonToMs_unknown {o : ReceiptOutcome} (h : unknownHorizon o = true) :
    horizonToMs o.horizon = .error s!"unknown horizon {o.horizon}" := by
  unfold horizonToMs
  rw [Option.isNone_iff_eq_none.mp h]

/-- Labels and horizons are all that is read of an outcome. -/
theorem outcomesFromChain_congr (committed : Bool) {outcomes outcomes' : List ReceiptOutcome}
    (h : (outcomes.map fun o => (o.label, o.horizon)) = outcomes'.map fun o => (o.label, o.horizon)) :
    outcomesFromChain anchor committed blockTime outcomes = outcomesFromChain anchor committed blockTime outcomes' := by
  induction outcomes generalizing outcomes' with
  | nil =>
    cases outcomes' with
    | nil => rfl
    | cons o' outcomes' => cases h
  | cons o outcomes ih =>
    cases outcomes' with
    | nil => cases h
    | cons o' outcomes' =>
      obtain ⟨hfirst, hrest⟩ := List.cons.inj h
      obtain ⟨hlabel, hhorizon⟩ := Prod.mk.inj hfirst
      have hpart : outcomeFromChain anchor committed blockTime o = outcomeFromChain anchor committed blockTime o' := by
        unfold outcomeFromChain
        rw [hlabel, hhorizon]
      unfold outcomesFromChain
      rw [hpart, ih hrest]

/-- The first unknown horizon is what is thrown, whatever the flag. -/
theorem outcomesFromChain_unknown (anchor blockTime : Option Int) {outcomes : List ReceiptOutcome}
    (h : outcomes.any unknownHorizon = true) (committed : Bool) :
    outcomesFromChain anchor committed blockTime outcomes = outcomesFromChain anchor false blockTime outcomes ∧
      ∃ e, outcomesFromChain anchor false blockTime outcomes = .error e := by
  induction outcomes with
  | nil => cases h
  | cons o outcomes ih =>
    unfold outcomesFromChain outcomeFromChain
    cases hknown : unknownHorizon o with
    | true =>
      rw [horizonToMs_unknown hknown]
      exact ⟨rfl, _, rfl⟩
    | false =>
      obtain ⟨ms, hms⟩ := horizonToMs_known hknown
      rw [List.any_cons, hknown, Bool.false_or] at h
      obtain ⟨hsame, e, he⟩ := ih h
      rw [hms, hsame, he]
      exact ⟨rfl, e, rfl⟩

/-- With known horizons every outcome gets a class, and it is that of an uncommitted report when the flag says so. -/
theorem outcomesFromChain_known (anchor blockTime : Option Int) {outcomes : List ReceiptOutcome}
    (h : outcomes.any unknownHorizon = false) (committed : Bool) :
    ∃ classes, outcomesFromChain anchor committed blockTime outcomes = .ok classes ∧ classes.length = outcomes.length ∧
      ∀ c ∈ classes, c.2 = .uncommitted ↔ committed = false := by
  induction outcomes with
  | nil => exact ⟨[], rfl, rfl, fun c hc => nomatch hc⟩
  | cons o outcomes ih =>
    rw [List.any_cons, Bool.or_eq_false_iff] at h
    obtain ⟨ms, hms⟩ := horizonToMs_known h.1
    obtain ⟨rest, hrest, hlength, hclass⟩ := ih h.2
    unfold outcomesFromChain outcomeFromChain
    rw [hms, hrest]
    refine ⟨_, rfl, congrArg (· + 1) hlength, ?_⟩
    intro c hc
    rcases List.mem_cons.mp hc with rfl | hc
    · exact classifyDates_uncommitted
    · exact hclass c hc

theorem eligibility_eq_iff (h : SameEvidence r r') (v : Verifier) (blockTime : Option Int) :
    eligibilityFromChain v r blockTime = eligibilityFromChain v r' blockTime ↔
      r.commit.committed = r'.commit.committed ∨ Unclassified v r := by
  unfold eligibilityFromChain Unclassified
  rw [← h.canonicalJson]
  cases v.parse r.canonicalJson with
  | none => simp
  | some content =>
    dsimp only
    rw [← outcomesFromChain_congr r'.commit.committed h.outcomes]
    by_cases hflag : r.commit.committed = r'.commit.committed
    · rw [hflag]
      simp
    · cases hunknown : r.outcomes.any unknownHorizon with
      | true =>
        rw [(outcomesFromChain_unknown (anchorOf v content) blockTime hunknown r.commit.committed).1,
          (outcomesFromChain_unknown (anchorOf v content) blockTime hunknown r'.commit.committed).1]
        simp
      | false =>
        obtain ⟨classes, hclasses, hlength, hclass⟩ :=
          outcomesFromChain_known (anchorOf v content) blockTime hunknown r.commit.committed
        obtain ⟨classes', hclasses', _, hclass'⟩ :=
          outcomesFromChain_known (anchorOf v content) blockTime hunknown r'.commit.committed
        rw [hclasses, hclasses']
        simp only [hflag, false_or, reduceCtorEq, Bool.false_eq_true, or_false]
        constructor
        · intro he
          obtain rfl := Except.ok.inj he
          by_contra hne
          -- one class would be that of both flags
          have hpos : 0 < classes.length := by
            rw [hlength]
            exact List.length_pos_of_ne_nil hne
          obtain ⟨c, hc⟩ := List.exists_mem_of_length_pos hpos
          have hboth := (hclass c hc).symm.trans (hclass' c hc)
          exact hflag (by cases hr : r.commit.committed <;> cases hr' : r'.commit.committed <;> simp [hr, hr'] at hboth ⊢)
        · intro hempty
          rw [hempty] at hclasses hclasses'
          rw [← hclasses, ← hclasses']
          rfl

/-- Two receipts with the same evidence give the same checks, and the same classes exactly if they state the same flag, or
no class is computed. -/
theorem independent_iff (v : Verifier) (rpc : Rpc) (registry expectedHash : Hex) (expectedSigner : String)
    (blockTime : Option Int) (r r' : Receipt) (h : SameEvidence r r') :
    (verifyReceiptOffline v r expectedHash expectedSigner = verifyReceiptOffline v r' expectedHash expectedSigner ∧
        verifyReceiptOnChain rpc r registry = verifyReceiptOnChain rpc r' registry ∧
        eligibilityFromChain v r blockTime = eligibilityFromChain v r' blockTime) ↔
      r.commit.committed = r'.commit.committed ∨ Unclassified v r := by
  rw [← eligibility_eq_iff h v blockTime]
  constructor
  · exact fun hsame => hsame.2.2
  · exact fun hsame => ⟨offline_eq h expectedHash expectedSigner, onChain_eq h rpc registry, hsame⟩

def plainJson : String := "\x7b\"reportTime\":\"1970-01-01T01:00:00.000Z\"\x7d"

def plainRoot : Hex := keccak256 constantDigest (stringToHex plainJson)

def plainTx : Hex := List.replicate 64 (.dec 7)

def plainRegistry : Hex := List.replicate 40 (.dec 3)

def plainReceipt (committed : Bool) : Receipt where
  reportHash := plainRoot
  canonicalJson := plainJson
  content := none
  signature := none
  signer := none
  domain := ⟨EIP712_DOMAIN_NAME, EIP712_DOMAIN_VERSION, 4663⟩
  message := ⟨plainRoot, 4663, "", 3600, "det_v0"⟩
  commit := ⟨committed, some plainRegistry, some plainTx, some 100, some "1970-01-01T01:01:00.000Z", some plainRoot, some 0,
    some [], some 60⟩
  outcomes := [⟨"INSIDER_EXIT", "6h", "PENDING", none, "1970-01-01T07:00:00.000Z", .eligible⟩]

def plainVerifier : Verifier where
  keccak := constantDigest
  parse := fun text => if text = plainJson then some ⟨none, none, some "1970-01-01T01:00:00.000Z", none⟩ else none
  dateParse := Js.dateParse
  recover := fun _ _ => .error "InvalidSignature"

/-- The batch is on the chain, a minute after the anchor. -/
def plainRpc : Rpc where
  getTransactionReceipt := fun _ _ =>
    .ok ⟨100, true, [⟨plainRegistry, [BATCH_COMMITTED, 0#256], [BitVec.ofNat 256 (0x11 * (2 ^ 256 / 255)), 1#256, 3660#256]⟩]⟩
  getBlock := fun _ _ => .ok 3660

example : ((verifyReceiptOnChain plainRpc (plainReceipt false) plainRegistry).toOption.map fun c =>
    (c.checks.map Check.ok, c.blockTime)) = some ([true, true, true], some 3660000) := by decide +kernel

theorem independent_plain : (verifyReceiptOffline plainVerifier (plainReceipt true) plainRoot "" =
        verifyReceiptOffline plainVerifier (plainReceipt false) plainRoot "" ∧
      verifyReceiptOnChain plainRpc (plainReceipt true) plainRegistry =
        verifyReceiptOnChain plainRpc (plainReceipt false) plainRegistry ∧
      eligibilityFromChain plainVerifier (plainReceipt true) (some 3660000) =
        eligibilityFromChain plainVerifier (plainReceipt false) (some 3660000)) ↔
    (plainReceipt true).commit.committed = (plainReceipt false).commit.committed ∨
      Unclassified plainVerifier (plainReceipt true) :=
  independent_iff plainVerifier plainRpc plainRegistry plainRoot "" (some 3660000) (plainReceipt true) (plainReceipt false)
    ⟨rfl, rfl, rfl, rfl, rfl, rfl, rfl⟩

/-- The flag alone makes the outcome eligible or not. -/
theorem committed_believed : ¬ ∀ (v : Verifier) (rpc : Rpc) (registry expectedHash : Hex) (expectedSigner : String)
    (blockTime : Option Int) (r r' : Receipt), SameEvidence r r' →
      verifyReceiptOffline v r expectedHash expectedSigner = verifyReceiptOffline v r' expectedHash expectedSigner ∧
        verifyReceiptOnChain rpc r registry = verifyReceiptOnChain rpc r' registry ∧
        eligibilityFromChain v r blockTime = eligibilityFromChain v r' blockTime := by
  intro h
  obtain ⟨_, _, hsame⟩ := h plainVerifier plainRpc plainRegistry plainRoot "" (some 3660000) (plainReceipt true)
    (plainReceipt false) ⟨rfl, rfl, rfl, rfl, rfl, rfl, rfl⟩
  have hclass := congrArg Except.toOption hsame
  revert hclass
  decide +kernel

end LaunchAuditor.Proofs.Independence
