import LaunchAuditor.Proofs.ServedProofs
import LaunchAuditor.Report.Crypto

namespace LaunchAuditor.Proofs.ServedReceipts
open Chain Commit Job Api Api.VerifyReceipt Report Steps Pending ServedProofs

/-- The crypto that the worker and a verifier have in common. -/
structure Agree (c : Canonical) (account : Account) (v : Verifier) : Prop where
  keccak : v.keccak = c.keccak
  dateParse : v.dateParse = Js.dateParse
  recover : ∀ data, v.recover data (account.signTypedData data) = .ok account.address.toString

/-- `JSON.parse` of the canonical text, the properties that are read. -/
def parsedContent (content : Db.ReportContent) : Content :=
  ⟨some content.chainId, some (addressText content.tokenAddress), some (Js.toISOString content.reportTime),
    some content.forecaster.text⟩

/-- The row of a report is what the worker signed, under the hash of a text that parses back. -/
def SignedAs (c : Canonical) (account : Account) (v : Verifier) (columns : String → SignedColumns) (id : String)
    (hash : Hex) : Prop :=
  ∃ content, signedColumns c account content = some (columns id) ∧ hash = reportHash c (canonicalJson c content) ∧
    v.parse (canonicalJson c content) = some (parsedContent content)

variable {c : Canonical} {account : Account} {v : Verifier} {columns : String → SignedColumns}

theorem signedColumns_eq {content : Db.ReportContent} {row : SignedColumns}
    (h : signedColumns c account content = some row) :
    Js.isTime content.reportTime = true ∧ row.canonicalJson = c.canonicalize content ∧
      row.eip712Signature = some (account.signTypedData ⟨domain content.chainId, message
        ⟨reportHash c (canonicalJson c content), content.chainId, addressText content.tokenAddress,
          content.reportTime / 1000, content.forecaster.text⟩⟩) := by
  unfold signedColumns at h
  split at h
  · rename_i ht
    simp only [commitmentOf, Js.dateParse_toISOString ht, Option.map_some, Option.some.injEq] at h
    subst h
    exact ⟨ht, rfl, rfl⟩
  · cases h

theorem addressText_ne_empty (a : Address) : addressText a ≠ "" := Hex.toString_ne_empty _

theorem forecaster_text_ne_empty (f : Db.ForecasterKind) : f.text ≠ "" := by
  cases f <;> simp [Db.ForecasterKind.text]

/-- The verifier rebuilds exactly the message that was signed. -/
theorem signatureCheck_ok (h : Agree c account v) {content : Db.ReportContent} {row : SignedColumns}
    (hrow : signedColumns c account content = some row) :
    (signatureCheck v row.eip712Signature (parsedContent content)
      (keccak256 v.keccak (stringToHex row.canonicalJson)) account.address.toString).ok = true := by
  obtain ⟨ht, hjson, hsig⟩ := signedColumns_eq hrow
  have hmessage : signedMessage v (parsedContent content) (keccak256 v.keccak (stringToHex row.canonicalJson)) =
      some ⟨domain content.chainId, message ⟨reportHash c (canonicalJson c content), content.chainId,
        addressText content.tokenAddress, content.reportTime / 1000, content.forecaster.text⟩⟩ := by
    simp only [signedMessage, parsedContent, truthy, Option.filter, h.dateParse, Js.dateParse_toISOString ht, hjson, h.keccak,
      decide_not, addressText_ne_empty, forecaster_text_ne_empty, decide_false, Bool.not_false, if_true,
      Option.bind_eq_bind, Option.bind_some]
    rfl
  simp only [signatureCheck, hsig, hmessage, h.recover, decide_true]

/-- What holds of the id and the hash of every report that is inserted holds of every row. -/
theorem run_reports {keccak : List UInt8 → Digest} {env : WorkerEnv} {P : String → Hex → Prop} {db : Db}
    {steps : List Step} (hstart : ∀ r ∈ db.reports, P r.id r.reportHash)
    (harrive : ∀ p validatorPassed, .arrive p validatorPassed ∈ steps → P p.id p.reportHash) :
    ∀ r ∈ (run (step keccak env) (start db) steps).db.reports, P r.id r.reportHash := by
  let ok : Step → Prop := fun i => ∀ p validatorPassed, i = .arrive p validatorPassed → P p.id p.reportHash
  have hok : Always (step keccak env) (fun _ i => ok i) (start db) steps := by
    refine always_of_forall ?_ _
    intro i hi p validatorPassed he
    exact harrive p validatorPassed (he ▸ hi)
  refine invariant_run (fun s : JobState => ∀ r ∈ s.db.reports, P r.id r.reportHash) ?_ hstart hok
  intro s i hs hi
  cases i with
  | arrive p validatorPassed =>
    intro r hr
    dsimp only [step] at hr
    rcases arrive_cases s.db p validatorPassed with he | ⟨-, he⟩
    · exact hs r (he ▸ hr)
    · rw [he, List.mem_append, List.mem_singleton] at hr
      rcases hr with hr | rfl
      · exact hs r hr
      · exact hi p validatorPassed rfl
  | tick io =>
    obtain ⟨commitId, batch, hlinked⟩ := tick_reports keccak env s io
    intro r hr
    rw [hlinked] at hr
    obtain ⟨old, hold, rfl⟩ := List.mem_map.mp hr
    rw [linkRow_id, linkRow_reportHash]
    exact hs old hold

theorem buildReceipt_parts {parse : String → Option Json} {row : ReceiptRow} {outcomes : List ReceiptOutcomeRow}
    {blockTime : Option Js.Date} {registry : Option Hex} {receipt : Receipt}
    (h : buildReceipt parse row outcomes blockTime registry = .ok receipt) :
    receipt.canonicalJson = row.canonicalJson ∧ receipt.signature = row.eip712Signature ∧
      receipt.commit.proof = (row.commit.bind fun c => (c.leaves.getD []).find? fun l =>
        l.reportHash.toLowerCase = row.reportHash.toLowerCase).map StoredLeaf.proof ∧
      receipt.commit.merkleRoot = row.commit.map ReceiptRowCommit.merkleRoot ∧
      receipt.commit.txHash = row.commit.bind ReceiptRowCommit.txHash ∧
      receipt.commit.blockNumber = row.commit.bind ReceiptRowCommit.blockNumber := by
  unfold buildReceipt at h
  cases hparts : receiptOutcomes row.reportTime row.committed blockTime outcomes with
  | error e =>
    rw [hparts] at h
    cases h
  | ok parts =>
    rw [hparts] at h
    cases h
    exact ⟨rfl, rfl, rfl, rfl, rfl, rfl⟩

/-- A retried call returns what one of its attempts returned. -/
theorem retry_ok {α : Type} {f : Nat → Except RpcError α} {tries attempt : Nat} {a : α}
    (h : retry f tries attempt = .ok a) : ∃ n, f n = .ok a := by
  induction tries generalizing attempt with
  | zero => cases h
  | succ tries ih =>
    unfold retry at h
    cases hf : f attempt with
    | ok b =>
      rw [hf] at h
      exact ⟨attempt, hf.trans h⟩
    | error e =>
      rw [hf] at h
      dsimp only at h
      split at h
      · cases h
      · exact ih h

/-- The node answers with the transaction that was executed. -/
def HonestNode (mined : Executed) (rpc : Rpc) : Prop :=
  ∀ txHash attempt tx, rpc.getTransactionReceipt txHash attempt = .ok tx → mined txHash = some tx

theorem onChain_ok {mined : Executed} {registry txHash root : Hex} {blockNumber : Nat} {rpc : Rpc}
    (hnode : HonestNode mined rpc) (hemit : Emitted mined registry txHash root blockNumber) {receipt : Receipt}
    (hblock : receipt.commit.blockNumber = some blockNumber) (hroot : receipt.commit.merkleRoot = some root)
    (htx : receipt.commit.txHash = some txHash) {out : OnChain}
    (h : verifyReceiptOnChain rpc receipt registry = .ok out) : ∀ check ∈ out.checks, check.ok = true := by
  simp only [verifyReceiptOnChain, hblock, hroot, htx] at h
  obtain ⟨tx, hget, h⟩ := bind_ok h
  obtain ⟨timestamp, -, h⟩ := bind_ok h
  obtain ⟨n, hn⟩ := retry_ok hget
  obtain ⟨tx', hmined, hsuccess, hnumber, hlogs⟩ := hemit
  obtain rfl := Option.some.inj ((hnode _ _ _ hn).symm.trans hmined)
  split at h
  · cases h
    simp [onChainChecks, hsuccess, hlogs, hnumber]
  · cases h

/-- The hash and the signature of a report verify, committed or not; the proof when it is committed. -/
theorem offline_ok (h : Agree c account v) {id : String} {hash : Hex} (hsigned : SignedAs c account v columns id hash)
    {receipt : Receipt} (hjson : receipt.canonicalJson = (columns id).canonicalJson)
    (hsig : receipt.signature = (columns id).eip712Signature) {merkle : Bool}
    (hmerkle : ∀ json : String, keccak256 c.keccak (stringToHex json) = hash →
      (merkleCheck c.keccak json receipt.commit.proof receipt.commit.merkleRoot).ok = merkle) :
    (verifyReceiptOffline v receipt hash account.address.toString).map Check.ok = [true, true, merkle] := by
  obtain ⟨content, hrow, hhash, hparse⟩ := hsigned
  have hcheck := signatureCheck_ok h hrow
  obtain ⟨-, htext, -⟩ := signedColumns_eq hrow
  rw [canonicalJson, ← htext] at hparse
  have hrecomputed : keccak256 c.keccak (stringToHex receipt.canonicalJson) = hash := by
    rw [hjson, htext, hhash]
    rfl
  have hm := hmerkle _ hrecomputed
  rw [hjson] at hm hrecomputed
  simp only [verifyReceiptOffline, hjson, hparse, hsig, List.map_cons, List.map_nil, hcheck]
  simp [h.keccak, hm, hrecomputed]

/-- Every receipt that is served of a signed report verifies: its hash and its signature always, its proof
when the report is committed, and then the chain, as soon as an honest node answers. -/
theorem receipts_verify (c : Canonical) (account : Account) (v : Verifier) (hagree : Agree c account v)
    (columns : String → SignedColumns) (mined : Executed) (registry : Hex) (env : WorkerEnv) (db : Db)
    (hdb : FreshTables db) (hstart : ∀ r ∈ db.reports, SignedAs c account v columns r.id r.reportHash) (steps : List Step)
    (harrive : ∀ p validatorPassed, .arrive p validatorPassed ∈ steps → SignedAs c account v columns p.id p.reportHash)
    (h : Always (step c.keccak env) (Permitted c.keccak mined registry env) (start db) steps)
    (api : ProofEnv) (parse : String → Option Json) (outcomesOf : SignedColumns → List ReceiptOutcomeRow)
    (getBlock : Nat → Option Js.Date) (times : BlockTimes) (hash : Hex) (report : Report) (receipt : Receipt) :
    let db' := (run (step c.keccak env) (start db) steps).db
    reportOf db' hash = some report →
    (prismaReceiptReader api parse columns outcomesOf getBlock times db' hash).1 = some (.ok receipt) →
    (verifyReceiptOffline v receipt hash account.address.toString).map Check.ok =
        [true, true, report.commitId.isSome] ∧
      (report.commitId.isSome → ∀ rpc, HonestNode mined rpc → ∀ out,
        verifyReceiptOnChain rpc receipt registry = .ok out → ∀ check ∈ out.checks, check.ok = true) := by
  intro db' hr hreceipt
  have hmem : report ∈ db'.reports := List.mem_of_find?_eq_some hr
  have hhash : report.reportHash = hash := by simpa using List.find?_some hr
  have hsigned : SignedAs c account v columns report.id hash :=
    hhash ▸ run_reports (P := SignedAs c account v columns) hstart harrive report hmem
  have hlower : hash.toLowerCase = hash := by
    obtain ⟨content, -, rfl, -⟩ := hsigned
    simp [LaunchAuditor.Report.reportHash, keccak256]
  have hsound := run_sound hdb.sound h
  simp only [prismaReceiptReader, hr, Option.some.injEq] at hreceipt
  obtain ⟨hjson, hsig, hproof, hroot, htx, hblock⟩ := buildReceipt_parts hreceipt
  cases hid : report.commitId with
  | none =>
    have hnone : commitOf db' report = none := by simp [commitOf, hid]
    simp only [receiptRowOf, hnone, Option.map_none, Option.bind_none] at hproof hroot
    refine ⟨offline_ok hagree hsigned hjson hsig ?_, by simp⟩
    intro json hhash
    simp [merkleCheck, hproof]
  | some id =>
    obtain ⟨row, hcommit, hashes, hcover, hin⟩ := hsound.linked report hmem id hid
    obtain ⟨leaf, hleaf, hfold⟩ := leafOf_covers hcover (hhash ▸ hin) hlower
    have hof : commitOf db' report = some row := by rw [commitOf, hid]; exact hcommit
    unfold leafOf at hleaf
    simp only [receiptRowOf, hof, Option.map_some, Option.bind_some, Option.getD_some, hhash, hlower, hleaf] at hproof hroot htx hblock
    refine ⟨offline_ok hagree hsigned hjson hsig ?_, ?_⟩
    · intro json hrecomputed
      rw [hproof, hroot]
      exact merkleCheck_ok hfold hrecomputed
    · intro _ rpc hnode out hout
      exact onChain_ok hnode (hsound.emitted row (List.mem_of_find?_eq_some hcommit)) hblock hroot htx hout

section Sample

/-- What is signed of a report, by its forecaster. -/
def textBy (forecaster : String) : String :=
  "\x7b\"blockPin\":\x7b\"hash\":\"0x0000000000000000000000000000000000000000000000000000000000000001\",\"number\":5," ++
  "\"timestamp\":\"1970-01-01T00:00:01.000Z\"\x7d,\"chainId\":4663,\"coverage\":[],\"forecaster\":\"" ++ forecaster ++
  "\",\"forecasterVersion\":\"v0\",\"launchId\":null,\"outcomeRuleVersion\":\"v1\",\"probabilities\":\x7b\x7d," ++
  "\"reportTime\":\"1970-01-01T00:00:01.000Z\",\"tokenAddress\":\"0x0000000000000000000000000000000000000001\"," ++
  "\"trigger\":\"on_demand\",\"version\":\"report/v0\"\x7d"

def contentBy (forecaster : Db.ForecasterKind) : Db.ReportContent :=
  ⟨4663, 1, none, 1000, .on_demand, ⟨5, 1, 1000⟩, forecaster, "v0", [], [], none, none⟩

/-- The canonicalizer on these contents. -/
def textCanonical : Canonical := ⟨fun content => textBy content.forecaster.text, sumDigest⟩

def sampleAccount : Account := ⟨[.ofNibble 5], fun _ => [.ofNibble 6]⟩

def textVerifier : Verifier where
  keccak := sumDigest
  parse s := ([.det_v0, .det_v1].find? fun f => decide (textBy (Db.ForecasterKind.text f) = s)).map fun f =>
    parsedContent (contentBy f)
  dateParse := Js.dateParse
  recover _ _ := .ok sampleAccount.address.toString

theorem toList_loop (bs : ByteArray) (i : Nat) (r : List UInt8) :
    ByteArray.toList.loop bs i r = r.reverse ++ bs.data.toList.drop i := by
  fun_induction ByteArray.toList.loop bs i r with
  | case1 i r h ih =>
    have hi : i < bs.data.toList.length := h
    have hget : bs.get! i = bs.data.toList[i] := getElem!_pos bs.data i h
    rw [ih, hget, List.reverse_cons, List.append_assoc, List.singleton_append, ← List.drop_eq_getElem_cons]
  | case2 i r h =>
    have hle : bs.data.toList.length ≤ i := Nat.not_lt.mp h
    rw [List.drop_eq_nil_of_le hle, List.append_nil]

theorem text_hash (json : String) :
    keccak256 sumDigest (stringToHex json) = Hex.bytesToHex (sumDigest json.toUTF8.data.toList).val := by
  rw [keccak256, stringToHex, Hex.hexToBytes_bytesToHex, ByteArray.toList, toList_loop]
  rfl

def forecasterOf (id : String) : Db.ForecasterKind := if id = "a" then .det_v0 else .det_v1

def columnsBy (id : String) : SignedColumns :=
  (signedColumns textCanonical sampleAccount (contentBy (forecasterOf id))).getD ⟨"", none, none, 0, "", ⟨0, by decide⟩, ""⟩

theorem signedAs_by {id : String} {hash : Hex}
    (hhash : hash = keccak256 sumDigest (stringToHex (textBy (forecasterOf id).text)))
    (hparse : textVerifier.parse (textBy (forecasterOf id).text) = some (parsedContent (contentBy (forecasterOf id)))) :
    SignedAs textCanonical sampleAccount textVerifier columnsBy id hash := by
  refine ⟨contentBy (forecasterOf id), ?_, hhash, hparse⟩
  have ht : Js.isTime (contentBy (forecasterOf id)).reportTime = true := rfl
  have hsome : (signedColumns textCanonical sampleAccount (contentBy (forecasterOf id))).isSome = true := by
    simp only [signedColumns, commitmentOf, ht, Js.dateParse_toISOString ht, dite_true]
    rfl
  obtain ⟨row, hrow⟩ := Option.isSome_iff_exists.mp hsome
  simp [columnsBy, hrow]

theorem twoReports_signed : ∀ r ∈ twoReports.reports,
    SignedAs textCanonical sampleAccount textVerifier columnsBy r.id r.reportHash := by
  have hne : textBy "det_v0" ≠ textBy "det_v1" := by decide +kernel
  intro r hr
  simp only [twoReports, List.mem_cons, List.not_mem_nil, or_false] at hr
  rcases hr with rfl | rfl
  · refine signedAs_by ?_ (by simp [textVerifier, forecasterOf])
    rw [text_hash]
    decide +kernel
  · refine signedAs_by ?_ (by simp [textVerifier, forecasterOf, Db.ForecasterKind.text, hne])
    rw [text_hash]
    decide +kernel

/-- The receipts of two reports of one batch. -/
theorem receipts_verify_two :
    let db' := (run (step sumDigest pairEnv) (start twoReports) heldThenSettled).db
    ∀ hash ∈ [sumHash 0x40, sumHash 0x41], ∃ receipt,
      (prismaReceiptReader ⟨some [], ""⟩ (fun _ => none) columnsBy (fun _ => []) (fun _ => none) [] db' hash).1 = some (.ok receipt) ∧
      (verifyReceiptOffline textVerifier receipt hash sampleAccount.address.toString).map Check.ok =
        [true, true, true] := by
  intro db' hash hmem
  obtain ⟨report, hr, hid⟩ := Option.map_eq_some_iff.mp (heldThenSettled_linked hash hmem)
  have hread : ∃ receipt, (prismaReceiptReader ⟨some [], ""⟩ (fun _ => none) columnsBy (fun _ => []) (fun _ => none) []
      db' hash).1 = some (.ok receipt) := by
    simp only [prismaReceiptReader, db', hr]
    exact ⟨_, rfl⟩
  obtain ⟨receipt, hreceipt⟩ := hread
  refine ⟨receipt, hreceipt, ?_⟩
  have h := receipts_verify textCanonical sampleAccount textVerifier ⟨rfl, rfl, fun _ => rfl⟩ columnsBy pairMined [] pairEnv
    twoReports twoReports_fresh twoReports_signed heldThenSettled (by simp [heldThenSettled]) heldThenSettled_permitted
    ⟨some [], ""⟩ (fun _ => none) (fun _ => []) (fun _ => none) [] hash report receipt hr hreceipt
  rw [h.1, hid]
  rfl

end Sample

end LaunchAuditor.Proofs.ServedReceipts
