import LaunchAuditor.Lib.JsonRoundTrip
import LaunchAuditor.Metabolism.TokenStore

namespace LaunchAuditor.Proofs.TokenStore
open Metabolism
open Js (trim isTrimmed)

/-- Characters that neither a trim takes off nor a split by points parts. -/
def Plain (cs : List Char) : Prop := ∀ c ∈ cs, isTrimmed c = false ∧ c ≠ '.'

instance : DecidablePred Plain := fun cs =>
  decidable_of_iff (cs.all fun c => !isTrimmed c && c != '.') (by simp [Plain])

theorem dropWhile_trimmed {before cs : List Char} (hbefore : ∀ c ∈ before, isTrimmed c)
    (hcs : ∀ c ∈ cs.head?, isTrimmed c = false) : (before ++ cs).dropWhile isTrimmed = cs := by
  rw [List.dropWhile_append_of_pos hbefore]
  cases cs with
  | nil => rfl
  | cons c cs => rw [List.dropWhile_cons_of_neg (by simp [hcs c rfl])]

/-- Around characters of another kind. -/
theorem trim_around {before cs after : List Char} (hbefore : ∀ c ∈ before, isTrimmed c) (hafter : ∀ c ∈ after, isTrimmed c)
    (hne : cs ≠ []) (hcs : ∀ c ∈ cs, isTrimmed c = false) : trim (before ++ (cs ++ after)) = cs := by
  have hleft : (before ++ (cs ++ after)).dropWhile isTrimmed = cs ++ after := by
    apply dropWhile_trimmed hbefore
    intro c hc
    rw [List.head?_append_of_ne_nil _ hne] at hc
    exact hcs c (List.mem_of_mem_head? hc)
  have hright : (cs ++ after).reverse.dropWhile isTrimmed = cs.reverse := by
    rw [List.reverse_append]
    apply dropWhile_trimmed
    · exact fun c hc => hafter c (List.mem_reverse.mp hc)
    · exact fun c hc => hcs c (List.mem_reverse.mp (List.mem_of_mem_head? hc))
  rw [trim, hleft, List.rdropWhile, hright, List.reverse_reverse]

theorem base64_table : Plain ('=' :: '+' :: '/' :: Base64.alphabet) := by decide

theorem base64_plain {c : Char} (h : (Base64.value c).isSome ∨ c = '=') : isTrimmed c = false ∧ c ≠ '.' := by
  apply base64_table
  rcases h with h | rfl
  · rw [Base64.value] at h
    split_ifs at h with hplus hslash
    · simp [hplus]
    · simp [hslash]
    · rw [List.findIdx?_isSome, List.any_eq_true] at h
      obtain ⟨d, hd, he⟩ := h
      rw [← eq_of_beq he]
      simp [hd]
  · simp

section Wire
variable (P : Platform) (key : EncryptionKey) (iv : Iv)

theorem encryptToken_plain (text : List Char) : Plain (encryptToken P text key iv) :=
  fun c hc => base64_plain (Base64.encodePadded_chars _ c hc)

theorem encryptToken_ne_nil (text : List Char) : encryptToken P text key iv ≠ [] := by
  apply Base64.encodePadded_ne_nil
  intro hnil
  have hlength := congrArg List.length hnil
  simp only [List.length_append, iv.length_eq, IV_LEN, List.length_nil] at hlength
  omega

/-- The wire is taken apart where it was put together. -/
theorem decryptToken_encryptToken {text : List Char} (h : text ≠ []) :
    decryptToken P (encryptToken P text key iv) key = .ok text := by
  have hiv := iv.length_eq
  have htag := P.tag_length key iv text
  have hdata := List.length_pos_iff.mpr (P.data_ne_nil key iv text h)
  have hfirst : (iv.bytes ++ (P.cipher key iv text).1 ++ (P.cipher key iv text).2).take IV_LEN = iv.bytes := by
    rw [List.append_assoc, ← hiv, List.take_left']
    rfl
  have hrest : (iv.bytes ++ (P.cipher key iv text).1 ++ (P.cipher key iv text).2).drop IV_LEN =
      (P.cipher key iv text).1 ++ (P.cipher key iv text).2 := by
    rw [List.append_assoc, ← hiv, List.drop_left']
    rfl
  have hlast : (iv.bytes ++ (P.cipher key iv text).1 ++ (P.cipher key iv text).2).drop (IV_LEN + TAG_LEN) =
      (P.cipher key iv text).2 := by
    apply List.drop_left'
    rw [List.length_append, hiv, htag]
  have hlong : ¬ (iv.bytes ++ (P.cipher key iv text).1 ++ (P.cipher key iv text).2).length < IV_LEN + TAG_LEN + 1 := by
    simp only [List.length_append, hiv, htag]
    omega
  have htake : ((P.cipher key iv text).1 ++ (P.cipher key iv text).2).take TAG_LEN = (P.cipher key iv text).1 := by
    rw [← htag, List.take_left']
    rfl
  simp only [decryptToken, encryptToken, Base64.decode_encodePadded, dif_neg hlong, hfirst, hrest, hlast, htake]
  rw [P.decipher_cipher]

/-- What was written is read as JSON leaves it. -/
theorem readOAuthBlob_written {disk : Disk} {path : String} {members : Members}
    (h : disk.entry path = some (.file (encryptToken P (JsonValue.object members : OrbioOAuthBlob).stringify key iv ++ ['\n']))) :
    readOAuthBlob P disk path key = .ok (JsonValue.object members : OrbioOAuthBlob).normal := by
  obtain ⟨text, htext⟩ : ∃ text, (JsonValue.object members : OrbioOAuthBlob).stringify = text := ⟨_, rfl⟩
  have hparse := JsonValue.parse_stringify (JsonValue.object members : OrbioOAuthBlob)
  have hstart : text ≠ [] := by
    rw [← htext]
    simp [JsonValue.stringify]
  rw [htext] at h hparse
  have hne := encryptToken_ne_nil P key iv text
  have htrim : trim ([] ++ (encryptToken P text key iv ++ ['\n'])) = encryptToken P text key iv :=
    trim_around (by simp) (by simp [isTrimmed]) hne (fun c hc => (encryptToken_plain P key iv _ c hc).1)
  rw [List.nil_append] at htrim
  simp only [readOAuthBlob, h, htrim, hne, if_false, decryptToken_encryptToken P key iv hstart, bind, Except.bind, jsonParse,
    hparse]
  rfl

end Wire

section Files
variable {disk : Disk} {path p : String} {e : Entry}

/-- No directory is made where something stands. -/
theorem mkdir_entry (dir : String) (h : disk.entry p = some e) : (disk.mkdir dir).entry p = some e := by
  simp only [Disk.mkdir, h, Option.getD_some]
  split <;> rfl

theorem mkdir_no_file (dir : String) {text : List Char} (h : disk.entry p = none) :
    (disk.mkdir dir).entry p ≠ some (.file text) := by
  simp only [Disk.mkdir, h, Option.getD_none]
  split <;> simp

theorem write_entry (text : List Char) : (disk.write path text).entry path = some (.file text) := if_pos rfl

theorem write_entry_ne {text : List Char} (h : p ≠ path) : (disk.write path text).entry p = disk.entry p := if_neg h

/-- A write throws before it or is done. -/
theorem writeOAuthBlob_cases (P : Platform) (disk : Disk) (path : String) (key : EncryptionKey) (blob : Members) (now : Int)
    (iv : Iv) :
    (∃ message disk', writeOAuthBlob P disk path key blob now iv = (.error message, disk') ∧
      (disk' = disk ∨ disk' = disk.mkdir (Disk.dirname path))) ∨
    writeOAuthBlob P disk path key blob now iv =
      (.ok (), (disk.mkdir (Disk.dirname path)).write path (encryptToken P (stamped blob now).stringify key iv ++ ['\n'])) := by
  simp only [writeOAuthBlob]
  split
  · exact Or.inl ⟨_, _, rfl, Or.inl rfl⟩
  · split
    · exact Or.inl ⟨_, _, rfl, Or.inr rfl⟩
    · exact Or.inr rfl

theorem writeOAuthBlob_ok {P : Platform} {disk : Disk} {path : String} {key : EncryptionKey} {blob : Members} {now : Int}
    {iv : Iv} (hmkdir : disk.mkdirError (Disk.dirname path) = none) (hwrite : disk.writeError path = none) :
    writeOAuthBlob P disk path key blob now iv =
      (.ok (), (disk.mkdir (Disk.dirname path)).write path (encryptToken P (stamped blob now).stringify key iv ++ ['\n'])) := by
  simp only [writeOAuthBlob, hmkdir, Disk.mkdir, hwrite]

end Files

end LaunchAuditor.Proofs.TokenStore
