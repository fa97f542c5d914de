import LaunchAuditor.Metabolism.SessionSeed
import LaunchAuditor.Proofs.TokenStore

namespace LaunchAuditor.Proofs.Seeding
open Metabolism TokenStore
open Js (trim isTrimmed)
open JsonString (ofString)

theorem property_object {blob v : OrbioOAuthBlob} {name : String} (h : property blob name = some v) :
    ∃ members, blob = .object members ∧ JsonValue.lookup members (ofString name) = some v := by
  cases blob with
  | object members => exact ⟨members, rfl, h⟩
  | _ => cases h

/-- The registration and the tokens, without a refresh token. -/
theorem sessionOnly_ok {blob : OrbioOAuthBlob} {session : Members} (h : sessionOnly blob = .ok session) :
    ∃ client tokens, property blob "clientInformation" = some client ∧ truthy (some client) ∧
      property blob "tokens" = some (.object tokens) ∧ truthy (property (.object tokens) "access_token") ∧
      session = [(ofString "clientInformation", client),
        (ofString "tokens", .object (tokens.filter fun m => m.1 ≠ ofString "refresh_token"))] := by
  unfold sessionOnly at h
  split at h
  · cases h
  · split at h
    · rename_i tokens htokens
      split at h
      · rename_i haccess
        split at h
        · rename_i client hclient
          split at h
          · rename_i htruthy
            cases h
            exact ⟨client, tokens, hclient, htruthy, htokens, haccess, rfl⟩
          · cases h
        · cases h
      · cases h
    · cases h

theorem sessionOnly_of {blob client : OrbioOAuthBlob} {tokens : Members} (hclient : property blob "clientInformation" = some client)
    (htruthy : truthy (some client)) (htokens : property blob "tokens" = some (.object tokens))
    (haccess : truthy (property (.object tokens) "access_token")) :
    sessionOnly blob = .ok [(ofString "clientInformation", client),
      (ofString "tokens", .object (tokens.filter fun m => m.1 ≠ ofString "refresh_token"))] := by
  obtain ⟨members, rfl, _⟩ := property_object hclient
  simp only [sessionOnly, htokens, haccess, hclient, htruthy, if_true]

theorem keys_differ : ofString "access_token" ≠ ofString "refresh_token" ∧
    ofString "clientInformation" ≠ ofString "tokens" := by decide

/-- What was stripped is not stripped further. -/
theorem sessionOnly_again {blob : OrbioOAuthBlob} {session : Members} (h : sessionOnly blob = .ok session) :
    sessionOnly (.object session) = .ok session := by
  obtain ⟨client, tokens, _, htruthy, _, haccess, rfl⟩ := sessionOnly_ok h
  have htokens : property (.object [(ofString "clientInformation", client),
      (ofString "tokens", .object (tokens.filter fun m => m.1 ≠ ofString "refresh_token"))]) "tokens" =
      some (.object (tokens.filter fun m => m.1 ≠ ofString "refresh_token")) := by
    simp [property, JsonValue.lookup, keys_differ.2]
  have hkept : truthy (property (.object (tokens.filter fun m => m.1 ≠ ofString "refresh_token")) "access_token") := by
    rw [property, JsonValue.lookup_filter keys_differ.1]
    exact haccess
  rw [sessionOnly_of (by simp [property, JsonValue.lookup]) htruthy htokens hkept]
  simp

theorem sessionOnly_proper {blob : OrbioOAuthBlob} {session : Members} (hblob : blob.proper)
    (h : sessionOnly blob = .ok session) : (JsonValue.object session : OrbioOAuthBlob).proper := by
  obtain ⟨client, tokens, hclient, _, htokens, _, rfl⟩ := sessionOnly_ok h
  obtain ⟨members, rfl, hlookup⟩ := property_object hclient
  have hrest := JsonValue.proper_filter (JsonValue.proper_lookup hblob htokens) fun m => m.1 ≠ ofString "refresh_token"
  apply JsonValue.proper_object.mpr
  refine ⟨?_, ?_⟩
  · have hafter : JsonValue.before (ofString "tokens") (ofString "clientInformation") = false := by decide
    simp [JsonValue.Ordered, keys_differ.2, hafter]
  · intro m hm
    rcases List.mem_pair.mp hm with rfl | rfl
    · exact JsonValue.proper_lookup hblob hlookup
    · exact hrest

def stamp (now : Int) : List UInt16 × OrbioOAuthBlob := (ofString "updatedAt", .string (ofString (Js.toISOString now)))

theorem stamped_session {blob : OrbioOAuthBlob} {session : Members} (h : sessionOnly blob = .ok session) (now : Int) :
    stamped session now = .object (session ++ [stamp now]) := by
  obtain ⟨client, tokens, _, _, _, _, rfl⟩ := sessionOnly_ok h
  have hkeys : ∀ k ∈ [ofString "clientInformation", ofString "tokens"],
      k ≠ ofString "updatedAt" ∧ JsonValue.before (ofString "updatedAt") k = false := by decide
  rw [stamped, JsonValue.put_last]
  · rfl
  · intro m hm
    rcases List.mem_pair.mp hm with rfl | rfl
    · exact hkeys _ (by simp)
    · exact hkeys _ (by simp)

theorem digit_table : ∀ d < 16, isTrimmed (Nat.digitChar d) = false ∧ Nat.digitChar d ≠ '.' := by decide

theorem fingerprint_plain (P : Platform) (key : EncryptionKey) : Plain (encryptionKeyFingerprint P key) := by
  intro c hc
  obtain ⟨b, _, hb⟩ := List.mem_flatMap.mp (List.mem_of_mem_take hc)
  have hbound := b.toNat_lt
  rcases List.mem_pair.mp hb with rfl | rfl
  · exact digit_table _ (by omega)
  · exact digit_table _ (by omega)

def seedText (P : Platform) (key : EncryptionKey) (wire : List Char) : List Char :=
  SEED_VERSION.toList ++ '.' :: (encryptionKeyFingerprint P key ++ '.' :: wire)

theorem version_plain : Plain SEED_VERSION.toList := by decide

theorem seedText_ne_nil (P : Platform) (key : EncryptionKey) (wire : List Char) : seedText P key wire ≠ [] := by
  simp [seedText]

theorem seedText_untrimmed (P : Platform) (key : EncryptionKey) {wire : List Char} (h : Plain wire) :
    ∀ c ∈ seedText P key wire, isTrimmed c = false := by
  intro c hc
  simp only [seedText, List.mem_append, List.mem_cons] at hc
  rcases hc with hc | rfl | hc | rfl | hc
  · exact (version_plain c hc).1
  · rfl
  · exact (fingerprint_plain P key c hc).1
  · rfl
  · exact (h c hc).1

theorem splitOn_plain {cs : List Char} (h : Plain cs) (rest : List Char) :
    (cs ++ '.' :: rest).splitOn '.' = cs :: rest.splitOn '.' := by
  rw [List.splitOn_eq_splitOnP, List.splitOnP_append_cons_of_forall_mem _ '.' rfl, List.splitOn_eq_splitOnP]
  intro c hc
  exact beq_eq_false_iff_ne.mpr (h c hc).2

theorem splitOn_seedText (P : Platform) (key : EncryptionKey) {wire : List Char} (h : Plain wire) :
    (seedText P key wire).splitOn '.' = [SEED_VERSION.toList, encryptionKeyFingerprint P key, wire] := by
  rw [seedText, splitOn_plain version_plain, splitOn_plain (fingerprint_plain P key),
    List.splitOn_eq_singleton fun hc => (h '.' hc).2 rfl]

theorem buildSessionSeed_ok {P : Platform} {blob : OrbioOAuthBlob} {key : EncryptionKey} {iv : Iv} {seed : List Char}
    (h : buildSessionSeed P blob key iv = .ok seed) :
    ∃ session, sessionOnly blob = .ok session ∧
      seed = seedText P key (encryptToken P (JsonValue.object session : OrbioOAuthBlob).stringify key iv) := by
  rw [buildSessionSeed] at h
  cases hsession : sessionOnly blob with
  | error message =>
    rw [hsession] at h
    cases h
  | ok session =>
    rw [hsession] at h
    cases h
    exact ⟨session, rfl, rfl⟩

/-- The seed of a session opens to it. -/
theorem openSeed_encrypted {P : Platform} {blob : OrbioOAuthBlob} {session : Members} (hblob : blob.proper)
    (h : sessionOnly blob = .ok session) (key : EncryptionKey) (iv : Iv) :
    openSeed P (encryptToken P (JsonValue.object session : OrbioOAuthBlob).stringify key iv) key = .ok session := by
  have hparse := JsonValue.parse_stringify_of_proper (sessionOnly_proper hblob h)
  have hstart : (JsonValue.object session : OrbioOAuthBlob).stringify ≠ [] := by simp [JsonValue.stringify]
  simp only [openSeed, decryptToken_encryptToken P key iv hstart, bind, Except.bind, jsonParse, hparse]
  exact sessionOnly_again h

/-- What opens is the session of some blob. -/
theorem openSeed_ok {P : Platform} {wire : List Char} {key : EncryptionKey} {session : Members}
    (h : openSeed P wire key = .ok session) : ∃ blob, sessionOnly blob = .ok session := by
  simp only [openSeed, bind, Except.bind] at h
  split at h
  · cases h
  · split at h
    · cases h
    · exact ⟨_, h⟩

section Run
variable (P : Platform) (env : SeedEnv) (cwd : List String) (now : Int) (iv : Iv) (disk : Disk)

/-- Nothing is written, directories apart, or the session that the seed opens to is. -/
theorem seed_cases :
    (∃ reason disk', seedTokenStoreFromEnv P env cwd now iv disk = (notSeeded reason, disk') ∧
      (disk' = disk ∨ ∃ dir, disk' = disk.mkdir dir)) ∨
    (∃ key wire session reason dir, loadEncryptionKey env.TOKEN_ENCRYPTION_KEY = .ok key ∧
      openSeed P wire key = .ok session ∧ disk.entry (tokenStorePath env disk cwd) = none ∧
      seedTokenStoreFromEnv P env cwd now iv disk =
        (.ok { seeded := true, reason }, (disk.mkdir dir).write (tokenStorePath env disk cwd)
          (encryptToken P (stamped session now).stringify key iv ++ ['\n']))) := by
  have hstay : ∀ reason, ∃ reason' disk', ((notSeeded reason, disk) : Except String SeedResult × Disk) = (notSeeded reason', disk') ∧
      (disk' = disk ∨ ∃ dir, disk' = disk.mkdir dir) := fun reason => ⟨reason, disk, rfl, Or.inl rfl⟩
  simp only [seedTokenStoreFromEnv]
  split
  · exact Or.inl (hstay _)
  · split
    · exact Or.inl (hstay _)
    · rename_i habsent
      have hnone : disk.entry (tokenStorePath env disk cwd) = none := by simpa [Disk.existsSync] using habsent
      split
      · exact Or.inl (hstay _)
      · rename_i key hkey
        split
        · rename_i version wantFp wire _
          split
          · exact Or.inl (hstay _)
          · split
            · exact Or.inl (hstay _)
            · split
              · exact Or.inl (hstay _)
              · rename_i session hopen
                rcases writeOAuthBlob_cases P disk (tokenStorePath env disk cwd) key session now iv with
                  ⟨message, disk', hwrite, hdisk⟩ | hwrite
                · rw [hwrite]
                  exact Or.inl ⟨_, disk', rfl, hdisk.imp_right fun h => ⟨_, h⟩⟩
                · rw [hwrite]
                  exact Or.inr ⟨key, wire, session, _, _, hkey, hopen, hnone, rfl⟩
        · exact Or.inl (hstay _)

variable {P env cwd now iv disk}

/-- What stands at a path stays there. -/
theorem seed_frame {p : String} {e : Entry} (h : disk.entry p = some e) :
    (seedTokenStoreFromEnv P env cwd now iv disk).2.entry p = some e := by
  rcases seed_cases P env cwd now iv disk with ⟨reason, disk', hrun, rfl | ⟨dir, rfl⟩⟩ |
    ⟨key, wire, session, reason, dir, _, _, hnone, hrun⟩
  · rw [hrun]
    exact h
  · rw [hrun]
    exact mkdir_entry dir h
  · have hne : p ≠ tokenStorePath env disk cwd := by
      rintro rfl
      rw [hnone] at h
      cases h
    rw [hrun, write_entry_ne hne]
    exact mkdir_entry dir h

/-- A store that is new holds a stamped session. -/
theorem seed_written {text : List Char} (habsent : disk.entry (tokenStorePath env disk cwd) = none)
    (h : (seedTokenStoreFromEnv P env cwd now iv disk).2.entry (tokenStorePath env disk cwd) = some (.file text)) :
    ∃ key blob session, loadEncryptionKey env.TOKEN_ENCRYPTION_KEY = .ok key ∧ sessionOnly blob = .ok session ∧
      text = encryptToken P (JsonValue.object (session ++ [stamp now]) : OrbioOAuthBlob).stringify key iv ++ ['\n'] := by
  rcases seed_cases P env cwd now iv disk with ⟨reason, disk', hrun, rfl | ⟨dir, rfl⟩⟩ |
    ⟨key, wire, session, reason, dir, hkey, hopen, _, hrun⟩
  · rw [hrun, habsent] at h
    cases h
  · rw [hrun] at h
    exact absurd h (mkdir_no_file dir habsent)
  · obtain ⟨blob, hsession⟩ := openSeed_ok hopen
    rw [hrun, write_entry] at h
    refine ⟨key, blob, session, hkey, hsession, ?_⟩
    rw [← stamped_session hsession now]
    cases h
    rfl

end Run

theorem trimmed_around {before cs after : List Char} (hwhite : ∀ c ∈ before ++ after, isTrimmed c) (hne : cs ≠ [])
    (hcs : ∀ c ∈ cs, isTrimmed c = false) : trimmed (some (String.ofList (before ++ (cs ++ after)))) = some cs := by
  have htrim : trim (before ++ (cs ++ after)) = cs :=
    trim_around (fun c hc => hwhite c (List.mem_append_left _ hc)) (fun c hc => hwhite c (List.mem_append_right _ hc)) hne hcs
  simp [trimmed, String.toList_ofList, htrim, hne]

/-- The seed of a session, where the store can be written. -/
theorem seed_built {P : Platform} {env : SeedEnv} {cwd : List String} {disk : Disk} {blob : OrbioOAuthBlob} {session : Members}
    {key : EncryptionKey} {ivOfSeed : Iv} (hblob : blob.proper) (hsession : sessionOnly blob = .ok session)
    (henv : trimmed env.ORBIO_SESSION_SEED =
      some (seedText P key (encryptToken P (JsonValue.object session : OrbioOAuthBlob).stringify key ivOfSeed)))
    (hkey : loadEncryptionKey env.TOKEN_ENCRYPTION_KEY = .ok key) (habsent : disk.entry (tokenStorePath env disk cwd) = none)
    (hmkdir : disk.mkdirError (Disk.dirname (tokenStorePath env disk cwd)) = none)
    (hwrite : disk.writeError (tokenStorePath env disk cwd) = none) (now : Int) (iv : Iv) :
    ∃ reason dir, seedTokenStoreFromEnv P env cwd now iv disk = (.ok { seeded := true, reason },
      (disk.mkdir dir).write (tokenStorePath env disk cwd)
        (encryptToken P (JsonValue.object (session ++ [stamp now]) : OrbioOAuthBlob).stringify key iv ++ ['\n'])) := by
  have hsplit := splitOn_seedText P key
    (encryptToken_plain P key ivOfSeed (JsonValue.object session : OrbioOAuthBlob).stringify)
  have hopen := openSeed_encrypted (P := P) hblob hsession key ivOfSeed
  have hstore : writeOAuthBlob P disk (tokenStorePath env disk cwd) key session now iv = _ := writeOAuthBlob_ok hmkdir hwrite
  rw [stamped_session hsession now] at hstore
  refine ⟨s!"wrote a session-only token store to {tokenStorePath env disk cwd} (no gateway key, no refresh token)",
    Disk.dirname (tokenStorePath env disk cwd), ?_⟩
  simp only [seedTokenStoreFromEnv, henv, Disk.existsSync, habsent, Option.isSome_none, Bool.false_eq_true, if_false, hkey,
    hsplit, ne_eq, not_true_eq_false, hopen, hstore]

theorem stored_ordered (client tokens : OrbioOAuthBlob) (now : Int) :
    JsonValue.Ordered [(ofString "clientInformation", client), (ofString "tokens", tokens), stamp now] := by
  have hkeys : (ofString "clientInformation" ≠ ofString "tokens" ∧
      JsonValue.before (ofString "tokens") (ofString "clientInformation") = false) ∧
      (ofString "clientInformation" ≠ ofString "updatedAt" ∧
        JsonValue.before (ofString "updatedAt") (ofString "clientInformation") = false) ∧
      ofString "tokens" ≠ ofString "updatedAt" ∧ JsonValue.before (ofString "updatedAt") (ofString "tokens") = false := by
    decide
  simp [JsonValue.Ordered, stamp, hkeys]

/-- Registration, tokens and time, and no refresh token. -/
theorem normal_stored {blob : OrbioOAuthBlob} {session : Members} (h : sessionOnly blob = .ok session) (now : Int) :
    ∃ client tokens, (JsonValue.object (session ++ [stamp now]) : OrbioOAuthBlob).normal =
        .object [(ofString "clientInformation", client), (ofString "tokens", .object tokens), stamp now] ∧
      JsonValue.lookup tokens (ofString "refresh_token") = none := by
  obtain ⟨client, tokens, _, _, _, _, rfl⟩ := sessionOnly_ok h
  refine ⟨client.normal, JsonValue.fromMembers (JsonValue.normalMembers
    (tokens.filter fun m => m.1 ≠ ofString "refresh_token")), ?_, ?_⟩
  · have hordered := stored_ordered client.normal (.object (JsonValue.fromMembers (JsonValue.normalMembers
      (tokens.filter fun m => m.1 ≠ ofString "refresh_token")))) now
    exact congrArg JsonValue.object (JsonValue.fromMembers_of_ordered hordered)
  · apply JsonValue.lookup_none
    intro hmem
    have hkeys := JsonValue.fromMembers_keys hmem
    rw [JsonValue.normalMembers_keys] at hkeys
    obtain ⟨m, hm, hkey⟩ := List.mem_map.mp hkeys
    have hkept := (List.mem_filter.mp hm).2
    simp [hkey] at hkept

theorem normal_of_session {blob : OrbioOAuthBlob} {session : Members} (hblob : blob.proper)
    (h : sessionOnly blob = .ok session) (now : Int) :
    (JsonValue.object (session ++ [stamp now]) : OrbioOAuthBlob).normal = .object (session ++ [stamp now]) := by
  apply JsonValue.normal_of_proper
  have hvalues := (JsonValue.proper_object.mp (sessionOnly_proper hblob h)).2
  obtain ⟨client, tokens, _, _, _, _, rfl⟩ := sessionOnly_ok h
  refine JsonValue.proper_object.mpr ⟨stored_ordered _ _ now, ?_⟩
  intro m hm
  rcases List.mem_append.mp hm with hm | hm
  · exact hvalues m hm
  · rw [List.mem_singleton.mp hm]
    rfl

/-- An absent store and a directory are not read as an object with a field. -/
theorem file_of_read {P : Platform} {disk : Disk} {path : String} {key : EncryptionKey} {session : Members}
    {m : List UInt16 × OrbioOAuthBlob} (h : readOAuthBlob P disk path key = .ok (.object (session ++ [m]))) :
    ∃ text, disk.entry path = some (.file text) := by
  unfold readOAuthBlob at h
  split at h
  · simp at h
  · cases h
  · rename_i text hfile
    exact ⟨text, hfile⟩

/-- Nothing but a session: none of the fields that a seed must not bring. -/
structure Stripped (blob : OrbioOAuthBlob) : Prop where
  gatewayKey : property blob "gatewayKey" = none
  gatewayKeyPrefix : property blob "gatewayKeyPrefix" = none
  spendBaseline : property blob "spendBaseline" = none
  codeVerifier : property blob "codeVerifier" = none
  refreshToken : ∃ tokens, property blob "tokens" = some tokens ∧ property tokens "refresh_token" = none

theorem stripped_stored {client : OrbioOAuthBlob} {tokens : Members} {now : Int}
    (h : JsonValue.lookup tokens (ofString "refresh_token") = none) :
    Stripped (.object [(ofString "clientInformation", client), (ofString "tokens", .object tokens), stamp now]) := by
  have hnone : ∀ name ∈ ["gatewayKey", "gatewayKeyPrefix", "spendBaseline", "codeVerifier"],
      ofString name ∉ [ofString "clientInformation", ofString "tokens", ofString "updatedAt"] := by decide
  have habsent : ∀ name ∈ ["gatewayKey", "gatewayKeyPrefix", "spendBaseline", "codeVerifier"],
      property (.object [(ofString "clientInformation", client), (ofString "tokens", .object tokens), stamp now]) name = none :=
    fun name hname => JsonValue.lookup_none (hnone name hname)
  refine ⟨habsent _ (by simp), habsent _ (by simp), habsent _ (by simp), habsent _ (by simp), .object tokens, ?_, h⟩
  simp [property, JsonValue.lookup, keys_differ.2]

/-- Seeding is total, leaves every entry that is there, writes nothing but sessions, and gives a
session that was made a seed back with the time of the write. -/
theorem seeding_plants_no_key (P : Platform) (env : SeedEnv) (cwd : List String) (now : Int) (iv : Iv) (disk : Disk) :
    (∃ result, (seedTokenStoreFromEnv P env cwd now iv disk).1 = .ok result) ∧
    (∀ p e, disk.entry p = some e → (seedTokenStoreFromEnv P env cwd now iv disk).2.entry p = some e) ∧
    (∀ text, disk.entry (tokenStorePath env disk cwd) = none →
      (seedTokenStoreFromEnv P env cwd now iv disk).2.entry (tokenStorePath env disk cwd) = some (.file text) →
      ∃ key blob, loadEncryptionKey env.TOKEN_ENCRYPTION_KEY = .ok key ∧
        readOAuthBlob P (seedTokenStoreFromEnv P env cwd now iv disk).2 (tokenStorePath env disk cwd) key = .ok blob ∧
        Stripped blob) ∧
    (∀ (blob : OrbioOAuthBlob) (key : EncryptionKey) (ivOfSeed : Iv) (seed before after : List Char), blob.proper →
      buildSessionSeed P blob key ivOfSeed = .ok seed → (∀ c ∈ before ++ after, isTrimmed c) →
      env.ORBIO_SESSION_SEED = some (String.ofList (before ++ (seed ++ after))) →
      loadEncryptionKey env.TOKEN_ENCRYPTION_KEY = .ok key →
      disk.entry (tokenStorePath env disk cwd) = none →
      disk.mkdirError (Disk.dirname (tokenStorePath env disk cwd)) = none →
      disk.writeError (tokenStorePath env disk cwd) = none →
      ∃ session reason, sessionOnly blob = .ok session ∧
        (seedTokenStoreFromEnv P env cwd now iv disk).1 = .ok { seeded := true, reason } ∧
        readOAuthBlob P (seedTokenStoreFromEnv P env cwd now iv disk).2 (tokenStorePath env disk cwd) key =
          .ok (.object (session ++ [(ofString "updatedAt", .string (ofString (Js.toISOString now)))]))) := by
  refine ⟨?_, fun p e => seed_frame, ?_, ?_⟩
  · rcases seed_cases P env cwd now iv disk with ⟨reason, disk', hrun, _⟩ | ⟨_, _, _, _, _, _, _, _, hrun⟩
    · exact ⟨_, congrArg Prod.fst hrun⟩
    · exact ⟨_, congrArg Prod.fst hrun⟩
  · intro text habsent hfile
    obtain ⟨key, blob, session, hkey, hsession, rfl⟩ := seed_written habsent hfile
    obtain ⟨client, tokens, hnormal, hrefresh⟩ := normal_stored hsession now
    exact ⟨key, _, hkey, (readOAuthBlob_written P key iv hfile).trans (congrArg Except.ok hnormal), stripped_stored hrefresh⟩
  · intro blob key ivOfSeed seed before after hblob hseed hwhite henv hkey habsent hmkdir hwrite
    obtain ⟨session, hsession, rfl⟩ := buildSessionSeed_ok hseed
    have htext : trimmed env.ORBIO_SESSION_SEED =
        some (seedText P key (encryptToken P (JsonValue.object session : OrbioOAuthBlob).stringify key ivOfSeed)) := by
      rw [henv]
      exact trimmed_around hwhite (seedText_ne_nil P key _) (seedText_untrimmed P key (encryptToken_plain P key ivOfSeed _))
    obtain ⟨reason, dir, hrun⟩ := seed_built hblob hsession htext hkey habsent hmkdir hwrite now iv
    refine ⟨session, reason, hsession, by rw [hrun], ?_⟩
    have hfile : (seedTokenStoreFromEnv P env cwd now iv disk).2.entry (tokenStorePath env disk cwd) =
        some (.file (encryptToken P (JsonValue.object (session ++ [stamp now]) : OrbioOAuthBlob).stringify key iv ++ ['\n'])) := by
      rw [hrun, write_entry]
    exact (readOAuthBlob_written P key iv hfile).trans (congrArg Except.ok (normal_of_session hblob hsession now))

def keyBytes : List UInt8 := (List.range 32).map UInt8.ofNat

def knownKey : EncryptionKey := ⟨keyBytes, rfl⟩

def seedIv : Iv := ⟨[0, 1, 2, 3, 4, 5, 6, 7, 8, 9, 10, 11], rfl⟩

def storeIv : Iv := ⟨[100, 101, 102, 103, 104, 105, 106, 107, 108, 109, 110, 111], rfl⟩

def sessionText : List Char :=
  "\x7b\"clientInformation\":\x7b\"client_id\":\"c-1\"\x7d,\"tokens\":\x7b\"access_token\":\"at-1\"\x7d\x7d".toList

def storedText : List Char :=
  ("\x7b\"clientInformation\":\x7b\"client_id\":\"c-1\"\x7d,\"tokens\":\x7b\"access_token\":\"at-1\"\x7d," ++
    "\"updatedAt\":\"2026-09-21T14:13:20.123Z\"\x7d").toList

def sessionWire : List Char :=
  ("AAECAwQFBgcICQoLBDGTUpbAN3S5Fvb7ACjleTwgtXesgKxvxC/x5MOEGRnquekWygB9H1QOgOtpNmnWIyqMn4LwMOVYhguC4+JGS8xjG687tcC/" ++
    "TOR1bXeIkIDSBuQbp/wXQ2Ep").toList

/-- Tag and ciphertext of the one text and of the other. -/
def sealedSession : List UInt8 × List UInt8 :=
  ([4, 49, 147, 82, 150, 192, 55, 116, 185, 22, 246, 251, 0, 40, 229, 121],
   [60, 32, 181, 119, 172, 128, 172, 111, 196, 47, 241, 228, 195, 132, 25, 25, 234, 185, 233, 22, 202, 0, 125, 31, 84, 14, 128,
    235, 105, 54, 105, 214, 35, 42, 140, 159, 130, 240, 48, 229, 88, 134, 11, 130, 227, 226, 70, 75, 204, 99, 27, 175, 59, 181,
    192, 191, 76, 228, 117, 109, 119, 136, 144, 128, 210, 6, 228, 27, 167, 252, 23, 67, 97, 41])

def sealedStored : List UInt8 × List UInt8 :=
  ([62, 169, 207, 42, 86, 31, 11, 40, 238, 221, 68, 35, 122, 135, 213, 172],
   [51, 57, 189, 10, 16, 140, 56, 234, 119, 12, 57, 135, 168, 8, 11, 137, 43, 173, 104, 40, 177, 23, 209, 17, 203, 184, 201, 38,
    143, 252, 204, 44, 182, 211, 98, 163, 97, 35, 185, 121, 209, 209, 12, 80, 150, 39, 164, 188, 57, 97, 227, 197, 65, 41, 34,
    77, 137, 130, 243, 162, 128, 234, 192, 228, 42, 182, 249, 111, 162, 102, 10, 39, 246, 67, 207, 54, 97, 238, 80, 146, 1, 28,
    94, 64, 133, 255, 175, 244, 239, 195, 0, 233, 75, 42, 99, 99, 191, 37, 163, 74, 81, 124, 139, 68, 129, 202, 240, 244, 144,
    62, 226, 202, 95])

def plainBytes (text : List Char) : List UInt8 :=
  text.flatMap fun c => [UInt8.ofNat (c.toNat / 65536), UInt8.ofNat (c.toNat / 256), UInt8.ofNat c.toNat]

def plainText : List UInt8 → List Char
  | a :: b :: c :: rest => Char.ofNat (a.toNat * 65536 + b.toNat * 256 + c.toNat) :: plainText rest
  | _ => []

theorem plainText_plainBytes (text : List Char) : plainText (plainBytes text) = text := by
  induction text with
  | nil => rfl
  | cons c text ih =>
    have hc : c.toNat < 1114112 := by
      have hvalid := c.valid
      simp only [Nat.isValidChar, UInt32.isValidChar] at hvalid
      change c.val.toNat < 1114112
      omega
    have hsum : (UInt8.ofNat (c.toNat / 65536)).toNat * 65536 + (UInt8.ofNat (c.toNat / 256)).toNat * 256 +
        (UInt8.ofNat c.toNat).toNat = c.toNat := by
      simp only [UInt8.toNat_ofNat']
      omega
    simp only [plainBytes, List.flatMap_cons, List.cons_append, List.nil_append, plainText, hsum, Char.ofNat_toNat]
    exact congrArg _ ih

def zeroTag : List UInt8 := List.replicate TAG_LEN 0

def knownCipher (key : EncryptionKey) (iv : Iv) (text : List Char) : List UInt8 × List UInt8 :=
  if key.bytes = keyBytes ∧ iv.bytes = seedIv.bytes ∧ text = sessionText then sealedSession
  else if key.bytes = keyBytes ∧ iv.bytes = storeIv.bytes ∧ text = storedText then sealedStored
  else (zeroTag, 0 :: plainBytes text)

def knownDecipher (key : EncryptionKey) (iv : Iv) (tag data : List UInt8) : Option (List Char) :=
  if key.bytes = keyBytes ∧ iv.bytes = seedIv.bytes ∧ (tag, data) = sealedSession then some sessionText
  else if key.bytes = keyBytes ∧ iv.bytes = storeIv.bytes ∧ (tag, data) = sealedStored then some storedText
  else if tag = zeroTag then some (plainText data.tail)
  else none

theorem sealed_differ : seedIv.bytes ≠ storeIv.bytes ∧ sealedSession.1 ≠ zeroTag ∧
    sealedStored.1 ≠ zeroTag := by decide +kernel

theorem known_inverts (key : EncryptionKey) (iv : Iv) (text : List Char) :
    knownDecipher key iv (knownCipher key iv text).1 (knownCipher key iv text).2 = some text := by
  obtain ⟨session, hsession⟩ : ∃ p, sealedSession = p := ⟨_, rfl⟩
  obtain ⟨stored, hstored⟩ : ∃ p, sealedStored = p := ⟨_, rfl⟩
  obtain ⟨hivs, hfirst, hsecond⟩ := sealed_differ
  rw [hsession] at hfirst
  rw [hstored] at hsecond
  simp only [knownCipher, knownDecipher, hsession, hstored]
  by_cases hone : key.bytes = keyBytes ∧ iv.bytes = seedIv.bytes ∧ text = sessionText
  · simp only [hone, and_self, if_true]
  · by_cases htwo : key.bytes = keyBytes ∧ iv.bytes = storeIv.bytes ∧ text = storedText
    · have hother : iv.bytes ≠ seedIv.bytes := fun he => hivs (he.symm.trans htwo.2.1)
      simp only [htwo, and_self, if_true]
      simp [hivs.symm]
    · have hnot : (zeroTag, 0 :: plainBytes text) ≠ session := fun he => hfirst (congrArg Prod.fst he).symm
      have hnot' : (zeroTag, 0 :: plainBytes text) ≠ stored := fun he => hsecond (congrArg Prod.fst he).symm
      simp [hone, htwo, hnot, hnot', plainText_plainBytes]

def knownPlatform : Platform where
  sha256 bytes :=
    if bytes = keyBytes then [99, 13, 205, 41, 102, 196, 51, 102, 145, 18, 84, 72, 187, 178, 91, 79, 244, 18, 164, 156, 115,
      45, 178, 200, 171, 193, 184, 88, 27, 215, 16, 221]
    else List.replicate 32 0
  cipher := knownCipher
  decipher := knownDecipher
  authError := "Unsupported state or unable to authenticate data"
  syntaxError _ := "Unexpected end of JSON input"
  tag_length key iv text := by
    rw [knownCipher]
    split_ifs
    · decide +kernel
    · decide +kernel
    · rfl
  data_ne_nil key iv text _ := by
    rw [knownCipher]
    split_ifs
    · decide +kernel
    · decide +kernel
    · exact List.cons_ne_nil _ _
  decipher_cipher key iv text := known_inverts key iv text

def knownBlob : OrbioOAuthBlob :=
  .object [(ofString "clientInformation", .object [(ofString "client_id", .string (ofString "c-1"))]),
    (ofString "tokens", .object [(ofString "access_token", .string (ofString "at-1")),
      (ofString "refresh_token", .string (ofString "rt-1"))]),
    (ofString "gatewayKey", .string (ofString "sk-orbio-1"))]

def knownSeed : String := "v1.630dcd29." ++ String.ofList sessionWire

def knownEnv : SeedEnv where
  ORBIO_SESSION_SEED := some (String.ofList (" ".toList ++ (knownSeed.toList ++ "\n".toList)))
  TOKEN_ENCRYPTION_KEY := some "AAECAwQFBgcICQoLDA0ODxAREhMUFRYXGBkaGxwdHh8="
  ORBIO_TOKEN_STORE := none

/-- A container with the repository and no store. -/
def freshDisk : Disk where
  entry p := if p = "/app" then some .directory else if p = "/app/pnpm-workspace.yaml" then some (.file []) else none
  mkdirError _ := none
  writeError _ := none

example : tokenStorePath knownEnv freshDisk ["app", "apps", "worker"] = "/app/.orbio/token-store.enc.json" := by
  decide +kernel

theorem toList_of_ofList {cs : List Char} {s : String} (h : String.ofList cs = s) : cs = s.toList := by
  rw [← h, String.toList_ofList]

/-- What of `knownBlob` is safe to seed. -/
def knownSession : Members :=
  [(ofString "clientInformation", .object [(ofString "client_id", .string (ofString "c-1"))]),
    (ofString "tokens", .object [(ofString "access_token", .string (ofString "at-1"))])]

theorem knownSession_stringify : (JsonValue.object knownSession : OrbioOAuthBlob).stringify = sessionText := by
  decide +kernel

set_option maxRecDepth 20000 in
theorem wire_of_session : Base64.encodePadded (seedIv.bytes ++ sealedSession.1 ++ sealedSession.2) = sessionWire := by
  unfold sessionWire
  refine Eq.trans ?_ String.toList_append.symm
  -- the two halves of the literal
  rw [← List.take_append_drop 112 (Base64.encodePadded (seedIv.bytes ++ sealedSession.1 ++ sealedSession.2))]
  exact congrArg₂ (· ++ ·) (toList_of_ofList rfl) (toList_of_ofList rfl)

theorem encryptToken_session : encryptToken knownPlatform sessionText knownKey seedIv = sessionWire := by
  have hcipher : knownPlatform.cipher = knownCipher := rfl
  have hsealed : knownCipher knownKey seedIv sessionText = sealedSession := if_pos ⟨rfl, rfl, rfl⟩
  rw [encryptToken, hcipher, hsealed]
  exact wire_of_session

theorem buildSessionSeed_known : buildSessionSeed knownPlatform knownBlob knownKey seedIv = .ok knownSeed.toList := by
  have hsession : sessionOnly knownBlob = .ok knownSession := rfl
  have hhead : SEED_VERSION.toList ++ '.' :: (encryptionKeyFingerprint knownPlatform knownKey ++ ['.']) =
      "v1.630dcd29.".toList := by decide +kernel
  have hseed : knownSeed.toList = "v1.630dcd29.".toList ++ sessionWire := by
    rw [knownSeed, String.toList_append, String.toList_ofList (l := sessionWire)]
  rw [hseed, ← hhead, buildSessionSeed, hsession]
  simp only [Except.bind, bind, pure, Except.pure, knownSession_stringify, encryptToken_session]
  simp only [List.append_assoc, List.cons_append, List.nil_append]

theorem seeding_plants_no_key_once :
    (seedTokenStoreFromEnv knownPlatform knownEnv ["app", "apps", "worker"] 1790000000123 storeIv freshDisk).2.entry "/app" =
      some .directory ∧
    (∃ key blob, loadEncryptionKey knownEnv.TOKEN_ENCRYPTION_KEY = .ok key ∧
      readOAuthBlob knownPlatform
        (seedTokenStoreFromEnv knownPlatform knownEnv ["app", "apps", "worker"] 1790000000123 storeIv freshDisk).2
        (tokenStorePath knownEnv freshDisk ["app", "apps", "worker"]) key = .ok blob ∧ Stripped blob) ∧
    ∃ session reason, sessionOnly knownBlob = .ok session ∧
      (seedTokenStoreFromEnv knownPlatform knownEnv ["app", "apps", "worker"] 1790000000123 storeIv freshDisk).1 =
        .ok { seeded := true, reason } ∧
      readOAuthBlob knownPlatform
        (seedTokenStoreFromEnv knownPlatform knownEnv ["app", "apps", "worker"] 1790000000123 storeIv freshDisk).2
        (tokenStorePath knownEnv freshDisk ["app", "apps", "worker"]) knownKey =
        .ok (.object (session ++ [(ofString "updatedAt", .string (ofString (Js.toISOString 1790000000123)))])) := by
  have hclaim := seeding_plants_no_key knownPlatform knownEnv ["app", "apps", "worker"] 1790000000123 storeIv freshDisk
  have habsent : freshDisk.entry (tokenStorePath knownEnv freshDisk ["app", "apps", "worker"]) = none := by decide +kernel
  have hkey : loadEncryptionKey knownEnv.TOKEN_ENCRYPTION_KEY = .ok knownKey := by decide +kernel
  obtain ⟨session, reason, hsession, hresult, hread⟩ := hclaim.2.2.2 knownBlob knownKey seedIv knownSeed.toList " ".toList
    "\n".toList (by decide +kernel) buildSessionSeed_known (List.all_eq_true.mp (by decide)) rfl hkey habsent rfl rfl
  obtain ⟨text, hfile⟩ := file_of_read hread
  exact ⟨hclaim.2.1 _ _ rfl, hclaim.2.2.1 text habsent hfile, session, reason, hsession, hresult, hread⟩

end LaunchAuditor.Proofs.Seeding
