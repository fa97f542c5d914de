import LaunchAuditor.Metabolism.OAuthProcesses
import LaunchAuditor.Proofs.Seeding
import LaunchAuditor.Proofs.TokenStore

namespace LaunchAuditor.Proofs.OAuthStore
open Metabolism Steps TokenStore Seeding
open JsonString (ofString)

/-- What the store is for: a value for each field. -/
abbrev Fields := List UInt16 → Option OrbioOAuthBlob

/-- The value a patch gives a field, as it is read back. -/
def fieldValue : OrbioOAuthBlob → Option OrbioOAuthBlob
  | .null => none
  | v => some v.normal

def Fields.set (fields : Fields) (entry : List UInt16 × OrbioOAuthBlob) : Fields :=
  Function.update fields entry.1 (fieldValue entry.2)

def Fields.patch (fields : Fields) (patch : Members) : Fields := patch.foldl Fields.set fields

def Fields.stamp (fields : Fields) (now : Int) : Fields :=
  Function.update fields UPDATED_AT (some (.string (ofString (Js.toISOString now))))

variable {P : Platform} {path : String} {key : EncryptionKey}

/-- The encrypted file has these fields. -/
def Holds (P : Platform) (path : String) (key : EncryptionKey) (disk : Disk) (fields : Fields) : Prop :=
  ∃ members, readOAuthBlob P disk path key = .ok (.object members) ∧
    (JsonValue.object members : OrbioOAuthBlob).proper ∧ ∀ k, JsonValue.lookup members k = fields k

/-- The store is not one of the directories made for it. -/
def Separate (path : String) : Prop := path ∉ Disk.ancestors (Disk.dirname path)

theorem readOAuthBlob_entry {disk disk' : Disk} (h : disk'.entry path = disk.entry path) :
    readOAuthBlob P disk' path key = readOAuthBlob P disk path key := by
  unfold readOAuthBlob
  rw [h]

theorem Holds.of_entry {disk disk' : Disk} {fields : Fields} (h : Holds P path key disk fields)
    (he : disk'.entry path = disk.entry path) : Holds P path key disk' fields := by
  obtain ⟨members, hread, hproper, hlookup⟩ := h
  exact ⟨members, (readOAuthBlob_entry he).trans hread, hproper, hlookup⟩

theorem holds_absent {disk : Disk} (h : disk.entry path = none) : Holds P path key disk fun _ => none :=
  ⟨[], by simp [readOAuthBlob, h], by simp [JsonValue.proper, JsonValue.Ordered, JsonValue.properMembers], fun _ => rfl⟩

theorem lookup_delete (members : Members) (k key : List UInt16) :
    JsonValue.lookup (members.filter fun m => m.1 ≠ key) k = if k = key then none else JsonValue.lookup members k := by
  split
  · rename_i hk
    subst hk
    apply JsonValue.lookup_none
    simp
  · rename_i hk
    exact JsonValue.lookup_filter hk members

/-- The members are these fields, once they are written and read. -/
structure Pictures (members : Members) (fields : Fields) : Prop where
  ordered : JsonValue.Ordered members
  values : ∀ k, (JsonValue.lookup members k).map JsonValue.normal = fields k

theorem patchEntry_pictures {members : Members} {fields : Fields} (h : Pictures members fields)
    (entry : List UInt16 × OrbioOAuthBlob) : Pictures (patchEntry members entry) (fields.set entry) := by
  obtain ⟨key, v⟩ := entry
  by_cases hv : v = .null
  · subst hv
    refine ⟨h.ordered.filter _, ?_⟩
    intro k
    change (JsonValue.lookup (members.filter fun m => m.1 ≠ key) k).map _ = _
    rw [lookup_delete, Fields.set, Function.update_apply]
    split
    · rfl
    · exact h.values k
  · have hput : patchEntry members (key, v) = JsonValue.put key v members := by
      unfold patchEntry
      cases v <;> first | rfl | exact absurd rfl hv
    have hvalue : fieldValue v = some v.normal := by
      unfold fieldValue
      cases v <;> first | rfl | exact absurd rfl hv
    rw [hput]
    refine ⟨h.ordered.put key v, ?_⟩
    intro k
    rw [JsonValue.lookup_put, Fields.set, Function.update_apply, hvalue]
    split
    · rfl
    · exact h.values k

theorem applyPatch_pictures {members : Members} {fields : Fields} (h : Pictures members fields) (patch : Members) :
    Pictures (applyPatch members patch) (fields.patch patch) := by
  induction patch generalizing members fields with
  | nil => exact h
  | cons entry patch ih => exact ih (patchEntry_pictures h entry)

theorem pictures_of_proper {members : Members} (h : (JsonValue.object members : OrbioOAuthBlob).proper)
    {fields : Fields} (hf : ∀ k, JsonValue.lookup members k = fields k) : Pictures members fields := by
  refine ⟨(JsonValue.proper_object.mp h).1, ?_⟩
  intro k
  rw [← hf k]
  cases hk : JsonValue.lookup members k with
  | none => rfl
  | some v => exact congrArg some (JsonValue.normal_of_proper v (JsonValue.proper_lookup h hk))

theorem holds_written {members : Members} {fields : Fields} (h : Pictures members fields) (disk : Disk) (now : Int)
    (iv : Iv) : Holds P path key (disk.write path (encryptToken P (stamped members now).stringify key iv ++ ['\n']))
      (fields.stamp now) := by
  have hordered : JsonValue.Ordered (JsonValue.put UPDATED_AT (.string (ofString (Js.toISOString now))) members) :=
    h.ordered.put _ _
  have hread : readOAuthBlob P (disk.write path (encryptToken P (stamped members now).stringify key iv ++ ['\n']))
      path key = .ok (stamped members now).normal := readOAuthBlob_written P key iv (write_entry _)
  have hproper := JsonValue.proper_normal (JsonValue.object (JsonValue.put UPDATED_AT
    (.string (ofString (Js.toISOString now))) members) : OrbioOAuthBlob)
  have hnormal : (stamped members now).normal = .object (JsonValue.normalMembers
      (JsonValue.put UPDATED_AT (.string (ofString (Js.toISOString now))) members)) := JsonValue.normal_object hordered
  rw [JsonValue.normal_object hordered] at hproper
  rw [hnormal] at hread
  refine ⟨_, hread, hproper, ?_⟩
  intro k
  rw [JsonValue.lookup_normalMembers, JsonValue.lookup_put, Fields.stamp, Function.update_apply]
  split
  · rfl
  · exact h.values k

/-- An update is done, or it throws and leaves the fields as they were. -/
theorem updateOAuthBlob_cases (hpath : Separate path) {disk : Disk} {fields : Fields} (h : Holds P path key disk fields)
    (patch : Members) (now : Int) (iv : Iv) :
    ((updateOAuthBlob P disk path key patch now iv).1.isOk = true ∧
      Holds P path key (updateOAuthBlob P disk path key patch now iv).2 ((fields.patch patch).stamp now)) ∨
    ((updateOAuthBlob P disk path key patch now iv).1.isOk = false ∧
      Holds P path key (updateOAuthBlob P disk path key patch now iv).2 fields) := by
  have hholds := h
  obtain ⟨members, hread, hproper, hlookup⟩ := h
  have hpic := pictures_of_proper hproper hlookup
  have hspread : JsonValue.fromMembers (spread (JsonValue.object members)) = members :=
    JsonValue.fromMembers_of_ordered hpic.ordered
  have hnext := applyPatch_pictures hpic patch
  have hmkdir : (disk.mkdir (Disk.dirname path)).entry path = disk.entry path := if_neg hpath
  simp only [updateOAuthBlob, hread, hspread]
  rcases writeOAuthBlob_cases P disk path key (applyPatch members patch) now iv with ⟨message, disk', hw, hd⟩ | hw
  · rw [hw]
    refine Or.inr ⟨rfl, ?_⟩
    rcases hd with rfl | rfl
    · exact hholds
    · exact hholds.of_entry hmkdir
  · rw [hw]
    exact Or.inl ⟨rfl, holds_written hnext _ now iv⟩

/-- All the processes use this store. -/
def Shared (path : String) (key : EncryptionKey) (w : Processes) : Prop :=
  ∀ i, (w.provider i).storePath = path ∧ (w.provider i).encryptionKey = key

/-- The patch that an event means to write. -/
def eventPatch (w : Processes) : ProcessEvent → Option (Members × Int × Iv)
  | .call i c now iv => ((w.provider i).patch c).map fun patch => (patch, now, iv)
  | .update patch now iv => some (patch, now, iv)
  | .start .. | .other _ => none

/-- The fields after an event, which counts when its write did not throw. -/
def fieldsStep (P : Platform) (path : String) (key : EncryptionKey) (w : Processes) (fields : Fields) (e : ProcessEvent) :
    Fields :=
  match eventPatch w e with
  | none => fields
  | some (patch, now, iv) =>
    if (updateOAuthBlob P w.disk path key patch now iv).1.isOk then (fields.patch patch).stamp now else fields

/-- The processes beside the fields that their successful writes make. -/
def trackedStep (P : Platform) (path : String) (key : EncryptionKey) (x : Processes × Fields) (e : ProcessEvent) :
    Processes × Fields :=
  (processStep P path key x.1 e, fieldsStep P path key x.1 x.2 e)

theorem remember_shared {p : OrbioAuthProvider} (c : OrbioAuthProvider.Call) :
    (p.remember c).storePath = p.storePath ∧ (p.remember c).encryptionKey = p.encryptionKey := by
  cases c <;> exact ⟨rfl, rfl⟩

theorem call_provider (p : OrbioAuthProvider) (c : OrbioAuthProvider.Call) (disk : Disk) (now : Int) (iv : Iv) :
    (p.call P c disk now iv).2.1 = p.remember c := by
  unfold OrbioAuthProvider.call
  split <;> rfl

theorem Shared.step {w : Processes} (h : Shared path key w) (e : ProcessEvent) :
    Shared path key (processStep P path key w e) := by
  intro j
  cases e with
  | call i c now iv =>
    simp only [processStep, call_provider, Function.update_apply]
    split
    · rename_i hj
      rw [(remember_shared c).1, (remember_shared c).2]
      exact h i
    · exact h j
  | update patch now iv => exact h j
  | start i callbackPort interactive useRefreshToken =>
    simp only [processStep, Function.update_apply]
    split
    · exact ⟨rfl, rfl⟩
    · exact h j
  | other disk => exact h j

/-- What an event does to the disk: an update, or nothing to the store. -/
theorem processStep_disk {w : Processes} (h : Shared path key w) (e : ProcessEvent) :
    match eventPatch w e with
    | some (patch, now, iv) => (processStep P path key w e).disk = (updateOAuthBlob P w.disk path key patch now iv).2
    | none => (processStep P path key w e).disk.entry path = w.disk.entry path := by
  cases e with
  | call i c now iv =>
    cases hp : (w.provider i).patch c with
    | none => simp [eventPatch, processStep, OrbioAuthProvider.call, hp]
    | some patch => simp [eventPatch, processStep, OrbioAuthProvider.call, hp, (h i).1, (h i).2]
  | update patch now iv => rfl
  | start i callbackPort interactive useRefreshToken => rfl
  | other disk => simp [eventPatch, processStep, Disk.around]

theorem step_holds (hpath : Separate path) {w : Processes} {fields : Fields} (hshared : Shared path key w)
    (h : Holds P path key w.disk fields) (e : ProcessEvent) :
    Holds P path key (processStep P path key w e).disk (fieldsStep P path key w fields e) := by
  have hdisk := processStep_disk (P := P) hshared e
  unfold fieldsStep
  cases he : eventPatch w e with
  | none =>
    rw [he] at hdisk
    exact h.of_entry hdisk
  | some x =>
    obtain ⟨patch, now, iv⟩ := x
    rw [he] at hdisk
    dsimp only at hdisk ⊢
    rw [hdisk]
    rcases updateOAuthBlob_cases hpath h patch now iv with ⟨hok, hh⟩ | ⟨hok, hh⟩
    · rw [if_pos hok]
      exact hh
    · rw [hok]
      exact hh

/-- The tokens as a process is shown them. -/
def shownTokens (useRefreshToken : Bool) (t : OrbioOAuthBlob) : OrbioOAuthBlob :=
  if useRefreshToken then t
  else .object ((JsonValue.fromMembers (spread t)).filter fun m => m.1 ≠ REFRESH_TOKEN)

/-- A process reads the fields. -/
structure Answers (P : Platform) (p : OrbioAuthProvider) (disk : Disk) (fields : Fields) : Prop where
  clientInformation : p.clientInformation P disk = .ok (fields CLIENT_INFORMATION)
  tokens : p.tokens P disk = .ok (((fields TOKENS).filter fun t => truthy (some t)).map (shownTokens p.useRefreshToken))
  codeVerifier : p.interactive = true →
    (p.codeVerifier P disk).toOption = (fields CODE_VERIFIER).filter fun v => truthy (some v)

theorem Holds.answers {disk : Disk} {fields : Fields} (h : Holds P path key disk fields) {p : OrbioAuthProvider}
    (hp : p.storePath = path ∧ p.encryptionKey = key) : Answers P p disk fields := by
  obtain ⟨members, hread, -, hlookup⟩ := h
  have hfield : ∀ name, p.read P disk name = .ok (fields (ofString name)) := by
    intro name
    simp [OrbioAuthProvider.read, hp.1, hp.2, hread, property, hlookup, bind, Except.bind, pure, Except.pure]
  refine ⟨hfield _, ?_, ?_⟩
  · simp only [OrbioAuthProvider.tokens, hfield, bind, Except.bind]
    change _ = Except.ok (((fields (ofString "tokens")).filter fun t => truthy (some t)).map _)
    cases (fields (ofString "tokens")).filter fun t => truthy (some t) with
    | none => rfl
    | some t =>
      simp only [Option.map_some, shownTokens]
      split <;> rfl
  · intro hi
    simp only [OrbioAuthProvider.codeVerifier, hi, if_true, hfield, bind, Except.bind]
    change _ = (fields (ofString "codeVerifier")).filter fun v => truthy (some v)
    cases (fields (ofString "codeVerifier")).filter fun v => truthy (some v) with
    | none => rfl
    | some v => rfl

theorem run_holds (hpath : Separate path) {w : Processes} {fields : Fields} (hshared : Shared path key w)
    (h : Holds P path key w.disk fields) (events : List ProcessEvent) :
    let x := run (trackedStep P path key) (w, fields) events
    x.1 = run (processStep P path key) w events ∧ Shared path key x.1 ∧ Holds P path key x.1.disk x.2 := by
  induction events generalizing w fields with
  | nil => exact ⟨rfl, hshared, h⟩
  | cons e events ih => exact ih (hshared.step e) (step_holds hpath hshared h e)

/-- The encrypted file refines the fields, as long as updates do not overlap and a failing write leaves the file as it
was: whatever processes call, restart, fail to write, or do to the rest of the disk, each of them reads for each field
what was last written to it. -/
theorem store_refines (P : Platform) (path : String) (key : EncryptionKey) (hpath : Separate path) (w : Processes)
    (hshared : Shared path key w) (fields : Fields) (h : Holds P path key w.disk fields) (events : List ProcessEvent) :
    let x := run (trackedStep P path key) (w, fields) events
    x.1 = run (processStep P path key) w events ∧ ∀ i, Answers P (x.1.provider i) x.1.disk x.2 := by
  obtain ⟨hrun, hshared', hholds⟩ := run_holds hpath hshared h events
  exact ⟨hrun, fun i => hholds.answers (hshared' i)⟩

theorem patch_other {patch : Members} {k : List UInt16} (h : k ∉ patch.map Prod.fst) (fields : Fields) :
    fields.patch patch k = fields k := by
  induction patch generalizing fields with
  | nil => rfl
  | cons entry patch ih =>
    simp only [List.map_cons, List.mem_cons, not_or] at h
    refine (ih h.2 (fields.set entry)).trans ?_
    exact Function.update_of_ne h.1 _ _

theorem ok_of_toOption {ε α : Type} {x : Except ε α} {a : α} (h : x.toOption = some a) : x = .ok a := by
  cases x with
  | error e => cases h
  | ok b => exact congrArg Except.ok (Option.some.inj h)

theorem patch_single (fields : Fields) (k : List UInt16) (v : OrbioOAuthBlob) :
    fields.patch [(k, v)] k = fieldValue v := by
  simp [Fields.patch, Fields.set]

theorem stamp_other {k : List UInt16} (h : k ≠ UPDATED_AT) (fields : Fields) (now : Int) :
    fields.stamp now k = fields k := Function.update_of_ne h _ _

/-- Calls of processes without a browser, the runner's own updates and restarts of other processes. -/
def Background (i : Nat) (w : Processes) : ProcessEvent → Prop
  | .call j c _ _ => (w.provider j).interactive = false ∧ c ≠ .invalidateCredentials .all ∧
      c ≠ .invalidateCredentials .verifier
  | .update patch _ _ => CODE_VERIFIER ∉ patch.map Prod.fst
  | .start j _ _ _ => j ≠ i
  | .other _ => True

theorem background_patch {i : Nat} {w : Processes} {e : ProcessEvent} (h : Background i w e) {patch : Members} {now : Int}
    {iv : Iv} (hp : eventPatch w e = some (patch, now, iv)) : CODE_VERIFIER ∉ patch.map Prod.fst := by
  have hclient : CODE_VERIFIER ≠ CLIENT_INFORMATION := by decide
  have htokens : CODE_VERIFIER ≠ TOKENS := by decide
  cases e with
  | call j c now' iv' =>
    obtain ⟨hj, hall, hverifier⟩ := h
    obtain ⟨patch', hpatch, heq⟩ := Option.map_eq_some_iff.mp hp
    cases heq
    cases c with
    | saveClientInformation info =>
      cases hpatch
      simpa using hclient
    | saveTokens tokens =>
      cases hpatch
      simpa using htokens
    | saveCodeVerifier v => simp [OrbioAuthProvider.patch, hj] at hpatch
    | invalidateCredentials scope =>
      simp only [OrbioAuthProvider.patch] at hpatch
      split at hpatch
      · cases hpatch
      · obtain rfl := Option.some.inj hpatch
        cases scope with
        | all => exact absurd rfl hall
        | verifier => exact absurd rfl hverifier
        | client => simpa [invalidationPatch] using hclient
        | tokens => simpa [invalidationPatch] using htokens
        | discovery => simp [invalidationPatch]
  | update patch' now' iv' =>
    cases hp
    exact h
  | start j callbackPort interactive useRefreshToken => cases hp
  | other disk => cases hp

theorem background_fields {i : Nat} {w : Processes} {e : ProcessEvent} (h : Background i w e) (fields : Fields) :
    fieldsStep P path key w fields e CODE_VERIFIER = fields CODE_VERIFIER := by
  unfold fieldsStep
  cases hp : eventPatch w e with
  | none => rfl
  | some x =>
    obtain ⟨patch, now, iv⟩ := x
    dsimp only
    split
    · rw [stamp_other (by decide), patch_other (background_patch h hp)]
    · rfl

theorem background_interactive {i : Nat} {w : Processes} {e : ProcessEvent} (h : Background i w e)
    (hi : (w.provider i).interactive = true) : ((processStep P path key w e).provider i).interactive = true := by
  cases e with
  | call j c now iv =>
    have hji : i ≠ j := by
      intro he
      rw [← he] at h
      exact absurd hi (by simp [h.1])
    simpa [processStep, Function.update_of_ne hji] using hi
  | update patch now iv => exact hi
  | start j callbackPort interactive useRefreshToken =>
    have hji : i ≠ j := Ne.symm h
    simpa [processStep, Function.update_of_ne hji] using hi
  | other disk => exact hi

/-- The step lemma of a background run: the saved verifier stays, for a process that can use it. -/
theorem background_run (hpath : Separate path) {i : Nat} {w : Processes} {fields : Fields} (hshared : Shared path key w)
    (h : Holds P path key w.disk fields) (hi : (w.provider i).interactive = true) {during : List ProcessEvent}
    (hd : Always (processStep P path key) (Background i) w during) :
    ∃ fields', Shared path key (run (processStep P path key) w during) ∧
      Holds P path key (run (processStep P path key) w during).disk fields' ∧
      ((run (processStep P path key) w during).provider i).interactive = true ∧
      fields' CODE_VERIFIER = fields CODE_VERIFIER := by
  induction during generalizing w fields with
  | nil => exact ⟨fields, hshared, h, hi, rfl⟩
  | cons e during ih =>
    obtain ⟨fields', hs, hh, hi', hv⟩ :=
      ih (hshared.step e) (step_holds hpath hshared h e) (background_interactive hd.1 hi) hd.2
    exact ⟨fields', hs, hh, hi', hv.trans (background_fields hd.1 fields)⟩

theorem call_ok {w : Processes} (hshared : Shared path key w) {i : Nat} {c : OrbioAuthProvider.Call} {patch : Members}
    (hp : (w.provider i).patch c = some patch) {now : Int} {iv : Iv}
    (hok : ((w.provider i).call P c w.disk now iv).1.isOk = true) (fields : Fields) :
    fieldsStep P path key w fields (.call i c now iv) = (fields.patch patch).stamp now := by
  have hupdate : (updateOAuthBlob P w.disk path key patch now iv).1.isOk = true := by
    simp only [OrbioAuthProvider.call, hp, (hshared i).1, (hshared i).2] at hok
    revert hok
    cases (updateOAuthBlob P w.disk path key patch now iv).1 <;> exact id
  simp [fieldsStep, eventPatch, hp, hupdate]

/-- A sign-in among workers, whose updates do not overlap: the verifier that was saved before the redirect is there for
the code exchange, whatever processes without a browser do meanwhile, and the tokens that are saved then are shown to
every process, the refresh token to those only that ask for it. -/
theorem sign_in_completes (P : Platform) (path : String) (key : EncryptionKey) (hpath : Separate path) (w : Processes)
    (hshared : Shared path key w) (fields : Fields) (h : Holds P path key w.disk fields) (i : Nat)
    (hi : (w.provider i).interactive = true) (v : List UInt16) (hv : v ≠ []) (now : Int) (iv : Iv)
    (hsaved : ((w.provider i).call P (.saveCodeVerifier v) w.disk now iv).1.isOk = true) (during : List ProcessEvent)
    (hduring : Always (processStep P path key) (Background i)
      (processStep P path key w (.call i (.saveCodeVerifier v) now iv)) during) :
    let w' := run (processStep P path key) w (.call i (.saveCodeVerifier v) now iv :: during)
    (w'.provider i).codeVerifier P w'.disk = .ok (.string v) ∧
      ∀ t now' iv', ((w'.provider i).call P (.saveTokens t) w'.disk now' iv').1.isOk = true →
        let w'' := processStep P path key w' (.call i (.saveTokens t) now' iv')
        ∀ j, (w''.provider j).tokens P w''.disk =
            .ok (((fieldValue t).filter fun t => truthy (some t)).map (shownTokens (w''.provider j).useRefreshToken)) ∧
          ((w''.provider j).useRefreshToken = false → ∀ shown, (w''.provider j).tokens P w''.disk = .ok (some shown) →
            property shown "refresh_token" = none) := by
  intro w'
  have hpatch : (w.provider i).patch (.saveCodeVerifier v) = some [(CODE_VERIFIER, .string v)] := by
    simp [OrbioAuthProvider.patch, hi]
  have hfirst := step_holds (P := P) hpath hshared h (.call i (.saveCodeVerifier v) now iv)
  have hfield : fieldsStep P path key w fields (.call i (.saveCodeVerifier v) now iv) CODE_VERIFIER = some (.string v) := by
    rw [call_ok hshared hpatch hsaved, stamp_other (by decide), patch_single]
    rfl
  have hi' : ((processStep P path key w (.call i (.saveCodeVerifier v) now iv)).provider i).interactive = true := by
    simpa [processStep, OrbioAuthProvider.call, hpatch, OrbioAuthProvider.remember] using hi
  obtain ⟨fields', hs, hh, hint, hsame⟩ : ∃ fields', Shared path key w' ∧ Holds P path key w'.disk fields' ∧
      (w'.provider i).interactive = true ∧ fields' CODE_VERIFIER = _ :=
    background_run hpath (hshared.step _) hfirst hi' hduring
  refine ⟨?_, ?_⟩
  · have hread := (hh.answers (hs i)).codeVerifier hint
    rw [hsame, hfield] at hread
    have htruthy : truthy (some (.string v)) = true := by simp [truthy, hv]
    simp only [Option.filter, htruthy, if_true] at hread
    exact ok_of_toOption hread
  · intro t now' iv' hok w'' j
    have hpatch' : (w'.provider i).patch (.saveTokens t) = some [(TOKENS, t)] := rfl
    have hlast := step_holds (P := P) hpath hs hh (.call i (.saveTokens t) now' iv')
    have hshared' := hs.step (P := P) (.call i (.saveTokens t) now' iv')
    have hanswer := (hlast.answers (hshared' j)).tokens
    have htokens : fieldsStep P path key w' fields' (.call i (.saveTokens t) now' iv') TOKENS = fieldValue t := by
      rw [call_ok hs hpatch' hok, stamp_other (by decide), patch_single]
    rw [htokens] at hanswer
    refine ⟨hanswer, ?_⟩
    intro hno shown hshown
    have heq := Except.ok.inj (hanswer.symm.trans hshown)
    obtain ⟨t', -, rfl⟩ := Option.map_eq_some_iff.mp heq
    rw [hno]
    simp only [shownTokens, Bool.false_eq_true, if_false, property]
    exact (lookup_delete _ _ _).trans (if_pos rfl)

section Sample

/-- A text that AES-256-GCM has sealed with this iv under the key of bytes 0 to 31. -/
structure Row where
  iv : List UInt8
  text : List Char
  out : List UInt8 × List UInt8

def verifierRow : Row where
  iv := seedIv.bytes
  text := "\x7b\"codeVerifier\":\"pkce-1\",\"updatedAt\":\"2026-09-21T14:13:20.123Z\"\x7d".toList
  out := ([191, 161, 38, 14, 242, 205, 7, 99, 225, 29, 35, 240, 1, 174, 209, 137],
    [60, 32, 181, 116, 161, 128, 148, 126, 255, 40, 241, 226, 212, 155, 90, 87, 161, 166, 236, 87, 149, 86, 110, 94, 20, 69, 144,
      245, 121, 8, 116, 215, 101, 81, 218, 222, 149, 227, 32, 168, 70, 146, 82, 221, 177, 170, 26, 9, 186, 104, 84, 183, 107,
      229, 153, 232, 15, 185, 27, 43, 43, 185, 215, 147])

def rowOf (key : EncryptionKey) (iv : Iv) : Option Row :=
  if key.bytes = keyBytes ∧ iv.bytes = verifierRow.iv then some verifierRow else none

def rowCipher (key : EncryptionKey) (iv : Iv) (text : List Char) : List UInt8 × List UInt8 :=
  match (rowOf key iv).filter fun r => decide (r.text = text) with
  | some r => r.out
  | none => (zeroTag, 0 :: plainBytes text)

def rowDecipher (key : EncryptionKey) (iv : Iv) (tag data : List UInt8) : Option (List Char) :=
  match (rowOf key iv).filter fun r => decide (r.out = (tag, data)) with
  | some r => some r.text
  | none => if tag = zeroTag then some (plainText data.tail) else none

theorem rowOf_out {key : EncryptionKey} {iv : Iv} {r : Row} (h : rowOf key iv = some r) :
    r.out.1.length = TAG_LEN ∧ r.out.2 ≠ [] ∧ r.out.1 ≠ zeroTag := by
  unfold rowOf at h
  split at h
  · obtain rfl := Option.some.inj h
    decide +kernel
  · cases h

theorem row_inverts (key : EncryptionKey) (iv : Iv) (text : List Char) :
    rowDecipher key iv (rowCipher key iv text).1 (rowCipher key iv text).2 = some text := by
  cases hrow : rowOf key iv with
  | none => simp [rowCipher, rowDecipher, hrow, plainText_plainBytes]
  | some r =>
    by_cases htext : r.text = text
    · simp [rowCipher, rowDecipher, hrow, Option.filter, htext]
    · have hne : r.out ≠ (zeroTag, 0 :: plainBytes text) := fun he => (rowOf_out hrow).2.2 (congrArg Prod.fst he)
      simp [rowCipher, rowDecipher, hrow, Option.filter, htext, hne, plainText_plainBytes]

theorem rowCipher_shape (key : EncryptionKey) (iv : Iv) (text : List Char) :
    (rowCipher key iv text).1.length = TAG_LEN ∧ (rowCipher key iv text).2 ≠ [] := by
  unfold rowCipher
  split
  · rename_i r hr
    have hrow := rowOf_out (Option.eq_some_of_filter_eq_some hr)
    exact ⟨hrow.1, hrow.2.1⟩
  · exact ⟨rfl, List.cons_ne_nil _ _⟩

def rowPlatform : Platform where
  sha256 _ := []
  cipher := rowCipher
  decipher := rowDecipher
  authError := "Unsupported state or unable to authenticate data"
  syntaxError _ := "Unexpected end of JSON input"
  tag_length key iv text := (rowCipher_shape key iv text).1
  data_ne_nil key iv text _ := (rowCipher_shape key iv text).2
  decipher_cipher := row_inverts

def storeFile : String := "/app/.orbio/token-store.enc.json"

/-- Process 0 is `pnpm orbio:auth`, the others are workers. -/
def signInProcesses : Processes where
  disk := freshDisk
  provider i := ⟨knownKey, storeFile, 8976, decide (i = 0), false, none⟩

/-- A worker restarts and starts an authorization of its own. -/
def workerTick : List ProcessEvent :=
  [.start 1 8976 false false, .call 1 (.saveCodeVerifier (ofString "other")) 1790000000123 seedIv]

theorem signIn_absent : Holds rowPlatform storeFile knownKey signInProcesses.disk fun _ => none :=
  holds_absent (by decide +kernel)

theorem storeFile_separate : Separate storeFile := by
  unfold Separate
  decide +kernel

theorem sign_in_completes_once :
    let w' := run (processStep rowPlatform storeFile knownKey) signInProcesses
      (.call 0 (.saveCodeVerifier (ofString "pkce-1")) 1790000000123 seedIv :: workerTick)
    (w'.provider 0).codeVerifier rowPlatform w'.disk = .ok (.string (ofString "pkce-1")) := by
  intro w'
  exact (sign_in_completes rowPlatform storeFile knownKey storeFile_separate signInProcesses (fun _ => ⟨rfl, rfl⟩) _
    signIn_absent 0 rfl (ofString "pkce-1") (by decide) 1790000000123 seedIv (by decide +kernel) workerTick
    ⟨Nat.one_ne_zero, ⟨rfl, by simp, by simp⟩, trivial⟩).1

theorem store_refines_once :
    let x := run (trackedStep rowPlatform storeFile knownKey) (signInProcesses, fun _ => none)
      [.call 0 (.saveCodeVerifier (ofString "pkce-1")) 1790000000123 seedIv, .other freshDisk]
    (x.1.provider 0).clientInformation rowPlatform x.1.disk = .ok (x.2 CLIENT_INFORMATION) :=
  ((store_refines rowPlatform storeFile knownKey storeFile_separate signInProcesses (fun _ => ⟨rfl, rfl⟩) _ signIn_absent
    [.call 0 (.saveCodeVerifier (ofString "pkce-1")) 1790000000123 seedIv, .other freshDisk]).2 0).clientInformation

end Sample

end LaunchAuditor.Proofs.OAuthStore
