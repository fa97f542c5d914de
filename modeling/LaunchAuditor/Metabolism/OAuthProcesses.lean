import LaunchAuditor.Lib.Steps
import LaunchAuditor.Metabolism.SessionSeed

/-! `updateOAuthBlob` of `apps/worker/src/metabolism/token-store.ts` and `OrbioAuthProvider` of
`orbio-client.ts`, with several processes on one store. Each call is synchronous; the calls of
different processes do not overlap here. -/

namespace LaunchAuditor.Metabolism
open JsonString (ofString)

/-- `{ ...value }` -/
def spread : OrbioOAuthBlob → Members
  | .object members => members
  | .array items => items.zipIdx.map fun p => (ofString (toString p.2), p.1)
  | .string units => units.zipIdx.map fun p => (ofString (toString p.2), .string [p.1])
  | _ => []

/-- One entry of a patch; null deletes the property. -/
def patchEntry (next : Members) (entry : List UInt16 × OrbioOAuthBlob) : Members :=
  match entry.2 with
  | .null => next.filter fun m => m.1 ≠ entry.1
  | v => JsonValue.put entry.1 v next

def applyPatch (current patch : Members) : Members := patch.foldl patchEntry current

/-- A read-modify-write, without a lock: here nothing else is written between its read and its write, and a write that
throws leaves the file as it was. It returns what it wrote. -/
def updateOAuthBlob (P : Platform) (disk : Disk) (path : String) (key : EncryptionKey) (patch : Members) (now : Int)
    (iv : Iv) : Except String Members × Disk :=
  match readOAuthBlob P disk path key with
  | .error message => (.error message, disk)
  | .ok current =>
    let next := applyPatch (JsonValue.fromMembers (spread current)) patch
    match writeOAuthBlob P disk path key next now iv with
    | (.error message, disk) => (.error message, disk)
    | (.ok _, disk) => (.ok next, disk)

def CLIENT_INFORMATION : List UInt16 := ofString "clientInformation"
def CODE_VERIFIER : List UInt16 := ofString "codeVerifier"
def TOKENS : List UInt16 := ofString "tokens"
def REFRESH_TOKEN : List UInt16 := ofString "refresh_token"
def UPDATED_AT : List UInt16 := ofString "updatedAt"

structure OrbioAuthProvider where
  encryptionKey : EncryptionKey
  storePath : String
  callbackPort : Nat
  /-- whether there is an `onAuthorize` hook -/
  interactive : Bool
  useRefreshToken : Bool
  memoryVerifier : Option (List UInt16)

inductive InvalidationScope
  | all
  | client
  | tokens
  | verifier
  | discovery
  deriving DecidableEq

def invalidationPatch (scope : InvalidationScope) : Members :=
  (if scope = .all ∨ scope = .client then [(CLIENT_INFORMATION, .null)] else []) ++
    (if scope = .all ∨ scope = .tokens then [(TOKENS, .null)] else []) ++
    (if scope = .all ∨ scope = .verifier then [(CODE_VERIFIER, .null)] else [])

namespace OrbioAuthProvider
variable (P : Platform)

def redirectUrl (p : OrbioAuthProvider) : String := s!"http://localhost:{p.callbackPort}/callback"

def read (p : OrbioAuthProvider) (disk : Disk) (name : String) : Except String (Option OrbioOAuthBlob) := do
  let blob ← readOAuthBlob P disk p.storePath p.encryptionKey
  return property blob name

def clientInformation (p : OrbioAuthProvider) (disk : Disk) : Except String (Option OrbioOAuthBlob) :=
  p.read P disk "clientInformation"

/-- The refresh token is one-shot at the server, so it is kept from the SDK unless asked for. -/
def tokens (p : OrbioAuthProvider) (disk : Disk) : Except String (Option OrbioOAuthBlob) := do
  let t ← p.read P disk "tokens"
  match t.filter fun t => truthy (some t) with
  | none => return none
  | some t =>
    if p.useRefreshToken then return some t
    else return some (.object ((JsonValue.fromMembers (spread t)).filter fun m => m.1 ≠ REFRESH_TOKEN))

/-- A process without a browser keeps its verifier in memory. -/
def codeVerifier (p : OrbioAuthProvider) (disk : Disk) : Except String OrbioOAuthBlob := do
  let v ← if p.interactive then p.read P disk "codeVerifier" else .ok (p.memoryVerifier.map .string)
  match v.filter fun v => truthy (some v) with
  | none => throw "No PKCE code verifier on disk — restart `pnpm orbio:auth`."
  | some v => return v

/-- The methods that change something. -/
inductive Call
  | saveClientInformation (info : OrbioOAuthBlob)
  | saveTokens (tokens : OrbioOAuthBlob)
  | saveCodeVerifier (codeVerifier : List UInt16)
  | invalidateCredentials (scope : InvalidationScope)

/-- What a call writes to the disk, if it writes. -/
def patch (p : OrbioAuthProvider) : Call → Option Members
  | .saveClientInformation info => some [(CLIENT_INFORMATION, info)]
  | .saveTokens tokens => some [(TOKENS, tokens)]
  | .saveCodeVerifier v => if p.interactive then some [(CODE_VERIFIER, .string v)] else none
  | .invalidateCredentials scope => if invalidationPatch scope = [] then none else some (invalidationPatch scope)

def remember (p : OrbioAuthProvider) : Call → OrbioAuthProvider
  | .saveCodeVerifier v => { p with memoryVerifier := some v }
  | _ => p

def call (p : OrbioAuthProvider) (c : Call) (disk : Disk) (now : Int) (iv : Iv) :
    Except String Unit × OrbioAuthProvider × Disk :=
  match p.patch c with
  | none => (.ok (), p.remember c, disk)
  | some patch =>
    let (out, disk) := updateOAuthBlob P disk p.storePath p.encryptionKey patch now iv
    (out.map fun _ => (), p.remember c, disk)

/-- An error is the URL that only a browser could open. -/
def redirectToAuthorization (p : OrbioAuthProvider) (authorizationUrl : String) : Except String Unit :=
  if p.interactive then .ok () else .error authorizationUrl

end OrbioAuthProvider

structure Processes where
  disk : Disk
  provider : Nat → OrbioAuthProvider

inductive ProcessEvent
  | call (i : Nat) (c : OrbioAuthProvider.Call) (now : Int) (iv : Iv)
  /-- the lifecycle runner's own fields -/
  | update (patch : Members) (now : Int) (iv : Iv)
  | start (i : Nat) (callbackPort : Nat) (interactive useRefreshToken : Bool)
  /-- anything else on the disk -/
  | other (disk : Disk)

/-- A change of the disk around the store. -/
def Disk.around (disk : Disk) (path : String) (disk' : Disk) : Disk :=
  { disk' with entry := fun p => if p = path then disk.entry path else disk'.entry p }

/-- The updates of different processes do not overlap: each is one step. -/
def processStep (P : Platform) (path : String) (key : EncryptionKey) (w : Processes) : ProcessEvent → Processes
  | .call i c now iv =>
    let (_, p, disk) := (w.provider i).call P c w.disk now iv
    { disk, provider := Function.update w.provider i p }
  | .update patch now iv => { w with disk := (updateOAuthBlob P w.disk path key patch now iv).2 }
  | .start i callbackPort interactive useRefreshToken =>
    { w with provider := Function.update w.provider i ⟨key, path, callbackPort, interactive, useRefreshToken, none⟩ }
  | .other disk => { w with disk := w.disk.around path disk }

end LaunchAuditor.Metabolism
