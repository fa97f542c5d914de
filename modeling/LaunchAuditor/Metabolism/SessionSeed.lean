import LaunchAuditor.Metabolism.TokenStore

/-! `apps/worker/src/metabolism/session-seed.ts`: the session that is shipped as a variable and
written to the store of a container. -/

namespace LaunchAuditor.Metabolism
open JsonString (ofString)

def SESSION_SEED_ENV : String := "ORBIO_SESSION_SEED"

def SEED_VERSION : String := "v1"

/-- The digits of bytes in hex. -/
def hexDigits (bytes : List UInt8) : List Char :=
  bytes.flatMap fun b => [Nat.digitChar (b.toNat / 16), Nat.digitChar (b.toNat % 16)]

/-- Eight digits that say which key, and not the key. -/
def encryptionKeyFingerprint (P : Platform) (key : EncryptionKey) : List Char := (hexDigits (P.sha256 key.bytes)).take 8

/-- In a condition; `none` is undefined. -/
def truthy : Option OrbioOAuthBlob → Bool
  | none => false
  | some .null => false
  | some (.bool b) => b
  | some (.number (.finite x)) => x.units ≠ 0
  | some (.number (.infinite _)) => true
  | some (.string s) => s ≠ []
  | some (.array _) => true
  | some (.object _) => true

/-- A property that only an object can have; null throws before it gets here. -/
def property (blob : OrbioOAuthBlob) (name : String) : Option OrbioOAuthBlob :=
  match blob with
  | .object members => JsonValue.lookup members (ofString name)
  | _ => none

/-- What is safe to seed: the client registration and the access token. -/
def sessionOnly (blob : OrbioOAuthBlob) : Except String Members :=
  match blob with
  | .null => .error "Cannot read properties of null (reading 'tokens')"
  | _ =>
    match property blob "tokens" with
    | some (.object tokens) =>
      if truthy (property (.object tokens) "access_token") then
        match property blob "clientInformation" with
        | some client =>
          if truthy (some client) then
            .ok [(ofString "clientInformation", client),
              (ofString "tokens", .object (tokens.filter fun m => m.1 ≠ ofString "refresh_token"))]
          else .error "the local token store holds no client registration — run \x60pnpm orbio:auth\x60 first"
        | none => .error "the local token store holds no client registration — run \x60pnpm orbio:auth\x60 first"
      else .error "the local token store holds no access token — run \x60pnpm orbio:auth\x60 first"
    -- nothing but an object has an access token
    | _ => .error "the local token store holds no access token — run \x60pnpm orbio:auth\x60 first"

def buildSessionSeed (P : Platform) (blob : OrbioOAuthBlob) (key : EncryptionKey) (iv : Iv) : Except String (List Char) := do
  let session ← sessionOnly blob
  let wire := encryptToken P (JsonValue.object session : OrbioOAuthBlob).stringify key iv
  return SEED_VERSION.toList ++ '.' :: (encryptionKeyFingerprint P key ++ '.' :: wire)

structure SeedResult where
  seeded : Bool
  reason : String
  deriving DecidableEq

/-- The second `try`: the seed's blob, stripped again. -/
def openSeed (P : Platform) (wire : List Char) (key : EncryptionKey) : Except String Members := do
  let plain ← decryptToken P wire key
  let blob ← jsonParse P plain
  sessionOnly blob

def notSeeded (reason : String) : Except String SeedResult := .ok { seeded := false, reason }

/-- With the disk it leaves; an error is what it throws. -/
def seedTokenStoreFromEnv (P : Platform) (env : SeedEnv) (cwd : List String) (now : Int) (iv : Iv) (disk : Disk) :
    Except String SeedResult × Disk :=
  match trimmed env.ORBIO_SESSION_SEED with
  | none => (notSeeded s!"{SESSION_SEED_ENV} not set", disk)
  | some raw =>
    let path := tokenStorePath env disk cwd
    if disk.existsSync path then
      (notSeeded s!"a token store already exists at {path} — seed ignored, never clobbered", disk)
    else
      match loadEncryptionKey env.TOKEN_ENCRYPTION_KEY with
      | .error message => (notSeeded s!"cannot seed: {message}", disk)
      | .ok key =>
        match raw.splitOn '.' with
        | [version, wantFp, wire] =>
          if version ≠ SEED_VERSION.toList then
            (notSeeded s!"cannot seed: {SESSION_SEED_ENV} is not a {SEED_VERSION} seed", disk)
          else
            let haveFp := encryptionKeyFingerprint P key
            if wantFp ≠ haveFp then
              (notSeeded (s!"cannot seed: encrypted for TOKEN_ENCRYPTION_KEY {String.ofList wantFp}, " ++
                s!"this worker has {String.ofList haveFp}"), disk)
            else
              match openSeed P wire key with
              | .error message => (notSeeded s!"cannot seed: {message}", disk)
              | .ok blob =>
                match writeOAuthBlob P disk path key blob now iv with
                | (.error message, disk) => (notSeeded s!"cannot seed: {message}", disk)
                | (.ok (), disk) =>
                  (.ok { seeded := true,
                         reason := s!"wrote a session-only token store to {path} (no gateway key, no refresh token)" },
                    disk)
        | _ => (notSeeded s!"cannot seed: {SESSION_SEED_ENV} is not a {SEED_VERSION} seed", disk)

end LaunchAuditor.Metabolism
