import LaunchAuditor.Js
import LaunchAuditor.Lib.Base64
import LaunchAuditor.Lib.JsonValue

/-! `apps/worker/src/metabolism/token-store.ts`: the encrypted store of the OAuth session. -/

namespace LaunchAuditor.Metabolism
open Js (trim)
open JsonString (ofString)

/-- What `JSON.parse` returns under that name: any value. -/
abbrev OrbioOAuthBlob := JsonValue Floating.binary64

/-- The properties of an object. -/
abbrev Members := List (List UInt16 × OrbioOAuthBlob)

def IV_LEN : Nat := 12
def TAG_LEN : Nat := 16

structure EncryptionKey where
  bytes : List UInt8
  length_eq : bytes.length = 32
  deriving DecidableEq

structure Iv where
  bytes : List UInt8
  length_eq : bytes.length = IV_LEN

/-- The engine and its `node:crypto`: AES-256-GCM between texts and bytes, as tag and data, and the
messages of what it throws. -/
structure Platform where
  sha256 : List UInt8 → List UInt8
  cipher : EncryptionKey → Iv → List Char → List UInt8 × List UInt8
  decipher : EncryptionKey → Iv → List UInt8 → List UInt8 → Option (List Char)
  authError : String
  syntaxError : List Char → String
  tag_length : ∀ key iv text, (cipher key iv text).1.length = TAG_LEN
  data_ne_nil : ∀ key iv text, text ≠ [] → (cipher key iv text).2 ≠ []
  decipher_cipher : ∀ key iv text, decipher key iv (cipher key iv text).1 (cipher key iv text).2 = some text

def loadEncryptionKey (base64Key : Option String) : Except String EncryptionKey :=
  match base64Key.filter (· ≠ "") with
  | none => .error "TOKEN_ENCRYPTION_KEY is not set"
  | some text =>
    let key := Base64.decode text.toList
    if h : key.length = 32 then .ok ⟨key, h⟩
    else .error s!"TOKEN_ENCRYPTION_KEY must decode to 32 bytes (got {key.length})"

/-- Wire format: the IV, the tag, the ciphertext. -/
def encryptToken (P : Platform) (plaintext : List Char) (key : EncryptionKey) (iv : Iv) : List Char :=
  let sealed := P.cipher key iv plaintext
  Base64.encodePadded (iv.bytes ++ sealed.1 ++ sealed.2)

def decryptToken (P : Platform) (wire : List Char) (key : EncryptionKey) : Except String (List Char) :=
  let buf := Base64.decode wire
  if h : buf.length < IV_LEN + TAG_LEN + 1 then .error "ciphertext too short"
  else
    let iv : Iv := ⟨buf.take IV_LEN, by rw [List.length_take]; omega⟩
    match P.decipher key iv ((buf.drop IV_LEN).take TAG_LEN) (buf.drop (IV_LEN + TAG_LEN)) with
    | some text => .ok text
    | none => .error P.authError

inductive Entry where
  | file (text : List Char)
  | directory
  deriving DecidableEq

/-- What stands at the paths, and which of the two writing calls would throw, with the message. -/
structure Disk where
  entry : String → Option Entry
  mkdirError : String → Option String
  writeError : String → Option String

namespace Disk

def existsSync (disk : Disk) (path : String) : Bool := (disk.entry path).isSome

/-- `path.dirname` of a path with `/` as its separator. -/
def dirnameChars : List Char → List Char
  | [] => ['.']
  | c :: cs =>
    -- the last separator that something but separators follows; the first character does not count
    match (cs.reverse.dropWhile (· = '/')).dropWhile (· ≠ '/') with
    | [] => if c = '/' then ['/'] else ['.']
    | _ :: front => if c = '/' ∧ front = [] then ['/', '/'] else c :: front.reverse

def dirname (path : String) : String := String.ofList (dirnameChars path.toList)

/-- The directory and those above it. -/
def ancestors (dir : String) : List String := (List.range (dir.length + 1)).map fun n => dirname^[n] dir

/-- `mkdirSync(dir, { recursive: true })`, where it does not throw. -/
def mkdir (disk : Disk) (dir : String) : Disk :=
  { disk with entry := fun p => if p ∈ ancestors dir then some ((disk.entry p).getD .directory) else disk.entry p }

def write (disk : Disk) (path : String) (text : List Char) : Disk :=
  { disk with entry := fun p => if p = path then some (.file text) else disk.entry p }

end Disk

def STORE_FILENAME : String := "token-store.enc.json"

/-- The path of an absolute directory, given by its names. -/
def pathOf (names : List String) : String := "/" ++ "/".intercalate names

/-- The directory `n` levels up at most that has the workspace file. -/
def findRootFrom (disk : Disk) : Nat → List String → Option (List String)
  | 0, _ => none
  | n + 1, dir =>
    if disk.existsSync (pathOf (dir ++ ["pnpm-workspace.yaml"])) then some dir
    else if dir = [] then none
    else findRootFrom disk n dir.dropLast

def findRepoRoot (disk : Disk) (startDir : List String) : List String := (findRootFrom disk 8 startDir).getD startDir

/-- The variables that the store and its seeding read. -/
structure SeedEnv where
  ORBIO_SESSION_SEED : Option String
  TOKEN_ENCRYPTION_KEY : Option String
  ORBIO_TOKEN_STORE : Option String

/-- `x?.trim()` where it is truthy. -/
def trimmed (x : Option String) : Option (List Char) := (x.map fun s => trim s.toList).filter (· ≠ [])

def tokenStorePath (env : SeedEnv) (disk : Disk) (cwd : List String) : String :=
  match trimmed env.ORBIO_TOKEN_STORE with
  | some override => String.ofList override
  | none => pathOf (findRepoRoot disk cwd ++ [".orbio", STORE_FILENAME])

/-- `JSON.parse` -/
def jsonParse (P : Platform) (text : List Char) : Except String OrbioOAuthBlob :=
  match JsonValue.parse text with
  | none => .error (P.syntaxError text)
  | some value => .ok value

/-- `blob ?? {}` -/
def orEmpty : OrbioOAuthBlob → OrbioOAuthBlob
  | .null => .object []
  | blob => blob

/-- An absent store is an empty blob. -/
def readOAuthBlob (P : Platform) (disk : Disk) (path : String) (key : EncryptionKey) : Except String OrbioOAuthBlob :=
  match disk.entry path with
  | none => .ok (.object [])
  | some .directory => .error "EISDIR: illegal operation on a directory, read"
  | some (.file text) =>
    if trim text = [] then .ok (.object [])
    else do
      let plain ← decryptToken P (trim text) key
      let blob ← jsonParse P plain
      return orEmpty blob

/-- `{ ...blob, updatedAt }` -/
def stamped (blob : Members) (now : Int) : OrbioOAuthBlob :=
  .object (JsonValue.put (ofString "updatedAt") (.string (ofString (Js.toISOString now))) blob)

def writeOAuthBlob (P : Platform) (disk : Disk) (path : String) (key : EncryptionKey) (blob : Members) (now : Int)
    (iv : Iv) : Except String Unit × Disk :=
  match disk.mkdirError (Disk.dirname path) with
  | some message => (.error message, disk)
  | none =>
    let disk := disk.mkdir (Disk.dirname path)
    let wire := encryptToken P (stamped blob now).stringify key iv
    match disk.writeError path with
    | some message => (.error message, disk)
    | none => (.ok (), disk.write path (wire ++ ['\n']))

end LaunchAuditor.Metabolism
