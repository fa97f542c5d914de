import LaunchAuditor.Db.Reports
import LaunchAuditor.Js
import LaunchAuditor.Lib.Base64
import LaunchAuditor.Lib.Keyset
import LaunchAuditor.Report.Drafts
import Mathlib.Data.Prod.Lex
import Mathlib.Logic.Embedding.Basic

/-! `GET /v1/launches` of `apps/api/src/server.ts`. -/

namespace LaunchAuditor.Api
open Chain Db

/-- Position after which the next page starts: newest-first by block and id. -/
structure LaunchCursor where
  block : Nat
  id : String
  deriving DecidableEq

def LaunchCursor.text (c : LaunchCursor) : String := toString c.block ++ ":" ++ c.id

/-- Opaque to clients. -/
def encodeLaunchCursor (c : LaunchCursor) : String := String.ofList (Base64.encode c.text.toByteArray.data.toList)

def isIdChar (c : Char) : Bool := c.isAlphanum || c == '_' || c == '-'

/-- `[A-Za-z0-9_-]{1,64}` -/
def isIdText (cs : List Char) : Bool := decide (1 ≤ cs.length ∧ cs.length ≤ 64) && cs.all isIdChar

/-- `BigInt` of decimal digits. -/
def bigInt (digits : List Char) : Nat := Nat.ofDigitChars 10 digits 0

/-- `^(\d{1,20}):([A-Za-z0-9_-]{1,64})$`, whose first group can only be all the digits in front. -/
def readCursor (cs : List Char) : Option LaunchCursor :=
  let digits := cs.takeWhile Char.isDigit
  match cs.dropWhile Char.isDigit with
  | [] => none
  | sep :: id =>
    if (1 ≤ digits.length ∧ digits.length ≤ 20) ∧ sep = ':' ∧ isIdText id = true then
      some ⟨bigInt digits, String.ofList id⟩
    else none

/-- In other bytes than those of a text there are replacement characters, and the pattern takes none. -/
def decodeLaunchCursor (s : String) : Option LaunchCursor :=
  (String.fromUTF8? ⟨(Base64.decode s.toList).toArray⟩).bind fun text => readCursor text.toList

/-- `take` and `===` work on a whole number, which the bounds keep positive. -/
def clampLimit (n : Option ℚ) (max : Nat) : Nat :=
  match n with
  | none => 50
  | some x => (min (max : Int) (Max.max 1 (x.num.tdiv x.den))).toNat

structure DetForecast where
  pInsiderExit24h : Option ℚ
  pDrawdown8024h : Option ℚ
  pTradingAlive24h : Option ℚ
  reportHash : Hex

structure LaunchProof where
  committed : Bool
  txHash : Js.Nullish Hex
  committedAt : Js.Nullish String

structure LaunchFeedRow where
  token : String
  source : String
  lane : String
  launchAt : Option String
  /-- block of the pool-creation tx, the feed's sort key -/
  launchBlock : String
  /-- breaks ties within one block -/
  launchId : String
  detV0 : Option DetForecast
  proof : LaunchProof

abbrev LaunchFeedReader := Nat → Option LaunchCursor → List LaunchFeedRow

/-- The columns that the pipeline does not read, by the content of a report and the id of a commit. -/
structure FeedColumns where
  reportHash : ReportContent → Hex
  txHash : String → Option Hex
  committedAt : String → Option Int

section Reader

variable {ι : Type} [LinearOrder ι] (collate : String ↪ ι)

def feedWhere (before : Option LaunchCursor) (l : Launch) : Bool :=
  !l.retrospective && before.all fun c =>
    decide (l.launchBlock < c.block) || (decide (l.launchBlock = c.block) && decide (collate l.id < collate c.id))

/-- `[{ launchBlock: 'desc' }, { id: 'desc' }]`; texts are ordered by the collation of the database. -/
def feedLe (l m : Launch) : Prop :=
  m.launchBlock < l.launchBlock ∨ m.launchBlock = l.launchBlock ∧ collate m.id ≤ collate l.id

instance (l m : Launch) : Decidable (feedLe collate l m) := inferInstanceAs (Decidable (_ ∨ _))

def findLaunches (db : WorkerDb) (limit : Nat) (before : Option LaunchCursor) : List Launch :=
  ((db.launches.filter (feedWhere collate before)).insertionSort (feedLe collate)).take limit

/-- By token, the newest first. -/
def detReports (db : WorkerDb) (tokens : List Address) : List Report :=
  (db.reports.filter fun r => decide (r.tokenAddress ∈ tokens) && decide (r.forecaster = .det_v0)).insertionSort
    fun r s => s.createdAt ≤ r.createdAt

def laneText : Lane → String
  | .index => "index"
  | .qualified => "qualified"

def feedRow (cols : FeedColumns) (db : WorkerDb) (reports : List Report) (l : Launch) : LaunchFeedRow :=
  let r := reports.find? fun r => decide (r.tokenAddress = l.tokenAddress)
  let commit := (r.bind Report.commitId).bind fun id => db.commits.find? fun c => decide (c.id = id)
  { token := Report.addressText l.tokenAddress
    source := l.source
    lane := laneText l.lane
    launchAt := l.launchAt.map Js.toISOString
    launchBlock := toString l.launchBlock
    launchId := l.id
    detV0 := r.map fun r =>
      ⟨r.columns.lookup "pInsiderExit24h", r.columns.lookup "pDrawdown80_24h", r.columns.lookup "pTradingAlive24h",
        cols.reportHash r.content⟩
    proof := match commit with
      | none => ⟨false, .undefined, .undefined⟩
      | some c =>
        let committedAt := (cols.committedAt c.id).map Js.toISOString
        ⟨true, (cols.txHash c.id).elim .null .value, committedAt.elim .null .value⟩ }

def prismaLaunchFeedReader (cols : FeedColumns) (db : WorkerDb) : LaunchFeedReader := fun limit before =>
  let launches := findLaunches collate db limit before
  launches.map (feedRow cols db (detReports db (launches.map Launch.tokenAddress)))

end Reader

structure LaunchesQuery where
  /-- `Number` of the text, none within for what is not finite -/
  limit : Option (Option ℚ)
  before : Option String

structure LaunchesPage where
  count : Nat
  launches : List LaunchFeedRow
  nextCursor : Option String

structure ErrorReply where
  code : Nat
  error : String
  deriving DecidableEq

/-- An empty text is no cursor. -/
def queryCursor (before : Option String) : Except ErrorReply (Option LaunchCursor) :=
  match before with
  | none => .ok none
  | some s =>
    if s = "" then .ok none
    else match decodeLaunchCursor s with
      | none => .error ⟨400, "before must be a nextCursor from a previous page"⟩
      | some c => .ok (some c)

def nextCursorOf (limit : Nat) (launches : List LaunchFeedRow) : Option String :=
  if launches.length = limit then
    launches.getLast?.map fun last => encodeLaunchCursor ⟨bigInt last.launchBlock.toList, last.launchId⟩
  else none

def getLaunches (readLaunchFeed : LaunchFeedReader) (q : LaunchesQuery) : Except ErrorReply LaunchesPage := do
  let limit := clampLimit (q.limit.getD (some 50)) 200
  let before ← queryCursor q.before
  let launches := readLaunchFeed limit before
  return ⟨launches.length, launches, nextCursorOf limit launches⟩

theorem clampLimit_pos (n : Option ℚ) {max : Nat} (h : 0 < max) : 0 < clampLimit n max := by
  cases n with
  | none => exact Nat.zero_lt_succ _
  | some x =>
    simp only [clampLimit]
    omega

section Cursor

/-- What the pattern takes for an id. -/
def IsId (id : String) : Prop := isIdText id.toList = true

instance (id : String) : Decidable (IsId id) := inferInstanceAs (Decidable (_ = true))

/-- `cuid()`: a `c` and twenty-four digits and small letters. -/
def IsCuid (id : String) : Prop :=
  ∃ cs, id.toList = 'c' :: cs ∧ cs.length = 24 ∧ ∀ c ∈ cs, c.isDigit = true ∨ c.isLower = true

theorem IsCuid.isId {id : String} (h : IsCuid id) : IsId id := by
  obtain ⟨cs, hid, hlength, hcs⟩ := h
  have hall : cs.all isIdChar = true := by
    apply List.all_eq_true.mpr
    intro c hc
    have halnum : c.isAlphanum = ((c.isUpper || c.isLower) || c.isDigit) := rfl
    rcases hcs c hc with h | h <;> simp [isIdChar, halnum, h]
  have hfirst : isIdChar 'c' = true := by decide
  simp [IsId, isIdText, hid, hlength, hall, hfirst]

theorem bigInt_toString (n : Nat) : bigInt (toString n).toList = n := by
  change Nat.ofDigitChars 10 n.repr.toList 0 = n
  simp [Nat.repr_eq_ofList_toDigits]

theorem toString_digits (n : Nat) : ∀ c ∈ (toString n).toList, c.isDigit = true := by
  intro c hc
  have hdigits : c ∈ Nat.toDigits 10 n := by
    have hrepr : c ∈ n.repr.toList := hc
    simpa [Nat.repr_eq_ofList_toDigits] using hrepr
  exact Nat.isDigit_of_mem_toDigits (b := 10) (by decide) (by decide) hdigits

theorem toString_length {n : Nat} (h : n < 10 ^ 20) :
    1 ≤ (toString n).toList.length ∧ (toString n).toList.length ≤ 20 := by
  have htext : (toString n).toList = Nat.toDigits 10 n := by
    change n.repr.toList = _
    simp [Nat.repr_eq_ofList_toDigits]
  rw [htext]
  exact ⟨Nat.length_toDigits_pos, (Nat.length_toDigits_le_iff (by decide) (by decide)).mpr h⟩

theorem readCursor_text {c : LaunchCursor} (hblock : c.block < 10 ^ 20) (hid : IsId c.id) :
    readCursor c.text.toList = some c := by
  have htext : c.text.toList = (toString c.block).toList ++ ':' :: c.id.toList := by
    simp [LaunchCursor.text]
  have hdigits := toString_digits c.block
  have htake : c.text.toList.takeWhile Char.isDigit = (toString c.block).toList := by
    rw [htext, List.takeWhile_append_of_pos hdigits]
    simp
  have hdrop : c.text.toList.dropWhile Char.isDigit = ':' :: c.id.toList := by
    rw [htext, List.dropWhile_append_of_pos hdigits]
    simp
  rw [readCursor, htake, hdrop]
  simp only [toString_length hblock, and_self, true_and, bigInt_toString, String.ofList_toList]
  exact if_pos hid

theorem fromUTF8?_toByteArray (s : String) : String.fromUTF8? s.toByteArray = some s := dif_pos s.isValidUTF8

theorem decode_encode {c : LaunchCursor} (hblock : c.block < 10 ^ 20) (hid : IsId c.id) :
    decodeLaunchCursor (encodeLaunchCursor c) = some c := by
  rw [decodeLaunchCursor, encodeLaunchCursor, String.toList_ofList, Base64.decode_encode, Array.toArray_toList]
  exact (congrArg (Option.bind · _) (fromUTF8?_toByteArray c.text)).trans (readCursor_text hblock hid)

end Cursor

end LaunchAuditor.Api
