import LaunchAuditor.Report.Drafts
import Mathlib.Data.List.Sort

/-! `apps/worker/src/telegram/poster.ts`. The poster goes from one settled `await` to the next;
it may be restarted at any of them, and other jobs change the tables in between. -/

namespace LaunchAuditor.Telegram
open Chain Db Report

structure TelegramCandidateRow where
  /-- stands for `id` and `reportHash` -/
  report : ReportContent
  tokenAddress : Address
  reportTime : Int
  pInsiderExit24h : Option ℚ
  pTradingAlive24h : Option ℚ
  txHash : Option String
  committedAt : Option Int
  deriving DecidableEq

structure PeerScores where
  insiderExit24h : List ℚ
  tradingAlive24h : List ℚ

/-- Fewer peers than this and a tier would be too coarse to mean anything. -/
def MIN_PEERS : Nat := 20

/-- A report committed later than this after its anchor is not new. -/
def MAX_COMMIT_LAG_MS : Int := 30 * 60000

def CANDIDATE_WINDOW_MS : Int := 60 * 60000

def PEER_WINDOW_MS : Int := 24 * 3600000

/-- What the row of a commit holds from its creation on. -/
structure CommitStamp where
  txHash : Option String
  committedAt : Option Int

/-- The tables, the commits by their id, and the column `telegramPostedAt`. -/
structure FeedDb extends WorkerDb where
  stamps : String → CommitStamp
  postedAt : List (ReportContent × Int)

def FeedDb.posted (db : FeedDb) (report : ReportContent) : Bool := db.postedAt.any fun p => p.1 = report

/-- `launch: { lane: 'qualified', retrospective: false }` -/
def FeedDb.qualified (db : FeedDb) (r : Db.Report) : Bool :=
  (r.launchId.bind db.toWorkerDb.launch).any fun l => l.lane = .qualified && !l.retrospective

def FeedDb.row (db : FeedDb) (r : Db.Report) : TelegramCandidateRow where
  report := r.content
  tokenAddress := r.tokenAddress
  reportTime := r.reportTime
  pInsiderExit24h := r.columns.lookup "pInsiderExit24h"
  pTradingAlive24h := r.columns.lookup "pTradingAlive24h"
  txHash := r.commitId.bind fun id => (db.stamps id).txHash
  committedAt := r.commitId.bind fun id => (db.stamps id).committedAt

/-- No job marks a report itself as retrospective, so that only its launch is asked. -/
def FeedDb.isCandidate (db : FeedDb) (now : Int) (r : Db.Report) : Bool :=
  r.forecaster = .det_v0 && !db.posted r.content && r.commitId.isSome && now - CANDIDATE_WINDOW_MS ≤ r.reportTime &&
    db.qualified r

/-- `prismaCandidateReader`, ties in stored order -/
def FeedDb.readCandidates (db : FeedDb) (now : Int) (limit : Nat) : List TelegramCandidateRow :=
  (((db.reports.filter (db.isCandidate now)).insertionSort fun a b => a.createdAt ≤ b.createdAt).take limit).map db.row

/-- `prismaPeerReader` -/
def FeedDb.readPeers (db : FeedDb) (reportTime : Int) : PeerScores :=
  let peers := db.reports.filter fun r =>
    r.forecaster = .det_v0 && reportTime - PEER_WINDOW_MS ≤ r.reportTime && r.reportTime < reportTime && db.qualified r
  ⟨peers.filterMap fun r => r.columns.lookup "pInsiderExit24h", peers.filterMap fun r => r.columns.lookup "pTradingAlive24h"⟩

/-- `prismaMarkPosted` -/
def FeedDb.markPosted (db : FeedDb) (report : ReportContent) (now : Int) : FeedDb :=
  { db with postedAt := db.postedAt ++ [(report, now)] }

inductive Tier
  | top10
  | top25
  | middle
  | bottom25
  deriving DecidableEq, Repr

/-- Where `value` falls among `peers`, ties counting half. -/
def rankTier (value : Option ℚ) (peers : List ℚ) : Option Tier :=
  value.bind fun value =>
    if peers.length < MIN_PEERS then none
    else
      let share := ((peers.countP (· < value) : ℚ) + (peers.countP (· = value) : ℚ) / 2) / peers.length
      some (if 9 / 10 ≤ share then .top10 else if 3 / 4 ≤ share then .top25 else if 1 / 4 ≤ share then .middle else .bottom25)

def INSIDER_LABEL : Tier → String
  | .top10 => "top 10% riskiest"
  | .top25 => "top 25% riskiest"
  | .middle => "middle half"
  | .bottom25 => "bottom 25% (least risky)"

def ALIVE_LABEL : Tier → String
  | .top10 => "top 10% most likely"
  | .top25 => "top 25% most likely"
  | .middle => "middle half"
  | .bottom25 => "bottom 25% (least likely)"

/-- Posted only when the batch is committed soon after the anchor of the report. -/
def isFresh (row : TelegramCandidateRow) : Bool :=
  row.committedAt.any fun committedAt => committedAt - row.reportTime ≤ MAX_COMMIT_LAG_MS

/-- `apiBase?.replace(/\/$/, '')` -/
def trimSlash (apiBase : String) : String :=
  if apiBase.toList.getLast? = some '/' then String.ofList apiBase.toList.dropLast else apiBase

structure PosterDeps where
  explorer : String
  apiBase : Option String
  limit : Nat
  hashText : ReportContent → String

def formatTelegramMessage (row : TelegramCandidateRow) (peers : PeerScores) (deps : PosterDeps) : String :=
  let api := (deps.apiBase.map trimSlash).filter (· ≠ "")
  let insider := rankTier row.pInsiderExit24h peers.insiderExit24h
  let alive := rankTier row.pTradingAlive24h peers.tradingAlive24h
  let peerCount := max peers.insiderExit24h.length peers.tradingAlive24h.length
  let insiderText := (insider.map INSIDER_LABEL).getD "not ranked"
  let aliveText := (alive.map ALIVE_LABEL).getD "not ranked"
  let benchmark := (api.map (· ++ "/v1/benchmark")).getD "see the dashboard"
  let hash := deps.hashText row.report
  "\n".intercalate (
    [s!"New qualified launch: {addressText row.tokenAddress}"] ++
    (if insider.isSome || alive.isSome then
      [s!"Insider exit within 24h: {insiderText}", s!"Still trading at 24h: {aliveText}",
        s!"Ranked against the {peerCount} qualified launches in the previous 24h."]
    else [s!"Not ranked: fewer than {MIN_PEERS} qualified launches in the previous 24h to compare against."]) ++
    [s!"Ranking only: these scores are not calibrated probabilities. Benchmark: {benchmark}"] ++
    (api.map fun api => s!"Verify this forecast: {api}/v1/receipt/{hash}").toList ++
    [((row.txHash.filter (· ≠ "")).map fun txHash =>
        s!"Batch anchor (many reports, one Merkle root): {deps.explorer}/tx/{txHash}").getD "Proof: pending next commit batch",
      s!"Report hash: {hash}"] ++
    (row.committedAt.map fun committedAt =>
      let lagMin := max 0 (Js.mathRound (((committedAt - row.reportTime : Int) : ℚ) / 60000))
      s!"Committed {lagMin} min after its T+10m anchor · reproducible scorer").toList)

structure PosterSweepResult where
  candidates : Nat
  /-- committed too long after their anchor -/
  stale : Nat
  posted : Nat
  failed : Nat
  deriving DecidableEq

/-- Where the poster waits; a sweep that has no row left returns its result. -/
inductive Poster
  | stopped
  | posting (rows : List TelegramCandidateRow) (result : PosterSweepResult)
  /-- the message is sent, and `markPosted` is called -/
  | marking (row : TelegramCandidateRow) (rows : List TelegramCandidateRow) (result : PosterSweepResult)

/-- A message in the channel. -/
structure Post where
  row : TelegramCandidateRow
  text : String
  deriving DecidableEq

structure Feed where
  db : FeedDb
  poster : Poster
  channel : List Post

/-- How the reading of the peers and the request to Telegram end. -/
inductive SendEnd
  | sent
  /-- the peers cannot be read, or the request does not reach the channel -/
  | refused
  /-- the message is in the channel although the request is seen to fail -/
  | unanswered
  deriving DecidableEq

def PosterSweepResult.addFailed (r : PosterSweepResult) : PosterSweepResult := { r with failed := r.failed + 1 }

def PosterSweepResult.addPosted (r : PosterSweepResult) : PosterSweepResult := { r with posted := r.posted + 1 }

/-- A sweep begins once the one before it has returned. -/
def Feed.sweep (deps : PosterDeps) (f : Feed) (now : Int) : Feed :=
  match f.poster with
  | .stopped | .posting [] _ =>
    let all := f.db.readCandidates now (deps.limit * 10)
    let fresh := all.filter isFresh
    { f with poster := .posting (fresh.take deps.limit) ⟨all.length, all.length - fresh.length, 0, 0⟩ }
  | _ => f

def Feed.deliver (deps : PosterDeps) (f : Feed) (row : TelegramCandidateRow) : Feed :=
  { f with channel := f.channel ++ [⟨row, formatTelegramMessage row (f.db.readPeers row.reportTime) deps⟩] }

def Feed.send (deps : PosterDeps) (f : Feed) (e : SendEnd) : Feed :=
  match f.poster with
  | .posting (row :: rows) result =>
    match e with
    | .sent => { f.deliver deps row with poster := .marking row rows result }
    | .refused => { f with poster := .posting rows result.addFailed }
    | .unanswered => { f.deliver deps row with poster := .posting rows result.addFailed }
  | _ => f

def Feed.mark (f : Feed) (w : WriteEnd) (now : Int) : Feed :=
  match f.poster with
  | .marking row rows result =>
    { f with
      db := if w.applied then f.db.markPosted row.report now else f.db
      poster := .posting rows (if w.acknowledged then result.addPosted else result.addFailed) }
  | _ => f

/-- Another process takes over with nothing but the tables. -/
def Feed.restart (f : Feed) : Feed := { f with poster := .stopped }

end LaunchAuditor.Telegram
