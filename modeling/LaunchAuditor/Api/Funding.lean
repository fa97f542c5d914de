import LaunchAuditor.Metabolism.CreditWallet
import Mathlib.Data.List.Sort

/-! `apps/api/src/funding.ts`. Calls that overlap share one refresh, so that one is taken after
the other; the chain is that of the last of them, and an earlier one may see less of it. -/

namespace LaunchAuditor.Api.Funding
open Metabolism

/-- A `FundingActivation` without `by`. -/
structure FundingRow where
  activationId : String
  amountUsd : ℚ
  /-- `from` -/
  source : Hex
  blockNumber : Nat
  /-- `at`, as the time in milliseconds that it is the ISO text of -/
  atMs : Option Int
  txHash : String
  deriving DecidableEq

inductive FundedBy
  | agent
  | operator
  deriving DecidableEq, Repr

structure FundingActivation extends FundingRow where
  fundedBy : FundedBy
  deriving DecidableEq

structure FundingFigures where
  totalActivatedUsd : ℚ
  byOperatorUsd : ℚ
  byAgentUsd : ℚ
  trailingCreditsUsd : ℚ
  activations : List FundingActivation

def round6 (n : ℚ) : ℚ := Js.roundTo 1000000 n

/-- Activated at or after the cutoff; a row without a time is not. -/
def recent (nowMs : Int) (r : FundingRow) : Bool := r.atMs.any fun t => nowMs - 86400000 ≤ t

def fundedBy (account : Hex) (r : FundingRow) : FundedBy :=
  if r.source.toLowerCase = account.toLowerCase then .agent else .operator

def sumUsd (activations : List FundingActivation) (p : FundingActivation → Bool) : ℚ :=
  round6 ((activations.filter p).map fun a => a.amountUsd).sum

def summarizeFunding (account : Hex) (rows : List FundingRow) (nowMs : Int) : FundingFigures :=
  let activations := (rows.map fun r => FundingActivation.mk r (fundedBy account r)).insertionSort fun a b =>
    b.blockNumber ≤ a.blockNumber
  { totalActivatedUsd := sumUsd activations fun _ => true
    byOperatorUsd := sumUsd activations fun a => a.fundedBy = .operator
    byAgentUsd := sumUsd activations fun a => a.fundedBy = .agent
    trailingCreditsUsd := sumUsd activations fun a => recent nowMs a.toFundingRow
    activations }

/-- `ApiEnv`, the part the reader needs, and what the logs say besides their amounts:
the id and the transaction of the i-th activation of a block. -/
structure FundingEnv where
  orbioAgentAccount : Hex
  fundingFromBlock : Nat
  label : Nat → Nat → String × String

structure ReaderState where
  rows : List FundingRow
  /-- `scannedTo + 1n` -/
  next : Nat
  lastRefresh : Int

def FundingEnv.start (env : FundingEnv) : ReaderState := ⟨[], env.fundingFromBlock, 0⟩

/-- What the node answers to one refresh. -/
structure RefreshIo where
  /-- how many blocks of the chain are still to come, if the head is read -/
  head : Option Nat
  /-- whether the logs of the range that begins at a block are read -/
  getLogs : Nat → Bool
  /-- whether the block of its i-th activation is read -/
  getBlock : Nat → Nat → Bool
  doneAt : Int

variable (env : FundingEnv) (c : Chain)

/-- The matching activations of one block. -/
def activationsAt (n : Nat) : List Activated :=
  ((c.blocks[n]?.map Block.activated).getD []).filter (accrues env.orbioAgentAccount)

def fundingRow (dated : Bool) (n i : Nat) (a : Activated) : FundingRow where
  activationId := (env.label n i).1
  amountUsd := formatUnits6 a.amount
  source := a.source
  blockNumber := n
  atMs := if dated then some ((c.getBlock n).timestamp * 1000) else none
  txHash := (env.label n i).2

/-- The rows of one block. -/
def rowsAt (getBlock : Nat → Nat → Bool) (n : Nat) : List FundingRow :=
  (activationsAt env c n).zipIdx.map fun p => fundingRow env c (getBlock n p.2) n p.2 p.1

/-- A refresh from one range to the next, until one cannot be read. -/
def scan (io : RefreshIo) : List (Nat × Nat) → ReaderState → Bool × ReaderState
  | [], st => (true, st)
  | r :: rest, st =>
    if io.getLogs r.1 then
      scan io rest { st with
        rows := st.rows ++ (List.range' r.1 (r.2 + 1 - r.1)).flatMap (rowsAt env c io.getBlock), next := r.2 + 1 }
    else (false, st)

/-- Whether it has come to its end, and what it leaves. -/
def refresh (io : RefreshIo) (st : ReaderState) : Bool × ReaderState :=
  match io.head with
  | none => (false, st)
  | some later =>
    let head := c.headNumber - later
    match scan env c io (ranges 9999 head (head + 1 - st.next) st.next) st with
    | (true, st) => (true, { st with lastRefresh := io.doneAt })
    | (false, st) => (false, st)

structure Call where
  /-- when the reader is called, and when the figures are drawn up -/
  calledAt : Int
  io : RefreshIo
  nowMs : Int

/-- A call of the reader; it throws when the refresh does. -/
def chainFundingReader (st : ReaderState) (call : Call) : Option FundingFigures × ReaderState :=
  if call.calledAt - st.lastRefresh > 60000 then
    match refresh env c call.io st with
    | (true, st) => (some (summarizeFunding env.orbioAgentAccount st.rows call.nowMs), st)
    | (false, st) => (none, st)
  else (some (summarizeFunding env.orbioAgentAccount st.rows call.nowMs), st)

end LaunchAuditor.Api.Funding
