import LaunchAuditor.Hex
import LaunchAuditor.Js
import Mathlib.Algebra.Order.Floor.Ring
import Mathlib.Data.List.Pairwise

/-! `apps/worker/src/metabolism/credit-wallet.ts`: when to activate CREDIT and how much,
and what of it the chain has seen. -/

namespace LaunchAuditor.Metabolism

structure ProtocolAddresses where
  credit : Hex
  staking : Option Hex

/-- The complete list of protocol calls the agent wallet is allowed to make. -/
def assertAllowedCall (to_ : Hex) (functionName : String) (addr : ProtocolAddresses) : Except String Unit :=
  let t := to_.toLowerCase
  if (t = addr.credit.toLowerCase ∧ functionName = "activate") ∨
      (addr.staking.map Hex.toLowerCase = some t ∧ functionName = "claim") then .ok ()
  else
    .error (s!"refusing {functionName} on {to_.toString}: the agent wallet may only call CREDIT.activate and " ++
      "Staking.claim")

structure ActivationInputs where
  apiBalanceUsd : ℚ
  creditHeldUsd : ℚ
  lowWaterUsd : ℚ
  chunkUsd : ℚ
  activatedTodayUsd : ℚ
  dailyCapUsd : ℚ
  /-- an earlier activation has not shown up in the API balance yet -/
  pending : Bool
  /-- `⊤` for `Infinity`, `none` for null -/
  msSinceLastActivation : Option (WithTop ℚ)
  keepWarmAfterMs : Option ℚ

inductive ActivationDecision
  | skip (reason : String)
  | activate (amountUsd : ℚ) (reason : String)
  deriving DecidableEq

def DEFAULT_KEEP_WARM_MS : ℚ := 20 * 3600000

def CreditWallet.usd (n : ℚ) : String := "$" ++ Js.toFixed 2 n

/-- `x.toFixed(1)` in hours. -/
def hoursText : WithTop ℚ → String
  | ⊤ => "Infinity"
  | (x : ℚ) => Js.toFixed 1 (x / 3600000)

namespace ActivationInputs

def keepWarmMs (i : ActivationInputs) : ℚ := i.keepWarmAfterMs.getD DEFAULT_KEEP_WARM_MS

def stale (i : ActivationInputs) : Bool := i.msSinceLastActivation.all fun ms => decide ((i.keepWarmMs : WithTop ℚ) ≤ ms)

def capLeft (i : ActivationInputs) : ℚ := i.dailyCapUsd - i.activatedTodayUsd

def amountUsd (i : ActivationInputs) : ℚ := ⌊min (min i.chunkUsd i.creditHeldUsd) i.capLeft * 1000000⌋ / 1000000

end ActivationInputs

def activationDecision (i : ActivationInputs) : ActivationDecision :=
  let keepWarmText := toString (Js.mathRound (i.keepWarmMs / 3600000))
  if i.pending then .skip "previous activation not yet reflected in the API balance"
  else if i.apiBalanceUsd ≥ i.lowWaterUsd ∧ !i.stale then
    .skip s!"API balance {CreditWallet.usd i.apiBalanceUsd} ≥ activation low-water {CreditWallet.usd i.lowWaterUsd}"
  else if i.creditHeldUsd ≤ 0 then .skip "wallet holds no CREDIT to activate"
  else if i.capLeft ≤ 0 then
    .skip s!"daily activation cap {CreditWallet.usd i.dailyCapUsd} reached ({CreditWallet.usd i.activatedTodayUsd} today)"
  else if i.amountUsd < 1 / 100 then .skip s!"activatable amount {CreditWallet.usd i.amountUsd} too small"
  else
    let why :=
      if i.stale then
        let since := match i.msSinceLastActivation with
          | none => "never activated"
          | some ms => s!"{hoursText ms}h since last activation"
        s!"keep-warm: {since} ≥ {keepWarmText}h (property 2's accrual window would otherwise go cold)"
      else s!"API balance {CreditWallet.usd i.apiBalanceUsd} < low-water {CreditWallet.usd i.lowWaterUsd}"
    .activate i.amountUsd s!"{why}; activating {CreditWallet.usd i.amountUsd} of {CreditWallet.usd i.creditHeldUsd} CREDIT held"

/-- What an activation says of its inputs. -/
theorem activationDecision_activate {i : ActivationInputs} {amount : ℚ} {reason : String}
    (h : activationDecision i = .activate amount reason) :
    i.pending = false ∧ (i.apiBalanceUsd < i.lowWaterUsd ∨ i.stale = true) ∧ 0 < i.creditHeldUsd ∧
      amount = i.amountUsd ∧ 1 / 100 ≤ amount := by
  unfold activationDecision at h
  dsimp only at h
  split at h
  · cases h
  · rename_i hpending
    split at h
    · cases h
    · rename_i hlow
      split at h
      · cases h
      · rename_i hheld
        split at h
        · cases h
        · split at h
          · cases h
          · rename_i hsmall
            obtain ⟨rfl, _⟩ := ActivationDecision.activate.inj h
            refine ⟨by simpa using hpending, ?_, not_le.mp hheld, rfl, not_lt.mp hsmall⟩
            by_cases hs : i.stale = true
            · exact Or.inr hs
            · exact Or.inl (not_le.mp fun hge => hlow ⟨hge, by simpa using hs⟩)

theorem amountUsd_le (i : ActivationInputs) : i.amountUsd ≤ i.capLeft := by
  unfold ActivationInputs.amountUsd
  rw [div_le_iff₀ (by norm_num)]
  calc (⌊min (min i.chunkUsd i.creditHeldUsd) i.capLeft * 1000000⌋ : ℚ) ≤
      min (min i.chunkUsd i.creditHeldUsd) i.capLeft * 1000000 := Int.floor_le _
    _ ≤ i.capLeft * 1000000 := by
      apply mul_le_mul_of_nonneg_right (min_le_right _ _)
      norm_num

/-- An `Activated` event of the CREDIT contract; amounts have six decimals. -/
structure Activated where
  source : Hex
  beneficiary : Hex
  amount : Nat
  deriving DecidableEq

structure Block where
  timestamp : Int
  activated : List Activated

/-- The blocks up to the head, each at the place of its number. -/
structure Chain where
  blocks : List Block
  nonempty : blocks ≠ []
  ordered : blocks.Pairwise fun a b => a.timestamp ≤ b.timestamp

structure BlockInfo where
  number : Nat
  timestamp : Int

namespace Chain

def headNumber (c : Chain) : Nat := c.blocks.length - 1

def headTimestamp (c : Chain) : Int := (c.blocks.getLast c.nonempty).timestamp

/-- `getBlock()` -/
def head (c : Chain) : BlockInfo := ⟨c.headNumber, c.headTimestamp⟩

/-- `getBlock({ blockNumber })` of a block up to the head. -/
def getBlock (c : Chain) (number : Nat) : BlockInfo :=
  ⟨number, (c.blocks[number]?.map Block.timestamp).getD c.headTimestamp⟩

/-- `getContractEvents` of the `Activated` events that match. -/
def getContractEvents (c : Chain) (args : Activated → Bool) (fromBlock toBlock : Nat) : List Activated :=
  (((c.blocks.take (toBlock + 1)).drop fromBlock).flatMap Block.activated).filter args

theorem timestamp_le_head (c : Chain) {b : Block} (hb : b ∈ c.blocks) : b.timestamp ≤ c.headTimestamp :=
  c.ordered.rel_getLast hb

/-- One more block, not dated before the head. -/
def extend (c : Chain) (b : Block) (h : c.headTimestamp ≤ b.timestamp) : Chain where
  blocks := c.blocks ++ [b]
  nonempty := by simp
  ordered := by
    refine List.pairwise_append.mpr ⟨c.ordered, List.pairwise_singleton .., ?_⟩
    intro a ha b' hb'
    rw [List.mem_singleton.mp hb']
    exact (c.timestamp_le_head ha).trans h

/-- What the blocks from a number on have activated. -/
def amountFrom (c : Chain) (args : Activated → Bool) (number : Nat) : Nat :=
  ((((c.blocks.drop number).flatMap Block.activated).filter args).map Activated.amount).sum

end Chain

/-- The blocks between `targetSec` and the head at the pace of two known blocks, two per cent added. -/
def blocksSince (targetSec : Int) (head ref : BlockInfo) : ℚ :=
  let secs := Js.double (head.timestamp - ref.timestamp : Int)
  let perSec := Js.double (Js.double (head.number - ref.number : Int) / secs)
  Js.double (Js.double (Js.double (Js.double head.timestamp - targetSec) * perSec) * Js.double (102 / 100))

/-- First block at or after `targetSec`, interpolated from two known blocks. -/
def estimateBlockAt (targetSec : Int) (head ref : BlockInfo) : Nat :=
  if Js.double (head.timestamp - ref.timestamp : Int) ≤ 0 ∨ (targetSec : ℚ) ≥ Js.double head.timestamp then head.number
  else
    -- rounded away from the target so that the window does not start after it
    let back := ⌈blocksSince targetSec head ref⌉
    if head.number > back then (head.number - back).toNat else 0

/-- The doubles make it one block more than the exact numbers do. -/
example : estimateBlockAt 913600 ⟨1000000, 1000000⟩ ⟨990000, 993200⟩ = 870399 := by decide +kernel

/-- The ranges of the scan. `fuel` bounds their number; a positive `maxRange` needs one a block at most. -/
def ranges (maxRange head : Nat) : Nat → Nat → List (Nat × Nat)
  | 0, _ => []
  | fuel + 1, fromBlock =>
    if fromBlock ≤ head then
      let toBlock := if fromBlock + maxRange - 1 > head then head else fromBlock + maxRange - 1
      (fromBlock, toBlock) :: ranges maxRange head fuel (toBlock + 1)
    else []

def formatUnits6 (raw : Nat) : ℚ := raw / 1000000

/-- `parseUnits(amountUsd.toFixed(6), 6)` -/
def parseUnits6 (amountUsd : ℚ) : Nat := (Js.mathRound (amountUsd * 1000000)).toNat

/-- `ref`, the block ten thousand before the head. -/
def Chain.ref (c : Chain) : BlockInfo := c.getBlock (if c.head.number > 10000 then c.head.number - 10000 else 0)

def scanStart (c : Chain) (sinceSec : Int) : Nat := estimateBlockAt sinceSec c.head c.ref

/-- Σ `Activated.amount` matching `args`, from `sinceSec` to head. Only blocks up to the
head are asked for, so it does not matter how far the chain has grown when they are. -/
def sumActivatedSince (c : Chain) (sinceSec : Int) (args : Activated → Bool) (maxRange : Nat) : ℚ :=
  let start := scanStart c sinceSec
  let logs := (ranges maxRange c.head.number (c.head.number + 1 - start) start).flatMap fun r =>
    c.getContractEvents args r.1 r.2
  formatUnits6 (logs.map Activated.amount).sum

/-- The UTC midnight before a time in milliseconds, in seconds. -/
def midnightSec (now : Int) : Int := now / 86400000 * 86400

def activatedTodayUsd (c : Chain) (wallet : Hex) (maxRange : Nat) (now : Int) : ℚ :=
  sumActivatedSince c (midnightSec now) (fun a => a.source = wallet) maxRange

/-- Which of the requests of a scan fail. -/
structure ScanReads where
  head : Option String
  ref : Option String
  getContractEvents : Nat × Nat → Option String

/-- The `Activated` events whose beneficiary is the account. -/
def accrues (account : Hex) (a : Activated) : Bool := a.beneficiary = account.toLowerCase

/-- A day before `now`, in whole seconds. -/
def daySince (now : Int) : Int := now / 1000 - 86400

/-- Credits accrued in the trailing 24h; the first request that fails ends the scan. -/
def trailingCreditsUsd (c : Chain) (wallet : Hex) (maxRange : Nat) (now : Int) (reads : ScanReads) : Except String ℚ :=
  match reads.head, reads.ref with
  | some e, _ => .error e
  | none, some e => .error e
  | none, none =>
    let start := scanStart c (daySince now)
    match (ranges maxRange c.head.number (c.head.number + 1 - start) start).findSome? reads.getContractEvents with
    | some e => .error e
    | none => .ok (sumActivatedSince c (daySince now) (accrues wallet) maxRange)

/-- Two neighbouring ranges are one. -/
theorem getContractEvents_append (c : Chain) (args : Activated → Bool) {fromBlock toBlock last : Nat}
    (hfrom : fromBlock ≤ toBlock + 1) (hto : toBlock ≤ last) :
    c.getContractEvents args fromBlock toBlock ++ c.getContractEvents args (toBlock + 1) last =
      c.getContractEvents args fromBlock last := by
  unfold Chain.getContractEvents
  rw [← List.filter_append, ← List.flatMap_append]
  congr 2
  have htake : c.blocks.take (toBlock + 1) = (c.blocks.take (last + 1)).take (toBlock + 1) := by
    rw [List.take_take, min_eq_left (by omega)]
  rw [htake]
  generalize c.blocks.take (last + 1) = blocks
  calc (blocks.take (toBlock + 1)).drop fromBlock ++ blocks.drop (toBlock + 1) =
      (blocks.take (toBlock + 1) ++ blocks.drop (toBlock + 1)).drop fromBlock := by
        rw [List.drop_append]
        congr 1
        rcases Nat.le_total blocks.length (toBlock + 1) with hshort | hlong
        · simp [List.drop_eq_nil_of_le hshort]
        · rw [List.length_take, min_eq_left hlong, Nat.sub_eq_zero_of_le hfrom, List.drop_zero]
    _ = blocks.drop fromBlock := by rw [List.take_append_drop]

/-- What is collected range by range is what one range to the head collects. -/
theorem ranges_flatMap {α : Type} (f : Nat → Nat → List α) {maxRange last : Nat} (hrange : 0 < maxRange)
    (hpast : ∀ n, last < n → f n last = [])
    (hjoin : ∀ n m, n ≤ m + 1 → m ≤ last → f n m ++ f (m + 1) last = f n last) (fuel fromBlock : Nat)
    (hfuel : last + 1 - fromBlock ≤ fuel) :
    ((ranges maxRange last fuel fromBlock).flatMap fun r => f r.1 r.2) = f fromBlock last := by
  induction fuel generalizing fromBlock with
  | zero => exact (hpast fromBlock (by omega)).symm
  | succ fuel ih =>
    unfold ranges
    split
    · rename_i hle
      dsimp only
      generalize hto : (if fromBlock + maxRange - 1 > last then last else fromBlock + maxRange - 1) = toBlock
      have hbounds : fromBlock ≤ toBlock ∧ toBlock ≤ last := by
        split at hto
        · omega
        · omega
      rw [List.flatMap_cons, ih (toBlock + 1) (by omega)]
      exact hjoin fromBlock toBlock (by omega) hbounds.2
    · rename_i hgt
      exact (hpast fromBlock (by omega)).symm

/-- Every block from the start to the head is in one range. -/
theorem ranges_events (c : Chain) (args : Activated → Bool) {maxRange last : Nat} (hrange : 0 < maxRange) (fuel fromBlock : Nat)
    (hfuel : last + 1 - fromBlock ≤ fuel) :
    ((ranges maxRange last fuel fromBlock).flatMap fun r => c.getContractEvents args r.1 r.2) =
      c.getContractEvents args fromBlock last := by
  apply ranges_flatMap (c.getContractEvents args) hrange _ _ fuel fromBlock hfuel
  · intro n hn
    have hlen : (c.blocks.take (last + 1)).length ≤ n := by
      rw [List.length_take]
      omega
    simp [Chain.getContractEvents, List.drop_eq_nil_of_le hlen]
  · exact fun n m hn hm => getContractEvents_append c args hn hm

theorem sumActivatedSince_eq (c : Chain) (sinceSec : Int) (args : Activated → Bool) {maxRange : Nat}
    (hrange : 0 < maxRange) :
    sumActivatedSince c sinceSec args maxRange = formatUnits6 (c.amountFrom args (scanStart c sinceSec)) := by
  unfold sumActivatedSince
  dsimp only
  rw [ranges_events c args hrange _ _ le_rfl]
  have hall : c.blocks.take (c.head.number + 1) = c.blocks := by
    apply List.take_of_length_le
    simp only [Chain.head, Chain.headNumber]
    omega
  rw [Chain.getContractEvents, hall, Chain.amountFrom]

end LaunchAuditor.Metabolism
