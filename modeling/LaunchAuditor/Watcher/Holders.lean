import LaunchAuditor.Lib.OrderedMap
import LaunchAuditor.Watcher.Erc20
import Mathlib.Algebra.Ring.Int.Defs
import Mathlib.Data.List.Sort
import Mathlib.Data.Rat.Defs

/-! `apps/worker/src/watcher/holders.ts` -/

namespace LaunchAuditor.Watcher
open Chain

/-- A token with more logs is a quote asset. -/
def MAX_HOLDER_LOGS : Nat := 20000

structure HolderStats where
  clusterSupplyPct : Option ℚ
  top10NoncreatorPct : Option ℚ
  totalSupply : Option Nat
  holderCount : Option Nat

def HolderStats.empty : HolderStats := ⟨none, none, none, none⟩

structure HolderParams where
  request : GetLogs
  totalSupply : Except RpcError Nat
  token : Address
  fromBlock : Nat
  toBlock : Nat
  maxRange : Nat
  creator : Address
  cluster : List Address
  /-- pool or PoolManager, not a holder -/
  liquiditySource : Address

def bump (addr : Address) (delta : Int) (bal : List (Address × Int)) : List (Address × Int) :=
  if addr = ZERO_ADDRESS then bal else OrderedMap.alter addr (fun b => b.getD 0 + delta) bal

/-- Net balances, by the Transfer logs. -/
def balancesOf (logs : List RpcLog) : List (Address × Int) :=
  logs.foldl (fun bal log =>
    match log.topics[1]?, log.topics[2]? with
    | some from_, some to_ =>
      let value : Int := transferValue log.data
      bump (topicToAddress to_) value (bump (topicToAddress from_) (-value) bal)
    | _, _ => bal) []

/-- None for too many logs. -/
def reconstructBalances (request : GetLogs) (token : Address) (fromBlock toBlock maxRange : Nat) :
    Except RpcError (Option (List (Address × Int))) := do
  let logs ← getLogsChunked request ⟨[token], [some [TRANSFER_TOPIC0]], fromBlock, toBlock⟩ maxRange
  return if logs.length > MAX_HOLDER_LOGS then none else some (balancesOf logs)

/-- To 12 places. -/
def supplyPct (part totalSupply : Nat) : ℚ := (part * 100 * 10 ^ 12 / totalSupply : Nat) / 10 ^ 12

def computeHolderStats (p : HolderParams) : HolderStats :=
  match reconstructBalances p.request p.token p.fromBlock p.toBlock p.maxRange with
  | .error _ | .ok none => HolderStats.empty
  | .ok (some balances) =>
    match p.totalSupply with
    | .error _ => HolderStats.empty
    | .ok totalSupply =>
      if totalSupply = 0 then { HolderStats.empty with totalSupply := some totalSupply }
      else
        let positive := balances.filter fun b => decide (0 < b.2)
        let clusterBal := ((positive.filter fun b => decide (b.1 ∈ p.cluster)).map Prod.snd).sum
        let holders := positive.filter fun b => decide (b.1 ≠ p.creator ∧ b.1 ≠ p.liquiditySource)
        let top10 := (((holders.insertionSort fun a b => b.2 ≤ a.2).take 10).map Prod.snd).sum
        ⟨some (supplyPct clusterBal.toNat totalSupply), some (supplyPct top10.toNat totalSupply), some totalSupply,
          some holders.length⟩

end LaunchAuditor.Watcher
