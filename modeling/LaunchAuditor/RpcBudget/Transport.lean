import LaunchAuditor.RpcBudget.Cache
import LaunchAuditor.Lib.Steps

/-! `packages/rpc-budget/src/transport.ts` before a node whose chain grows. The slot of
the scheduler, the backoff and the network only decide when an attempt reaches the node
and when its reply comes back. -/

namespace LaunchAuditor.RpcBudget

inductive Reply where
  | result (value : Json)
  | error (message : String)

/-- A JSON-RPC node: its states, what adds to its chain, and its answers. -/
structure Node (σ β : Type) where
  extend : σ → β → σ
  /-- the number of the newest block -/
  head : σ → Nat
  answer : σ → String → Json → Reply

def isNull : Json → Bool
  | .null => true
  | _ => false

/-- `rate.?limit`, where the dot is no line terminator. -/
def rateLimit (s : List Char) : Bool :=
  s.tails.any fun t =>
    "ratelimit".toList.isPrefixOf t ||
      ("rate".toList.isPrefixOf t && "limit".toList.isPrefixOf (t.drop 5) &&
        t[4]?.all fun c => c ∉ ['\n', '\r', '\u2028', '\u2029'])

/-- `RATE_LIMITED.test(message)`. -/
def RATE_LIMITED (message : String) : Bool :=
  rateLimit message.toLower.toList ||
    ["too many requests", "429", "network is busy", "try again in a moment", "exceeds defined limit", "-32005",
      "capacity", "throttl"].any (Js.containsText message)

structure BudgetedHttpOptions where
  chainId : Nat
  /-- a cache is given; it is one for all clients of the URL -/
  cache : Bool
  rateLimitRetries : Option Nat
  deriving DecidableEq

/-- `request({ method, params })` of a client. -/
structure RpcCall where
  opts : BudgetedHttpOptions
  method : String
  /-- none when absent or null -/
  params : Option Json

/-- The parameters as the node reads them: absent ones are an empty list. -/
def RpcCall.args (r : RpcCall) : Json := r.params.getD (.arr [])

def RpcCall.key (r : RpcCall) : Option String :=
  if r.opts.cache then cacheKey r.opts.chainId r.method r.args else none

/-- A call inside its slot. -/
structure Waiting (σ : Type) where
  id : Nat
  call : RpcCall
  attempt : Nat
  /-- the reply on its way, with the state in which the node gave it -/
  reply : Option (σ × Reply)

/-- What a call has returned, with the node's state at the moment of its answer. -/
structure Response (σ : Type) where
  call : RpcCall
  node : σ
  value : Json

structure TransportState (σ : Type) where
  node : σ
  cache : ResponseCache Json
  waiting : List (Waiting σ)
  nextId : Nat
  responses : List (Response σ)

inductive TransportEvent (β : Type)
  /-- the chain grows -/
  | grow (block : β)
  | request (call : RpcCall)
  /-- the node handles the attempt of a waiting call -/
  | handle (id : Nat)
  /-- the attempt ends with the reply, or fails on the way with a message -/
  | arrive (id : Nat) (failure : Option String)

namespace TransportState
variable {σ β : Type}

def init (node : σ) (cache : ResponseCache Json) : TransportState σ := ⟨node, cache, [], 0, []⟩

/-- Up to the slot of the scheduler. -/
def request (t : TransportState σ) (call : RpcCall) : TransportState σ :=
  let wait := { t with waiting := t.waiting ++ [⟨t.nextId, call, 0, none⟩], nextId := t.nextId + 1 }
  match call.key with
  | none => wait
  | some key =>
    match t.cache.get key with
    | (some value, cache) => { t with cache, responses := t.responses ++ [⟨call, t.node, value⟩] }
    | (none, _) => wait

/-- From the slot of the scheduler on, for the call the slot was given to. -/
def settle (t : TransportState σ) (w : Waiting σ) (node : σ) : Reply → TransportState σ
  | .result value =>
    let cache :=
      match w.call.key with
      | some key => if isNull value then t.cache else t.cache.set key value
      | none => t.cache
    { t with cache, waiting := t.waiting.filter (·.id ≠ w.id)
             responses := t.responses ++ [⟨w.call, node, value⟩] }
  | .error message =>
    if w.attempt = w.call.opts.rateLimitRetries.getD 4 ∨ !RATE_LIMITED message then
      { t with waiting := t.waiting.filter (·.id ≠ w.id) }
    else
      { t with waiting := t.waiting.map fun v =>
          if v.id = w.id then { v with attempt := v.attempt + 1, reply := none } else v }

/-- Events that cannot happen where the transport is change nothing. -/
def step (node : Node σ β) (t : TransportState σ) : TransportEvent β → TransportState σ
  | .grow block => { t with node := node.extend t.node block }
  | .request call => t.request call
  | .handle id =>
    { t with waiting := t.waiting.map fun w =>
        if w.id = id ∧ w.reply.isNone then
          { w with reply := some (t.node, node.answer t.node w.call.method w.call.args) }
        else w }
  | .arrive id failure =>
    match t.waiting.find? fun w => w.id = id with
    | none => t
    | some w =>
      match failure, w.reply with
      | some message, _ => t.settle w t.node (.error message)
      | none, some (at_, reply) => t.settle w at_ reply
      | none, none => t

end TransportState

end LaunchAuditor.RpcBudget
