import LaunchAuditor.Outcomes.Context
import LaunchAuditor.Js

/-! `apps/worker/src/outcomes/quote.ts` -/

namespace LaunchAuditor.Outcomes
open Chain

inductive QuoteError
  | revert
  | archive
  | network
  deriving DecidableEq, Repr

def QuoteError.text : QuoteError → String
  | .revert => "revert"
  | .archive => "archive"
  | .network => "network"

inductive QuoteOutcome
  | ok (amountOut : Nat)
  | failed (error : QuoteError) (message : String)
  deriving DecidableEq

/-- The rest of a text after the first occurrence of a part. -/
def afterPart (part : List Char) : List Char → Option (List Char)
  | [] => if part = [] then some [] else none
  | c :: cs => if part.isPrefixOf (c :: cs) then some ((c :: cs).drop part.length) else afterPart part cs

/-- `a.*b`: the parts follow one another within a line. -/
def partsInLine : List (List Char) → List Char → Bool
  | [], _ => true
  | part :: parts, line =>
    match afterPart part line with
    | none => false
    | some rest => partsInLine parts rest

def lines (s : List Char) : List (List Char) := s.splitOnP fun c => c ∈ ['\n', '\r', '\u2028', '\u2029']

def containsParts (parts : List String) (s : String) : Bool :=
  (lines s.toLower.toList).any (partsInLine (parts.map String.toList))

def ARCHIVE_RE (message : String) : Bool :=
  ["missing trie node", "header not found", "no historical", "not available", "pruned", "could not be found",
      "getdeletestateobject", "required historical state"].any (Js.containsText message) ||
    [["missing", "state"], ["missing", "archive"], ["state", "not", "available"], ["block ", " not found"]].any
      (containsParts · message)

/-- `0x[0-9a-f]*$` -/
def endsInHex (s : List Char) : Bool :=
  s.tails.any fun t => "0x".toList.isPrefixOf t && (t.drop 2).all fun c => c.isDigit || c ∈ ['a', 'b', 'c', 'd', 'e', 'f']

def REVERT_RE (message : String) : Bool :=
  ["revert", "execution reverted", "vm exception", "invalid opcode", "out of gas"].any (Js.containsText message) ||
    endsInHex message.toLower.toList

def NETWORK_RE (message : String) : Bool :=
  ["timeout", "etimedout", "econnreset", "econnrefused", "socket hang up", "network", "fetch failed", "429"].any
    (Js.containsText message)

def classifyQuoteError (e : RpcError) : QuoteError :=
  if ARCHIVE_RE e.message then .archive
  else if NETWORK_RE e.message then .network
  else if REVERT_RE e.message then .revert
  else .network

/-- The n-th quote of a resolution. -/
def quoteExactInSingle (client : ResolveClient) (n : Nat) (call : QuoteCall) : QuoteOutcome :=
  match client.quote n call with
  | .ok amountOut => .ok amountOut
  | .error e => .failed (classifyQuoteError e) e.message

/-- `zeroForOne` for selling `token` into `quote` -/
def sellDirection (token quote : Address) : Bool := token < quote

/-- `q.message.split('\n')[0].slice(0, 200)` -/
def firstLine (message : String) : String := String.ofList ((message.toList.takeWhile (· ≠ '\n')).take 200)

end LaunchAuditor.Outcomes
