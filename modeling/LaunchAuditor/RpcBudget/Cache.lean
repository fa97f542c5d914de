import LaunchAuditor.Js
import LaunchAuditor.Lib.Json

/-! `packages/rpc-budget/src/cache.ts`. -/

namespace LaunchAuditor.RpcBudget

def IMMUTABLE_METHODS : List String :=
  ["eth_chainId", "eth_getTransactionByHash", "eth_getTransactionReceipt", "eth_getBlockByHash",
    "eth_getBlockByNumber", "eth_getCode", "eth_getBalance", "eth_getTransactionCount", "eth_getStorageAt",
    "eth_call", "eth_getLogs"]

mutual

def sortKeys : Json → Json
  | .arr items => .arr (sortItems items)
  | .obj members => .obj ((sortMembers members).insertionSort fun a b => Js.keyLe a.1 b.1)
  | value => value

def sortItems : List Json → List Json
  | [] => []
  | value :: items => sortKeys value :: sortItems items

/-- An assignment to `__proto__` makes no property. -/
def sortMembers : List (String × Json) → List (String × Json)
  | [] => []
  | (k, value) :: members =>
    if k = "__proto__" then sortMembers members else (k, sortKeys value) :: sortMembers members

end

def stableStringify (value : Json) : String := String.ofList (sortKeys value).text

/-- `MOVING_TAG.test(json)`. -/
def MOVING_TAG (json : String) : Bool :=
  ["latest", "pending", "safe", "finalized", "earliest"].any fun tag =>
    decide (Json.quoted tag <:+: json.toList)

/-- A property of what may be no object at all. -/
def property (key : String) : Json → Option Json
  | .obj members => (members.find? fun m => m.1 = key).map (·.2)
  | _ => none

def arrayOf : Json → List Json
  | .arr items => items
  | _ => []

/-- A string that starts with `0x`. -/
def hexText : Option Json → Bool
  | some (.str s) => ['0', 'x'].isPrefixOf s.toList
  | _ => false

def isCacheable (method : String) (params : Json) : Bool :=
  if method ∉ IMMUTABLE_METHODS then false
  else if MOVING_TAG (stableStringify params) then false
  else if method = "eth_getLogs" then hexText ((arrayOf params).head?.bind (property "toBlock"))
  else if method ∈ ["eth_getCode", "eth_getBalance", "eth_getTransactionCount", "eth_call", "eth_getStorageAt",
      "eth_getBlockByNumber"] then hexText (arrayOf params).getLast?
  else true

def cacheKey (chainId : Nat) (method : String) (params : Json) : Option String :=
  if isCacheable method params then some (toString chainId ++ "|" ++ method ++ "|" ++ stableStringify params)
  else none

/-- The map lists its entries in the order in which they were made. -/
structure ResponseCache (ν : Type) where
  maxEntries : Nat := 20000
  map : List (String × ν) := []
  hits : Nat := 0
  misses : Nat := 0

namespace ResponseCache
variable {ν : Type}

def lookup (c : ResponseCache ν) (key : String) : Option ν := (c.map.find? fun e => e.1 = key).map (·.2)

def has (c : ResponseCache ν) (key : String) : Bool := (c.lookup key).isSome

def get (c : ResponseCache ν) (key : String) : Option ν × ResponseCache ν :=
  (c.lookup key, if c.has key then { c with hits := c.hits + 1 } else { c with misses := c.misses + 1 })

def set (c : ResponseCache ν) (key : String) (value : ν) : ResponseCache ν :=
  if c.has key then c
  else
    -- the oldest entry goes when there is one
    let kept := if c.map.length ≥ c.maxEntries then c.map.tail else c.map
    { c with map := kept ++ [(key, value)] }

@[simp] theorem get_map (c : ResponseCache ν) (key : String) : (c.get key).2.map = c.map := by
  unfold get
  dsimp only
  split <;> rfl

theorem lookup_mem {c : ResponseCache ν} {key : String} {value : ν} (h : c.lookup key = some value) :
    (key, value) ∈ c.map := by
  obtain ⟨e, he, hv⟩ := Option.map_eq_some_iff.mp h
  have hkey : e.1 = key := by simpa using List.find?_some he
  have hmem := List.mem_of_find?_eq_some he
  rwa [← hkey, ← hv]

/-- Nothing enters the map but what is set under a new key. -/
theorem mem_set {c : ResponseCache ν} {key : String} {value : ν} {e : String × ν} (h : e ∈ (c.set key value).map) :
    e ∈ c.map ∨ (c.has key = false ∧ e = (key, value)) := by
  unfold set at h
  split at h
  · exact Or.inl h
  · rename_i hnew
    rcases List.mem_append.mp h with h | h
    · left
      split at h
      · exact List.mem_of_mem_tail h
      · exact h
    · exact Or.inr ⟨by simpa using hnew, List.mem_singleton.mp h⟩

end ResponseCache

theorem split_bar {a b x y : List Char} (ha : '|' ∉ a) (hb : '|' ∉ b) (h : a ++ '|' :: x = b ++ '|' :: y) :
    a = b ∧ x = y := by
  induction a generalizing b with
  | nil =>
    cases b with
    | nil => exact ⟨rfl, (List.cons.inj h).2⟩
    | cons d b =>
      have hd : '|' = d := (List.cons.inj h).1
      exact absurd (hd ▸ List.mem_cons_self) hb
  | cons c a ih =>
    cases b with
    | nil =>
      have hc : c = '|' := (List.cons.inj h).1
      exact absurd (hc ▸ List.mem_cons_self) ha
    | cons d b =>
      obtain ⟨hcd, hrest⟩ := List.cons.inj h
      obtain ⟨hab, hxy⟩ := ih (fun hm => ha (by simp [hm])) (fun hm => hb (by simp [hm])) hrest
      exact ⟨by rw [hcd, hab], hxy⟩

theorem bar_notMem_number (n : Nat) : '|' ∉ (toString n).toList := by
  intro h
  have hdigits : '|' ∈ Nat.toDigits 10 n := by simpa using h
  have hdigit := Nat.isDigit_of_mem_toDigits (by decide) (by decide) hdigits
  exact absurd hdigit (by decide)

theorem bar_notMem_method : ∀ m ∈ IMMUTABLE_METHODS, '|' ∉ m.toList := by decide +kernel

theorem isCacheable_method {method : String} {params : Json} (h : isCacheable method params) :
    method ∈ IMMUTABLE_METHODS := by
  unfold isCacheable at h
  split at h
  · cases h
  · rename_i hm
    exact not_not.mp hm

/-- The key determines the method, and the parameters up to the order of members. -/
theorem cacheKey_inj {i j : Nat} {m n : String} {p q : Json} {key : String} (hp : cacheKey i m p = some key)
    (hq : cacheKey j n q = some key) : m = n ∧ sortKeys p = sortKeys q := by
  unfold cacheKey at hp hq
  split at hp
  · rename_i hcp
    split at hq
    · rename_i hcq
      have htext := congrArg String.toList ((Option.some.inj hp).trans (Option.some.inj hq).symm)
      simp only [String.toList_append, stableStringify, List.append_assoc] at htext
      obtain ⟨_, hrest⟩ := split_bar (bar_notMem_number i) (bar_notMem_number j) htext
      obtain ⟨hmethod, hparams⟩ := split_bar (bar_notMem_method m (isCacheable_method hcp))
        (bar_notMem_method n (isCacheable_method hcq)) hrest
      refine ⟨String.toList_injective hmethod, Json.text_injective ?_⟩
      simpa using hparams
    · cases hq
  · cases hp

end LaunchAuditor.RpcBudget
