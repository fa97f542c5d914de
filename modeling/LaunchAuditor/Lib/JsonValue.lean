import LaunchAuditor.Lib.Floating
import LaunchAuditor.Lib.JsonString

/-! JSON values as a program holds them: numbers are floating-point numbers, strings are code
units, and an object lists its array indices first. What is written and what is read. -/

inductive JsonValue (F : Floating) where
  | null
  | bool (b : Bool)
  | number (x : Floating.Number F)
  | string (s : List UInt16)
  | array (items : List (JsonValue F))
  | object (members : List (List UInt16 × JsonValue F))

namespace JsonValue

variable {F : Floating}

/-- A key that is an array index, as a number. -/
def arrayIndex (key : List UInt16) : Option Nat :=
  let n := key.foldl (fun n u => 10 * n + (u.toNat - 48)) 0
  if key ≠ [] ∧ key.all (fun u => 48 ≤ u.toNat && u.toNat ≤ 57) ∧ (key.head? = some 48 → key.length = 1) ∧
      n < 4294967295 then some n
  else none

/-- A new key is listed in front of the other one. -/
def before (key other : List UInt16) : Bool :=
  match arrayIndex key, arrayIndex other with
  | some m, some n => m < n
  | some _, none => true
  | none, _ => false

section Members
variable {α : Type}

/-- A key that is there keeps its place. -/
def put (key : List UInt16) (a : α) : List (List UInt16 × α) → List (List UInt16 × α)
  | [] => [(key, a)]
  | m :: ms =>
    if m.1 = key then (key, a) :: ms
    else if before key m.1 then (key, a) :: m :: ms
    else m :: put key a ms

def fromMembers (ms : List (List UInt16 × α)) : List (List UInt16 × α) :=
  ms.foldl (fun acc m => put m.1 m.2 acc) []

/-- Keys that differ, in the order of an object. -/
def Ordered (ms : List (List UInt16 × α)) : Prop := ms.Pairwise fun a b => a.1 ≠ b.1 ∧ before b.1 a.1 = false

instance (ms : List (List UInt16 × α)) : Decidable (Ordered ms) := inferInstanceAs (Decidable (List.Pairwise _ ms))

def lookup (ms : List (List UInt16 × α)) (key : List UInt16) : Option α := (ms.find? fun m => m.1 == key).map Prod.snd

theorem put_last {key : List UInt16} {a : α} {ms : List (List UInt16 × α)}
    (h : ∀ m ∈ ms, m.1 ≠ key ∧ before key m.1 = false) : put key a ms = ms ++ [(key, a)] := by
  induction ms with
  | nil => rfl
  | cons m ms ih =>
    obtain ⟨⟨hne, hafter⟩, hms⟩ := List.forall_mem_cons.mp h
    rw [put, if_neg hne, hafter, if_neg (by simp), ih hms, List.cons_append]

theorem foldl_put {acc ms : List (List UInt16 × α)} (h : Ordered (acc ++ ms)) :
    ms.foldl (fun acc m => put m.1 m.2 acc) acc = acc ++ ms := by
  induction ms generalizing acc with
  | nil => simp
  | cons m ms ih =>
    have hlast : put m.1 m.2 acc = acc ++ [m] := by
      apply put_last
      intro b hb
      exact (List.pairwise_append.mp h).2.2 b hb m (by simp)
    rw [List.foldl_cons, hlast, ih (by simpa using h)]
    simp

theorem fromMembers_of_ordered {ms : List (List UInt16 × α)} (h : Ordered ms) : fromMembers ms = ms :=
  foldl_put h

theorem mem_put_key {key k : List UInt16} {a : α} {ms : List (List UInt16 × α)} (h : k ∈ (put key a ms).map Prod.fst) :
    k = key ∨ k ∈ ms.map Prod.fst := by
  induction ms with
  | nil => simpa [put] using h
  | cons m ms ih =>
    rw [put] at h
    split_ifs at h with heq hbefore
    · rcases List.mem_cons.mp h with h | h
      · exact Or.inl h
      · exact Or.inr (List.mem_cons_of_mem _ h)
    · exact List.mem_cons.mp h
    · rcases List.mem_cons.mp h with h | h
      · exact Or.inr (List.mem_cons.mpr (Or.inl h))
      · exact (ih h).imp_right (List.mem_cons_of_mem _)

theorem foldl_put_keys {k : List UInt16} {acc ms : List (List UInt16 × α)}
    (h : k ∈ (ms.foldl (fun acc m => put m.1 m.2 acc) acc).map Prod.fst) : k ∈ acc.map Prod.fst ∨ k ∈ ms.map Prod.fst := by
  induction ms generalizing acc with
  | nil => exact Or.inl h
  | cons m ms ih =>
    rcases ih h with hput | hms
    · rcases mem_put_key hput with rfl | hacc
      · exact Or.inr (by simp)
      · exact Or.inl hacc
    · exact Or.inr (List.mem_cons_of_mem _ hms)

theorem lookup_mem {key : List UInt16} {a : α} {ms : List (List UInt16 × α)} (h : lookup ms key = some a) :
    (key, a) ∈ ms := by
  obtain ⟨m, hm, rfl⟩ := Option.map_eq_some_iff.mp h
  have hkey : (m.1 == key) = true := by simpa using List.find?_some hm
  rw [← eq_of_beq hkey]
  exact List.mem_of_find?_eq_some hm

theorem lookup_none {key : List UInt16} {ms : List (List UInt16 × α)} (h : key ∉ ms.map Prod.fst) :
    lookup ms key = none := by
  rw [lookup, Option.map_eq_none_iff, List.find?_eq_none]
  intro m hm he
  exact h (List.mem_map.mpr ⟨m, hm, eq_of_beq he⟩)

/-- Properties of another key do not matter. -/
theorem lookup_filter {key other : List UInt16} (h : key ≠ other) (ms : List (List UInt16 × α)) :
    lookup (ms.filter fun m => m.1 ≠ other) key = lookup ms key := by
  induction ms with
  | nil => rfl
  | cons m ms ih =>
    simp only [lookup] at ih ⊢
    by_cases hother : m.1 = other
    · have hkey : (m.1 == key) = false := beq_eq_false_iff_ne.mpr fun he => h (he.symm.trans hother)
      rw [List.filter_cons_of_neg (by simp [hother]), ih, List.find?_cons_of_neg (by simp [hkey])]
    · rw [List.filter_cons_of_pos (by simp [hother]), List.find?_cons, List.find?_cons]
      cases m.1 == key with
      | true => rfl
      | false => exact ih

/-- An object has no key that its text has not. -/
theorem fromMembers_keys {k : List UInt16} {ms : List (List UInt16 × α)} (h : k ∈ (fromMembers ms).map Prod.fst) :
    k ∈ ms.map Prod.fst :=
  (foldl_put_keys h).resolve_left (by simp)

/-- A value that is put is found, and nothing else changes. -/
theorem lookup_put (key k : List UInt16) (a : α) (ms : List (List UInt16 × α)) :
    lookup (put key a ms) k = if k = key then some a else lookup ms k := by
  have hcons : ∀ (m : List UInt16 × α) ms, lookup (m :: ms) k = if k = m.1 then some m.2 else lookup ms k := by
    intro m ms
    by_cases hk : k = m.1
    · simp [lookup, hk]
    · have hne : (m.1 == k) = false := beq_eq_false_iff_ne.mpr (Ne.symm hk)
      simp [lookup, hne, hk]
  induction ms with
  | nil => simp [put, hcons]
  | cons m ms ih =>
    rw [put]
    by_cases heq : m.1 = key
    · rw [if_pos heq, hcons, hcons, heq]
      split <;> rfl
    · rw [if_neg heq]
      split
      · rw [hcons]
      · rw [hcons, hcons, ih]
        by_cases hk : k = m.1
        · rw [if_pos hk, if_pos hk, if_neg (fun h => heq (hk.symm.trans h))]
        · rw [if_neg hk, if_neg hk]

theorem mem_put {key : List UInt16} {a : α} {ms : List (List UInt16 × α)} {m : List UInt16 × α} (h : m ∈ put key a ms) :
    m = (key, a) ∨ m ∈ ms := by
  induction ms with
  | nil => simpa [put] using h
  | cons b ms ih =>
    rw [put] at h
    split_ifs at h with heq hbefore
    · rcases List.mem_cons.mp h with h | h
      · exact Or.inl h
      · exact Or.inr (List.mem_cons_of_mem _ h)
    · exact List.mem_cons.mp h
    · rcases List.mem_cons.mp h with h | h
      · exact Or.inr (List.mem_cons.mpr (Or.inl h))
      · exact (ih h).imp_right (List.mem_cons_of_mem _)

/-- What stands in front of a key stands in front of all that does not precede it. -/
theorem before_of_not_before {key k l : List UInt16} (h : before key k = true) (hl : before l k = false) :
    key ≠ l ∧ before l key = false := by
  refine ⟨fun he => by simp [← he, h] at hl, ?_⟩
  unfold before at h hl ⊢
  cases hkey : arrayIndex key <;> cases hk : arrayIndex k <;> cases hother : arrayIndex l <;> simp_all
  omega

/-- An object stays one when a property is set. -/
theorem Ordered.put {ms : List (List UInt16 × α)} (h : Ordered ms) (key : List UInt16) (a : α) :
    Ordered (JsonValue.put key a ms) := by
  induction ms with
  | nil => exact List.pairwise_singleton _ _
  | cons m ms ih =>
    obtain ⟨hm, hms⟩ := List.pairwise_cons.mp h
    rw [JsonValue.put]
    split_ifs with heq hbefore
    · refine List.pairwise_cons.mpr ⟨?_, hms⟩
      rw [← heq]
      exact hm
    · have hself : before m.1 m.1 = false := by
        unfold before
        cases arrayIndex m.1 <;> simp
      refine List.pairwise_cons.mpr ⟨?_, h⟩
      intro b hb
      rcases List.mem_cons.mp hb with rfl | hb
      · exact before_of_not_before hbefore hself
      · exact before_of_not_before hbefore (hm b hb).2
    · refine List.pairwise_cons.mpr ⟨?_, ih hms⟩
      intro b hb
      rcases mem_put hb with rfl | hb
      · exact ⟨heq, by simpa using hbefore⟩
      · exact hm b hb

theorem ordered_fromMembers (ms : List (List UInt16 × α)) : Ordered (fromMembers ms) := by
  have hfold : ∀ acc : List (List UInt16 × α), Ordered acc → Ordered (ms.foldl (fun acc m => put m.1 m.2 acc) acc) := by
    induction ms with
    | nil => exact fun acc h => h
    | cons m ms ih => exact fun acc h => ih _ (h.put m.1 m.2)
  exact hfold [] .nil

theorem mem_fromMembers {ms : List (List UInt16 × α)} {m : List UInt16 × α} (h : m ∈ fromMembers ms) : m ∈ ms := by
  have hfold : ∀ acc : List (List UInt16 × α), m ∈ ms.foldl (fun acc m => put m.1 m.2 acc) acc → m ∈ acc ∨ m ∈ ms := by
    clear h
    induction ms with
    | nil => exact fun acc h => Or.inl h
    | cons b ms ih =>
      intro acc h
      rcases ih _ h with h | h
      · rcases mem_put h with rfl | h
        · exact Or.inr (by simp)
        · exact Or.inl h
      · exact Or.inr (List.mem_cons_of_mem _ h)
  exact (hfold [] h).resolve_left (by simp)

end Members

mutual

/-- Infinities are written as null. -/
def stringify : JsonValue F → List Char
  | null => ['n', 'u', 'l', 'l']
  | bool true => ['t', 'r', 'u', 'e']
  | bool false => ['f', 'a', 'l', 's', 'e']
  | number (.finite x) => x.literal.text
  | number (.infinite _) => ['n', 'u', 'l', 'l']
  | string s => '"' :: JsonString.text s
  | array items => '[' :: stringifyItems [] items
  | object members => '\x7b' :: stringifyMembers [] members

/-- The items with the separator in front of the first of them, and the bracket. -/
def stringifyItems (sep : List Char) : List (JsonValue F) → List Char
  | [] => [']']
  | v :: vs => sep ++ (v.stringify ++ stringifyItems [','] vs)

def stringifyMembers (sep : List Char) : List (List UInt16 × JsonValue F) → List Char
  | [] => ['\x7d']
  | (k, v) :: ms => sep ++ ('"' :: (JsonString.text k ++ ':' :: (v.stringify ++ stringifyMembers [','] ms)))

end

mutual

/-- What is left of a value that is written and read. -/
def normal : JsonValue F → JsonValue F
  | null => null
  | bool b => bool b
  | number (.finite x) => number (.finite x)
  | number (.infinite _) => null
  | string s => string s
  | array items => array (normalItems items)
  | object members => object (fromMembers (normalMembers members))

def normalItems : List (JsonValue F) → List (JsonValue F)
  | [] => []
  | v :: vs => v.normal :: normalItems vs

def normalMembers : List (List UInt16 × JsonValue F) → List (List UInt16 × JsonValue F)
  | [] => []
  | (k, v) :: ms => (k, v.normal) :: normalMembers ms

end

mutual

/-- A value without infinities, its objects in order. -/
def proper : JsonValue F → Bool
  | null => true
  | bool _ => true
  | number (.finite _) => true
  | number (.infinite _) => false
  | string _ => true
  | array items => properItems items
  | object members => decide (Ordered members) && properMembers members

def properItems : List (JsonValue F) → Bool
  | [] => true
  | v :: vs => v.proper && properItems vs

def properMembers : List (List UInt16 × JsonValue F) → Bool
  | [] => true
  | (_, v) :: ms => v.proper && properMembers ms

end

mutual

theorem normal_of_proper (v : JsonValue F) (h : v.proper) : v.normal = v := by
  match v with
  | null => rfl
  | bool b => rfl
  | number (.finite x) => rfl
  | number (.infinite negative) => cases h
  | string s => rfl
  | array items => rw [normal, normalItems_of_proper items h]
  | object members =>
    simp only [proper, Bool.and_eq_true, decide_eq_true_eq] at h
    rw [normal, normalMembers_of_proper members h.2, fromMembers_of_ordered h.1]

theorem normalItems_of_proper (vs : List (JsonValue F)) (h : properItems vs) : normalItems vs = vs := by
  match vs with
  | [] => rfl
  | v :: vs =>
    simp only [properItems, Bool.and_eq_true] at h
    rw [normalItems, normal_of_proper v h.1, normalItems_of_proper vs h.2]

theorem normalMembers_of_proper (ms : List (List UInt16 × JsonValue F)) (h : properMembers ms) :
    normalMembers ms = ms := by
  match ms with
  | [] => rfl
  | (k, v) :: ms =>
    simp only [properMembers, Bool.and_eq_true] at h
    rw [normalMembers, normal_of_proper v h.1, normalMembers_of_proper ms h.2]

end

theorem properMembers_iff {ms : List (List UInt16 × JsonValue F)} : properMembers ms ↔ ∀ m ∈ ms, m.2.proper := by
  induction ms with
  | nil => simp [properMembers]
  | cons m ms ih => simp [properMembers, ih]

theorem proper_object {ms : List (List UInt16 × JsonValue F)} :
    (object ms).proper ↔ Ordered ms ∧ ∀ m ∈ ms, m.2.proper := by
  rw [proper, Bool.and_eq_true, decide_eq_true_eq, properMembers_iff]

theorem proper_lookup {ms : List (List UInt16 × JsonValue F)} {key : List UInt16} {v : JsonValue F}
    (h : (object ms).proper) (hv : lookup ms key = some v) : v.proper :=
  (proper_object.mp h).2 (key, v) (lookup_mem hv)

theorem proper_filter {ms : List (List UInt16 × JsonValue F)} (h : (object ms).proper)
    (p : List UInt16 × JsonValue F → Bool) : (object (ms.filter p)).proper := by
  obtain ⟨hordered, hvalues⟩ := proper_object.mp h
  exact proper_object.mpr ⟨hordered.filter p, fun m hm => hvalues m (List.mem_filter.mp hm).1⟩

theorem normalMembers_keys (ms : List (List UInt16 × JsonValue F)) : (normalMembers ms).map Prod.fst = ms.map Prod.fst := by
  induction ms with
  | nil => rfl
  | cons m ms ih => simp [normalMembers, ih]

theorem lookup_normalMembers (ms : List (List UInt16 × JsonValue F)) (key : List UInt16) :
    lookup (normalMembers ms) key = (lookup ms key).map normal := by
  induction ms with
  | nil => rfl
  | cons m ms ih =>
    simp only [lookup] at ih
    simp only [lookup, normalMembers, List.find?_cons]
    cases m.1 == key with
    | true => rfl
    | false => exact ih

theorem Ordered.normalMembers {ms : List (List UInt16 × JsonValue F)} (h : Ordered ms) :
    Ordered (JsonValue.normalMembers ms) := by
  have hkeys : (ms.map Prod.fst).Pairwise fun k l => k ≠ l ∧ before l k = false := List.pairwise_map.mpr h
  rw [← normalMembers_keys ms] at hkeys
  exact List.pairwise_map.mp hkeys

/-- An object in order keeps its properties. -/
theorem normal_object {ms : List (List UInt16 × JsonValue F)} (h : Ordered ms) :
    (object ms).normal = object (normalMembers ms) := by
  rw [normal, fromMembers_of_ordered h.normalMembers]

mutual

/-- What is read of a written value is written and read as it is. -/
theorem proper_normal (v : JsonValue F) : v.normal.proper := by
  match v with
  | null => rfl
  | bool b => rfl
  | number (.finite x) => rfl
  | number (.infinite negative) => rfl
  | string s => rfl
  | array items => exact proper_normalItems items
  | object members =>
    refine proper_object.mpr ⟨ordered_fromMembers _, ?_⟩
    intro m hm
    exact proper_normalMembers members m (mem_fromMembers hm)

theorem proper_normalItems (vs : List (JsonValue F)) : properItems (normalItems vs) := by
  match vs with
  | [] => rfl
  | v :: vs => simp [normalItems, properItems, proper_normal v, proper_normalItems vs]

theorem proper_normalMembers (ms : List (List UInt16 × JsonValue F)) : ∀ m ∈ normalMembers ms, m.2.proper := by
  match ms with
  | [] => simp [normalMembers]
  | (k, v) :: ms =>
    intro m hm
    rcases List.mem_cons.mp hm with rfl | hm
    · exact proper_normal v
    · exact proper_normalMembers ms m hm

end

def isSpace (c : Char) : Bool := c ∈ [' ', '\t', '\n', '\r']

def skip (cs : List Char) : List Char := cs.dropWhile isSpace

/-- The rest of a word. -/
def readWord (word : List Char) (v : JsonValue F) (cs : List Char) : Option (JsonValue F × List Char) :=
  if word.isPrefixOf cs then some (v, cs.drop word.length) else none

def readNumber (cs : List Char) : Option (JsonValue F × List Char) :=
  (Decimal.read (cs.takeWhile Decimal.isLiteralChar)).map fun q =>
    (number (Floating.ofRat F q), cs.dropWhile Decimal.isLiteralChar)

mutual

/-- The first number bounds the depth of the calls. -/
def read : Nat → List Char → Option (JsonValue F × List Char)
  | 0, _ => none
  | n + 1, cs =>
    match skip cs with
    | [] => none
    | c :: x =>
      if c = '"' then (JsonString.read x).map fun p => (string p.1, p.2)
      else if c = '[' then (readItems n true x).map fun p => (array p.1, p.2)
      else if c = '\x7b' then (readMembers n true x).map fun p => (object (fromMembers p.1), p.2)
      else if c = 'n' then readWord ['u', 'l', 'l'] null x
      else if c = 't' then readWord ['r', 'u', 'e'] (bool true) x
      else if c = 'f' then readWord ['a', 'l', 's', 'e'] (bool false) x
      else readNumber (c :: x)

/-- Without a separator in front of the first item. -/
def readItems : Nat → Bool → List Char → Option (List (JsonValue F) × List Char)
  | 0, _, _ => none
  | n + 1, first, cs =>
    match skip cs with
    | [] => none
    | c :: x =>
      if c = ']' then some ([], x)
      else if first || c = ',' then do
        let (v, y) ← read n (if first then c :: x else x)
        let (vs, z) ← readItems n false y
        some (v :: vs, z)
      else none

def readMembers : Nat → Bool → List Char → Option (List (List UInt16 × JsonValue F) × List Char)
  | 0, _, _ => none
  | n + 1, first, cs =>
    match skip cs with
    | [] => none
    | c :: x =>
      if c = '\x7d' then some ([], x)
      else if first || c = ',' then
        match skip (if first then c :: x else x) with
        | '"' :: y => do
          let (k, y) ← JsonString.read y
          match skip y with
          | ':' :: z => do
            let (v, z) ← read n z
            let (ms, w) ← readMembers n false z
            some ((k, v) :: ms, w)
          | _ => none
        | _ => none
      else none

end

/-- The value that is the whole text. -/
def parse (cs : List Char) : Option (JsonValue F) :=
  match read (cs.length + 1) cs with
  | some (v, x) => if skip x = [] then some v else none
  | none => none

end JsonValue
