import LaunchAuditor.Api.LaunchFeed
import Mathlib.Data.String.Basic

namespace LaunchAuditor.Proofs.FeedPages
open Db Api

/-- What the feed shows. -/
def live (db : WorkerDb) : List Launch := db.launches.filter fun l => !l.retrospective

/-- A launch by its place in the feed. -/
def placeOf (l : Launch) : LaunchCursor := ⟨l.launchBlock, l.id⟩

/-- The place that a row gives. -/
def rowPlace (r : LaunchFeedRow) : LaunchCursor := ⟨bigInt r.launchBlock.toList, r.launchId⟩

/-- What was live is so still, in its place, and what is new is in newer blocks. -/
def Inserted (db db' : WorkerDb) : Prop :=
  ∃ new : List LaunchCursor, ((live db').map placeOf).Perm ((live db).map placeOf ++ new) ∧
    ∀ l ∈ live db, ∀ c ∈ new, l.launchBlock < c.block

/-- The columns of the table: generated ids, a key of the table, and block numbers of 64 bits. -/
structure Stored (db : WorkerDb) : Prop where
  ids : ∀ l ∈ db.launches, IsCuid l.id
  unique : (db.launches.map Launch.id).Nodup
  blocks : ∀ l ∈ db.launches, l.launchBlock < 2 ^ 64

/-- The pages from the `k`-th request on, each with its own limit, up to the one without a next cursor;
none when a request is refused, or when there is no end in so many. -/
def follow (read : Nat → LaunchFeedReader) (limits : Nat → Option (Option ℚ)) : Nat → Nat → Option String →
    Option (List LaunchesPage)
  | 0, _, _ => none
  | fuel + 1, k, before =>
    match getLaunches (read k) ⟨limits k, before⟩ with
    | .error _ => none
    | .ok page =>
      match page.nextCursor with
      | none => some [page]
      | some c => (follow read limits fuel (k + 1) (some c)).map fun pages => page :: pages

def visited (pages : List LaunchesPage) : List LaunchCursor := pages.flatMap fun p => p.launches.map rowPlace

def limitOf (limit : Option (Option ℚ)) : Nat := clampLimit (limit.getD (some 50)) 200

theorem limitOf_pos (limit : Option (Option ℚ)) : 0 < limitOf limit := clampLimit_pos _ (by decide)

section Order

variable {ι : Type} (collate : String ↪ ι)

/-- A place as a key of the feed. -/
def placeKey (c : LaunchCursor) : ℕ ×ₗ ι := toLex (c.block, collate c.id)

def feedKey (l : Launch) : ℕ ×ₗ ι := placeKey collate (placeOf l)

theorem placeKey_injective : Function.Injective (placeKey collate) := by
  intro c c' h
  obtain ⟨hblock, hid⟩ := Prod.ext_iff.mp (toLex.injective h)
  cases c
  cases c'
  exact congrArg₂ LaunchCursor.mk hblock (collate.injective hid)

theorem map_feedKey (launches : List Launch) :
    launches.map (feedKey collate) = (launches.map placeOf).map (placeKey collate) := by
  rw [List.map_map]
  rfl

theorem feedKey_nodup {db : WorkerDb} (h : Stored db) : ((live db).map (feedKey collate)).Nodup := by
  have hids : ((live db).map Launch.id).Nodup := h.unique.sublist (List.filter_sublist.map _)
  rw [map_feedKey]
  apply List.Nodup.map (placeKey_injective collate)
  apply List.Nodup.of_map LaunchCursor.id
  rwa [List.map_map]

/-- The launch after which the next page starts. -/
def lastOf (limit : Nat) (launches : List Launch) : Option Launch :=
  if launches.length = limit then launches.getLast? else none

theorem mem_of_lastOf {limit : Nat} {launches : List Launch} {l : Launch} (h : lastOf limit launches = some l) :
    l ∈ launches := by
  by_cases hfull : launches.length = limit
  · rw [lastOf, if_pos hfull] at h
    exact List.mem_of_getLast? h
  · rw [lastOf, if_neg hfull] at h
    cases h

theorem next_eq (limit : Nat) (launches : List Launch) :
    Keyset.next (feedKey collate) limit launches = (lastOf limit launches).map (feedKey collate) := by
  rw [Keyset.next, lastOf, apply_ite (Option.map (feedKey collate)), Option.map_none]

variable [LinearOrder ι]

/-- The order of the feed. -/
def Newer (c c' : LaunchCursor) : Prop := c'.block < c.block ∨ c'.block = c.block ∧ collate c'.id < collate c.id

theorem placeKey_lt (c c' : LaunchCursor) : placeKey collate c' < placeKey collate c ↔ Newer collate c c' :=
  Prod.Lex.toLex_lt_toLex

theorem feedLe_iff (l m : Launch) : feedLe collate l m ↔ feedKey collate m ≤ feedKey collate l :=
  (Prod.Lex.toLex_le_toLex (x := (m.launchBlock, collate m.id)) (y := (l.launchBlock, collate l.id))).symm

/-- The query is a page in the order of the keys. -/
theorem findLaunches_eq (db : WorkerDb) (limit : Nat) (before : Option LaunchCursor) :
    findLaunches collate db limit before =
      Keyset.page (feedKey collate) limit (before.map (placeKey collate)) (live db) := by
  have hwhere : db.launches.filter (feedWhere collate before) =
      Keyset.below (feedKey collate) (before.map (placeKey collate)) (live db) := by
    rw [Keyset.below, live, List.filter_filter]
    apply List.filter_congr
    intro l _
    cases before with
    | none => simp [feedWhere]
    | some c => simp [feedWhere, feedKey, placeKey_lt, Newer, placeOf, Bool.and_comm]
  rw [findLaunches, Keyset.page, Keyset.ordered, hwhere]
  congr 1
  have hsort := List.map_insertionSort (r := feedLe collate) (s := fun a b => feedKey collate b ≤ feedKey collate a) id
    (Keyset.below (feedKey collate) (before.map (placeKey collate)) (live db)) fun l _ m _ => feedLe_iff collate l m
  simpa using hsort

theorem grown {db db' : WorkerDb} (h : Inserted db db') : Keyset.Grown (feedKey collate) (live db) (live db') := by
  obtain ⟨new, hperm, habove⟩ := h
  refine ⟨new.map (placeKey collate), ?_, ?_⟩
  · rw [map_feedKey, map_feedKey, ← List.map_append]
    exact hperm.map _
  · intro l hl key hkey
    obtain ⟨c, hc, rfl⟩ := List.mem_map.mp hkey
    exact (placeKey_lt collate c (placeOf l)).mpr (Or.inl (habove l hl c hc))

theorem nextCursorOf_eq (limit : Nat) (launches : List Launch) {row : Launch → LaunchFeedRow}
    (hrow : ∀ l, rowPlace (row l) = placeOf l) : nextCursorOf limit (launches.map row) =
      (lastOf limit launches).map fun l => encodeLaunchCursor (placeOf l) := by
  have hlast : ((launches.map row).getLast?.map fun last => encodeLaunchCursor (rowPlace last)) =
      launches.getLast?.map fun l => encodeLaunchCursor (placeOf l) := by
    rw [List.getLast?_map, Option.map_map]
    congr 1
    funext l
    exact congrArg encodeLaunchCursor (hrow l)
  rw [nextCursorOf, lastOf, List.length_map, apply_ite (Option.map _), Option.map_none]
  exact if_congr Iff.rfl hlast rfl

theorem feedRow_place (cols : FeedColumns) (db : WorkerDb) (reports : List Report) (l : Launch) :
    rowPlace (feedRow cols db reports l) = placeOf l := congrArg (LaunchCursor.mk · l.id) (bigInt_toString l.launchBlock)

/-- A cursor that reads back what was written. -/
def Readable (c : LaunchCursor) : Prop := decodeLaunchCursor (encodeLaunchCursor c) = some c

theorem stored_readable {db : WorkerDb} (h : Stored db) {l : Launch} (hl : l ∈ live db) : Readable (placeOf l) := by
  have hmem : l ∈ db.launches := (List.mem_filter.mp hl).1
  have hblock : l.launchBlock < 10 ^ 20 := Nat.lt_trans (h.blocks l hmem) (by decide)
  exact decode_encode hblock (h.ids l hmem).isId

theorem queryCursor_encode {before : Option LaunchCursor} (h : ∀ c ∈ before, Readable c) :
    queryCursor (before.map encodeLaunchCursor) = .ok before := by
  cases before with
  | none => rfl
  | some c =>
    have hread : decodeLaunchCursor (encodeLaunchCursor c) = some c := h c rfl
    have hne : encodeLaunchCursor c ≠ "" := by
      intro hempty
      have hnone : decodeLaunchCursor "" = none := by decide
      rw [hempty, hnone] at hread
      cases hread
    simp only [Option.map_some, queryCursor, if_neg hne, hread]

theorem getLaunches_ok {read : LaunchFeedReader} (limit : Option (Option ℚ)) {before : Option LaunchCursor}
    (h : ∀ c ∈ before, Readable c) :
    getLaunches read ⟨limit, before.map encodeLaunchCursor⟩ =
      .ok ⟨(read (limitOf limit) before).length, read (limitOf limit) before,
        nextCursorOf (limitOf limit) (read (limitOf limit) before)⟩ := by
  rw [getLaunches, queryCursor_encode h]
  rfl

/-- The rows of a page of launches. -/
def rowsOf (cols : FeedColumns) (db : WorkerDb) (launches : List Launch) : List LaunchFeedRow :=
  launches.map (feedRow cols db (detReports db (launches.map Launch.tokenAddress)))

theorem read_eq (cols : FeedColumns) (db : WorkerDb) (limit : Nat) (before : Option LaunchCursor) :
    prismaLaunchFeedReader collate cols db limit before =
      rowsOf cols db (Keyset.page (feedKey collate) limit (before.map (placeKey collate)) (live db)) := by
  rw [← findLaunches_eq]
  rfl

theorem rowsOf_places (cols : FeedColumns) (db : WorkerDb) (launches : List Launch) :
    (rowsOf cols db launches).map rowPlace = launches.map placeOf := by
  rw [rowsOf, List.map_map]
  exact List.map_congr_left fun l _ => feedRow_place cols db _ l

theorem visited_cons (page : LaunchesPage) (pages : List LaunchesPage) :
    visited (page :: pages) = page.launches.map rowPlace ++ visited pages := rfl

/-- The client makes the walk of the keys, and its last page has no next cursor. -/
theorem follow_walk (cols : Nat → FeedColumns) {dbs : Nat → WorkerDb} {limits : Nat → Option (Option ℚ)}
    (hstored : ∀ k, Stored (dbs k)) (fuel : Nat) :
    ∀ (k : Nat) (before : Option LaunchCursor) (walked : List (List Launch)), (∀ c ∈ before, Readable c) →
      Keyset.walk (feedKey collate) (fun k => live (dbs k)) (fun k => limitOf (limits k)) fuel k
        (before.map (placeKey collate)) = some walked →
      ∃ pages, follow (fun k => prismaLaunchFeedReader collate (cols k) (dbs k)) limits fuel k
          (before.map encodeLaunchCursor) = some pages ∧
        visited pages = walked.flatten.map placeOf ∧ pages.getLast?.map LaunchesPage.nextCursor = some none := by
  induction fuel with
  | zero =>
    intro k before walked _ hwalk
    simp [Keyset.walk] at hwalk
  | succ fuel ih =>
    intro k before walked hbefore hwalk
    rw [follow, getLaunches_ok (limits k) hbefore, read_eq]
    rw [Keyset.walk, next_eq] at hwalk
    have hrow := feedRow_place (cols k) (dbs k)
    generalize hp : Keyset.page (feedKey collate) (limitOf (limits k)) (before.map (placeKey collate)) (live (dbs k)) = p
      at hwalk ⊢
    have hnext : nextCursorOf (limitOf (limits k)) (rowsOf (cols k) (dbs k) p) =
        (lastOf (limitOf (limits k)) p).map fun l => encodeLaunchCursor (placeOf l) := nextCursorOf_eq _ p (hrow _)
    rw [hnext]
    cases hlast : lastOf (limitOf (limits k)) p with
    | none =>
      simp only [hlast, Option.map_none, Option.some.injEq] at hwalk
      subst hwalk
      refine ⟨_, rfl, ?_, rfl⟩
      simp [visited, rowsOf_places]
    | some l =>
      simp only [hlast, Option.map_some] at hwalk
      obtain ⟨rest, hrest, hwalked⟩ := Option.map_eq_some_iff.mp hwalk
      have hmem : l ∈ live (dbs k) := by
        have hl : l ∈ p := mem_of_lastOf hlast
        rw [← hp, Keyset.page] at hl
        have hbelow := (List.mem_insertionSort _).mp (List.mem_of_mem_take hl)
        exact (List.mem_filter.mp hbelow).1
      have hread : ∀ c ∈ some (placeOf l), Readable c := by
        intro c hc
        cases hc
        exact stored_readable (hstored k) hmem
      obtain ⟨pages, hfollow, hvisited, hend⟩ := ih (k + 1) (some (placeOf l)) rest hread hrest
      have hne : pages ≠ [] := by
        intro hnil
        simp [hnil] at hend
      refine ⟨_, by simp only [Option.map_some]; exact congrArg (Option.map _) hfollow, ?_, ?_⟩
      · rw [visited_cons, hvisited, ← hwalked, List.flatten_cons, List.map_append, rowsOf_places]
      · rw [List.getLast?_cons_of_ne_nil hne]
        exact hend

/-- Following the cursor from the first page takes at most one request more than there are launches, and gives
each launch of the start once, in the order of the feed, up to a page without a next cursor. A cursor reads
back for every generated id and every block number of up to twenty digits. -/
theorem feed_visits_all (cols : Nat → FeedColumns) (dbs : Nat → WorkerDb) (limits : Nat → Option (Option ℚ))
    (hstored : ∀ k, Stored (dbs k)) (hinserted : ∀ k, Inserted (dbs k) (dbs (k + 1))) :
    (∀ c : LaunchCursor, c.block < 10 ^ 20 → IsCuid c.id → decodeLaunchCursor (encodeLaunchCursor c) = some c) ∧
      ∃ pages, follow (fun k => prismaLaunchFeedReader collate (cols k) (dbs k)) limits
          ((dbs 0).launches.length + 1) 0 none = some pages ∧
        (visited pages).Perm ((live (dbs 0)).map placeOf) ∧ (visited pages).Pairwise (Newer collate) ∧
        pages.getLast?.map LaunchesPage.nextCursor = some none := by
  refine ⟨fun c hblock hid => decode_encode hblock hid.isId, ?_⟩
  have hnodup := feedKey_nodup collate (hstored 0)
  have hfuel : (live (dbs 0)).length < (dbs 0).launches.length + 1 := Nat.lt_succ_of_le (List.length_filter_le _ _)
  obtain ⟨walked, hwalk, hkeys⟩ := Keyset.walk_complete (fun k => limitOf_pos (limits k)) hnodup
    (fun k => grown collate (hinserted k)) hfuel
  obtain ⟨pages, hfollow, hvisited, hend⟩ := follow_walk collate cols hstored _ 0 none walked (by simp) hwalk
  have hplaces : (visited pages).map (placeKey collate) = Keyset.keysBelow (feedKey collate) none (live (dbs 0)) := by
    rw [hvisited, ← map_feedKey, hkeys]
  refine ⟨pages, hfollow, ?_, ?_, hend⟩
  · apply (List.map_perm_map_iff (placeKey_injective collate)).mp
    rw [hplaces, ← map_feedKey]
    exact Keyset.keysBelow_none_perm _ _
  · have hsorted := Keyset.keysBelow_none_sorted hnodup
    rw [← hplaces, List.pairwise_map] at hsorted
    exact hsorted.imp fun h => (placeKey_lt collate _ _).mp h

end Order

def firstId : String := "cmf1a2b3c0000la08h2k3j4m5"
def secondId : String := "cmf1a2b3c0001la08n6p7q8r9"
def thirdId : String := "cmf1a2b3c0002la08s0t1u2v3"

/-- Two launches in one block, and a third one after the first request. -/
def growing (k : Nat) : WorkerDb :=
  { WorkerDb.empty with
    launches := match k with
      | 0 => [launchIn firstId 5, launchIn secondId 5]
      | _ => [launchIn firstId 5, launchIn secondId 5, launchIn thirdId 9] }

theorem isCuid_of_all {id : String} {cs : List Char} (hid : id.toList = 'c' :: cs) (hlength : cs.length = 24)
    (hall : (cs.all fun c => c.isDigit || c.isLower) = true) : IsCuid id := by
  refine ⟨cs, hid, hlength, ?_⟩
  intro c hc
  exact (Bool.or_eq_true _ _).mp (List.all_eq_true.mp hall c hc)

theorem growing_ids : IsCuid firstId ∧ IsCuid secondId ∧ IsCuid thirdId :=
  ⟨isCuid_of_all rfl rfl rfl, isCuid_of_all rfl rfl rfl, isCuid_of_all rfl rfl rfl⟩

theorem growing_stored (k : Nat) : Stored (growing k) := by
  obtain ⟨hfirst, hsecond, hthird⟩ := growing_ids
  have hunique : [firstId, secondId, thirdId].Nodup := by decide
  cases k with
  | zero => exact ⟨by simp [growing, launchIn, hfirst, hsecond], by decide, by simp [growing, launchIn]⟩
  | succ k => exact ⟨by simp [growing, launchIn, hfirst, hsecond, hthird], hunique, by simp [growing, launchIn]⟩

theorem growing_inserted (k : Nat) : Inserted (growing k) (growing (k + 1)) := by
  cases k with
  | zero =>
    refine ⟨[⟨9, thirdId⟩], by decide, ?_⟩
    simp [growing, live, launchIn]
  | succ k => exact ⟨[], by simp [growing], by simp⟩

def noColumns : FeedColumns := ⟨fun _ => [], fun _ => none, fun _ => none⟩

theorem feed_visits_both :
    ∃ pages, follow (fun k => prismaLaunchFeedReader (Function.Embedding.refl String) noColumns (growing k))
        (fun _ => some (some 1)) 3 0 none = some pages ∧
      (visited pages).Perm [⟨5, firstId⟩, ⟨5, secondId⟩] ∧
      (visited pages).Pairwise (Newer (Function.Embedding.refl String)) ∧
      pages.getLast?.map LaunchesPage.nextCursor = some none :=
  (feed_visits_all (Function.Embedding.refl String) (fun _ => noColumns) growing (fun _ => some (some 1)) growing_stored
    growing_inserted).2

end LaunchAuditor.Proofs.FeedPages
