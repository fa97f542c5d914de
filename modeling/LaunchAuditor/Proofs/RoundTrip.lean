import LaunchAuditor.Metabolism.Lifecycle
import LaunchAuditor.Proofs.LogChain
import LaunchAuditor.Proofs.Verifier
import Mathlib.Data.List.Sort

namespace LaunchAuditor.Proofs.RoundTrip
open Api Db Metabolism Steps HashChain LogChain Verifier

/-- One append of the writer; `tie` and `retryAt` are what its persist may use. -/
structure Append where
  input : AppendArgs
  clock : Int
  tie : Nat
  retryAt : Int

def Append.steps (a : Append) : List LogStep :=
  [.append 0 a.input.row a.clock, .persist 0 a.tie .ok a.retryAt]

variable (hash : LifecycleBody → Hex) (sign : Hex → Hex)

/-- The bodies a writer signs that starts at the head `prevHash`. -/
def signedBodies : Hex → List Append → List LifecycleBody
  | _, [] => []
  | prevHash, a :: as =>
    let body := entryBody (a.input.entryInput a.clock) prevHash a.clock
    body :: signedBodies (hash body) as

/-- A writer that starts on an empty table and is the only one. -/
def writerRun (tie : Nat) (appends : List Append) : List LogStep :=
  .fromDb 0 tie :: appends.flatMap Append.steps

def writtenRows (tie : Nat) (appends : List Append) : List (SignedRecord hash) :=
  (run (logStep sign) (emptyLog hash) (writerRun tie appends)).rows

def writtenTable (tie : Nat) (appends : List Append) : List LifecycleLog :=
  (writtenRows hash sign tie appends).map fun r => r.stored

variable {hash sign}

/-- The writer knows the head and the table is a chain up to it. -/
structure AtHead (s : LogState hash) : Prop where
  writer : s.writers 0 = ⟨lastHash s.rows, none⟩
  chain : InOrder s.rows
  increasing : s.rows.Pairwise fun r r' => r.createdAt < r'.createdAt

/-- The row that an append makes on top of `rows`. -/
def nextRow (sign : Hex → Hex) (rows : List (SignedRecord hash)) (a : Append) : SignedRecord hash :=
  signedRecord hash sign a.input.row (lastHash rows) a.clock

theorem append_persist (sign : Hex → Hex) {s : LogState hash} (h : AtHead s) (a : Append) :
    (run (logStep sign) s a.steps).rows = s.rows ++ [nextRow sign s.rows a] ∧
      (run (logStep sign) s a.steps).writers 0 = ⟨(nextRow sign s.rows a).bodyHash, none⟩ := by
  have hhead : headHash a.tie s.rows = (nextRow sign s.rows a).prevHash := headHash_increasing h.increasing a.tie
  have hp : prismaPersist a.tie s.rows (nextRow sign s.rows a) = .ok (s.rows ++ [nextRow sign s.rows a]) := by
    simp [prismaPersist, hhead]
  have happend : logStep sign s (.append 0 a.input.row a.clock) =
      s.setWriter 0 ⟨lastHash s.rows, some ⟨a.input.row, nextRow sign s.rows a, false⟩⟩ := by
    simp [logStep, h.writer, nextRow]
  simp only [Append.steps, run_cons, run_nil, happend]
  simp [logStep, persistStep, LogState.setWriter, hp]

/-- An append of a writer that knows the head adds its row and moves the head. -/
theorem AtHead.append (sign : Hex → Hex) {s : LogState hash} (h : AtHead s) (a : Append)
    (hlater : ∀ r ∈ s.rows, r.createdAt < a.clock) : AtHead (run (logStep sign) s a.steps) := by
  obtain ⟨hrows, hwriter⟩ := append_persist sign h a
  have hlast : lastHash (s.rows ++ [nextRow sign s.rows a]) = (nextRow sign s.rows a).bodyHash := tip_snoc _ _
  constructor
  · rw [hwriter, hrows, hlast]
  · rw [hrows]
    exact .snoc h.chain rfl
  · rw [hrows]
    refine List.pairwise_append.mpr ⟨h.increasing, List.pairwise_singleton _ _, ?_⟩
    intro r hr r' hr'
    rw [List.mem_singleton.mp hr']
    exact hlater r hr

/-- The rows that appends in a row make on top of `rows`. -/
def nextRows (sign : Hex → Hex) (rows : List (SignedRecord hash)) : List Append → List (SignedRecord hash)
  | [] => []
  | a :: as => nextRow sign rows a :: nextRows sign (rows ++ [nextRow sign rows a]) as

theorem AtHead.appends (sign : Hex → Hex) {s : LogState hash} (h : AtHead s) (as : List Append)
    (hlater : ∀ r ∈ s.rows, ∀ a ∈ as, r.createdAt < a.clock) (hinc : (as.map Append.clock).Pairwise (· < ·)) :
    (run (logStep sign) s (as.flatMap Append.steps)).rows = s.rows ++ nextRows sign s.rows as ∧
      AtHead (run (logStep sign) s (as.flatMap Append.steps)) := by
  induction as generalizing s with
  | nil => exact ⟨(List.append_nil _).symm, h⟩
  | cons a as ih =>
    have hnext := h.append sign a (fun r hr => hlater r hr a List.mem_cons_self)
    obtain ⟨hrows, -⟩ := append_persist sign h a
    rw [List.map_cons, List.pairwise_cons] at hinc
    have hlater' : ∀ r ∈ (run (logStep sign) s a.steps).rows, ∀ b ∈ as, r.createdAt < b.clock := by
      rw [hrows]
      intro r hr b hb
      rcases List.mem_append.mp hr with hr | hr
      · exact hlater r hr b (List.mem_cons_of_mem _ hb)
      · rw [List.mem_singleton.mp hr]
        exact hinc.1 _ (List.mem_map_of_mem hb)
    obtain ⟨hall, hend⟩ := ih hnext hlater' hinc.2
    have hrun : run (logStep sign) s ((a :: as).flatMap Append.steps) =
        run (logStep sign) (run (logStep sign) s a.steps) (as.flatMap Append.steps) := by
      simp [run, List.flatMap_cons, List.foldl_append]
    rw [hrun]
    refine ⟨?_, hend⟩
    rw [hall, hrows, List.append_assoc]
    rfl

/-- The whole run of the writer. -/
theorem written {tie : Nat} {appends : List Append} (hinc : (appends.map Append.clock).Pairwise (· < ·)) :
    writtenRows hash sign tie appends = nextRows sign [] appends ∧ InOrder (writtenRows hash sign tie appends) ∧
      (writtenRows hash sign tie appends).Pairwise fun r r' => r.createdAt < r'.createdAt := by
  have hstart : AtHead (logStep sign (emptyLog hash) (.fromDb 0 tie)) := by
    refine ⟨?_, .nil, .nil⟩
    have hnone : headHash tie (emptyLog hash).rows = lastHash (emptyLog hash).rows := headHash_increasing .nil tie
    simp [logStep, LogState.setWriter, hnone]
  obtain ⟨hrows, hend⟩ := hstart.appends sign appends (by simp [logStep, LogState.setWriter, emptyLog]) hinc
  exact ⟨hrows, hend.chain, hend.increasing⟩

theorem length_nextRows (rows : List (SignedRecord hash)) (as : List Append) :
    (nextRows sign rows as).length = as.length := by
  induction as generalizing rows with
  | nil => rfl
  | cons a as ih => simp [nextRows, ih]

theorem length_written {tie : Nat} {appends : List Append} (hinc : (appends.map Append.clock).Pairwise (· < ·)) :
    (writtenRows hash sign tie appends).length = appends.length := by
  rw [(written hinc).1, length_nextRows]

/-- What the writer signed is what its rows make up. -/
theorem nextRows_bodies (rows : List (SignedRecord hash)) (as : List Append) :
    (nextRows sign rows as).map (fun r => (r.body, r.signature)) =
      (signedBodies hash (lastHash rows) as).map fun b => (b, sign (hash b)) := by
  induction as generalizing rows with
  | nil => rfl
  | cons a as ih =>
    have hlast : lastHash (rows ++ [nextRow sign rows a]) = (nextRow sign rows a).bodyHash := tip_snoc _ _
    have hrecord : (nextRow sign rows a).toLifecyclePersistRecord = appendOnce hash sign a.input (lastHash rows) a.clock :=
      (appendOnce_eq a.input (lastHash rows) a.clock).symm
    have hbody : (nextRow sign rows a).body = entryBody (a.input.entryInput a.clock) (lastHash rows) a.clock := by
      rw [hrecord]
      exact entryBody_appendOnce a.input (lastHash rows) a.clock
    simp only [nextRows, List.map_cons, ih, hlast, signedBodies, hbody]
    rfl

/-- One millisecond holds one row at most, so the newest-first order is unique. -/
theorem desc_eq {rows : List (SignedRecord hash)} (hinc : rows.Pairwise fun r r' => r.createdAt < r'.createdAt)
    {desc : List LifecycleLog} (h : NewestFirst (rows.map fun r => r.stored) desc) :
    desc = (rows.map fun r => r.stored).reverse := by
  have hsorted : (rows.map fun r => r.stored).Pairwise fun a b => a.createdAt < b.createdAt := by
    rw [List.pairwise_map]
    exact hinc
  have hrev : (rows.map fun r => r.stored).reverse.Pairwise fun a b => b.createdAt ≤ a.createdAt := by
    rw [List.pairwise_reverse]
    exact hsorted.imp fun hab => Int.le_of_lt hab
  have hperm : desc.Perm (rows.map fun r => r.stored).reverse := h.perm.trans (List.reverse_perm _).symm
  refine hperm.eq_of_pairwise ?_ h.sorted hrev
  intro a b ha hb hab hba
  have hkeys : ((rows.map fun r => r.stored).map LifecycleLog.createdAt).Nodup :=
    List.pairwise_map.mpr (hsorted.imp Int.ne_of_lt)
  exact List.inj_on_of_nodup_map hkeys (h.perm.mem_iff.mp ha) (List.mem_reverse.mp hb) (Int.le_antisymm hba hab)

/-- A record as the endpoint serves it. -/
def served (r : SignedRecord hash) : LifecycleApiRow := lifecycleApiRow r.stored

theorem reader_eq {rows : List (SignedRecord hash)} (hinc : rows.Pairwise fun r r' => r.createdAt < r'.createdAt)
    {desc : List LifecycleLog} (h : NewestFirst (rows.map fun r => r.stored) desc) (limit : Nat) :
    prismaLifecycleReader limit desc = (rows.drop (rows.length - limit)).map served := by
  rw [prismaLifecycleReader, desc_eq hinc h, List.take_reverse, List.map_reverse, List.reverse_reverse,
    List.length_map, ← List.map_drop, List.map_map]
  rfl

theorem served_linked {rows : List (SignedRecord hash)} (hchain : InOrder rows) (k : Nat) :
    (verifyLifecycleRows hash (chainRows ((rows.drop k).map served))).linked = true := by
  rw [linked_iff, chainRows, List.map_map]
  intro earlier x later he
  obtain ⟨before, rest, hsplit, rfl, hrest⟩ := List.map_eq_append_iff.mp he
  obtain ⟨r, after, rfl, rfl, -⟩ := List.map_eq_cons_iff.mp hrest
  refine ⟨congrArg (fun h : Hex => some h.toString) r.hashed, ?_⟩
  intro p hp
  rw [List.getLast?_map, Option.map_eq_some_iff] at hp
  obtain ⟨q, hq, rfl⟩ := hp
  obtain ⟨before', rfl⟩ := List.getLast?_eq_some_iff.mp hq
  have hrows : rows = (rows.take k ++ before') ++ q :: r :: after := by
    calc rows = rows.take k ++ rows.drop k := (List.take_append_drop k rows).symm
      _ = (rows.take k ++ before') ++ q :: r :: after := by rw [hsplit]; simp
  exact congrArg (fun h : Hex => some h.toString) (hchain.adjacent hrows)

theorem served_genesis {rows : List (SignedRecord hash)} (hchain : InOrder rows) :
    (verifyLifecycleRows hash (chainRows (rows.map served))).startsAtGenesis = true := by
  simp only [verifyLifecycleRows, chainRows, List.map_map, List.head?_map, Option.all_eq_true]
  intro x hx
  obtain ⟨r, hr, rfl⟩ := Option.map_eq_some_iff.mp hx
  have hfirst : r.prevHash = GENESIS_HASH := hchain.first hr
  simp [served, lifecycleApiRow, LifecyclePersistRecord.stored, hfirst]

/-- Write, store, read back, for every window the endpoint may serve: the rows are
linked, the whole log starts at genesis, and the body recomputed from each row is
the one whose hash the writer signed. -/
theorem round_trip (hash : LifecycleBody → Hex) (sign : Hex → Hex) (tie : Nat) (appends : List Append)
    (hinc : (appends.map Append.clock).Pairwise (· < ·)) (desc : List LifecycleLog)
    (hdesc : NewestFirst (writtenTable hash sign tie appends) desc) (limit : Nat) :
    (lifecycleCheck hash limit desc).linked = true ∧
      (appends.length ≤ limit → (lifecycleCheck hash limit desc).startsAtGenesis = true) ∧
      (prismaLifecycleReader limit desc).map (fun r => (r.body, r.signature)) =
        ((signedBodies hash GENESIS_HASH appends).drop (appends.length - limit)).map
          fun b => (b, some (sign (hash b)).toString) := by
  obtain ⟨hrows, hchain, hordered⟩ := @written hash sign tie appends hinc
  have hread := reader_eq hordered hdesc limit
  refine ⟨?_, ?_, ?_⟩
  · rw [lifecycleCheck, hread]
    exact served_linked hchain _
  · intro hlimit
    rw [lifecycleCheck, hread, length_written hinc, Nat.sub_eq_zero_of_le hlimit, List.drop_zero]
    exact served_genesis hchain
  · have hbodies : (@nextRows hash sign [] appends).map (fun r => (r.body, r.signature)) =
        (signedBodies hash GENESIS_HASH appends).map fun b => (b, sign (hash b)) := nextRows_bodies [] appends
    have hserved : ∀ rows : List (SignedRecord hash), (rows.map served).map (fun r => (r.body, r.signature)) =
        (rows.map fun r => (r.body, r.signature)).map fun bs => (bs.1, some bs.2.toString) := by
      intro rows
      simp only [List.map_map]
      rfl
    rw [hread, hserved, List.map_drop, length_written hinc, hrows, hbodies, ← List.map_drop, List.map_map]
    rfl

section Sample

/-- A transition with some figures left undefined and some null, then a snapshot. -/
def twoAppends : List Append :=
  [{ input := { isSnapshot := false, prevState := none, newState := .noKey, reason := "first", keyId := .null
                keyHashPrefix := .undefined, balanceUsd := .value 20, reserveUsd := .undefined
                ledgerSpendUsd := .null, providerSpendUsd := .undefined, idsMismatch := none
                billingStatus := .undefined }
     clock := 1790000000123, tie := 0, retryAt := 0 },
   { input := { isSnapshot := true, prevState := some .noKey, newState := .noKey, reason := "second"
                keyId := .value "orbio-1", keyHashPrefix := .null, balanceUsd := .null, reserveUsd := .value 3
                ledgerSpendUsd := .value (1 / 10), providerSpendUsd := .null, idsMismatch := some true
                billingStatus := .value .phantom }
     clock := 1790000000124, tie := 0, retryAt := 0 }]

theorem round_trip_two :
    let desc := (writtenTable reasonHash id 0 twoAppends).reverse
    (lifecycleCheck reasonHash 1000 desc).linked = true ∧
      (lifecycleCheck reasonHash 1000 desc).startsAtGenesis = true := by
  have hdesc : NewestFirst (writtenTable reasonHash id 0 twoAppends)
      (writtenTable reasonHash id 0 twoAppends).reverse := ⟨List.reverse_perm _, by decide +kernel⟩
  obtain ⟨hlinked, hgenesis, -⟩ := round_trip reasonHash id 0 twoAppends (by decide) _ hdesc 1000
  exact ⟨hlinked, hgenesis (by decide)⟩

end Sample

end LaunchAuditor.Proofs.RoundTrip
