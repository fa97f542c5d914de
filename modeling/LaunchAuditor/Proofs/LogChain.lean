import LaunchAuditor.Lib.HashChain
import LaunchAuditor.Metabolism.LogWriter

namespace LaunchAuditor.Proofs.LogChain
open Db Metabolism Steps HashChain

variable {bodyHash : LifecycleBody → Hex} {sign : Hex → Hex}

/-- One row points to the genesis hash and every other one to a row of its own. -/
def Unforked (rows : List (SignedRecord bodyHash)) : Prop :=
  OneChain (fun r => r.prevHash) (fun r => r.bodyHash) GENESIS_HASH rows

/-- In order of persisting, every row points to the one before it. -/
def InOrder (rows : List (SignedRecord bodyHash)) : Prop :=
  HashChain.Linked (fun r => r.prevHash) (fun r => r.bodyHash) GENESIS_HASH rows

/-- The `bodyHash` of the row persisted last. -/
def lastHash (rows : List (SignedRecord bodyHash)) : Hex := tip (fun r => r.bodyHash) GENESIS_HASH rows

/-- What is expected of the hash: no two of the bodies in the table collide, and
none hashes to the genesis value. -/
structure CollisionFree (rows : List (SignedRecord bodyHash)) : Prop where
  bodies : ∀ r ∈ rows, ∀ r' ∈ rows, bodyHash r.body = bodyHash r'.body → r.body = r'.body
  genesis : ∀ r ∈ rows, bodyHash r.body ≠ GENESIS_HASH

/-- A persist that finds the head it expects finds the row persisted last. -/
def PersistsOnTip (s : LogState bodyHash) : LogStep → Prop
  | .persist writer tie outcome _ =>
    ∀ fl, (s.writers writer).inflight = some fl → outcome ≠ .failed →
      headHash tie s.rows = fl.record.prevHash → headHash tie s.rows = lastHash s.rows
  | _ => True

theorem headHash_known (tie : Nat) (rows : List (SignedRecord bodyHash)) :
    headHash tie rows = GENESIS_HASH ∨ ∃ p ∈ rows, headHash tie rows = p.bodyHash := by
  unfold headHash
  cases hn : Newest.newest (fun r : SignedRecord bodyHash => r.createdAt) tie rows with
  | none => exact Or.inl rfl
  | some p => exact Or.inr ⟨p, (Newest.newest_mem hn).1, rfl⟩

/-- Only a persist that finds its expected head adds a row. -/
theorem step_rows (sign : Hex → Hex) (s : LogState bodyHash) (i : LogStep) :
    ((logStep sign s i).rows = s.rows ∧ PersistsOnTip s i) ∨
      ∃ writer tie outcome retryAt fl, i = .persist writer tie outcome retryAt ∧
        (s.writers writer).inflight = some fl ∧ outcome ≠ .failed ∧
        headHash tie s.rows = fl.record.prevHash ∧ (logStep sign s i).rows = s.rows ++ [fl.record] := by
  cases i with
  | fromDb writer tie => exact Or.inl ⟨rfl, trivial⟩
  | append writer input now =>
    refine Or.inl ⟨?_, trivial⟩
    simp only [logStep]
    split <;> rfl
  | persist writer tie outcome retryAt =>
    simp only [logStep]
    cases hfl : (s.writers writer).inflight with
    | none =>
      refine Or.inl ⟨rfl, ?_⟩
      intro fl h
      rw [hfl] at h
      cases h
    | some fl =>
      simp only [persistStep]
      by_cases hf : outcome = .failed
      · rw [if_pos hf]
        exact Or.inl ⟨rfl, fun _ _ h => absurd hf h⟩
      · rw [if_neg hf]
        by_cases hh : headHash tie s.rows = fl.record.prevHash
        · have hp : prismaPersist tie s.rows fl.record = .ok (s.rows ++ [fl.record]) := by
            simp [prismaPersist, hh]
          refine Or.inr ⟨writer, tie, outcome, retryAt, fl, rfl, hfl, hf, hh, ?_⟩
          rw [hp]
          rfl
        · have hp : prismaPersist tie s.rows fl.record = .error (headHash tie s.rows) := by
            simp [prismaPersist, hh]
          rw [hp]
          refine Or.inl ⟨by cases fl.retried <;> rfl, ?_⟩
          intro fl' hfl' _ he
          obtain rfl := Option.some.inj (hfl.symm.trans hfl')
          exact absurd he hh

/-- The table only grows. -/
theorem run_rows (sign : Hex → Hex) (s : LogState bodyHash) (steps : List LogStep) :
    ∃ more, (run (logStep sign) s steps).rows = s.rows ++ more := by
  induction steps generalizing s with
  | nil => exact ⟨[], (List.append_nil _).symm⟩
  | cons i steps ih =>
    obtain ⟨more, hmore⟩ := ih (logStep sign s i)
    rw [run_cons, hmore]
    rcases step_rows sign s i with ⟨h, -⟩ | ⟨_, _, _, _, fl, _, _, _, _, h⟩
    · exact ⟨more, by rw [h]⟩
    · exact ⟨fl.record :: more, by simp [h]⟩

theorem CollisionFree.hashes {rows : List (SignedRecord bodyHash)} (h : CollisionFree rows)
    (hl : InOrder rows) : (rows.map fun r => r.bodyHash).Nodup ∧ GENESIS_HASH ∉ rows.map fun r => r.bodyHash := by
  have hgen : ∀ r ∈ rows, r.bodyHash ≠ GENESIS_HASH := by
    intro r hr
    rw [r.hashed]
    exact h.genesis r hr
  refine ⟨hl.hashes_nodup ?_ hgen, ?_⟩
  · intro r hr r' hr' he
    have hbody : r.body = r'.body := h.bodies r hr r' hr' (by rw [← r.hashed, ← r'.hashed, he])
    exact Hex.toString_injective (congrArg LifecycleBody.prevHash hbody)
  · intro hm
    obtain ⟨r, hr, he⟩ := List.mem_map.mp hm
    exact hgen r hr he

theorem CollisionFree.of_nodup {rows : List (SignedRecord bodyHash)}
    (h : (rows.map fun r => r.bodyHash).Nodup) (hg : GENESIS_HASH ∉ rows.map fun r => r.bodyHash) :
    CollisionFree rows := by
  refine ⟨?_, ?_⟩
  · intro r hr r' hr' he
    have he' : r.bodyHash = r'.bodyHash := by rw [r.hashed, r'.hashed, he]
    rw [List.inj_on_of_nodup_map h hr hr' he']
  · intro r hr he
    exact hg (List.mem_map.mpr ⟨r, hr, r.hashed.trans he⟩)

/-- From a linked table on, the run stays unforked exactly as long as every
persist lands on the row persisted last: the first that does not forks the chain
for good. -/
theorem run_unforked_iff {s : LogState bodyHash} {steps : List LogStep} (hs : InOrder s.rows)
    (hfree : CollisionFree (run (logStep sign) s steps).rows) :
    Unforked (run (logStep sign) s steps).rows ↔ Always (logStep sign) PersistsOnTip s steps := by
  induction steps generalizing s with
  | nil =>
    obtain ⟨hh, hg⟩ := hfree.hashes hs
    exact ⟨fun _ => trivial, fun _ => hs.oneChain hh hg⟩
  | cons i steps ih =>
    rw [run_cons] at hfree ⊢
    rcases step_rows sign s i with ⟨h, htip⟩ | ⟨w, tie, outcome, retryAt, fl, rfl, hfl, hf, hh, h⟩
    · rw [ih (h ▸ hs) hfree]
      exact ⟨fun ha => ⟨htip, ha⟩, fun ha => ha.2⟩
    · by_cases he : fl.record.prevHash = lastHash s.rows
      · rw [ih (h ▸ .snoc hs he) hfree]
        refine ⟨fun ha => ⟨?_, ha⟩, fun ha => ha.2⟩
        intro fl' _ _ _
        exact hh.trans he
      · -- the new row shares its parent with a row that is already there
        have hknown := headHash_known tie s.rows
        rw [hh] at hknown
        obtain ⟨more, hmore⟩ := run_rows sign (logStep sign s (.persist w tie outcome retryAt)) steps
        constructor
        · intro hu
          rw [hmore, h] at hu
          exact absurd hu (not_oneChain_append (hs.fork hknown he) more)
        · intro ha
          exact absurd (hh.symm.trans (ha.1 fl hfl hf hh)) he

/-- When every row is stamped later than all rows before it, the newest row is the
one persisted last. -/
theorem headHash_increasing {rows : List (SignedRecord bodyHash)}
    (h : rows.Pairwise fun r r' => r.createdAt < r'.createdAt) (tie : Nat) : headHash tie rows = lastHash rows := by
  rcases List.eq_nil_or_concat' rows with rfl | ⟨rows', r, rfl⟩
  · rfl
  · have hlast : ∀ x ∈ rows', x.createdAt < r.createdAt := by
      intro x hx
      exact (List.pairwise_append.mp h).2.2 x hx r (List.mem_singleton_self r)
    rw [lastHash, tip_snoc, headHash, Newest.newest_snoc hlast]
    rfl

/-- So clocks that agree with the order of the persists keep the chain unforked. -/
theorem always_tip_of_increasing {s : LogState bodyHash} {steps : List LogStep}
    (h : (run (logStep sign) s steps).rows.Pairwise fun r r' => r.createdAt < r'.createdAt) :
    Always (logStep sign) PersistsOnTip s steps := by
  induction steps generalizing s with
  | nil => trivial
  | cons i steps ih =>
    refine ⟨?_, ih h⟩
    obtain ⟨more, hmore⟩ := run_rows sign s (i :: steps)
    rw [hmore] at h
    have hrows := (List.pairwise_append.mp h).1
    cases i with
    | persist writer tie outcome retryAt =>
      intro fl _ _ _
      exact headHash_increasing hrows tie
    | fromDb => trivial
    | append => trivial

/-- The table is one unforked chain exactly when every successful persist finds,
as the newest row, the row persisted last. -/
theorem log_unforked_iff (bodyHash : LifecycleBody → Hex) (sign : Hex → Hex) (steps : List LogStep)
    (hfree : CollisionFree (run (logStep sign) (emptyLog bodyHash) steps).rows) :
    Unforked (run (logStep sign) (emptyLog bodyHash) steps).rows ↔
      Always (logStep sign) PersistsOnTip (emptyLog bodyHash) steps :=
  run_unforked_iff .nil hfree

/-- A hash that tells bodies of different instants apart. -/
def instantHash (b : LifecycleBody) : Hex := b.atIso.toList.map fun c => .ofNibble (c.toNat % 10)

def steadyRow : LifecycleRowInput :=
  ⟨true, some .active, .active, "ok", none, none, none, none, none, none, false, none⟩

/-- The second writer re-chains once and both clocks agree. -/
def agreeingRun : List LogStep :=
  [.append 0 steadyRow 10, .append 1 steadyRow 11, .persist 0 0 .ok 10, .persist 1 0 .ok 12, .persist 1 0 .ok 12]

theorem log_unforked_agreeing :
    Unforked (run (logStep id) (emptyLog instantHash) agreeingRun).rows := by
  refine (log_unforked_iff instantHash id agreeingRun ?_).mpr (always_tip_of_increasing ?_)
  · exact .of_nodup (by decide +kernel) (by decide +kernel)
  · decide +kernel

/-- The clock of the second writer is behind: its own row is never the newest, so
its next append is chained onto the first writer's row a second time. -/
def skewedRun : List LogStep :=
  [.append 0 steadyRow 10, .persist 0 0 .ok 10,
   .append 1 steadyRow 5, .persist 1 0 .ok 6, .persist 1 0 .ok 6,
   .append 1 steadyRow 7, .persist 1 0 .ok 8, .persist 1 0 .ok 8]

theorem log_forks :
    ¬ ∀ (bodyHash : LifecycleBody → Hex) (sign : Hex → Hex) (steps : List LogStep),
      CollisionFree (run (logStep sign) (emptyLog bodyHash) steps).rows →
      Unforked (run (logStep sign) (emptyLog bodyHash) steps).rows := by
  intro h
  have hfree : CollisionFree (run (logStep id) (emptyLog instantHash) skewedRun).rows :=
    .of_nodup (by decide +kernel) (by decide +kernel)
  have hn := (h instantHash id skewedRun hfree).nodup
  have hfork : ¬ ((run (logStep id) (emptyLog instantHash) skewedRun).rows.map fun r => r.prevHash).Nodup := by
    decide +kernel
  exact hfork hn

end LaunchAuditor.Proofs.LogChain
