import LaunchAuditor.Api.MetabolismPanel
import LaunchAuditor.Lib.Steps
import Mathlib.Data.Set.Function

namespace LaunchAuditor.Proofs.Verifier
open Api Db Metabolism Steps

variable {hash : LifecycleBody → Hex}

/-- What the verifier asks of a row after the rows before it. -/
structure Sound (hash : LifecycleBody → Hex) (before : List LifecycleChainRow) (r : LifecycleChainRow) : Prop where
  hashed : r.bodyHash = some (hash r.body).toString
  parent : before ≠ [] → ∃ p ∈ before, p.bodyHash = r.prevHash

theorem scanRows_snoc (rows : List LifecycleChainRow) (r : LifecycleChainRow) :
    scanRows hash (rows ++ [r]) = scanRow hash (scanRows hash rows) r := by
  simp [scanRows]

theorem scan_last (rows : List LifecycleChainRow) : (scanRows hash rows).last = rows.getLast? := by
  rcases List.eq_nil_or_concat' rows with rfl | ⟨rows, r, rfl⟩
  · rfl
  · rw [scanRows_snoc, List.getLast?_concat]
    rfl

theorem mem_seenBodies (rows : List LifecycleChainRow) (h : String) :
    h ∈ (scanRows hash rows).seenBodies ↔ h ≠ "" ∧ ∃ p ∈ rows, p.bodyHash = some h := by
  induction rows using List.reverseRecOn with
  | nil => simp [scanRows, ChainScan.start]
  | append_singleton rows r ih =>
    have hr : h ∈ (r.bodyHash.filter (· ≠ "")).toList ↔ h ≠ "" ∧ r.bodyHash = some h := by
      simp [Option.mem_toList, Option.filter_eq_some_iff, and_comm]
    rw [scanRows_snoc]
    simp only [scanRow, List.mem_append, ih, hr, List.mem_singleton]
    constructor
    · intro hm
      rcases hm with ⟨hne, p, hp, he⟩ | ⟨hne, he⟩
      · exact ⟨hne, p, Or.inl hp, he⟩
      · exact ⟨hne, r, Or.inr rfl, he⟩
    · intro hm
      obtain ⟨hne, p, hp | rfl, he⟩ := hm
      · exact Or.inl ⟨hne, p, hp, he⟩
      · exact Or.inr ⟨hne, he⟩

theorem brokenAt_snoc (rows : List LifecycleChainRow) (r : LifecycleChainRow) :
    (scanRows hash (rows ++ [r])).brokenAt = none ↔
      (scanRows hash rows).brokenAt = none ∧ bodyOk hash r = true ∧
        (linkOk rows.getLast? r = true ∨ isFork (scanRows hash rows).seenBodies r = true) := by
  rw [scanRows_snoc]
  simp only [scanRow, scan_last]
  cases (scanRows hash rows).brokenAt <;> cases bodyOk hash r <;> cases linkOk rows.getLast? r <;>
    cases isFork (scanRows hash rows).seenBodies r <;> simp

theorem bodyOk_iff (r : LifecycleChainRow) : bodyOk hash r = true ↔ r.bodyHash = some (hash r.body).toString := by
  simp [bodyOk, eq_comm]

/-- Behind sound rows a link and a fork both mean a parent among them. -/
theorem parent_iff {rows : List LifecycleChainRow} (hs : Throughout (Sound hash) rows) (r : LifecycleChainRow) :
    (linkOk rows.getLast? r = true ∨ isFork (scanRows hash rows).seenBodies r = true) ↔
      (rows ≠ [] → ∃ p ∈ rows, p.bodyHash = r.prevHash) := by
  have hsome : ∀ p ∈ rows, p.bodyHash = some (hash p.body).toString := by
    intro p hp
    obtain ⟨earlier, later, he⟩ := List.append_of_mem hp
    exact (hs earlier p later he).hashed
  constructor
  · intro h hne
    rcases h with hl | hf
    · obtain ⟨rows, p, rfl⟩ := (List.eq_nil_or_concat' rows).resolve_left hne
      refine ⟨p, by simp, ?_⟩
      simpa [linkOk, eq_comm] using hl
    · obtain ⟨h, hh, hm⟩ := Option.any_eq_true .. |>.mp hf
      simp only [Bool.and_eq_true, decide_eq_true_eq] at hm
      obtain ⟨_, p, hp, he⟩ := (mem_seenBodies rows h).mp hm.2
      exact ⟨p, hp, he.trans hh.symm⟩
  · intro h
    by_cases hne : rows = []
    · subst hne
      exact Or.inl rfl
    · obtain ⟨p, hp, he⟩ := h hne
      rw [hsome p hp] at he
      refine Or.inr ?_
      have hm : (hash p.body).toString ∈ (scanRows hash rows).seenBodies :=
        (mem_seenBodies rows _).mpr ⟨Hex.toString_ne_empty _, p, hp, hsome p hp⟩
      simp [isFork, ← he, hm, Hex.toString_ne_empty]

theorem intact_iff (rows : List LifecycleChainRow) :
    (verifyLifecycleRows hash rows).intact = true ↔ Throughout (Sound hash) rows := by
  have hnone : (scanRows hash rows).brokenAt = none ↔ Throughout (Sound hash) rows := by
    induction rows using List.reverseRecOn with
    | nil => exact ⟨fun _ => throughout_nil, fun _ => rfl⟩
    | append_singleton rows r ih =>
      rw [brokenAt_snoc, throughout_snoc, ih, bodyOk_iff]
      constructor
      · intro h
        obtain ⟨hs, hb, hp⟩ := h
        exact ⟨hs, hb, (parent_iff hs r).mp hp⟩
      · intro h
        obtain ⟨hs, hb, hp⟩ := h
        exact ⟨hs, hb, (parent_iff hs r).mpr hp⟩
  rw [← hnone]
  exact Option.isNone_iff_eq_none

theorem intact_hashed {rows : List LifecycleChainRow} (h : (verifyLifecycleRows hash rows).intact = true)
    {r : LifecycleChainRow} (hr : r ∈ rows) : r.bodyHash = some (hash r.body).toString := by
  obtain ⟨earlier, later, he⟩ := List.append_of_mem hr
  exact ((intact_iff rows).mp h earlier r later he).hashed

section Sample

/-- A hash that tells reasons apart. -/
def reasonHash (b : LifecycleBody) : Hex := b.reason.toList.map fun c => .ofNibble (c.toNat % 16)

/-- A snapshot in the state `ACTIVE` that points to `prevHash`. -/
def snapshotRow (reason : String) (prevHash : Hex) (createdAt : Int) : LifecycleLog :=
  let row : LifecycleLog :=
    { isSnapshot := true, prevState := some .active, newState := .active, reason, keyId := none
      keyHashPrefix := none, balanceUsd := some 20, keyRemainingUsd := none, reserveUsd := some 3
      ledgerSpendUsd := none, providerSpendUsd := none, idsMismatch := false, billingStatus := none
      prevHash := some prevHash.toString, bodyHash := none, signature := none, createdAt }
  { row with bodyHash := some (reasonHash (lifecycleApiRow row).body).toString }

def hashOf (r : LifecycleLog) : Hex := reasonHash (lifecycleApiRow r).body

def rowA : LifecycleLog := snapshotRow "a" GENESIS_HASH 10
def rowB : LifecycleLog := snapshotRow "b" (hashOf rowA) 11
def rowC : LifecycleLog := snapshotRow "c" (hashOf rowB) 12

/-- A second writer that also saw row A as the head. -/
def rowC' : LifecycleLog := snapshotRow "c" (hashOf rowA) 12

end Sample

/-- The alterations of a list of rows that have to be noticed. -/
inductive Tampered (hash : LifecycleBody → Hex) : List LifecycleChainRow → List LifecycleChainRow → Prop
  /-- the signed body is edited and the stored hash kept -/
  | edit {before after : List LifecycleChainRow} {r r' : LifecycleChainRow} (kept : r'.bodyHash = r.bodyHash)
      (changed : r'.body ≠ r.body) : Tampered hash (before ++ r :: after) (before ++ r' :: after)
  /-- a row that a later row points to makes way for one with another body and its hash -/
  | replace {before after : List LifecycleChainRow} {r r' : LifecycleChainRow}
      (pointed : ∃ c ∈ after, c.prevHash = r.bodyHash) (changed : r'.body ≠ r.body)
      (rehashed : r'.bodyHash = some (hash r'.body).toString) :
      Tampered hash (before ++ r :: after) (before ++ r' :: after)
  /-- a row that is not the first and that a later row points to is left out -/
  | delete {before after : List LifecycleChainRow} {r : LifecycleChainRow} (first : before ≠ [])
      (pointed : ∃ c ∈ after, c.prevHash = r.bodyHash) : Tampered hash (before ++ r :: after) (before ++ after)

/-- No row but `r` has the hash a later row points to. -/
theorem lost_parent {before after : List LifecycleChainRow} {r : LifecycleChainRow}
    (hd : ((before ++ r :: after).map fun r => r.bodyHash).Nodup) {p : LifecycleChainRow}
    (hp : p ∈ before ++ after) : p.bodyHash ≠ r.bodyHash := by
  intro he
  rw [List.map_append, List.map_cons, List.nodup_middle, ← List.map_append] at hd
  exact (List.nodup_cons.mp hd).1 (he ▸ List.mem_map_of_mem hp)

/-- The child of a row that has gone finds its parent nowhere, wherever it stands. -/
theorem not_intact_of_orphan {before mid rest : List LifecycleChainRow} {c : LifecycleChainRow}
    (hne : before ++ mid ≠ []) (hno : ∀ p ∈ before ++ mid, p.bodyHash ≠ c.prevHash) :
    (verifyLifecycleRows hash (before ++ (mid ++ c :: rest))).intact = false := by
  rw [← Bool.not_eq_true]
  intro hi
  have hs := (intact_iff _).mp hi (before ++ mid) c rest (by simp)
  obtain ⟨p, hp, he⟩ := hs.parent hne
  exact hno p hp he

/-- The hash tells the bodies of the two lists apart. -/
def CollisionFreeOn (hash : LifecycleBody → Hex) (rows : List LifecycleChainRow) : Prop :=
  Set.InjOn hash {b | ∃ r ∈ rows, b = r.body}

theorem CollisionFreeOn.body_eq {rows : List LifecycleChainRow} (h : CollisionFreeOn hash rows)
    {r r' : LifecycleChainRow} (hr : r ∈ rows) (hr' : r' ∈ rows)
    (he : some (hash r.body).toString = some (hash r'.body).toString) : r.body = r'.body :=
  h ⟨r, hr, rfl⟩ ⟨r', hr', rfl⟩ (Hex.toString_injective (Option.some.inj he))

/-- Tamper evidence, at any position of a log of any shape, forks included. -/
theorem tampering_detected {rows altered : List LifecycleChainRow}
    (hinj : CollisionFreeOn hash (rows ++ altered)) (hintact : (verifyLifecycleRows hash rows).intact = true)
    (hdistinct : (rows.map fun r => r.bodyHash).Nodup) (ht : Tampered hash rows altered) :
    (verifyLifecycleRows hash altered).intact = false := by
  cases ht with
  | @edit before after r r' kept changed =>
    rw [← Bool.not_eq_true]
    intro hi
    have hr := intact_hashed hintact (r := r) (by simp)
    have hr' := intact_hashed hi (r := r') (by simp)
    refine changed (hinj.body_eq (by simp) (by simp) ?_)
    rw [← hr, ← hr', kept]
  | @replace before after r r' pointed changed rehashed =>
    obtain ⟨c, hc, hprev⟩ := pointed
    obtain ⟨mid, rest, rfl⟩ := List.append_of_mem hc
    refine @not_intact_of_orphan _ before (r' :: mid) _ _ (by simp) ?_
    intro p hp
    rw [hprev]
    have hold : ∀ p ∈ before ++ mid, p.bodyHash ≠ r.bodyHash := by
      intro p hp
      apply lost_parent hdistinct
      rcases List.mem_append.mp hp with hp | hp <;> simp [hp]
    rcases List.mem_append.mp hp with hp | hp
    · exact hold p (List.mem_append_left _ hp)
    · rcases List.mem_cons.mp hp with rfl | hp
      · intro he
        have hr := intact_hashed hintact (r := r) (by simp)
        refine changed (hinj.body_eq (by simp) (by simp) ?_)
        rw [← hr, ← rehashed, he]
      · exact hold p (List.mem_append_right _ hp)
  | @delete before after r first pointed =>
    obtain ⟨c, hc, hprev⟩ := pointed
    obtain ⟨mid, rest, rfl⟩ := List.append_of_mem hc
    refine not_intact_of_orphan (by simp [first]) ?_
    intro p hp
    rw [hprev]
    apply lost_parent hdistinct
    rcases List.mem_append.mp hp with hp | hp <;> simp [hp]

def chainABC : List LifecycleChainRow := chainRows (prismaLifecycleReader 3 [rowC, rowB, rowA])

/-- The middle row of three is deleted. -/
theorem deletion_detected :
    (verifyLifecycleRows reasonHash (chainRows (prismaLifecycleReader 2 [rowC, rowA]))).intact = false := by
  have hfree : ∀ r ∈ chainABC ++ chainRows (prismaLifecycleReader 2 [rowC, rowA]),
      ∀ r' ∈ chainABC ++ chainRows (prismaLifecycleReader 2 [rowC, rowA]),
        reasonHash r.body = reasonHash r'.body → r.body = r'.body := by decide +kernel
  have hinj : CollisionFreeOn reasonHash (chainABC ++ chainRows (prismaLifecycleReader 2 [rowC, rowA])) := by
    rintro _ ⟨r, hr, rfl⟩ _ ⟨r', hr', rfl⟩ he
    exact hfree r hr r' hr' he
  refine @tampering_detected _ chainABC _ hinj (by decide +kernel) (by decide +kernel) ?_
  exact @Tampered.delete _ [_] [_] _ (by simp) ⟨_, List.mem_singleton_self _, rfl⟩

/-- What makes a row linked: its hash, and the row just before it as its parent. -/
structure InLine (hash : LifecycleBody → Hex) (before : List LifecycleChainRow) (r : LifecycleChainRow) : Prop where
  hashed : r.bodyHash = some (hash r.body).toString
  parent : ∀ p, before.getLast? = some p → r.prevHash = p.bodyHash

theorem linked_iff (rows : List LifecycleChainRow) :
    (verifyLifecycleRows hash rows).linked = true ↔ Throughout (InLine hash) rows := by
  change (scanRows hash rows).linked = true ↔ _
  induction rows using List.reverseRecOn with
  | nil => exact ⟨fun _ => throughout_nil, fun _ => rfl⟩
  | append_singleton rows r ih =>
    have hlink : linkOk rows.getLast? r = true ↔ ∀ p, rows.getLast? = some p → r.prevHash = p.bodyHash := by
      simp [linkOk, Option.all_eq_true]
    rw [scanRows_snoc, throughout_snoc, ← ih]
    simp only [scanRow, scan_last, Bool.and_eq_true, and_assoc, hlink, bodyOk_iff]
    constructor
    · intro h
      obtain ⟨hs, hp, hb⟩ := h
      exact ⟨hs, hb, hp⟩
    · intro h
      obtain ⟨hs, hb, hp⟩ := h
      exact ⟨hs, hp, hb⟩

/-- A row of the window, not its first, has its parent among the older rows only. -/
def CutOff (older window : List LifecycleChainRow) : Prop :=
  ∃ earlier r later, window = earlier ++ r :: later ∧ earlier ≠ [] ∧
    (∃ p ∈ older, p.bodyHash = r.prevHash) ∧ ∀ p ∈ earlier, p.bodyHash ≠ r.prevHash

/-- A window of an intact log is intact exactly when it cuts no row but its first
off from its parent. -/
theorem window_of_intact {older window : List LifecycleChainRow}
    (h : (verifyLifecycleRows hash (older ++ window)).intact = true) :
    (verifyLifecycleRows hash window).intact = true ↔ ¬ CutOff older window := by
  have hs := (intact_iff _).mp h
  rw [intact_iff]
  constructor
  · intro hw hcut
    obtain ⟨earlier, r, later, he, hne, -, hno⟩ := hcut
    obtain ⟨p, hp, hprev⟩ := (hw earlier r later he).parent hne
    exact hno p hp hprev
  · intro hcut earlier r later he
    have hr := hs (older ++ earlier) r later (by simp [he])
    refine ⟨hr.hashed, ?_⟩
    intro hne
    obtain ⟨p, hp, hprev⟩ := hr.parent (by simp [hne])
    by_contra hno
    have hno' : ∀ p ∈ earlier, p.bodyHash ≠ r.prevHash := fun p hp he => hno ⟨p, hp, he⟩
    rcases List.mem_append.mp hp with hp | hp
    · exact hcut ⟨earlier, r, later, he, hne, ⟨p, hp, hprev⟩, hno'⟩
    · exact hno' p hp hprev

/-- The rows of the log that a window of the endpoint leaves out. -/
def olderRows (limit : Nat) (desc : List LifecycleLog) : List LifecycleChainRow :=
  chainRows ((desc.drop limit).map lifecycleApiRow).reverse

/-- Where the endpoint's window starts matters exactly when it separates the two
rows of a fork from their parent. -/
theorem window_intact_iff (hash : LifecycleBody → Hex) (desc : List LifecycleLog) (limit : Nat)
    (h : (lifecycleCheck hash desc.length desc).intact = true) :
    (lifecycleCheck hash limit desc).intact = true ↔
      ¬ CutOff (olderRows limit desc) (chainRows (prismaLifecycleReader limit desc)) := by
  apply window_of_intact
  rw [olderRows, ← chainRows_append, ← prismaLifecycleReader_split]
  exact h

/-- The window of two rows starts between a fork and its parent. -/
theorem window_cuts_fork :
    CutOff (olderRows 2 [rowC', rowB, rowA]) (chainRows (prismaLifecycleReader 2 [rowC', rowB, rowA])) := by
  have hiff := window_intact_iff reasonHash [rowC', rowB, rowA] 2 (by decide +kernel)
  by_contra hcut
  exact absurd (hiff.mpr hcut) (by decide +kernel)

theorem window_breaks : ¬ ∀ (hash : LifecycleBody → Hex) (desc : List LifecycleLog) (limit : Nat),
    (lifecycleCheck hash desc.length desc).intact = true → (lifecycleCheck hash limit desc).intact = true := by
  intro h
  have hi := h reasonHash [rowC', rowB, rowA] 2 (by decide +kernel)
  exact absurd hi (by decide +kernel)

end LaunchAuditor.Proofs.Verifier
