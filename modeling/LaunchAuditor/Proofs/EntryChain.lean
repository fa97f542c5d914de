import LaunchAuditor.Lib.HashChain
import LaunchAuditor.Metabolism.Lifecycle
import LaunchAuditor.Proofs.Verifier

namespace LaunchAuditor.Proofs.EntryChain
open Db Metabolism Steps Verifier HashChain

variable {hash : LifecycleBody → Hex} {clock : Int} {prev : Hex} {entries : List LifecycleEntry} {e : LifecycleEntry}

/-- Both checks rebuild one body of an entry. -/
theorem entryBody_eq (e : LifecycleEntry) (clock : Int) :
    entryBody e.toLifecycleEntryInput e.prevHash clock = e.chainRow.body := by
  have hat : e.atIso.getD (Js.toISOString clock) = e.atIso.get e.dated := by
    obtain ⟨at', hat⟩ := Option.isSome_iff_exists.mp e.dated
    simp [hat]
  simp [entryBody, LifecycleChainRow.body, bodyOf, LifecycleEntry.chainRow, hat]

/-- The entry carries the hash of its body. -/
def Hashed (hash : LifecycleBody → Hex) (e : LifecycleEntry) : Prop := hash e.chainRow.body = e.bodyHash

theorem verifyFrom_cons :
    verifyFrom hash clock prev (e :: entries) = true ↔
      e.prevHash = prev ∧ Hashed hash e ∧ verifyFrom hash clock e.bodyHash entries = true := by
  have hbody : (buildLifecycleEntry hash e.toLifecycleEntryInput e.prevHash clock).bodyHash =
      hash e.chainRow.body := congrArg hash (entryBody_eq e clock)
  rw [verifyFrom, hbody]
  simp [Hashed]

theorem verifyFrom_snoc :
    verifyFrom hash clock prev (entries ++ [e]) = true ↔
      verifyFrom hash clock prev entries = true ∧ e.prevHash = tip LifecycleEntry.bodyHash prev entries ∧
        Hashed hash e := by
  induction entries generalizing prev with
  | nil =>
    rw [List.nil_append, verifyFrom_cons]
    simp [verifyFrom, tip]
  | cons x entries ih =>
    have htip : tip LifecycleEntry.bodyHash prev (x :: entries) = tip LifecycleEntry.bodyHash x.bodyHash entries := by
      cases h : entries.getLast? <;> simp [tip, List.getLast?_cons, h]
    rw [List.cons_append, verifyFrom_cons, verifyFrom_cons, ih, htip]
    tauto

theorem inLine_iff :
    InLine hash (entries.map LifecycleEntry.chainRow) e.chainRow ↔
      Hashed hash e ∧ ∀ p, entries.getLast? = some p → e.prevHash = p.bodyHash := by
  have hhash : e.chainRow.bodyHash = some (hash e.chainRow.body).toString ↔ Hashed hash e := by
    rw [Hashed, ← Hex.toString_injective.eq_iff]
    simp [LifecycleEntry.chainRow, eq_comm]
  have hlink : ∀ p : LifecycleEntry, e.chainRow.prevHash = p.chainRow.bodyHash ↔ e.prevHash = p.bodyHash := by
    intro p
    rw [← Hex.toString_injective.eq_iff]
    simp [LifecycleEntry.chainRow]
  constructor
  · intro h
    refine ⟨hhash.mp h.hashed, fun p hp => (hlink p).mp (h.parent _ ?_)⟩
    rw [List.getLast?_map, hp]
    rfl
  · intro h
    refine ⟨hhash.mpr h.1, fun p hp => ?_⟩
    rw [List.getLast?_map, Option.map_eq_some_iff] at hp
    obtain ⟨q, hq, rfl⟩ := hp
    exact (hlink q).mpr (h.2 q hq)

theorem startsAtGenesis_iff :
    (verifyLifecycleRows hash (entries.map LifecycleEntry.chainRow)).startsAtGenesis = true ↔
      ∀ e, entries.head? = some e → e.prevHash = GENESIS_HASH := by
  have hrow : ∀ e : LifecycleEntry,
      e.chainRow.prevHash.getD GENESIS_HASH.toString = GENESIS_HASH.toString ↔ e.prevHash = GENESIS_HASH := by
    intro e
    rw [← Hex.toString_injective.eq_iff]
    rfl
  simp only [verifyLifecycleRows, List.head?_map, Option.all_eq_true, Option.map_eq_some_iff, decide_eq_true_eq]
  constructor
  · intro h e he
    exact (hrow e).mp (h _ ⟨e, he, rfl⟩)
  · rintro h _ ⟨e, he, rfl⟩
    exact (hrow e).mpr (h e he)

theorem chain_check_iff (hash : LifecycleBody → Hex) (clock : Int) (entries : List LifecycleEntry) :
    verifyLifecycleChain hash clock entries = true ↔
      (verifyLifecycleRows hash (entries.map LifecycleEntry.chainRow)).linked = true ∧
        (verifyLifecycleRows hash (entries.map LifecycleEntry.chainRow)).startsAtGenesis = true := by
  rw [linked_iff, startsAtGenesis_iff, verifyLifecycleChain]
  induction entries using List.reverseRecOn with
  | nil => simp [verifyFrom, throughout_nil]
  | append_singleton entries e ih =>
    rw [verifyFrom_snoc, ih, List.map_append, List.map_singleton, throughout_snoc, inLine_iff]
    -- the first entry answers to genesis, every later one to the entry before it
    rcases List.eq_nil_or_concat' entries with rfl | ⟨entries, p, rfl⟩
    · simp [tip, throughout_nil, and_comm]
    · simp only [tip_snoc, List.getLast?_concat, Option.some.injEq, forall_eq', List.head?_append,
        List.append_assoc]
      cases entries <;> simp <;> tauto

end LaunchAuditor.Proofs.EntryChain
