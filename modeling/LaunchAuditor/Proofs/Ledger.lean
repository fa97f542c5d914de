import LaunchAuditor.Proofs.Windows

namespace LaunchAuditor.Proofs.Ledger
open Db Metabolism Runner Tally Windows

/-- No epoch reaches the date, if it is after the baseline. -/
def Unreached (epochs : List MetabolismEpoch) (baseline : Option Int) (atMs : Int) : Prop :=
  ∀ b, baseline = some b → b < atMs → ∀ e ∈ epochs, e.atMs < atMs

section Books
variable {spend : SpendTable} {epochs : List MetabolismEpoch} {baseline : Option Int}

/-- The epoch `open'` is excepted: its tick is still stamping. -/
structure Books (spend : SpendTable) (epochs : List MetabolismEpoch) (baseline : Option Int)
    (open' : Option String) : Prop where
  rowIds : (spend.map MetabolismSpend.id).Nodup
  epochIds : (epochs.map MetabolismEpoch.id).Nodup
  micros : ∀ r ∈ spend, ∀ x, r.estimatedCostUsd = some x → Micros x
  known : ∀ r ∈ spend, ∀ epochId, r.epochId = some epochId → ∃ e ∈ epochs, e.id = epochId
  counted : ∀ e ∈ epochs, open' ≠ some e.id →
    (e.requestCount, e.localEstimateUsd) = tally figures (stampedBy e.id) spend
  stamped : ∀ b, baseline = some b → ∀ r ∈ spend, r.epochId = none → b < r.atMs →
    ∀ e ∈ epochs, open' ≠ some e.id → e.atMs < r.atMs

/-- An epoch whose figures are those of the rows stamped with it and of the pending ones. -/
structure Open (spend : SpendTable) (epochs : List MetabolismEpoch) (baseline : Option Int) (epochId : String)
    (epochAt : Int) (pending : MetabolismSpend → Bool) : Prop where
  epoch : ∃ e ∈ epochs, e.id = epochId ∧ e.atMs = epochAt ∧
    (e.requestCount, e.localEstimateUsd) = tally figures (stampedBy epochId) spend + tally figures pending spend
  free : ∀ r ∈ spend, pending r = true → r.epochId = none
  due : ∀ b, baseline = some b → ∀ r ∈ spend, r.epochId = none → b < r.atMs → pending r = true ∨ epochAt < r.atMs

theorem Books.epoch_unique {open' : Option String} (h : Books spend epochs baseline open') {e e' : MetabolismEpoch}
    (he : e ∈ epochs) (he' : e' ∈ epochs) (hid : e.id = e'.id) : e = e' :=
  List.inj_on_of_nodup_map h.epochIds he he' hid

theorem Books.row_unique {open' : Option String} (h : Books spend epochs baseline open') {r r' : MetabolismSpend}
    (hr : r ∈ spend) (hr' : r' ∈ spend) (hid : r.id = r'.id) : r = r' :=
  List.inj_on_of_nodup_map h.rowIds hr hr' hid

/-- A row that becomes visible. -/
theorem Books.insert {open' : Option String} (h : Books spend epochs baseline open') {row : MetabolismSpend}
    (hnone : row.epochId = none) (hfresh : ∀ r ∈ spend, r.id ≠ row.id)
    (hmicros : ∀ x, row.estimatedCostUsd = some x → Micros x) (hdate : Unreached epochs baseline row.atMs) :
    Books (spend ++ [row]) epochs baseline open' := by
  constructor
  · rw [List.map_append, List.map_singleton]
    refine List.Nodup.append h.rowIds (List.nodup_singleton _) ?_
    intro id hold hnew
    obtain ⟨r, hr, hid⟩ := List.mem_map.mp hold
    exact hfresh r hr (hid.trans (List.mem_singleton.mp hnew))
  · exact h.epochIds
  · intro r hr
    rcases List.mem_append.mp hr with hr | hr
    · exact h.micros r hr
    · rw [List.mem_singleton.mp hr]
      exact hmicros
  · intro r hr epochId hid
    rcases List.mem_append.mp hr with hr | hr
    · exact h.known r hr epochId hid
    · rw [List.mem_singleton.mp hr, hnone] at hid
      cases hid
  · intro e he hopen
    rw [tally_append, ← h.counted e he hopen]
    have hrow : tally figures (stampedBy e.id) [row] = 0 := by
      apply tally_none
      intro r hr
      simp [List.mem_singleton.mp hr, stampedBy, hnone]
    rw [hrow, add_zero]
  · intro b hb r hr hrnone hlt e he hopen
    rcases List.mem_append.mp hr with hr | hr
    · exact h.stamped b hb r hr hrnone hlt e he hopen
    · rw [List.mem_singleton.mp hr] at hlt ⊢
      exact hdate b hb hlt e he

theorem Open.insert {epochId : String} {epochAt : Int} {pending : MetabolismSpend → Bool}
    (h : Open spend epochs baseline epochId epochAt pending) {row : MetabolismSpend} (hnone : row.epochId = none)
    (hout : pending row = false) (hdate : Unreached epochs baseline row.atMs) :
    Open (spend ++ [row]) epochs baseline epochId epochAt pending := by
  obtain ⟨e, he, hid, hat, hfigures⟩ := h.epoch
  refine ⟨⟨e, he, hid, hat, ?_⟩, ?_, ?_⟩
  · have hstamped : tally figures (stampedBy epochId) [row] = 0 := by
      apply tally_none
      intro r hr
      simp [List.mem_singleton.mp hr, stampedBy, hnone]
    have hpending : tally figures pending [row] = 0 := by
      apply tally_none
      intro r hr
      rw [List.mem_singleton.mp hr]
      exact hout
    rw [tally_append, tally_append, hstamped, hpending, add_zero, add_zero, hfigures]
  · intro r hr hp
    rcases List.mem_append.mp hr with hr | hr
    · exact h.free r hr hp
    · rw [List.mem_singleton.mp hr]
      exact hnone
  · intro b hb r hr hrnone hlt
    rcases List.mem_append.mp hr with hr | hr
    · exact h.due b hb r hr hrnone hlt
    · rw [List.mem_singleton.mp hr] at hlt ⊢
      exact Or.inr (hat ▸ hdate b hb hlt e he)

/-- An epoch that is created is open. -/
theorem Books.create (h : Books spend epochs baseline none) {row : MetabolismEpoch}
    (hfresh : ∀ e ∈ epochs, e.id ≠ row.id) : Books spend (epochs ++ [row]) baseline (some row.id) := by
  have hold : ∀ e ∈ epochs ++ [row], some row.id ≠ some e.id → e ∈ epochs := by
    intro e he hne
    rcases List.mem_append.mp he with he | he
    · exact he
    · rw [List.mem_singleton.mp he] at hne
      exact absurd rfl hne
  refine ⟨h.rowIds, ?_, h.micros, ?_, ?_, ?_⟩
  · rw [List.map_append, List.map_singleton]
    refine List.Nodup.append h.epochIds (List.nodup_singleton _) ?_
    intro id he hnew
    obtain ⟨e, he, hid⟩ := List.mem_map.mp he
    exact hfresh e he (hid.trans (List.mem_singleton.mp hnew))
  · intro r hr epochId hid
    obtain ⟨e, he, heid⟩ := h.known r hr epochId hid
    exact ⟨e, List.mem_append_left _ he, heid⟩
  · intro e he hopen
    exact h.counted e (hold e he hopen) (by simp)
  · intro b hb r hr hnone hlt e he hopen
    exact h.stamped b hb r hr hnone hlt e (hold e he hopen) (by simp)

theorem Open.create (h : Books spend epochs baseline none) {row : MetabolismEpoch} {w : EpochWindow}
    (hfresh : ∀ e ∈ epochs, e.id ≠ row.id) (hat : row.atMs = w.epochAt)
    (hfigures : (row.requestCount, row.localEstimateUsd) = tally figures (inWindow w.windowStart w.epochAt) spend)
    (hstarts : StartsAtLast epochs w)
    (hfirst : epochs = [] → ∀ b, baseline = some b → ∀ r ∈ spend, r.epochId = none → b < r.atMs →
      r.atMs ≤ w.epochAt → w.windowStart < r.atMs) :
    Open spend (epochs ++ [row]) baseline row.id w.epochAt (inWindow w.windowStart w.epochAt) := by
  refine ⟨⟨row, by simp, rfl, hat, ?_⟩, ?_, ?_⟩
  · have hnone : tally figures (stampedBy row.id) spend = 0 := by
      apply tally_none
      intro r hr
      rw [Bool.eq_false_iff]
      intro hstamped
      obtain ⟨e, he, hid⟩ := h.known r hr row.id (by simpa [stampedBy] using hstamped)
      exact hfresh e he hid
    rw [hnone, zero_add, hfigures]
  · intro r _ hp
    simp only [inWindow, Bool.and_eq_true, Option.isNone_iff_eq_none] at hp
    exact hp.1.1
  · intro b hb r hr hnone hlt
    by_cases hle : r.atMs ≤ w.epochAt
    · left
      -- the rows up to the start of the window are stamped
      have hafter : w.windowStart < r.atMs := by
        rcases hstarts with hempty | ⟨p, hp, hstart, _⟩
        · exact hfirst hempty b hb r hr hnone hlt hle
        · rw [← hstart]
          exact h.stamped b hb r hr hnone hlt p hp (by simp)
      simp [inWindow, hnone, hafter, hle]
    · right
      omega

variable {epochId : String} {p : MetabolismSpend → Bool} {g : MetabolismSpend → MetabolismSpend}

theorem Books.stamp (h : Books spend epochs baseline (some epochId)) (hs : Stamping epochId p g)
    (hfree : ∀ r ∈ spend, p r = true → r.epochId = none) (hknown : ∃ e ∈ epochs, e.id = epochId) :
    Books (spend.map g) epochs baseline (some epochId) := by
  have hids : (spend.map g).map MetabolismSpend.id = spend.map MetabolismSpend.id := by
    rw [List.map_map]
    apply List.map_congr_left
    intro r _
    exact hs.id r
  refine ⟨hids ▸ h.rowIds, h.epochIds, ?_, ?_, ?_, ?_⟩
  · intro r' hr'
    obtain ⟨r, hr, rfl⟩ := List.mem_map.mp hr'
    rw [hs.estimate]
    exact h.micros r hr
  · intro r' hr' id hid
    obtain ⟨r, hr, rfl⟩ := List.mem_map.mp hr'
    rw [hs.epochId] at hid
    split at hid
    · rw [← Option.some.inj hid]
      exact hknown
    · exact h.known r hr id hid
  · intro e he hopen
    rw [hs.tally_other hfree (fun hid => hopen (congrArg some hid.symm))]
    exact h.counted e he hopen
  · intro b hb r' hr' hnone hlt e he hopen
    obtain ⟨r, hr, rfl⟩ := List.mem_map.mp hr'
    rw [hs.atMs] at hlt ⊢
    exact h.stamped b hb r hr (hs.unstamped.mp hnone).2 hlt e he hopen

/-- What was pending is stamped or still pending. -/
theorem Open.stamp {epochAt : Int} {pending pending' : MetabolismSpend → Bool}
    (h : Open spend epochs baseline epochId epochAt pending) (hs : Stamping epochId p g)
    (hsplit : ∀ r ∈ spend, pending r = (p r || pending' r)) (hapart : ∀ r ∈ spend, p r = true → pending' r = false)
    (hsame : ∀ r, pending' (g r) = pending' r) : Open (spend.map g) epochs baseline epochId epochAt pending' := by
  have hfree : ∀ r ∈ spend, p r = true → r.epochId = none := by
    intro r hr hp
    exact h.free r hr (by simp [hsplit r hr, hp])
  obtain ⟨e, he, hid, hat, hfigures⟩ := h.epoch
  refine ⟨⟨e, he, hid, hat, ?_⟩, ?_, ?_⟩
  · have hrest : tally figures pending' (spend.map g) = tally figures pending' spend := by
      rw [tally_map hs.figures_eq]
      exact tally_congr fun r _ => hsame r
    calc (e.requestCount, e.localEstimateUsd)
        = tally figures (stampedBy epochId) spend + tally figures pending spend := hfigures
      _ = tally figures (stampedBy epochId) spend + (tally figures p spend + tally figures pending' spend) := by
          rw [tally_congr hsplit, tally_or hapart]
      _ = tally figures (stampedBy epochId) (spend.map g) + tally figures pending' (spend.map g) := by
          rw [hs.tally_own hfree, hrest, add_assoc]
  · intro r' hr' hp
    obtain ⟨r, hr, rfl⟩ := List.mem_map.mp hr'
    rw [hsame] at hp
    have hnot : p r = false := by
      cases hpr : p r with
      | true =>
        rw [hapart r hr hpr] at hp
        cases hp
      | false => rfl
    exact hs.unstamped.mpr ⟨hnot, h.free r hr (by simp [hsplit r hr, hp])⟩
  · intro b hb r' hr' hnone hlt
    obtain ⟨r, hr, rfl⟩ := List.mem_map.mp hr'
    obtain ⟨hnot, hrnone⟩ := hs.unstamped.mp hnone
    rw [hs.atMs] at hlt ⊢
    rw [hsame]
    rcases h.due b hb r hr hrnone hlt with hp | hlate
    · left
      rw [hsplit r hr, hnot] at hp
      exact hp
    · exact Or.inr hlate

/-- An epoch with no row pending is like the others. -/
theorem Books.close {epochAt : Int} {pending : MetabolismSpend → Bool}
    (h : Books spend epochs baseline (some epochId)) (ho : Open spend epochs baseline epochId epochAt pending)
    (hnone : ∀ r ∈ spend, pending r = false) : Books spend epochs baseline none := by
  obtain ⟨o, ho', hid, hat, hfigures⟩ := ho.epoch
  refine ⟨h.rowIds, h.epochIds, h.micros, h.known, ?_, ?_⟩
  · intro e he _
    by_cases hopen : some epochId = some e.id
    · obtain rfl := h.epoch_unique he ho' ((Option.some.inj hopen).symm.trans hid.symm)
      rw [hfigures, tally_none hnone, add_zero, hid]
    · exact h.counted e he hopen
  · intro b hb r hr hrnone hlt e he _
    by_cases hopen : some epochId = some e.id
    · obtain rfl := h.epoch_unique he ho' ((Option.some.inj hopen).symm.trans hid.symm)
      rw [hat]
      rcases ho.due b hb r hr hrnone hlt with hp | hlate
      · rw [hnone r hr] at hp
        cases hp
      · exact hlate
    · exact h.stamped b hb r hr hrnone hlt e he hopen

theorem Open.congr {epochAt : Int} {pending pending' : MetabolismSpend → Bool}
    (h : Open spend epochs baseline epochId epochAt pending) (hp : ∀ r ∈ spend, pending r = pending' r) :
    Open spend epochs baseline epochId epochAt pending' := by
  refine ⟨?_, ?_, ?_⟩
  · rw [← tally_congr hp]
    exact h.epoch
  · intro r hr hpr
    exact h.free r hr (by rw [hp r hr, hpr])
  · intro b hb r hr hnone hlt
    rw [← hp r hr]
    exact h.due b hb r hr hnone hlt

/-- The first baseline is set. -/
theorem Books.setBaseline (h : Books spend epochs none none)
    (hdate : ∀ r ∈ spend, r.epochId = none → Unreached epochs baseline r.atMs) : Books spend epochs baseline none := by
  refine ⟨h.rowIds, h.epochIds, h.micros, h.known, h.counted, ?_⟩
  intro b hb r hr hnone hlt e he _
  exact hdate r hr hnone b hb hlt e he

end Books

end LaunchAuditor.Proofs.Ledger
