import LaunchAuditor.Report.Drafts
import LaunchAuditor.Watcher.Creator

namespace LaunchAuditor.Proofs.PriorExits
open Chain Outcomes Scoring Db Watcher Report

/-- The outcomes about the insiders' exits whose horizon has ended. -/
def knownExits (t : Int) (db : WorkerDb) : List Outcome :=
  db.outcomes.filter fun o => decide (o.label = .INSIDER_EXIT) && o.horizonAt.any fun h => decide (h ≤ t)

/-- The unique key of the table of outcomes is one. -/
def KeysDistinct (db : WorkerDb) : Prop := (db.outcomes.map fun o => outcomeKeyOf o.toOutcomeRow).Nodup

/-- Two states with the same that could be known at the pin, in whatever order. -/
structure AgreeAt (t : Int) (p : CreatorContextParams) (db db' : WorkerDb) : Prop where
  launches : (creatorPriorLaunches db p).Perm (creatorPriorLaunches db' p)
  exits : (knownExits t db).Perm (knownExits t db')

/-- Every such state gives the same rate, and it is one. -/
def Determined (t : Int) (p : CreatorContextParams) (db : WorkerDb) : Prop :=
  ∀ db', KeysDistinct db' → AgreeAt t p db db' → ∀ calls calls' ctx ctx',
    computeCreatorContext calls p db = .ok ctx → computeCreatorContext calls' p db' = .ok ctx' →
      ctx'.creatorPriorInsiderExitRate = ctx.creatorPriorInsiderExitRate ∧
        ∀ x, ctx.creatorPriorInsiderExitRate = some x → 0 ≤ x ∧ x ≤ 1

variable {t : Int} {p : CreatorContextParams} {calls : CreatorCalls} {db : WorkerDb} {ctx : CreatorContext}

/-- The rate does not depend on how the calls end. -/
theorem rate_eq (h : computeCreatorContext calls p db = .ok ctx) : ctx.creatorPriorInsiderExitRate =
    if creatorPriorLaunches db p = [] then none
    else insiderExitRate (resolvedExits db ((creatorPriorLaunches db p).map Launch.id)) := by
  unfold computeCreatorContext at h
  dsimp only at h
  split at h
  · cases h
  · by_cases hnone : creatorPriorLaunches db p = []
    · rw [if_pos hnone] at h ⊢
      rw [← Except.ok.inj h]
    · rw [if_neg hnone] at h ⊢
      split at h
      · cases h
      · rw [← Except.ok.inj h]

/-- An instant after the pin and after every anchor. -/
theorem exists_later (t : Int) (outcomes : List Outcome) : ∃ a, t < a ∧ ∀ o ∈ outcomes, o.anchorTime < a := by
  induction outcomes with
  | nil => exact ⟨t + 1, by omega, fun o ho => nomatch ho⟩
  | cons o outcomes ih =>
    obtain ⟨a, ht, hall⟩ := ih
    refine ⟨max a (o.anchorTime + 1), by omega, ?_⟩
    intro o' ho'
    rcases List.mem_cons.mp ho' with rfl | ho'
    · omega
    · have := hall o' ho'
      omega

def lateExit (l : Launch) (anchor : Int) (value : Bool) : Outcome where
  id := "late"
  chainId := l.chainId
  tokenAddress := l.tokenAddress
  anchorTime := anchor
  trigger := .launch
  launchId := some l.id
  label := .INSIDER_EXIT
  horizon := "72h"
  ruleVersion := "v1"
  horizonAt := some (anchor + horizonMs "72h")
  status := .RESOLVED
  value := some value
  retrospective := false

/-- What could be known, and one row more. -/
def withLate (t : Int) (o : Outcome) (db : WorkerDb) : WorkerDb := { db with outcomes := knownExits t db ++ [o] }

theorem withLate_agrees {o : Outcome} {h : Int} (hlate : o.horizonAt = some h) (ht : t < h) :
    AgreeAt t p db (withLate t o db) := by
  refine ⟨List.Perm.refl _, ?_⟩
  have hnew : knownExits t (withLate t o db) = knownExits t db := by
    have hnot : ¬ h ≤ t := by omega
    simp [knownExits, withLate, List.filter_append, List.filter_filter, hlate, hnot]
  rw [hnew]

theorem withLate_keys (h : KeysDistinct db) {o : Outcome} (ho : ∀ o' ∈ db.outcomes, o'.anchorTime < o.anchorTime) :
    KeysDistinct (withLate t o db) := by
  unfold KeysDistinct withLate knownExits
  rw [List.map_append]
  refine List.nodup_append.mpr ⟨?_, by simp, ?_⟩
  · exact h.sublist (List.filter_sublist.map _)
  · intro key hkey key' hkey' he
    obtain ⟨o', ho', rfl⟩ := List.mem_map.mp hkey
    rw [List.mem_singleton.mp hkey'] at he
    have htime : o'.anchorTime = o.anchorTime := congrArg (fun k => k.2.2.1) he
    have hlt := ho o' (List.mem_filter.mp ho').1
    omega

/-- The late row decides what is said of its launch. -/
theorem late_decides (rows : List Outcome) (l : Launch) (anchor : Int) :
    insiderExitRate (rows ++ [lateExit l anchor true]) ≠ insiderExitRate (rows ++ [lateExit l anchor false]) := by
  unfold insiderExitRate
  rw [if_neg (by simp), if_neg (by simp)]
  dsimp only
  rw [List.foldl_append, List.foldl_append]
  generalize rows.foldl _ _ = byLaunch
  intro he
  replace he := Option.some.inj he
  change (((OrderedMap.set l.id true byLaunch).countP Prod.snd : ℕ) : ℚ) / ((OrderedMap.set l.id true byLaunch).length : ℕ) =
    ((OrderedMap.set l.id false byLaunch).countP Prod.snd : ℕ) / ((OrderedMap.set l.id false byLaunch).length : ℕ) at he
  obtain ⟨hcount, hlength⟩ := OrderedMap.countP_set l.id byLaunch
  have hpos : ((OrderedMap.set l.id false byLaunch).length : ℚ) ≠ 0 := by
    have hne : OrderedMap.set l.id false byLaunch ≠ [] := OrderedMap.alter_ne_nil l.id _ byLaunch
    exact_mod_cast List.length_pos_iff.mpr hne |>.ne'
  rw [hlength, hcount, div_left_inj' hpos] at he
  have hnat : (OrderedMap.set l.id false byLaunch).countP Prod.snd + 1 = (OrderedMap.set l.id false byLaunch).countP Prod.snd := by
    exact_mod_cast he
  omega

theorem resolvedExits_withLate {l : Launch} (hl : l ∈ creatorPriorLaunches db p) (anchor : Int) (value : Bool) :
    resolvedExits (withLate t (lateExit l anchor value) db) ((creatorPriorLaunches db p).map Launch.id) =
      (knownExits t db).filter (fun o => decide (o.label = .INSIDER_EXIT ∧ o.status = .RESOLVED) &&
        o.launchId.any fun id => decide (id ∈ (creatorPriorLaunches db p).map Launch.id)) ++
        [lateExit l anchor value] := by
  have hid : l.id ∈ (creatorPriorLaunches db p).map Launch.id := List.mem_map_of_mem hl
  unfold resolvedExits withLate
  rw [List.filter_append]
  congr 1
  generalize (creatorPriorLaunches db p).map Launch.id = ids at hid
  simp [lateExit, hid]

def noFailure : CreatorCalls := ⟨fun _ => .ok 0, none, none⟩

theorem computeCreatorContext_noFailure (p : CreatorContextParams) (db : WorkerDb) :
    ∃ ctx, computeCreatorContext noFailure p db = .ok ctx := by
  unfold computeCreatorContext noFailure
  dsimp only
  split
  · exact ⟨_, rfl⟩
  · exact ⟨_, rfl⟩

/-- The rate is determined for a creator without earlier launches, and for no other. -/
theorem rate_determined_iff (t : Int) (p : CreatorContextParams) (db : WorkerDb) (h : KeysDistinct db) :
    Determined t p db ↔ creatorPriorLaunches db p = [] := by
  constructor
  · intro hdet
    by_contra hne
    obtain ⟨l, hl⟩ := List.exists_mem_of_ne_nil _ hne
    obtain ⟨a, hta, hlater⟩ := exists_later t db.outcomes
    obtain ⟨ctx, hctx⟩ := computeCreatorContext_noFailure p db
    have hrate : ∀ value, insiderExitRate (resolvedExits (withLate t (lateExit l a value) db)
        ((creatorPriorLaunches db p).map Launch.id)) = ctx.creatorPriorInsiderExitRate := by
      intro value
      obtain ⟨ctx', hctx'⟩ := computeCreatorContext_noFailure p (withLate t (lateExit l a value) db)
      have hkeys : KeysDistinct (withLate t (lateExit l a value) db) := withLate_keys h hlater
      have hhorizon : t < a + horizonMs "72h" := Int.lt_trans hta (Int.lt_add_of_pos_right a (by decide))
      have hagree : AgreeAt t p db (withLate t (lateExit l a value) db) := withLate_agrees rfl hhorizon
      have hsame := (hdet _ hkeys hagree noFailure noFailure ctx ctx' hctx hctx').1
      rw [rate_eq hctx'] at hsame
      rw [← hsame]
      exact (if_neg hne).symm
    have htrue := hrate true
    have hfalse := hrate false
    rw [resolvedExits_withLate hl] at htrue hfalse
    exact late_decides _ l a (htrue.trans hfalse.symm)
  · intro hnone db' _ hagree calls calls' ctx ctx' hctx hctx'
    have hnone' : creatorPriorLaunches db' p = [] := List.nil_perm.mp (hnone ▸ hagree.launches)
    have hnull : ctx.creatorPriorInsiderExitRate = none := by rw [rate_eq hctx, if_pos hnone]
    rw [hnull, rate_eq hctx', if_pos hnone']
    exact ⟨rfl, fun x hx => nomatch hx⟩

def earlierLaunch : Launch :=
  { launchIn "l1" 11 with source := "unknown", creatorAddress := 8#160, launchAt := some 1000000 }

def nextLaunch : CreatorContextParams := ⟨4663, 8#160, 300000, some "l2", 1 / 10, none⟩

/-- A day after the launch, what is known is that the insiders had not left in six hours. -/
def earlyExit : Outcome :=
  { lateExit earlierLaunch 1600000 false with id := "early", horizon := "6h", horizonAt := some (1600000 + horizonMs "6h") }

def dayAfter : WorkerDb := { WorkerDb.empty with launches := [earlierLaunch], outcomes := [earlyExit] }

/-- Three days after it, the job says that they left. -/
theorem rate_changes : ¬ ∀ t p db, KeysDistinct db → Determined t p db := by
  intro h
  have hdet := h 87400000 nextLaunch dayAfter (by unfold KeysDistinct; decide)
    (withLate 87400000 (lateExit earlierLaunch 1600000 true) dayAfter) (by unfold KeysDistinct; decide)
    (withLate_agrees (rfl : _ = some (1600000 + horizonMs "72h")) (by decide))
  obtain ⟨ctx, hctx⟩ := computeCreatorContext_noFailure nextLaunch dayAfter
  obtain ⟨ctx', hctx'⟩ := computeCreatorContext_noFailure nextLaunch
    (withLate 87400000 (lateExit earlierLaunch 1600000 true) dayAfter)
  have hsame := (hdet noFailure noFailure ctx ctx' hctx hctx').1
  rw [rate_eq hctx, rate_eq hctx'] at hsame
  revert hsame
  decide +kernel

theorem rate_determined_first : Determined 87400000 { nextLaunch with creator := 5#160 } dayAfter :=
  (rate_determined_iff 87400000 { nextLaunch with creator := 5#160 } dayAfter (by unfold KeysDistinct; decide)).mpr
    (by decide +kernel)

structure Settled (t : Int) (p : CreatorContextParams) (db : WorkerDb) : Prop where
  known : ∀ o ∈ resolvedExits db ((creatorPriorLaunches db p).map Launch.id), o ∈ knownExits t db
  agree : ∀ o ∈ resolvedExits db ((creatorPriorLaunches db p).map Launch.id),
    ∀ o' ∈ resolvedExits db ((creatorPriorLaunches db p).map Launch.id), o.launchId = o'.launchId →
      o.value.getD false = o'.value.getD false

/-- One row of `byLaunch`. -/
def setExit (byLaunch : List (String × Bool)) (o : Outcome) : List (String × Bool) :=
  match o.launchId with
  | none => byLaunch
  | some id => OrderedMap.set id (o.value.getD false) byLaunch

section ByLaunch
variable {rows rows' : List Outcome} {byLaunch : List (String × Bool)}

theorem setExit_nodup (hnodup : (OrderedMap.keys byLaunch).Nodup) (o : Outcome) :
    (OrderedMap.keys (setExit byLaunch o)).Nodup := by
  unfold setExit
  split
  · exact hnodup
  · exact OrderedMap.keys_alter_nodup hnodup

theorem byLaunch_nodup (rows : List Outcome) (hnodup : (OrderedMap.keys byLaunch).Nodup) :
    (OrderedMap.keys (rows.foldl setExit byLaunch)).Nodup := by
  induction rows generalizing byLaunch with
  | nil => exact hnodup
  | cons o rows ih => exact ih (setExit_nodup hnodup o)

/-- What is said of a launch is said by one of its rows. -/
theorem byLaunch_lookup {id : String} {v : Bool} (hrows : ∀ o ∈ rows, o.launchId = some id → o.value.getD false = v) :
    (rows.foldl setExit byLaunch).lookup id =
      if rows.any fun o => decide (o.launchId = some id) then some v else byLaunch.lookup id := by
  induction rows generalizing byLaunch with
  | nil => simp
  | cons o rows ih =>
    rw [List.foldl_cons, ih fun o' ho' => hrows o' (List.mem_cons_of_mem _ ho'), List.any_cons]
    cases hrest : rows.any fun o => decide (o.launchId = some id) with
    | true => simp
    | false =>
      by_cases hid : o.launchId = some id
      · simp [setExit, hid, hrows o List.mem_cons_self hid]
      · cases hlaunch : o.launchId with
        | none => simp [setExit, hlaunch]
        | some id' =>
          have hne : id ≠ id' := fun he => hid (by rw [hlaunch, he])
          simp [setExit, hlaunch, hne, Ne.symm hne]

/-- In whatever order the rows come, the rate is one. -/
theorem insiderExitRate_perm (hperm : rows.Perm rows') (hagree : ∀ o ∈ rows, ∀ o' ∈ rows, o.launchId = o'.launchId →
    o.value.getD false = o'.value.getD false) : insiderExitRate rows = insiderExitRate rows' := by
  have hlookup : ∀ id, (rows.foldl setExit []).lookup id = (rows'.foldl setExit []).lookup id := by
    intro id
    by_cases hany : ∃ o ∈ rows, o.launchId = some id
    · obtain ⟨o, ho, hid⟩ := hany
      have hrows : ∀ o' ∈ rows, o'.launchId = some id → o'.value.getD false = o.value.getD false :=
        fun o' ho' hid' => hagree o' ho' o ho (hid'.trans hid.symm)
      rw [byLaunch_lookup hrows, byLaunch_lookup fun o' ho' => hrows o' (hperm.mem_iff.mpr ho')]
      have htrue : rows.any (fun o => decide (o.launchId = some id)) = true :=
        List.any_eq_true.mpr ⟨o, ho, by simpa using hid⟩
      have htrue' : rows'.any (fun o => decide (o.launchId = some id)) = true :=
        List.any_eq_true.mpr ⟨o, hperm.mem_iff.mp ho, by simpa using hid⟩
      rw [htrue, htrue']
    · have hnone : ∀ o ∈ rows, o.launchId = some id → o.value.getD false = false :=
        fun o ho hid => absurd ⟨o, ho, hid⟩ hany
      have hfalse : rows.any (fun o => decide (o.launchId = some id)) = false := by
        rw [List.any_eq_false]
        exact fun o ho hid => hany ⟨o, ho, by simpa using hid⟩
      have hfalse' : rows'.any (fun o => decide (o.launchId = some id)) = false := by
        rw [List.any_eq_false]
        exact fun o ho hid => hany ⟨o, hperm.mem_iff.mpr ho, by simpa using hid⟩
      rw [byLaunch_lookup hnone, byLaunch_lookup fun o ho => hnone o (hperm.mem_iff.mpr ho), hfalse, hfalse']
  have hnodup : ∀ rows : List Outcome, (OrderedMap.keys (rows.foldl setExit [])).Nodup := fun rows =>
    byLaunch_nodup rows List.nodup_nil
  have hmaps : (rows.foldl setExit []).Perm (rows'.foldl setExit []) := by
    rw [List.perm_ext_iff_of_nodup (hnodup rows).of_map (hnodup rows').of_map]
    rintro ⟨id, v⟩
    rw [OrderedMap.mem_iff_lookup (hnodup rows), OrderedMap.mem_iff_lookup (hnodup rows'), hlookup id]
  have hrate : ∀ rows : List Outcome, insiderExitRate rows = if rows = [] then none else
      some (((rows.foldl setExit []).countP Prod.snd : ℚ) / (rows.foldl setExit []).length) := fun rows => rfl
  rw [hrate, hrate, hmaps.countP_eq, hmaps.length_eq]
  by_cases hnil : rows = []
  · rw [if_pos hnil, if_pos (List.nil_perm.mp (hnil ▸ hperm))]
  · have hnil' : rows' ≠ [] := fun he => hnil (List.perm_nil.mp (he ▸ hperm))
    rw [if_neg hnil, if_neg hnil']

end ByLaunch

theorem resolvedExits_settled (h : Settled t p db) :
    resolvedExits db ((creatorPriorLaunches db p).map Launch.id) =
      resolvedExits { db with outcomes := knownExits t db } ((creatorPriorLaunches db p).map Launch.id) := by
  have hknown := h.known
  generalize (creatorPriorLaunches db p).map Launch.id = ids at hknown
  unfold resolvedExits at hknown ⊢
  unfold knownExits at hknown ⊢
  rw [List.filter_filter]
  apply List.filter_congr
  intro o ho
  rw [Bool.eq_iff_iff]
  constructor
  · intro hres
    exact Bool.and_eq_true_iff.mpr ⟨hres, (List.mem_filter.mp (hknown o (List.mem_filter.mpr ⟨ho, hres⟩))).2⟩
  · exact fun hboth => (Bool.and_eq_true_iff.mp hboth).1

/-- What is settled at the pin stays as it is. -/
theorem rate_settled {db' : WorkerDb} {calls' : CreatorCalls} {ctx' : CreatorContext} (hagree : AgreeAt t p db db')
    (hdb : Settled t p db) (hdb' : Settled t p db') (h : computeCreatorContext calls p db = .ok ctx)
    (h' : computeCreatorContext calls' p db' = .ok ctx') :
    ctx'.creatorPriorInsiderExitRate = ctx.creatorPriorInsiderExitRate := by
  have hids : ∀ id, id ∈ (creatorPriorLaunches db p).map Launch.id ↔ id ∈ (creatorPriorLaunches db' p).map Launch.id :=
    fun id => (hagree.launches.map Launch.id).mem_iff
  have hperm : (resolvedExits db ((creatorPriorLaunches db p).map Launch.id)).Perm
      (resolvedExits db' ((creatorPriorLaunches db' p).map Launch.id)) := by
    rw [resolvedExits_settled hdb, resolvedExits_settled hdb']
    unfold resolvedExits
    simp only [hids]
    exact hagree.exits.filter _
  rw [rate_eq h, rate_eq h', insiderExitRate_perm hperm hdb.agree]
  by_cases hnil : creatorPriorLaunches db p = []
  · rw [if_pos hnil, if_pos (List.nil_perm.mp (hnil ▸ hagree.launches))]
  · have hnil' : creatorPriorLaunches db' p ≠ [] := fun he => hnil (List.perm_nil.mp (he ▸ hagree.launches))
    rw [if_neg hnil, if_neg hnil']

end LaunchAuditor.Proofs.PriorExits
