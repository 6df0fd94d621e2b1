import Mathlib.Algebra.Order.Ring.Rat
import Windrunner.Lib.Walk
import Windrunner.Pool.State

/-!
# The pools of pools are loaded

A row of `pool_pool` makes one pool an entry of another, its mother. The search map has the mother of
a pool, the first one that a row gives it. Then the mothers are followed up from each pool, and a link
is removed where the maps of the two pools do not fit, or where a pool is met again.

The ids of the rows are read as `uint16`, and the column holds larger ones.

* `Suspect`: the links that the check may take out, in terms of the search map and the maps before it.
* `Trimmed`, `checkFrom_spec`: it takes out none but these, and no pool is met twice in it.
* `loadPoolPools_linksRight`: it ends, and when the entries and the search map agree afterwards.
* `LinksRight.run_isSome`: then a recursion down the pools ends.
-/

namespace Windrunner

open Lib List
open Option hiding or_assoc

structure PoolPoolRow where
  poolId : Nat
  motherPool : Nat
  chance : Rat := 0
  popOver : Bool := false
  deriving DecidableEq, Repr

/-- What the pools of pools depend on. -/
structure PoolDb where
  maxPoolId : Nat
  maxLimit : Nat → Nat := fun _ => 1
  /-- The maps there are, and whether they are instanceable. -/
  instanceable : Nat → Option Bool := fun _ => none

/-- `GetUInt16` -/
def getUInt16 (n : Nat) : Nat := n % 65536

structure PoolLoad where
  /-- The map of a pool, as its creatures and game objects have given it. -/
  mapEntry : Nat → Option Nat := fun _ => none
  /-- `mPoolPoolGroups` -/
  group : Nat → PoolGroup := fun _ => {}
  /-- `mPoolSearchMap` -/
  search : Nat → Option Nat := fun _ => none
  autoSpawn : Nat → Bool := fun _ => true
  /-- The links, child first, for which `RemoveOneRelation` has been called. -/
  removed : List (Nat × Nat) := []

namespace PoolGroup

def addEntry (group : PoolGroup) (obj : PoolObject) (maxentries : Nat) : PoolGroup :=
  if obj.chance ≠ 0 ∧ maxentries = 1 then
    { group with explicitlyChanced := group.explicitlyChanced ++ [obj] }
  else { group with equalChanced := group.equalChanced ++ [obj] }

/-- The first entry of the child in each list -/
def removeOneRelation (group : PoolGroup) (child : Nat) : PoolGroup where
  explicitlyChanced := group.explicitlyChanced.eraseP (·.guid == child)
  equalChanced := group.equalChanced.eraseP (·.guid == child)

/-- How often a pool is in the list of explicitly chanced ones, and in the other one -/
def counts (group : PoolGroup) (child : Nat) : Nat × Nat :=
  ((group.explicitlyChanced.map PoolObject.guid).count child,
    (group.equalChanced.map PoolObject.guid).count child)

end PoolGroup

namespace PoolLoad

variable (db : PoolDb)

/-- `PoolMapChecker::CheckAndRemember` -/
def checkAndRemember (s : PoolLoad) (mapid pool : Nat) : Bool × PoolLoad :=
  match db.instanceable mapid with
  | none => (false, s)
  | some instanceable =>
    match s.mapEntry pool with
    | none => (true, { s with mapEntry := fun p => if p = pool then some mapid else s.mapEntry p })
    | some other =>
      if other = mapid then (true, s)
      else if instanceable then (false, s)
      else if (db.instanceable other).getD false then (false, s)
      else (true, s)

def addRow (s : PoolLoad) (r : PoolPoolRow) : PoolLoad :=
  let child := getUInt16 r.poolId
  let mother := getUInt16 r.motherPool
  if db.maxPoolId < child then s
  else if mother = child then s
  else if db.maxPoolId < mother ∨ r.chance < 0 ∨ 100 < r.chance then s
  else
    let obj : PoolObject := { guid := child, chance := |r.chance|, popOver := r.popOver }
    { s with
      group := fun p =>
        if p = mother then (s.group mother).addEntry obj (db.maxLimit mother) else s.group p
      -- An insert leaves what is there.
      search := fun p => if p = child then (s.search child).or (some mother) else s.search p
      autoSpawn := fun p => if p = child then false else s.autoSpawn p }

def addRows (s : PoolLoad) (rows : List PoolPoolRow) : PoolLoad := rows.foldl (addRow db) s

/-! ## The check for circles -/

/-- The link is taken out of the group and of the search map. -/
def removeLink (s : PoolLoad) (child mother : Nat) : PoolLoad :=
  { s with
    group := fun p => if p = mother then (s.group mother).removeOneRelation child else s.group p
    search := fun p => if p = child then none else s.search p
    removed := (child, mother) :: s.removed }

/-- The map of a child, when it has one, fits that of its mother. -/
def checkMap (s : PoolLoad) (child mother : Nat) : Bool × PoolLoad :=
  match s.mapEntry child with
  | none => (true, s)
  | some mapid => s.checkAndRemember db mapid mother

/-- The mothers are followed from `child` up, until a link is removed or there are no more. -/
def checkFrom : Nat → List Nat → Nat → PoolLoad → Option PoolLoad
  | 0, _, _, _ => none
  | fuel + 1, checkedPools, child, s =>
    match s.search child with
    | none => some s
    | some mother =>
      let checked := s.checkMap db child mother
      if !checked.1 then some (checked.2.removeLink child mother)
      else if mother ∈ child :: checkedPools then some (checked.2.removeLink child mother)
      else checkFrom fuel (child :: checkedPools) mother checked.2

/-- The last pool is not a starting point. -/
def checkCircular (s : PoolLoad) : Option PoolLoad :=
  (range db.maxPoolId).foldlM (fun s i => checkFrom db (db.maxPoolId + 2) [] i s) s

/-- `LoadFromDB`, from the pools of pools on -/
def loadPoolPools (s : PoolLoad) (rows : List PoolPoolRow) : Option PoolLoad :=
  checkCircular db (s.addRows db rows)

def isPartOfTopPool (s : PoolLoad) : Nat → Nat → Option Nat
  | 0, _ => none
  | fuel + 1, pool =>
    let mother := (s.search pool).getD 0
    if mother = 0 then some 0
    else do
      let top ← s.isPartOfTopPool fuel mother
      some (if top ≠ 0 then top else mother)

def Entry (s : PoolLoad) (child mother : Nat) : Prop := child ∈ (s.group mother).guids

/-- A mother is one step above its pool. -/
def Up (s : PoolLoad) (mother child : Nat) : Prop := s.search child = some mother

/-- What loading is to achieve: no pool is in itself, however deep, and the search map has the
mother of each entry. -/
structure LinksRight (s : PoolLoad) : Prop where
  acyclic : ∀ p, ¬ Relation.TransGen s.Entry p p
  exact : ∀ child mother, s.search child = some mother ↔ s.Entry child mother

end PoolLoad

/-! ## Rows -/

namespace PoolPoolRow

variable (db : PoolDb) (r : PoolPoolRow)

/-- The row is taken. -/
def Loads : Prop :=
  getUInt16 r.poolId ≤ db.maxPoolId ∧ getUInt16 r.motherPool ≠ getUInt16 r.poolId ∧
    getUInt16 r.motherPool ≤ db.maxPoolId ∧ 0 ≤ r.chance ∧ r.chance ≤ 100

instance : Decidable (r.Loads db) := inferInstanceAs (Decidable (_ ∧ _))

def link : Nat × Nat := (getUInt16 r.poolId, getUInt16 r.motherPool)

end PoolPoolRow

namespace PoolGroup

variable {group : PoolGroup} {child c : Nat}

/-- A pool lists what either list of it has. -/
theorem mem_guids_iff : c ∈ group.guids ↔ 0 < (group.counts c).1 ∨ 0 < (group.counts c).2 := by
  unfold guids counts
  rw [map_append, mem_append, count_pos_iff, count_pos_iff]
  exact or_comm

theorem map_eraseP_guid (l : List PoolObject) (child : Nat) :
    (l.eraseP (·.guid == child)).map PoolObject.guid = (l.map PoolObject.guid).erase child := by
  rw [erase_eq_eraseP', eraseP_map]
  rfl

theorem counts_removeOneRelation (group : PoolGroup) (child c : Nat) :
    (group.removeOneRelation child).counts c =
      if c = child then ((group.counts c).1 - 1, (group.counts c).2 - 1) else group.counts c := by
  unfold removeOneRelation counts
  dsimp only
  rw [map_eraseP_guid, map_eraseP_guid]
  split_ifs with hc
  · subst hc
    rw [count_erase_self, count_erase_self]
  · rw [count_erase_of_ne hc, count_erase_of_ne hc]

theorem mem_guids_addEntry (obj : PoolObject) (maxentries : Nat) :
    c ∈ (group.addEntry obj maxentries).guids ↔ c ∈ group.guids ∨ c = obj.guid := by
  unfold addEntry guids
  split_ifs
  · simp only [map_append, mem_append, map_singleton, mem_singleton, or_assoc]
  · simp only [map_append, mem_append, map_singleton, mem_singleton]
    exact or_right_comm

end PoolGroup

namespace PoolLoad

variable {db : PoolDb} {s s' s₀ : PoolLoad} {rows : List PoolPoolRow} {r : PoolPoolRow}
  {child mother c m : Nat}

/-- A row that passes the checks becomes one entry, and a link if the pool has none. -/
theorem addRow_of_loads (h : r.Loads db) (s : PoolLoad) :
    (∀ c m, (s.addRow db r).Entry c m ↔ s.Entry c m ∨ (c, m) = r.link) ∧
      ∀ c, (s.addRow db r).search c =
        if c = r.link.1 then (s.search c).or (some r.link.2) else s.search c := by
  obtain ⟨hchild, hself, hmother, h0, h100⟩ := h
  unfold addRow
  dsimp only
  rw [if_neg (Nat.not_lt.mpr hchild), if_neg hself,
    if_neg (by rw [not_or, not_or]; exact ⟨Nat.not_lt.mpr hmother, not_lt.mpr h0, not_lt.mpr h100⟩)]
  refine ⟨fun c m => ?_, fun c => ?_⟩
  · unfold Entry PoolPoolRow.link
    dsimp only
    rw [Prod.mk.injEq]
    split_ifs with hm
    · rw [PoolGroup.mem_guids_addEntry, hm]
      simp
    · simp [hm]
  · unfold PoolPoolRow.link
    dsimp only
    split_ifs with hc
    · rw [hc]
    · rfl

theorem addRow_of_not_loads (h : ¬ r.Loads db) (s : PoolLoad) : s.addRow db r = s := by
  unfold addRow
  dsimp only
  split_ifs with h₁ h₂ h₃
  · rfl
  · rfl
  · rfl
  · rw [not_or, not_or] at h₃
    exact absurd ⟨Nat.not_lt.mp h₁, h₂, Nat.not_lt.mp h₃.1, not_lt.mp h₃.2.1, not_lt.mp h₃.2.2⟩ h

/-- Reading the rows removes nothing. -/
theorem removed_addRows (rows : List PoolPoolRow) (s : PoolLoad) :
    (s.addRows db rows).removed = s.removed := by
  unfold addRows
  induction rows generalizing s with
  | nil => rfl
  | cons r rows ih =>
    rw [foldl_cons, ih]
    unfold addRow
    dsimp only
    split_ifs <;> rfl

/-- What the rows leave. -/
structure Loaded (db : PoolDb) (rows : List PoolPoolRow) (s : PoolLoad) : Prop where
  entry : ∀ c m, s.Entry c m ↔ ∃ r ∈ rows, r.Loads db ∧ r.link = (c, m)
  search : ∀ c m, s.search c = some m → ∃ r ∈ rows, r.Loads db ∧ r.link = (c, m)
  found : ∀ r ∈ rows, r.Loads db → s.search r.link.1 ≠ none

/-- After all rows the entries and the search map are those of the rows. -/
theorem loaded_addRows (hgroup : ∀ p, s.group p = {}) (hsearch : ∀ p, s.search p = none)
    (rows : List PoolPoolRow) : Loaded db rows (s.addRows db rows) := by
  induction rows using reverseRecOn with
  | nil =>
    refine ⟨fun c m => ?_, fun c m h => ?_, nofun⟩
    · show c ∈ (s.group m).guids ↔ _
      rw [hgroup]
      simp [PoolGroup.guids]
    · have hnone : s.search c = some m := h
      rw [hsearch] at hnone
      cases hnone
  | append_singleton rows r ih =>
    have hfold : s.addRows db (rows ++ [r]) = (s.addRows db rows).addRow db r := foldl_concat ..
    rw [hfold]
    by_cases hr : r.Loads db
    · obtain ⟨hentry, hfound⟩ := addRow_of_loads hr (s.addRows db rows)
      refine ⟨fun c m => ?_, fun c m h => ?_, fun q hq hloads => ?_⟩
      · rw [hentry, ih.entry]
        constructor
        · rintro (⟨q, hq, hq'⟩ | hlink)
          · exact ⟨q, mem_append_left _ hq, hq'⟩
          · exact ⟨r, mem_append_right _ (mem_singleton_self r), hr, hlink.symm⟩
        · rintro ⟨q, hq, hloads, hlink⟩
          obtain hq | hq := mem_append.mp hq
          · exact .inl ⟨q, hq, hloads, hlink⟩
          · rw [mem_singleton.mp hq] at hlink
            exact .inr hlink.symm
      · rw [hfound] at h
        split_ifs at h with hc
        · obtain h | ⟨-, h⟩ := or_eq_some_iff.mp h
          · obtain ⟨q, hq, hq'⟩ := ih.search c m h
            exact ⟨q, mem_append_left _ hq, hq'⟩
          · refine ⟨r, mem_append_right _ (mem_singleton_self r), hr, ?_⟩
            rw [hc, ← some_inj.mp h]
        · obtain ⟨q, hq, hq'⟩ := ih.search c m h
          exact ⟨q, mem_append_left _ hq, hq'⟩
      · rw [hfound]
        split_ifs with hc
        · simp
        · obtain hq | hq := mem_append.mp hq
          · exact ih.found q hq hloads
          · exact absurd (by rw [mem_singleton.mp hq]) hc
    · rw [addRow_of_not_loads hr]
      have hold : ∀ {q}, q ∈ rows ++ [r] → q.Loads db → q ∈ rows := by
        intro q hq hloads
        obtain hq | hq := mem_append.mp hq
        · exact hq
        · rw [mem_singleton.mp hq] at hloads
          exact absurd hloads hr
      refine ⟨fun c m => (ih.entry c m).trans ⟨?_, ?_⟩, fun c m h => ?_,
        fun q hq hloads => ih.found q (hold hq hloads) hloads⟩
      · rintro ⟨q, hq, hq'⟩
        exact ⟨q, mem_append_left _ hq, hq'⟩
      · rintro ⟨q, hq, hloads, hlink⟩
        exact ⟨q, hold hq hloads, hloads, hlink⟩
      · obtain ⟨q, hq, hq'⟩ := ih.search c m h
        exact ⟨q, mem_append_left _ hq, hq'⟩

/-- The links of the rows are between two pools there are. -/
theorem Loaded.range (h : Loaded db rows s) (hm : s.search c = some m) :
    c ≤ db.maxPoolId ∧ m ≤ db.maxPoolId ∧ m ≠ c := by
  obtain ⟨r, -, ⟨hchild, hself, hmother, -⟩, hlink⟩ := h.search c m hm
  obtain ⟨rfl, rfl⟩ := Prod.mk.inj hlink
  exact ⟨hchild, hmother, hself⟩

/-! ## What the check takes out -/

/-- A pool that has the second map takes the first one. -/
def Fits (db : PoolDb) (mapid other : Nat) : Prop :=
  ∃ instanceable, db.instanceable mapid = some instanceable ∧
    (other = mapid ∨ instanceable = false ∧ (db.instanceable other).getD false = false)

/-- The link is on a circle of the search map, or a map from below the pool does not fit one from
below its mother. -/
def Suspect (db : PoolDb) (s : PoolLoad) (child mother : Nat) : Prop :=
  Relation.TransGen s.Up child child ∨
    ∃ d e a b, Relation.ReflTransGen s.Up child d ∧ Relation.ReflTransGen s.Up mother e ∧
      s.mapEntry d = some a ∧ s.mapEntry e = some b ∧ ¬ Fits db a b

/-- `s` is `s₀` without the links that have been removed. A pool has a map of its own or of one below. -/
structure Trimmed (db : PoolDb) (s₀ s : PoolLoad) : Prop where
  removed : ∀ c m, (c, m) ∈ s.removed → s₀.search c = some m ∧ s₀.Suspect db c m
  maps : ∀ p a, s.mapEntry p = some a →
    ∃ d, Relation.ReflTransGen s₀.Up p d ∧ s₀.mapEntry d = some a
  search : ∀ c m, s.search c = some m ↔ s₀.search c = some m ∧ (c, m) ∉ s.removed
  counts : ∀ c m, (s.group m).counts c =
    if (c, m) ∈ s.removed then (((s₀.group m).counts c).1 - 1, ((s₀.group m).counts c).2 - 1)
    else (s₀.group m).counts c

theorem trimmed_refl (h : s.removed = []) : Trimmed db s s where
  removed c m hc := by rw [h] at hc; cases hc
  maps p a ha := ⟨p, .refl, ha⟩
  search c m := by simp [h]
  counts c m := by simp [h]

/-- The mother may get the map of its child. Where it does not take it, the link is suspect. -/
theorem Trimmed.checkMap (h : Trimmed db s₀ s) (hup : s₀.search child = some mother) :
    Trimmed db s₀ (s.checkMap db child mother).2 ∧
      (s.checkMap db child mother).2.search = s.search ∧
      ((s.checkMap db child mother).1 = false → s₀.Suspect db child mother) := by
  unfold PoolLoad.checkMap
  split
  · exact ⟨h, rfl, fun hf => by cases hf⟩
  rename_i mapid hchild
  obtain ⟨d, hd, hda⟩ := h.maps child mapid hchild
  have hmotherd : Relation.ReflTransGen s₀.Up mother d := .head hup hd
  unfold checkAndRemember
  split
  · rename_i hnone
    refine ⟨h, rfl, fun _ => .inr ⟨d, d, mapid, mapid, hd, hmotherd, hda, hda, ?_⟩⟩
    rintro ⟨instanceable, hsome, -⟩
    rw [hnone] at hsome
    cases hsome
  rename_i instanceable hmap
  split
  · refine ⟨⟨h.removed, fun p a ha => ?_, h.search, h.counts⟩, rfl, fun hf => by cases hf⟩
    dsimp only at ha
    split_ifs at ha with hp
    · obtain rfl := some_inj.mp ha
      exact ⟨d, hp ▸ hmotherd, hda⟩
    · exact h.maps p a ha
  rename_i other hother
  obtain ⟨e, he, heb⟩ := h.maps mother other hother
  have hsuspect : ¬ Fits db mapid other → s₀.Suspect db child mother := fun hno =>
    .inr ⟨d, e, mapid, other, hd, he, hda, heb, hno⟩
  have hfits : Fits db mapid other ↔
      other = mapid ∨ instanceable = false ∧ (db.instanceable other).getD false = false := by
    unfold Fits
    rw [hmap]
    simp
  rw [hfits] at hsuspect
  split_ifs with heq hinst hdungeon
  · exact ⟨h, rfl, fun hf => by cases hf⟩
  · exact ⟨h, rfl, fun _ => hsuspect (by simp [heq, hinst])⟩
  · exact ⟨h, rfl, fun _ => hsuspect (by simp [heq, hdungeon])⟩
  · exact ⟨h, rfl, fun hf => by cases hf⟩

/-- A link that the check removes was suspect, and goes from its mother's list once. -/
theorem Trimmed.removeLink (h : Trimmed db s₀ s) (hlink : s.search child = some mother)
    (hsuspect : s₀.Suspect db child mother) : Trimmed db s₀ (s.removeLink child mother) := by
  have hnew : ∀ {c m}, (c, m) ∈ (s.removeLink child mother).removed ↔
      (c = child ∧ m = mother) ∨ (c, m) ∈ s.removed := by
    intro c m
    show (c, m) ∈ (child, mother) :: s.removed ↔ _
    rw [mem_cons, Prod.mk.injEq]
  have hold : s₀.search child = some mother ∧ (child, mother) ∉ s.removed :=
    (h.search child mother).mp hlink
  refine ⟨fun c m hc => ?_, h.maps, fun c m => ?_, fun c m => ?_⟩
  · obtain ⟨rfl, rfl⟩ | hc := hnew.mp hc
    · exact ⟨hold.1, hsuspect⟩
    · exact h.removed c m hc
  · -- in the map the child has no mother any more
    rw [hnew, not_or]
    unfold PoolLoad.removeLink
    dsimp only
    split_ifs with hc
    · subst hc
      constructor
      · intro hnone
        cases hnone
      · rintro ⟨hm, hnot, -⟩
        exact absurd ⟨rfl, some_inj.mp (hm.symm.trans hold.1)⟩ hnot
    · rw [h.search]
      exact and_congr_right fun _ => ⟨fun hm => ⟨fun h => hc h.1, hm⟩, And.right⟩
  · have hgroup : (s.removeLink child mother).group m =
        if m = mother then (s.group mother).removeOneRelation child else s.group m := rfl
    rw [hgroup]
    -- only this mother's list loses an entry, and one of this child
    by_cases hm : m = mother
    · subst hm
      rw [if_pos rfl, PoolGroup.counts_removeOneRelation, h.counts]
      by_cases hc : c = child
      · subst hc
        rw [if_pos rfl, if_neg hold.2, if_pos (hnew.mpr (.inl ⟨rfl, rfl⟩))]
      · rw [if_neg hc]
        exact if_congr (by rw [hnew]; simp [hc]) rfl rfl
    · rw [if_neg hm, h.counts]
      exact if_congr (by rw [hnew]; simp [hm]) rfl rfl

/-- The search map has lost links only. -/
def Shrinks (s s' : PoolLoad) : Prop := ∀ c m, s'.search c = some m → s.search c = some m

/-- With fewer links no chain gets longer. -/
theorem Shrinks.acc (h : Shrinks s s') (hacc : Acc s.Up child) : Acc s'.Up child :=
  Subrelation.accessible (fun hup => h _ _ hup) hacc

theorem shrinks_removeLink (s : PoolLoad) (child mother : Nat) :
    Shrinks s (s.removeLink child mother) := by
  intro c m h
  unfold removeLink at h
  dsimp only at h
  split_ifs at h
  exact h

/-- A pool without a mother ends every chain. -/
theorem acc_removeLink (s : PoolLoad) (child mother : Nat) :
    Acc (s.removeLink child mother).Up child := by
  refine Acc.intro child fun m h => ?_
  unfold Up removeLink at h
  dsimp only at h
  rw [if_pos rfl] at h
  cases h

section Check

variable (hrange : ∀ c m, s₀.search c = some m → c ≤ db.maxPoolId ∧ m ≤ db.maxPoolId ∧ m ≠ c)

include hrange

/-- No pool is met twice, so there is an end after as many steps as there are pools. Those that have
been met are below the pool; where its mother is one of them, there is a circle. -/
theorem checkFrom_spec {fuel : Nat} {checked : List Nat}
    (hfuel : db.maxPoolId + 2 ≤ fuel + checked.length) (hnodup : checked.Nodup)
    (hle : ∀ p ∈ checked, p ≤ db.maxPoolId)
    (hbelow : ∀ p ∈ checked, Relation.TransGen s₀.Up child p) (hchild : child ∉ checked)
    (hchildle : child ≤ db.maxPoolId) (h : Trimmed db s₀ s) :
    ∃ s', checkFrom db fuel checked child s = some s' ∧ Trimmed db s₀ s' ∧ Shrinks s s' ∧
      Acc s'.Up child := by
  induction fuel generalizing checked child s with
  | zero =>
    have hlen : checked.length ≤ (range (db.maxPoolId + 1)).length :=
      (hnodup.subperm fun p hp => mem_range.mpr (Nat.lt_succ_of_le (hle p hp))).length_le
    rw [length_range] at hlen
    omega
  | succ fuel ih =>
    unfold checkFrom
    cases hm : s.search child with
    | none =>
      refine ⟨s, rfl, h, fun _ _ h => h, Acc.intro child fun m hup => ?_⟩
      exact absurd (hm.symm.trans hup) (by simp)
    | some mother =>
      have hup : s₀.Up mother child := ((h.search child mother).mp hm).1
      obtain ⟨hsame, hsearch, hmap⟩ := h.checkMap hup
      have hshrinks : ∀ {s'}, Shrinks (s.checkMap db child mother).2 s' → Shrinks s s' := by
        intro s' hs' c m hc
        rw [← hsearch]
        exact hs' c m hc
      -- what was met is below the mother as well, so meeting her again closes a circle
      have hbelow' : ∀ p ∈ child :: checked, Relation.TransGen s₀.Up mother p := by
        intro p hp
        obtain rfl | hp := mem_cons.mp hp
        · exact .single hup
        · exact .head hup (hbelow p hp)
      have hremove : s₀.Suspect db child mother →
          ∃ s', some ((s.checkMap db child mother).2.removeLink child mother) = some s' ∧
            Trimmed db s₀ s' ∧ Shrinks s s' ∧ Acc s'.Up child := fun hs =>
        ⟨_, rfl, hsame.removeLink (by rw [hsearch]; exact hm) hs,
          hshrinks (shrinks_removeLink _ _ _), acc_removeLink _ _ _⟩
      dsimp only
      split_ifs with hfit hmet
      · exact hremove (hmap ((Bool.not_eq_true' _).mp hfit))
      · refine hremove (.inl ?_)
        obtain rfl | hmet := mem_cons.mp hmet
        · exact .single hup
        · exact (hbelow mother hmet).tail hup
      · have hmother := hrange child mother hup
        obtain ⟨s', hs', htrim, hsub, hacc⟩ := ih
          (by rw [length_cons]; omega) (nodup_cons.mpr ⟨hchild, hnodup⟩)
          (by simpa using ⟨hchildle, hle⟩) hbelow' hmet hmother.2.1 hsame
        refine ⟨s', hs', htrim, hshrinks hsub, Acc.intro child fun m hup => ?_⟩
        have hup : s.search child = some m := hshrinks hsub child m hup
        rw [hm, some_inj] at hup
        exact hup ▸ hacc

/-- After the check every chain upwards ends. -/
theorem checkCircular_spec {l : List Nat} (hl : ∀ i ∈ l, i ≤ db.maxPoolId) (h : Trimmed db s₀ s) :
    ∃ s', l.foldlM (fun s i => checkFrom db (db.maxPoolId + 2) [] i s) s = some s' ∧
      Trimmed db s₀ s' ∧ Shrinks s s' ∧ ∀ i ∈ l, Acc s'.Up i := by
  induction l generalizing s with
  | nil => exact ⟨s, rfl, h, fun _ _ h => h, nofun⟩
  | cons i l ih =>
    obtain ⟨s₁, hs₁, htrim₁, hsub₁, hacc₁⟩ := checkFrom_spec hrange (Nat.le_add_right _ _)
      nodup_nil nofun nofun not_mem_nil (hl i mem_cons_self) h
    obtain ⟨s', hs', htrim, hsub, hacc⟩ := ih (fun i hi => hl i (mem_cons_of_mem _ hi)) htrim₁
    refine ⟨s', ?_, htrim, fun c m hc => hsub₁ c m (hsub c m hc), fun j hj => ?_⟩
    · rw [foldlM_cons, hs₁]
      exact hs'
    · obtain rfl | hj := mem_cons.mp hj
      · exact hsub.acc hacc₁
      · exact hacc j hj

end Check

/-! ## The links afterwards -/

section LoadPoolPools

variable (db : PoolDb) (mapEntry : Nat → Option Nat) (autoSpawn : Nat → Bool)

/-- What has been loaded before the pools of pools -/
def start : PoolLoad := { mapEntry := mapEntry, autoSpawn := autoSpawn }

/-- The load returns, and leaves no circle. -/
theorem loadPoolPools_spec (rows : List PoolPoolRow) :
    ∃ s, loadPoolPools db (start mapEntry autoSpawn) rows = some s ∧
      Loaded db rows ((start mapEntry autoSpawn).addRows db rows) ∧
      Trimmed db ((start mapEntry autoSpawn).addRows db rows) s ∧ ∀ p, Acc s.Up p := by
  have hload : Loaded db rows ((start mapEntry autoSpawn).addRows db rows) :=
    loaded_addRows (fun _ => rfl) (fun _ => rfl) rows
  have hrange := fun c m => hload.range (c := c) (m := m)
  obtain ⟨s, hs, htrim, -, hacc⟩ := checkCircular_spec hrange
    (fun i hi => Nat.le_of_lt (mem_range.mp hi)) (trimmed_refl (removed_addRows rows _))
  refine ⟨s, hs, hload, htrim, fun p => ?_⟩
  have hup : ∀ {m c}, s.Up m c → c ≤ db.maxPoolId ∧ m ≤ db.maxPoolId ∧ m ≠ c :=
    fun h => hload.range ((htrim.search _ _).mp h).1
  by_cases hp : p < db.maxPoolId
  · exact hacc p (mem_range.mpr hp)
  · -- The mother of the last pool is a starting point.
    refine Acc.intro p fun m hm => hacc m (mem_range.mpr ?_)
    obtain ⟨hple, hmle, hne⟩ := hup hm
    omega

/-- No two rows that are taken give a pool two mothers. -/
def OneMother (db : PoolDb) (rows : List PoolPoolRow) : Prop :=
  ∀ r ∈ rows, ∀ q ∈ rows, r.Loads db → q.Loads db → r.link.1 = q.link.1 → r.link = q.link

/-- Besides, the rows enter a link that the check may remove into each list of its mother once at
most. -/
structure Clean (db : PoolDb) (rows : List PoolPoolRow) (s₀ : PoolLoad) : Prop where
  oneMother : OneMother db rows
  once : ∀ c m, s₀.search c = some m → s₀.Suspect db c m →
    ((s₀.group m).counts c).1 ≤ 1 ∧ ((s₀.group m).counts c).2 ≤ 1

variable {db}

theorem Trimmed.entry_iff (h : Trimmed db s₀ s) : s.Entry c m ↔
    if (c, m) ∈ s.removed then 1 < ((s₀.group m).counts c).1 ∨ 1 < ((s₀.group m).counts c).2
    else s₀.Entry c m := by
  unfold Entry
  rw [PoolGroup.mem_guids_iff, h.counts]
  split_ifs
  · simp only [Nat.sub_pos_iff_lt]
  · exact PoolGroup.mem_guids_iff.symm

/-- Where map and lists agree, no pool was entered for two mothers. -/
theorem oneMother_of_exact (hload : Loaded db rows s₀) (h : Trimmed db s₀ s)
    (hexact : ∀ c m, s.search c = some m ↔ s.Entry c m) : OneMother db rows := by
  have hmother : ∀ r ∈ rows, r.Loads db → s₀.search r.link.1 = some r.link.2 := by
    intro r hr hloads
    by_contra hne
    -- The link is not in the search map, so the check has left it in the group.
    have hkept : r.link ∉ s.removed := fun hrem => hne (h.removed _ _ hrem).1
    have hentry : s.Entry r.link.1 r.link.2 := by
      rw [h.entry_iff, if_neg hkept, hload.entry]
      exact ⟨r, hr, hloads, rfl⟩
    exact hne ((h.search _ _).mp ((hexact _ _).mpr hentry)).1
  intro r hr q hq hr' hq' hchild
  refine Prod.ext hchild ?_
  rw [← some_inj, ← hmother r hr hr', hchild, hmother q hq hq']

/-- Of clean rows each link that goes leaves both the map and the list. -/
theorem exact_of_clean (hload : Loaded db rows s₀) (h : Trimmed db s₀ s) (hclean : Clean db rows s₀)
    (c m : Nat) : s.search c = some m ↔ s.Entry c m := by
  have hboth : s₀.Entry c m ↔ s₀.search c = some m := by
    rw [hload.entry]
    refine ⟨fun ⟨r, hr, hloads, hlink⟩ => ?_, hload.search c m⟩
    obtain ⟨m', hm'⟩ := ne_none_iff_exists'.mp (hload.found r hr hloads)
    obtain ⟨q, hq, hq', hqlink⟩ := hload.search _ m' hm'
    have hlinks := hclean.oneMother r hr q hq hloads hq' (by rw [hqlink])
    rw [hlink] at hlinks hm'
    rw [← hlinks] at hqlink
    rw [hm', (Prod.mk.inj hqlink).2]
  rw [h.search, h.entry_iff]
  split_ifs with hrem
  · obtain ⟨hlink, hsuspect⟩ := h.removed c m hrem
    have := hclean.once c m hlink hsuspect
    exact iff_of_false (fun h => h.2 hrem) (by omega)
  · rw [hboth]
    exact and_iff_left hrem

/-- Where the two agree, a circle of the entries would be one of the search map. -/
theorem acyclic_of_exact (hacc : ∀ p, Acc s.Up p)
    (hexact : ∀ c m, s.search c = some m ↔ s.Entry c m) (p : Nat) :
    ¬ Relation.TransGen s.Entry p p := by
  intro hp
  have hentry : s.Entry = Function.swap s.Up := by
    funext c m
    exact propext (hexact c m).symm
  rw [hentry, Relation.transGen_swap] at hp
  have hwf : WellFounded (Relation.TransGen s.Up) := WellFounded.transGen ⟨hacc⟩
  exact hwf.irrefl.irrefl p hp

/-- A recursion that goes from a pool to entries of it, as spawning and despawning do, ends. -/
theorem LinksRight.run_isSome (h : s.LinksRight) (hin : ∀ c m, s.Entry c m → m ≤ db.maxPoolId)
    {β σ : Type} {W : Walk Nat β σ} (hW : ∀ c m, W.Visits c m → s.Entry c m) (p : Nat) (st : σ) :
    ∃ fuel, (W.run fuel p st).isSome := by
  have hacc : Acc s.Entry p := by
    refine (acc_iff_acyclic (range (db.maxPoolId + 1)) fun c m hc => ?_).mpr h.acyclic p
    exact mem_range.mpr (Nat.lt_succ_of_le (hin c m hc))
  exact Walk.run_of_acc (Subrelation.accessible (fun hv => hW _ _ hv) hacc) st

/-- `IsPartOfTopPool` goes up the search map only. -/
theorem isPartOfTopPool_isSome (hacc : Acc s.Up child) :
    ∃ fuel top, s.isPartOfTopPool fuel child = some top := by
  induction hacc with
  | intro child _ ih =>
    cases hm : s.search child with
    | none => exact ⟨1, 0, by simp [isPartOfTopPool, hm]⟩
    | some mother =>
      obtain rfl | hne := eq_or_ne mother 0
      · exact ⟨1, 0, by simp [isPartOfTopPool, hm]⟩
      · obtain ⟨fuel, top, htop⟩ := ih mother hm
        refine ⟨fuel + 1, if top ≠ 0 then top else mother, ?_⟩
        unfold isPartOfTopPool
        dsimp only
        rw [hm, getD_some, if_neg hne, htop]
        rfl

variable (db)

/-- The check for circles ends, and going up the pools does. When the rows are `Clean`, the search map
has the mothers of the entries and the entries have no circle, and then going down the pools ends too.
They have one mother for each pool wherever that is so. -/
theorem loadPoolPools_linksRight (rows : List PoolPoolRow) :
    ∃ s, loadPoolPools db (start mapEntry autoSpawn) rows = some s ∧
      (Clean db rows ((start mapEntry autoSpawn).addRows db rows) → s.LinksRight) ∧
      (s.LinksRight → OneMother db rows) ∧
      (∀ p, ∃ fuel top, s.isPartOfTopPool fuel p = some top) ∧
      (s.LinksRight → ∀ (β σ : Type) (W : Walk Nat β σ), (∀ c m, W.Visits c m → s.Entry c m) →
        ∀ p st, ∃ fuel, (W.run fuel p st).isSome) := by
  obtain ⟨s, hs, hload, htrim, hacc⟩ := loadPoolPools_spec db mapEntry autoSpawn rows
  refine ⟨s, hs, fun hclean => ?_, fun hright => oneMother_of_exact hload htrim hright.exact,
    fun p => isPartOfTopPool_isSome (hacc p), fun hright β σ W hW p st => ?_⟩
  · have hexact := exact_of_clean hload htrim hclean
    exact ⟨acyclic_of_exact hacc hexact, hexact⟩
  · have hin : ∀ c m, s.Entry c m → m ≤ db.maxPoolId := by
      intro c m hc
      have hm : s.search c = some m := (hright.exact c m).mpr hc
      exact (hload.range ((htrim.search c m).mp hm).1).2.1
    exact hright.run_isSome hin hW p st

/-- A circle of three pools, each link entered once: the check opens it. -/
def ringRows : List PoolPoolRow :=
  [{ poolId := 1, motherPool := 2 }, { poolId := 2, motherPool := 3 },
    { poolId := 3, motherPool := 1 }]

theorem ringRows_clean : Clean { maxPoolId := 3 } ringRows
    ((start (fun _ => none) fun _ => true).addRows { maxPoolId := 3 } ringRows) where
  oneMother := by
    unfold OneMother
    decide +kernel
  once := by
    intro c m hlink _
    obtain ⟨r, hr, -, heq⟩ := (loaded_addRows (fun _ => rfl) (fun _ => rfl) ringRows).search c m hlink
    obtain ⟨rfl, rfl⟩ := Prod.mk.inj heq
    simp only [ringRows, mem_cons, not_mem_nil, or_false] at hr
    obtain rfl | rfl | rfl := hr
    · decide +kernel
    · decide +kernel
    · decide +kernel

theorem ringRows_linksRight :
    ∃ s, loadPoolPools { maxPoolId := 3 } (start (fun _ => none) fun _ => true) ringRows = some s ∧
      s.LinksRight := by
  obtain ⟨s, hs, hright, -⟩ :=
    loadPoolPools_linksRight { maxPoolId := 3 } (fun _ => none) (fun _ => true) ringRows
  exact ⟨s, hs, hright ringRows_clean⟩

/-- Two rows of the same pool id modulo 65536: the search map has the first mother, and so no circle;
the groups have one. -/
def circleRows : List PoolPoolRow :=
  [{ poolId := 1, motherPool := 2 }, { poolId := 65537, motherPool := 3 },
    { poolId := 3, motherPool := 1 }]

theorem circleRows_not_linksRight : ¬ ∀ (db : PoolDb) (mapEntry : Nat → Option Nat)
    (autoSpawn : Nat → Bool) (rows : List PoolPoolRow) (s : PoolLoad),
    (rows.map PoolPoolRow.poolId).Nodup →
    loadPoolPools db (start mapEntry autoSpawn) rows = some s → s.LinksRight := by
  intro h
  have hload : (loadPoolPools { maxPoolId := 3 } (start (fun _ => none) fun _ => true)
      circleRows).map (fun s => ((s.group 3).guids, (s.group 1).guids)) = some ([1], [3]) := by
    decide +kernel
  obtain ⟨s, hs, hguids⟩ := map_eq_some_iff.mp hload
  obtain ⟨h₁, h₃⟩ := Prod.mk.inj hguids
  have hright := h _ _ _ circleRows s (by decide) hs
  have hdown : s.Entry 1 3 := by rw [Entry, h₁]; exact mem_singleton_self 1
  have hup : s.Entry 3 1 := by rw [Entry, h₃]; exact mem_singleton_self 3
  exact hright.acyclic 1 (.tail (.single hdown) hup)

end LoadPoolPools

end PoolLoad

end Windrunner
