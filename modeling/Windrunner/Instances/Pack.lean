import Mathlib.Data.List.Dedup
import Windrunner.Lib.Renumber

/-!
# Packing the ids of instances

At a start of the server the ids of the instances are made consecutive (`packInstances`). All ids
are moved up first, then each instance gets its number, in ascending order; with its id the rows of
the other tables that have it change.

An `UPDATE` that would give an instance an id in use fails, and the transaction with it.
-/

namespace Windrunner

open Lib List

abbrev reservedInstancesLast : Nat := 100

/-- A row of `instance`; the column `data` stands for the others. -/
structure InstanceRow where
  id : Nat
  map : Nat
  data : Nat := 0
  deriving DecidableEq, Repr

def instanceIds (rows : List InstanceRow) : List Nat := rows.map (·.id)

def moveIds (f : Nat → Nat) (rows : List InstanceRow) : List InstanceRow :=
  rows.map fun r => { r with id := f r.id }

inductive RefTable where
  | creatureRespawn
  | gameobjectRespawn
  | corpse
  | characterInstance
  | groupInstance
  deriving DecidableEq, Repr

/-- A row of a table with a column `instance` -/
structure InstanceRef where
  guid : Nat
  instanceId : Nat
  deriving DecidableEq, Repr

/-- The ids are numbers of any size. The columns `instance` of `creature_respawn` and
`gameobject_respawn` are `mediumint(8) unsigned`: a row of these that a shift takes to 2^24 or beyond
would not fit, which is left out. -/
structure InstanceDb where
  rows : List InstanceRow
  refs : RefTable → List InstanceRef

/-- The rows of a table that are moved up, those with at least this id -/
def RefTable.shiftFrom : RefTable → Nat
  | creatureRespawn | gameobjectRespawn => reservedInstancesLast
  | corpse | characterInstance | groupInstance => 0

theorem RefTable.shiftFrom_le (t : RefTable) : t.shiftFrom ≤ reservedInstancesLast := by
  cases t <;> decide

/-- `UPDATE instance SET id = new WHERE id = old`, unless the id is in use -/
def setId (old new : Nat) (rows : List InstanceRow) : Option (List InstanceRow) :=
  if old ∈ instanceIds rows ∧ old ≠ new ∧ new ∈ instanceIds rows then none
  else some (moveIds (fun id => if id = old then new else id) rows)

/-- `UPDATE instance SET id = id + 100 ORDER BY id DESC` -/
def shiftIds (rows : List InstanceRow) : Option (List InstanceRow) :=
  ((instanceIds rows).insertionSort (· ≥ ·)).foldlM
    (fun rows id => setId id (id + reservedInstancesLast) rows) rows

namespace InstanceDb

def mapRefs (db : InstanceDb) (f : RefTable → Nat → Nat) : RefTable → List InstanceRef :=
  fun t => (db.refs t).map fun r => { r with instanceId := f t r.instanceId }

/-- The first transaction; instances of the continents are deleted in it. -/
def shift (db : InstanceDb) : Option InstanceDb :=
  (shiftIds db.rows).map fun rows =>
    { rows := rows.filter (1 < ·.map)
      refs := db.mapRefs fun t id =>
        if t.shiftFrom ≤ id then id + reservedInstancesLast else id }

/-- The transaction that remaps an instance id -/
def remap (id number : Nat) (db : InstanceDb) : Option InstanceDb :=
  (setId id number db.rows).map fun rows =>
    { rows, refs := db.mapRefs fun _ x => if x = id then number else x }

end InstanceDb

/-- The database, and whether an `UPDATE` of an instance id has met an id in use -/
structure Packing where
  db : InstanceDb
  met : Bool := false

/-- A transaction that fails is rolled back. -/
def Packing.commit (p : Packing) (transaction : InstanceDb → Option InstanceDb) : Packing :=
  match transaction p.db with
  | none => { p with met := true }
  | some db => { p with db }

def packLoop : List Nat → Nat → Packing → Packing
  | [], _, p => p
  | id :: ids, number, p =>
    packLoop ids (number + 1) (if id ≠ number then p.commit (·.remap id number) else p)

def instanceSet (rows : List InstanceRow) : List Nat :=
  (instanceIds rows).dedup.insertionSort (· ≤ ·)

def packInstances (db : InstanceDb) : Packing :=
  let p := Packing.commit { db } InstanceDb.shift
  packLoop (instanceSet p.db.rows) reservedInstancesLast p

/-! ## The first transaction -/

variable {rows : List InstanceRow}

theorem moveIds_congr {f g : Nat → Nat} (h : ∀ id ∈ instanceIds rows, f id = g id) :
    moveIds f rows = moveIds g rows := by
  refine map_congr_left fun r hr => ?_
  rw [h r.id (mem_map_of_mem hr)]

theorem moveIds_id : moveIds (fun id => id) rows = rows := map_id rows

theorem moveIds_moveIds (f g : Nat → Nat) :
    moveIds g (moveIds f rows) = moveIds (fun id => g (f id)) rows := by
  unfold moveIds
  rw [map_map]
  rfl

theorem instanceIds_moveIds (f : Nat → Nat) :
    instanceIds (moveIds f rows) = (instanceIds rows).map f := by
  unfold instanceIds moveIds
  rw [map_map, map_map]
  rfl

theorem setId_eq_some {old new : Nat} (h : old ≠ new → new ∉ instanceIds rows) :
    setId old new rows = some (moveIds (fun id => if id = old then new else id) rows) :=
  if_neg fun hc => h hc.2.1 hc.2.2

/-- The ids of a list are moved up; those above it have been already. -/
theorem foldlM_setId {l : List Nat} (hl : l.Pairwise (· > ·))
    (hids : ∀ id ∈ instanceIds rows, id ∈ l ∨ ∀ i ∈ l, i + reservedInstancesLast < id) :
    l.foldlM (fun rows id => setId id (id + reservedInstancesLast) rows) rows =
      some (moveIds (fun id => if id ∈ l then id + reservedInstancesLast else id) rows) := by
  induction l generalizing rows with
  | nil => exact congrArg some moveIds_id.symm
  | cons i l ih =>
    obtain ⟨hi, hl⟩ := pairwise_cons.mp hl
    have hfree : i + reservedInstancesLast ∉ instanceIds rows := by
      intro hm
      rcases hids _ hm with hmem | habove
      · rcases mem_cons.mp hmem with he | hmem
        · simp only [reservedInstancesLast] at he
          omega
        · have := hi _ hmem
          omega
      · have := habove i mem_cons_self
        omega
    rw [foldlM_cons, setId_eq_some fun _ => hfree]
    show l.foldlM _ _ = _
    rw [ih hl]
    · rw [moveIds_moveIds]
      refine congrArg some (moveIds_congr fun id hid => ?_)
      by_cases he : id = i
      · have hnot : i + reservedInstancesLast ∉ l := by
          intro hm
          have := hi _ hm
          omega
        rw [if_pos he, if_neg hnot, he, if_pos mem_cons_self]
      · rw [if_neg he]
        simp only [mem_cons, he, false_or]
    · intro id hid
      rw [instanceIds_moveIds] at hid
      obtain ⟨old, hold, rfl⟩ := mem_map.mp hid
      split_ifs with he
      · refine Or.inr fun j hj => ?_
        have := hi j hj
        omega
      · refine (hids old hold).imp (fun hm => (mem_cons.mp hm).resolve_left he) ?_
        exact fun h j hj => h j (mem_cons_of_mem i hj)

theorem sorted_ge {ids : List Nat} (h : ids.Nodup) :
    (ids.insertionSort (· ≥ ·)).Pairwise (· > ·) := by
  have hnodup := (perm_insertionSort (· ≥ ·) ids).nodup_iff.mpr h
  refine (List.Pairwise.and (pairwise_insertionSort (· ≥ ·) ids) hnodup).imp ?_
  rintro a b ⟨hge, hne⟩
  omega

/-- No id is in use when the ids are moved up, the greatest first. -/
theorem shiftIds_eq (h : (instanceIds rows).Nodup) :
    shiftIds rows = some (moveIds (· + reservedInstancesLast) rows) := by
  unfold shiftIds
  have hmem : ∀ id, id ∈ (instanceIds rows).insertionSort (· ≥ ·) ↔ id ∈ instanceIds rows :=
    fun id => mem_insertionSort _
  rw [foldlM_setId (sorted_ge h) fun id hid => Or.inl ((hmem id).mpr hid)]
  refine congrArg some (moveIds_congr fun id hid => ?_)
  rw [if_pos ((hmem id).mpr hid)]

/-! ## The loop -/

namespace InstanceDb

/-- Every id of an instance is replaced, wherever it stands. -/
def renumber (f : Nat → Nat) (db : InstanceDb) : InstanceDb :=
  { rows := moveIds f db.rows, refs := db.mapRefs fun _ => f }

theorem mapRefs_mapRefs (db : InstanceDb) (f g : RefTable → Nat → Nat) (rows : List InstanceRow) :
    mapRefs { rows, refs := db.mapRefs f } g = db.mapRefs fun t id => g t (f t id) := by
  funext t
  unfold mapRefs
  rw [map_map]
  rfl

theorem renumber_id (db : InstanceDb) : db.renumber (fun id => id) = db := by
  unfold renumber
  rw [moveIds_id]
  congr
  funext t
  exact map_id _

theorem renumber_renumber (db : InstanceDb) (f g : Nat → Nat) :
    (db.renumber f).renumber g = db.renumber fun id => g (f id) := by
  unfold renumber
  rw [mapRefs_mapRefs, moveIds_moveIds]

end InstanceDb

/-- Each number is free when its turn comes. -/
theorem packLoop_eq {l : List Nat} {n : Nat} (hl : l.Pairwise (· < ·)) (hn : ∀ i ∈ l, n ≤ i)
    (p : Packing) (hids : ∀ id ∈ instanceIds p.db.rows, id ∈ l ∨ id < n) :
    packLoop l n p = { p with db := p.db.renumber (relabel l n) } := by
  induction l generalizing n p with
  | nil =>
    show p = { p with db := p.db.renumber fun id => id }
    rw [InstanceDb.renumber_id]
  | cons i l ih =>
    obtain ⟨hi, hl⟩ := pairwise_cons.mp hl
    have hfirst := hn i mem_cons_self
    have hstep : (if i ≠ n then p.commit (·.remap i n) else p) =
        { p with db := p.db.renumber fun id => if id = i then n else id } := by
      split_ifs with he
      · have hfree : n ∉ instanceIds p.db.rows := by
          intro hm
          rcases hids n hm with hmem | hlt
          · rcases mem_cons.mp hmem with hn' | hmem
            · exact he hn'.symm
            · have := hi n hmem
              omega
          · omega
        simp only [Packing.commit, InstanceDb.remap]
        rw [setId_eq_some fun _ => hfree]
        rfl
      · obtain rfl := Classical.not_not.mp he
        have hsame : (fun id => if id = i then i else id) = fun id : Nat => id := by
          funext id
          split_ifs with hid
          · exact hid.symm
          · rfl
        rw [hsame, InstanceDb.renumber_id]
    unfold packLoop
    rw [hstep, ih hl fun j hj => by have := hi j hj; omega]
    · rw [InstanceDb.renumber_renumber]
      rfl
    · intro id hid
      change id ∈ instanceIds (moveIds (fun id => if id = i then n else id) p.db.rows) at hid
      rw [instanceIds_moveIds] at hid
      obtain ⟨old, hold, rfl⟩ := mem_map.mp hid
      split_ifs with he
      · exact Or.inr (Nat.lt_succ_self n)
      · rcases hids old hold with hm | hlt
        · exact Or.inl ((mem_cons.mp hm).resolve_left he)
        · exact Or.inr (Nat.lt_succ_of_lt hlt)

/-! ## Packing -/

namespace InstanceDb

variable {db : InstanceDb}

/-- The instances that are kept -/
def remaining (db : InstanceDb) : List InstanceRow := db.rows.filter (1 < ·.map)

/-- The id that an instance gets: they are numbered in their order. -/
def newId (db : InstanceDb) (id : Nat) : Nat :=
  reservedInstancesLast + (instanceIds db.remaining).countP (· < id)

/-- What is to become of a reference `id` -/
structure Follows (db : InstanceDb) (id id' : Nat) : Prop where
  moved : id ∈ instanceIds db.remaining → id' = db.newId id
  kept : id < reservedInstancesLast → id' = id
  foreign : id ∉ instanceIds db.remaining → ∀ i ∈ instanceIds db.remaining, id' ≠ db.newId i

structure Packed (db : InstanceDb) (p : Packing) : Prop where
  rows : p.db.rows = moveIds db.newId db.remaining
  refs : ∀ t, List.Forall₂ (fun r r' : InstanceRef => r'.guid = r.guid ∧
    db.Follows r.instanceId r'.instanceId) (db.refs t) (p.db.refs t)
  free : p.met = false

/-- The ids are a key, and those below are not given to instances. -/
structure Valid (db : InstanceDb) : Prop where
  nodup : (instanceIds db.rows).Nodup
  reserved : ∀ id ∈ instanceIds db.rows, reservedInstancesLast ≤ id

/-- A reference that is moved up refers to an instance that is kept, or to none, with an id that is
not below the number of instances. -/
def Clean (db : InstanceDb) : Prop :=
  ∀ t, ∀ r ∈ db.refs t, r.instanceId < t.shiftFrom ∨ r.instanceId ∈ instanceIds db.remaining ∨
    (reservedInstancesLast ≤ r.instanceId ∧ db.remaining.length ≤ r.instanceId)

theorem Valid.remaining (h : db.Valid) : (instanceIds db.remaining).Nodup ∧
    ∀ id ∈ instanceIds db.remaining, reservedInstancesLast ≤ id := by
  have hsub : (instanceIds db.remaining).Sublist (instanceIds db.rows) :=
    List.Sublist.map _ filter_sublist
  exact ⟨h.nodup.sublist hsub, fun id hid => h.reserved id (hsub.subset hid)⟩

/-- What becomes of a reference in a table -/
def final (db : InstanceDb) (t : RefTable) (id : Nat) : Nat :=
  if id < t.shiftFrom then id
  else if id ∈ instanceIds db.remaining then db.newId id
  else id + reservedInstancesLast

end InstanceDb

theorem instanceSet_sorted (rows : List InstanceRow) : (instanceSet rows).Pairwise (· < ·) := by
  unfold instanceSet
  have hnodup := (perm_insertionSort (· ≤ ·) (instanceIds rows).dedup).nodup_iff.mpr
    (nodup_dedup _)
  refine (List.Pairwise.and (pairwise_insertionSort (· ≤ ·) _) hnodup).imp ?_
  rintro a b ⟨hle, hne⟩
  omega

theorem instanceSet_perm (h : (instanceIds rows).Nodup) :
    (instanceSet rows).Perm (instanceIds rows) := by
  unfold instanceSet
  rw [h.dedup]
  exact perm_insertionSort ..

theorem filter_moveIds (f : Nat → Nat) :
    (moveIds f rows).filter (1 < ·.map) = moveIds f (rows.filter (1 < ·.map)) := by
  unfold moveIds
  rw [filter_map]
  rfl

variable {db : InstanceDb}

/-- An id that has been moved up gets its number in the loop, any other stays. -/
theorem relabel_shifted (h : db.Valid) (id : Nat) :
    relabel (instanceSet (moveIds (· + reservedInstancesLast) db.remaining)) reservedInstancesLast
      id = if ∃ i ∈ instanceIds db.remaining, i + reservedInstancesLast = id then
        db.newId (id - reservedInstancesLast) else id := by
  obtain ⟨hnodup, hreserved⟩ := h.remaining
  set l := instanceSet (moveIds (· + reservedInstancesLast) db.remaining) with hl
  have hshift : (instanceIds (moveIds (· + reservedInstancesLast) db.remaining)).Nodup := by
    rw [instanceIds_moveIds]
    exact hnodup.map fun _ _ he => Nat.add_right_cancel he
  have hperm := instanceSet_perm hshift
  have hmem : ∀ id, id ∈ l ↔ ∃ i ∈ instanceIds db.remaining, i + reservedInstancesLast = id := by
    intro id
    rw [hperm.mem_iff, instanceIds_moveIds, mem_map]
  have hsorted : l.Pairwise (· < ·) := instanceSet_sorted _
  rw [relabel_sorted hsorted]
  · by_cases hid : id ∈ l
    · rw [if_pos hid, if_pos ((hmem id).mp hid), idxOf_eq_countP hsorted hid, hperm.countP_eq,
        instanceIds_moveIds, countP_map]
      unfold InstanceDb.newId
      congr 1
      refine countP_congr fun i hi => ?_
      simp only [Function.comp_apply, decide_eq_true_eq]
      obtain ⟨j, hj, rfl⟩ := (hmem id).mp hid
      omega
    · rw [if_neg hid, if_neg fun hc => hid ((hmem id).mpr hc)]
  · intro i hi
    obtain ⟨j, -, rfl⟩ := (hmem i).mp hi
    omega

/-- Packing is one renumbering of the rows that remain. -/
theorem packInstances_eq (h : db.Valid) :
    packInstances db = { db := { rows := moveIds db.newId db.remaining
                                 refs := db.mapRefs db.final } } := by
  obtain ⟨hnodup, hreserved⟩ := h.remaining
  set shifted : InstanceDb :=
    { rows := moveIds (· + reservedInstancesLast) db.remaining
      refs := db.mapRefs fun t id =>
        if t.shiftFrom ≤ id then id + reservedInstancesLast else id } with hshifted
  have hfirst : Packing.commit { db } InstanceDb.shift = { db := shifted } := by
    unfold Packing.commit InstanceDb.shift
    rw [shiftIds_eq h.nodup, Option.map_some, filter_moveIds]
    rfl
  unfold packInstances
  rw [hfirst]
  show packLoop (instanceSet shifted.rows) reservedInstancesLast { db := shifted } = _
  have hshift : (instanceIds shifted.rows).Nodup := by
    rw [hshifted, instanceIds_moveIds]
    exact hnodup.map fun _ _ he => Nat.add_right_cancel he
  have hmem := fun id => (instanceSet_perm hshift).mem_iff (a := id)
  rw [packLoop_eq (instanceSet_sorted _)]
  · unfold InstanceDb.renumber
    rw [hshifted, moveIds_moveIds, InstanceDb.mapRefs_mapRefs]
    congr 2
    · refine moveIds_congr fun id hid => ?_
      rw [relabel_shifted h, if_pos ⟨id, hid, rfl⟩, Nat.add_sub_cancel]
    · refine congrArg db.mapRefs (funext fun t => funext fun id => ?_)
      unfold InstanceDb.final
      rw [relabel_shifted h]
      by_cases hlt : id < t.shiftFrom
      · rw [if_neg (Nat.not_le.mpr hlt), if_pos hlt, if_neg]
        rintro ⟨i, hi, rfl⟩
        have := hreserved i hi
        have := t.shiftFrom_le
        omega
      · have hshifted' : (∃ i ∈ instanceIds db.remaining, i + reservedInstancesLast =
            id + reservedInstancesLast) ↔ id ∈ instanceIds db.remaining := by
          simp
        rw [if_pos (Nat.not_lt.mp hlt), if_neg hlt, Nat.add_sub_cancel]
        simp only [hshifted']
  · intro i hi
    rw [hmem, hshifted, instanceIds_moveIds] at hi
    obtain ⟨j, -, rfl⟩ := mem_map.mp hi
    omega
  · intro id hid
    exact Or.inl ((hmem id).mpr hid)

/-- The numbers are those up to the number of instances. -/
theorem exists_newId_eq (h : db.Valid) {n : Nat} (hn : n < db.remaining.length) :
    ∃ i ∈ instanceIds db.remaining, db.newId i = reservedInstancesLast + n := by
  have hperm := instanceSet_perm h.remaining.1
  have hlen : n < (instanceSet db.remaining).length := by
    rw [hperm.length_eq]
    simpa [instanceIds] using hn
  have hsorted := instanceSet_sorted db.remaining
  have hmem := getElem_mem hlen
  refine ⟨(instanceSet db.remaining)[n], hperm.mem_iff.mp hmem, ?_⟩
  unfold InstanceDb.newId
  rw [← hperm.countP_eq, ← idxOf_eq_countP hsorted hmem,
    List.Nodup.idxOf_getElem (hsorted.imp Nat.ne_of_lt) n hlen]

/-- The new ids are the first ones. -/
theorem newId_lt (h : db.Valid) {i : Nat} (hi : i ∈ instanceIds db.remaining) :
    db.newId i < reservedInstancesLast + db.remaining.length := by
  have hperm := instanceSet_perm h.remaining.1
  have hmem := hperm.mem_iff.mpr hi
  have hlt := idxOf_lt_length_iff.mpr hmem
  unfold InstanceDb.newId
  rw [← hperm.countP_eq, ← idxOf_eq_countP (instanceSet_sorted db.remaining) hmem]
  rw [hperm.length_eq] at hlt
  have hlen : (instanceIds db.remaining).length = db.remaining.length := length_map _
  omega

/-- The ids are packed, and every reference follows its instance, if and only if the references that
are moved up are those of instances. -/
theorem packInstances_packed_iff (db : InstanceDb) (h : db.Valid) :
    db.Packed (packInstances db) ↔ db.Clean := by
  obtain ⟨hnodup, hreserved⟩ := h.remaining
  rw [packInstances_eq h]
  constructor
  · intro hp t r hr
    have hfollows : db.Follows r.instanceId (db.final t r.instanceId) := by
      have hrefs := hp.refs t
      unfold InstanceDb.mapRefs at hrefs
      rw [forall₂_map_right_iff, forall₂_same] at hrefs
      exact (hrefs r hr).2
    by_contra hc
    simp only [not_or, not_and, not_le, not_lt] at hc
    obtain ⟨hshift, hno, hlow⟩ := hc
    unfold InstanceDb.final at hfollows
    rw [if_neg (Nat.not_lt.mpr hshift), if_neg hno] at hfollows
    by_cases hsmall : r.instanceId < reservedInstancesLast
    · have hkept := hfollows.kept hsmall
      simp only [reservedInstancesLast] at hkept
      omega
    · -- its id becomes that of another instance
      obtain ⟨i, hi, hnew⟩ := exists_newId_eq h (hlow (Nat.not_lt.mp hsmall))
      exact hfollows.foreign hno i hi (by omega)
  · intro hclean
    refine ⟨rfl, fun t => ?_, rfl⟩
    unfold InstanceDb.mapRefs
    rw [forall₂_map_right_iff, forall₂_same]
    intro r hr
    refine ⟨rfl, ?_⟩
    simp only
    have hle := t.shiftFrom_le
    unfold InstanceDb.final
    rcases hclean t r hr with hlow | hmem | ⟨hge, hlen⟩
    · rw [if_pos hlow]
      refine ⟨fun hm => ?_, fun _ => rfl, fun _ i hi he => ?_⟩
      · have := hreserved _ hm
        omega
      · unfold InstanceDb.newId at he
        omega
    · have hge := hreserved _ hmem
      rw [if_neg (by omega), if_pos hmem]
      exact ⟨fun _ => rfl, fun hlt => by omega, fun hno => absurd hmem hno⟩
    · rw [if_neg (by omega)]
      by_cases hmem : r.instanceId ∈ instanceIds db.remaining
      · rw [if_pos hmem]
        exact ⟨fun _ => rfl, fun hlt => by omega, fun hno => absurd hmem hno⟩
      · rw [if_neg hmem]
        refine ⟨fun hm => absurd hm hmem, fun hlt => by omega, fun _ i hi he => ?_⟩
        have := newId_lt h hi
        omega

/-- Two instances, one of them on a continent, with a respawn and binds -/
theorem packInstances_packed_two :
    let refs : RefTable → List InstanceRef := fun
      | .creatureRespawn => [⟨7, 0⟩, ⟨8, 130⟩]
      | .gameobjectRespawn => []
      | .corpse => [⟨1, 130⟩]
      | .characterInstance => [⟨1, 130⟩, ⟨2, 130⟩]
      | .groupInstance => []
    let db : InstanceDb := { rows := [⟨130, 36, 0⟩, ⟨120, 0, 0⟩], refs }
    db.Packed (packInstances db) := by
  intro refs db
  refine (packInstances_packed_iff db ⟨by decide, by decide⟩).mpr fun t r hr => ?_
  revert r
  cases t <;> decide

/-- A corpse that lies in no instance is moved up like one in an instance, into the first
instance. -/
theorem corpse_not_packed : ¬ ∀ db : InstanceDb, db.Valid → db.Packed (packInstances db) := by
  intro h
  let db : InstanceDb :=
    { rows := [⟨100, 36, 0⟩], refs := fun t => if t = .corpse then [⟨1, 0⟩] else [] }
  have hvalid : db.Valid := ⟨by decide, by decide⟩
  have hpacked := (h db hvalid).refs .corpse
  rw [packInstances_eq hvalid] at hpacked
  cases hpacked with
  | cons hfollows _ => exact absurd (hfollows.2.kept (by decide)) (by decide)

/-! ## Packing again -/

theorem newId_lt_iff {i j : Nat} (hi : i ∈ instanceIds db.remaining) :
    db.newId i < db.newId j ↔ i < j := by
  unfold InstanceDb.newId
  rw [Nat.add_lt_add_iff_left, countP_eq_length_filter, countP_eq_length_filter]
  have hsub : ∀ {a b}, a ≤ b → ((instanceIds db.remaining).filter (· < a)).Sublist
      ((instanceIds db.remaining).filter (· < b)) := fun hab =>
    monotone_filter_right _ fun x hx => by simp at hx ⊢; omega
  refine ⟨fun h => Nat.lt_of_not_le fun hji => ?_, fun hij => Nat.lt_of_not_le fun hle => ?_⟩
  · exact absurd (hsub hji).length_le (Nat.not_le.mpr h)
  · have hmem : i ∈ (instanceIds db.remaining).filter (· < j) := by simp [hi, hij]
    rw [← (hsub (Nat.le_of_lt hij)).eq_of_length_le hle] at hmem
    simp at hmem

/-- No start after the first changes anything. -/
theorem packInstances_starts (h : db.Valid) (hrefs : ∀ t, ∀ r ∈ db.refs t,
      r.instanceId < t.shiftFrom ∨ r.instanceId ∈ instanceIds db.remaining) (k : Nat) :
    (fun db => (packInstances db).db)^[k + 1] db = (packInstances db).db := by
  rw [Function.iterate_succ_apply]
  refine Function.iterate_fixed ?_ k
  rw [packInstances_eq h]
  set db' : InstanceDb := { rows := moveIds db.newId db.remaining, refs := db.mapRefs db.final }
  have hrem : db'.remaining = db'.rows :=
    (filter_moveIds _).trans (congrArg _ (by rw [InstanceDb.remaining, filter_filter]; simp))
  have hids : instanceIds db'.rows = (instanceIds db.remaining).map db.newId :=
    instanceIds_moveIds _
  have hnew : ∀ i ∈ instanceIds db.remaining, db'.newId (db.newId i) = db.newId i := fun i hi => by
    rw [InstanceDb.newId, hrem, hids, countP_map]
    refine congrArg _ (countP_congr fun j hj => ?_)
    simp [newId_lt_iff hj]
  have hvalid : db'.Valid := by
    refine ⟨?_, ?_⟩ <;> rw [hids]
    · refine h.remaining.1.map_on fun i hi j hj he => ?_
      have hij := newId_lt_iff (j := j) hi
      have hji := newId_lt_iff (j := i) hj
      omega
    · simp [InstanceDb.newId]
  have hagain : db'.mapRefs db'.final = db'.refs := by
    refine (InstanceDb.mapRefs_mapRefs db _ _ _).trans ?_
    refine funext fun t => map_congr_left fun r hr => congrArg _ ?_
    show db'.final t (db.final t r.instanceId) = db.final t r.instanceId
    unfold InstanceDb.final
    rcases hrefs t r hr with hlow | hmem
    · simp [hlow]
    · have hge := t.shiftFrom_le.trans (h.remaining.2 _ hmem)
      have hnewge : t.shiftFrom ≤ db.newId r.instanceId :=
        t.shiftFrom_le.trans (Nat.le_add_right _ _)
      rw [if_neg (Nat.not_lt.mpr hge), if_pos hmem, if_neg (Nat.not_lt.mpr hnewge), hrem, hids,
        if_pos (mem_map_of_mem hmem), hnew _ hmem]
  rw [packInstances_eq hvalid, hagain, hrem, moveIds_moveIds, moveIds_congr hnew]

theorem packInstances_starts_three : let db : InstanceDb :=
      { rows := [⟨130, 36, 0⟩], refs := fun _ => [⟨1, 130⟩] }
    (fun db => (packInstances db).db)^[3] db = (packInstances db).db := by
  intro db
  refine packInstances_starts ⟨by decide, by decide⟩ (fun t r hr => ?_) 2
  revert r
  cases t <;> decide

end Windrunner
