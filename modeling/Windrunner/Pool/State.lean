import Mathlib.Data.Rat.Defs
import Windrunner.Lib.Run

/-!
# Pools

A pool has creatures, game objects and other pools, of which so many are spawned at a time as its
limit says. `SpawnedPoolData` is what is spawned on a map: the creatures, the game objects, and for
the pools how much of each is spawned. One counter is for the children of all three kinds. A pool
that is in another pool is spawned when it has a counter, be it 0.

Whether objects may be spawned changes by `SetExcludeObject`; the rest of what has been loaded is a
`PoolForest`. A pool in a pool has a lower rank, so going down from a pool ends.
-/

namespace Windrunner

inductive PoolKind where
  | creature | gameobject | pool
  deriving DecidableEq, Repr

structure PoolObject where
  guid : Nat
  chance : Rat := 0
  /-- `FLAG_SPAWN_ENABLE_IF_WORLD_POP_OVER_BLIZZLIKE` -/
  popOver : Bool := false
  deriving DecidableEq, Repr

structure PoolGroup where
  explicitlyChanced : List PoolObject := []
  equalChanced : List PoolObject := []
  deriving DecidableEq, Repr

namespace PoolGroup

/-- The objects in the order in which `DespawnObject` goes through them -/
def guids (group : PoolGroup) : List Nat :=
  (group.equalChanced ++ group.explicitlyChanced).map PoolObject.guid

def isEmpty (group : PoolGroup) : Bool :=
  group.explicitlyChanced.isEmpty && group.equalChanced.isEmpty

end PoolGroup

/-- The pools as they have been loaded. Each object is in at most one pool, and no pool is in itself,
however deep. -/
structure PoolForest where
  group : PoolKind → Nat → PoolGroup
  /-- `GetSpawnCount` -/
  spawnCount : Nat → Nat
  /-- `IsPartOfAPool` of a pool; 0 is no pool. -/
  mother : Nat → Nat
  rank : Nat → Nat
  nodup : ∀ k p, (group k p).guids.Nodup
  unique : ∀ k p q, ∀ g ∈ (group k p).guids, g ∈ (group k q).guids → p = q
  guid_ne : ∀ k p, ∀ g ∈ (group k p).guids, g ≠ 0 ∧ p ≠ 0
  mother_of : ∀ p, ∀ c ∈ (group .pool p).guids, mother c = p
  of_mother : ∀ c, mother c ≠ 0 → c ∈ (group .pool (mother c)).guids
  rank_lt : ∀ p, ∀ c ∈ (group .pool p).guids, rank c < rank p
  spawnCount_lt : ∀ p, spawnCount p < 4294967296
  /-- The loops over the objects count in `int`. -/
  few : ∀ k p, (group k p).guids.length < 2147483648

structure SpawnedPoolData where
  creatures : Nat → Bool := fun _ => false
  gameobjects : Nat → Bool := fun _ => false
  pools : Nat → Option Nat := fun _ => none

namespace SpawnedPoolData

variable (d : SpawnedPoolData)

def getSpawnedObjects (pool : Nat) : Nat := (d.pools pool).getD 0

def isSpawnedObject : PoolKind → Nat → Bool
  | .creature, guid => d.creatures guid
  | .gameobject, guid => d.gameobjects guid
  | .pool, sub => (d.pools sub).isSome

def setSpawned (k : PoolKind) (guid : Nat) (spawned : Bool) : SpawnedPoolData :=
  match k with
  | .creature => { d with creatures := Function.update d.creatures guid spawned }
  | .gameobject => { d with gameobjects := Function.update d.gameobjects guid spawned }
  | .pool => { d with pools := Function.update d.pools guid (if spawned then some 0 else none) }

def setCount (pool count : Nat) : SpawnedPoolData :=
  { d with pools := Function.update d.pools pool (some count) }

def addSpawn (k : PoolKind) (guid pool : Nat) : SpawnedPoolData :=
  let d := d.setSpawned k guid true
  d.setCount pool (d.getSpawnedObjects pool + 1)

/-- A counter that is 0 stays 0. -/
def removeSpawn (k : PoolKind) (guid pool : Nat) : SpawnedPoolData :=
  let d := d.setSpawned k guid false
  d.setCount pool (d.getSpawnedObjects pool - 1)

end SpawnedPoolData

structure PoolState where
  /-- `exclude` of an object, by its pool and its guid -/
  exclude : PoolKind → Nat → Nat → Bool := fun _ _ _ => false
  data : SpawnedPoolData := {}
  /-- The objects that `ReSpawn1Object` has added to the map again, the last one first -/
  respawned : List (PoolKind × Nat) := []
  /-- How often something has been rolled -/
  rolls : Nat := 0

/-- What is rolled, one after the other, and what else the pools depend on -/
structure PoolChance where
  randChance : Nat → Rat := fun _ => 0
  urand : Nat → Nat := fun _ => 0
  /-- `GetPoolObjectRespawnTime` is not 0. -/
  timed : Nat → PoolKind → Nat → Bool := fun _ _ _ => false
  /-- There are more sessions than `m_dynamicRespawnRatio`. -/
  populated : Bool := true

namespace PoolForest

variable (F : PoolForest)

/-! ## Despawning -/

section Despawn

variable (despawnPool : SpawnedPoolData → Nat → SpawnedPoolData)

/-- `Despawn1Object`: creatures and game objects only leave the grid. -/
def despawn1Object (k : PoolKind) (d : SpawnedPoolData) (guid : Nat) : SpawnedPoolData :=
  match k with
  | .pool => despawnPool d guid
  | _ => d

/-- `DespawnObject` for the object `guid`, or for all of the group when that is 0 -/
def despawnObjectWith (k : PoolKind) (p guid : Nat) (d : SpawnedPoolData) : SpawnedPoolData :=
  (F.group k p).guids.foldl (fun d g =>
    if d.isSpawnedObject k g ∧ (guid = 0 ∨ g = guid) then
      (despawn1Object despawnPool k d g).removeSpawn k g p
    else d) d

end Despawn

/-- `DespawnPool`, for a pool with less than `n` pools one below the other in it -/
def despawnPoolBelow : Nat → SpawnedPoolData → Nat → SpawnedPoolData
  | 0, d, _ => d
  | n + 1, d, p =>
    let d := F.despawnObjectWith (despawnPoolBelow n) .creature p 0 d
    let d := F.despawnObjectWith (despawnPoolBelow n) .gameobject p 0 d
    F.despawnObjectWith (despawnPoolBelow n) .pool p 0 d

def despawnPool (d : SpawnedPoolData) (p : Nat) : SpawnedPoolData :=
  F.despawnPoolBelow (F.rank p + 1) d p

def despawnObject (k : PoolKind) (p guid : Nat) (d : SpawnedPoolData) : SpawnedPoolData :=
  F.despawnObjectWith (F.despawnPoolBelow (F.rank p)) k p guid d

/-! ## Rolling -/

def rollExplicitlyChanced (can : PoolObject → Bool) : Rat → List PoolObject → Option PoolObject
  | _, [] => none
  | roll, obj :: rest =>
    if roll - obj.chance < 0 ∧ can obj then some obj
    else rollExplicitlyChanced can (roll - obj.chance) rest

def rollEqualChanced (can : PoolObject → Bool) (urand : Nat) (l : List PoolObject) :
    Option PoolObject :=
  let possible := l.filter can
  possible[urand % possible.length]?

variable (w : PoolChance)

/-- `RollOne`. An object that triggers can be rolled although it is marked as spawned. -/
def rollOne (st : PoolState) (k : PoolKind) (p triggerFrom : Nat) : Option PoolObject :=
  let can (obj : PoolObject) : Bool :=
    !st.exclude k p obj.guid && (!obj.popOver || w.populated) &&
      (obj.guid = triggerFrom || !st.data.isSpawnedObject k obj.guid)
  match rollExplicitlyChanced can (w.randChance st.rolls) (F.group k p).explicitlyChanced with
  | some obj => some obj
  | none => rollEqualChanced can (w.urand st.rolls) (F.group k p).equalChanced

/-! ## Spawning -/

structure Spawning where
  state : PoolState
  triggerFrom : Nat
  lastDespawned : Nat := 0

section Spawn

variable (spawnPool : PoolState → Nat → PoolState)

/-- `AddSpawn` and `Spawn1Object` -/
def spawn1Object (k : PoolKind) (p guid : Nat) (st : PoolState) : PoolState :=
  let st := { st with data := st.data.addSpawn k guid p }
  match k with
  | .pool => spawnPool st guid
  | _ => st

/-- Nothing to do for a pool -/
def reSpawn1Object (k : PoolKind) (guid : Nat) (st : PoolState) : PoolState :=
  { st with respawned := match k with
      | .pool => st.respawned
      | _ => (k, guid) :: st.respawned }

/-- The body of the loop of `SpawnObject`. `subPool` is the object that has triggered it. -/
def spawnOne (k : PoolKind) (p subPool motherPool : Nat) (isTriggerSpawned : Bool)
    (s : Spawning) : Spawning :=
  let triggerFrom := if motherPool ≠ 0 then motherPool else s.triggerFrom
  let st := { s.state with rolls := s.state.rolls + 1 }
  match F.rollOne w s.state k p triggerFrom with
  | none => { s with state := st, triggerFrom := triggerFrom }
  | some obj =>
    if obj.guid = s.lastDespawned then { s with state := st, triggerFrom := triggerFrom }
    else if obj.guid = triggerFrom ∧ isTriggerSpawned then
      { s with state := reSpawn1Object k obj.guid st, triggerFrom := 0 }
    else
      let st := spawn1Object spawnPool k p obj.guid st
      if triggerFrom ≠ 0 ∧ isTriggerSpawned then
        -- The trigger is redirected to the sub pool for disposal.
        let disposed := if motherPool ≠ 0 then subPool else triggerFrom
        { state := { st with data := F.despawnObject k p disposed st.data }
          triggerFrom := 0
          lastDespawned := disposed }
      else
        { s with state := st, triggerFrom := if triggerFrom = obj.guid then 0 else triggerFrom }

def spawnTimes (k : PoolKind) (p subPool motherPool : Nat) (isTriggerSpawned : Bool) :
    Nat → Spawning → Spawning
  | 0, s => s
  | n + 1, s =>
    spawnTimes k p subPool motherPool isTriggerSpawned n
      (F.spawnOne w spawnPool k p subPool motherPool isTriggerSpawned s)

/-- The objects of a pool with a timer, when nothing of it is spawned; and what is left of `count` -/
def spawnTimed (k : PoolKind) (p : Nat) : List PoolObject → PoolState → Int → PoolState × Int
  | [], st, count => (st, count)
  | obj :: rest, st, count =>
    if count ≠ 0 ∧ k ≠ .pool ∧ w.timed st.rolls k obj.guid then
      spawnTimed k p rest (spawn1Object spawnPool k p obj.guid st) (count - 1)
    else spawnTimed k p rest st count

/-- How often `SpawnObject` rolls, and what it has spawned before that. `count` is what an `int` makes
of the difference of two counters. -/
def spawnFirst (k : PoolKind) (p triggerFrom : Nat) (st : PoolState) : PoolState × Int :=
  let limit := F.spawnCount p
  let count := ((limit : Int) - st.data.getSpawnedObjects p).bmod 4294967296
  if triggerFrom ≠ 0 then (st, if st.data.isSpawnedObject k triggerFrom then count + 1 else count)
  else if count ≠ 0 ∧ count % 4294967296 = limit then
    let group := F.group k p
    spawnTimed w spawnPool k p
      (if group.explicitlyChanced.isEmpty then group.equalChanced else group.explicitlyChanced)
      st count
  else (st, count)

def spawnObject (k : PoolKind) (p triggerFrom motherPool : Nat) (st : PoolState) : PoolState :=
  let isTriggerSpawned := st.data.isSpawnedObject k triggerFrom
  let (st, count) := F.spawnFirst w spawnPool k p triggerFrom st
  (F.spawnTimes w spawnPool k p triggerFrom motherPool isTriggerSpawned count.toNat
    { state := st, triggerFrom := triggerFrom }).state

def spawnPoolGroup (k : PoolKind) (p triggerFrom : Nat) (st : PoolState) : PoolState :=
  if (F.group k p).isEmpty then st
  else F.spawnObject w spawnPool k p triggerFrom (if k = .pool then p else 0) st

end Spawn

/-- `SpawnPool`, for a pool with less than `n` pools one below the other in it -/
def spawnPoolBelow : Nat → PoolState → Nat → PoolState
  | 0, st, _ => st
  | n + 1, st, p =>
    let st := F.spawnPoolGroup w (spawnPoolBelow n) .pool p 0 st
    let st := F.spawnPoolGroup w (spawnPoolBelow n) .gameobject p 0 st
    F.spawnPoolGroup w (spawnPoolBelow n) .creature p 0 st

def spawnPool (st : PoolState) (p : Nat) : PoolState := F.spawnPoolBelow w (F.rank p + 1) st p

/-- `UpdatePool` for an object of the pool `p`, or for no object when `guid` is 0 -/
def updatePool (k : PoolKind) (p guid : Nat) (st : PoolState) : PoolState :=
  if F.mother p ≠ 0 then
    F.spawnPoolGroup w (F.spawnPoolBelow w (F.rank (F.mother p))) .pool (F.mother p) p st
  else F.spawnPoolGroup w (F.spawnPoolBelow w (F.rank p)) k p guid st

def setExcludeObject (k : PoolKind) (p guid : Nat) (exclude : Bool) (st : PoolState) : PoolState :=
  { st with exclude := fun k' p' guid' =>
      if k' = k ∧ p' = p ∧ guid' = guid then exclude else st.exclude k' p' guid' }

/-- What is done with the pools of a map. Game objects that are gone despawn themselves before they
update their pool. -/
inductive Op where
  | spawnPool (w : PoolChance) (p : Nat)
  | despawnPool (p : Nat)
  | updatePool (w : PoolChance) (k : PoolKind) (p guid : Nat)
  | despawnObject (k : PoolKind) (p guid : Nat)
  | setExcludeObject (k : PoolKind) (p guid : Nat) (exclude : Bool)

def step (st : PoolState) : Op → PoolState
  | .spawnPool w p => F.spawnPool w st p
  | .despawnPool p => { st with data := F.despawnPool st.data p }
  | .updatePool w k p guid => F.updatePool w k p guid st
  | .despawnObject k p guid => { st with data := F.despawnObject k p guid st.data }
  | .setExcludeObject k p guid exclude => setExcludeObject k p guid exclude st

end PoolForest

end Windrunner
