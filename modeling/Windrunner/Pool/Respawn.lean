import Mathlib.Algebra.BigOperators.Group.List.Basic
import Mathlib.Tactic.Linarith
import Windrunner.Pool.Limits

/-!
# An object of a pool is ready to respawn

`UpdatePool` takes as many turns as the pool has places, with the one of the object that has triggered
it. The first turn whose roll finds something settles what becomes of that object: it is added to the
map again, or another one is spawned and it is despawned. For a pool in a pool the sub-pool takes the
place of the object, and a roll never finds the sub-pool itself.

* `Apart`: what happens in a pool does not touch what is not in it.
* `spawnTimes_settled`, `spawnTimes_idle`: the turns, with and without a roll that finds something.
* `updatePool_settled_iff`: when the respawn is not lost, and that nothing happens otherwise.
-/

namespace Windrunner

open Lib List

namespace PoolForest

variable {F : PoolForest} {w : PoolChance} {d d' d₁ d₂ d₃ : SpawnedPoolData} {st : PoolState}
  {k : PoolKind} {p g g' c n : Nat}

/-! ## What a roll finds -/

/-- `CanBeSpawned`, and the object is not spawned or is the one that triggers. -/
def Eligible (w : PoolChance) (st : PoolState) (k : PoolKind) (p triggerFrom : Nat)
    (obj : PoolObject) : Prop :=
  st.exclude k p obj.guid = false ∧ (obj.popOver = true → w.populated = true) ∧
    (obj.guid = triggerFrom ∨ st.data.isSpawnedObject k obj.guid = false)

/-- The `n`-th roll hits an explicitly chanced object or one after which it would have been hit, or
there is an equally chanced one. -/
def Found (F : PoolForest) (w : PoolChance) (st : PoolState) (k : PoolKind) (p triggerFrom n : Nat) :
    Prop :=
  (∃ i obj, (F.group k p).explicitlyChanced[i]? = some obj ∧ Eligible w st k p triggerFrom obj ∧
    w.randChance n < (((F.group k p).explicitlyChanced.take (i + 1)).map PoolObject.chance).sum) ∨
  ∃ obj ∈ (F.group k p).equalChanced, Eligible w st k p triggerFrom obj

theorem rollExplicitlyChanced_isSome {can : PoolObject → Bool} {roll : Rat} {l : List PoolObject} :
    (rollExplicitlyChanced can roll l).isSome ↔ ∃ i obj, l[i]? = some obj ∧ can obj = true ∧
      roll < ((l.take (i + 1)).map PoolObject.chance).sum := by
  induction l generalizing roll with
  | nil => simp [rollExplicitlyChanced]
  | cons x l ih =>
    unfold rollExplicitlyChanced
    have hsum : ∀ i, (((x :: l).take (i + 1)).map PoolObject.chance).sum =
        x.chance + ((l.take i).map PoolObject.chance).sum := fun i => by
      rw [take_succ_cons, map_cons, sum_cons]
    split
    case isTrue hx =>
      refine iff_of_true rfl ⟨0, x, rfl, hx.2, ?_⟩
      rw [hsum, take_zero, map_nil, sum_nil]
      linarith only [hx.1]
    case isFalse hx =>
      rw [ih]
      constructor
      · rintro ⟨i, obj, hi, hcan, hroll⟩
        refine ⟨i + 1, obj, hi, hcan, ?_⟩
        rw [hsum]
        linarith only [hroll]
      · rintro ⟨i, obj, hi, hcan, hroll⟩
        rw [hsum] at hroll
        cases i with
        | zero =>
          obtain rfl : x = obj := Option.some_inj.mp hi
          rw [take_zero, map_nil, sum_nil] at hroll
          exact absurd ⟨by linarith only [hroll], hcan⟩ hx
        | succ i => exact ⟨i, obj, hi, hcan, by linarith only [hroll]⟩

theorem rollEqualChanced_isSome {can : PoolObject → Bool} {urand : Nat} {l : List PoolObject} :
    (rollEqualChanced can urand l).isSome ↔ ∃ obj ∈ l, can obj = true := by
  have hmem : (∃ obj ∈ l, can obj = true) ↔ ∃ obj, obj ∈ l.filter can := by
    simp only [mem_filter]
  rw [hmem, ← length_pos_iff_exists_mem]
  unfold rollEqualChanced
  dsimp only
  rw [isSome_getElem?]
  exact ⟨fun h => Nat.pos_of_ne_zero fun h0 => by rw [h0] at h; omega, fun h => Nat.mod_lt _ h⟩

/-- When a roll finds an object. -/
theorem rollOne_isSome {triggerFrom : Nat} : (F.rollOne w st k p triggerFrom).isSome ↔
    Found F w st k p triggerFrom st.rolls := by
  have hcan : ∀ obj : PoolObject, (!st.exclude k p obj.guid && (!obj.popOver || w.populated) &&
      (obj.guid = triggerFrom || !st.data.isSpawnedObject k obj.guid)) = true ↔
      Eligible w st k p triggerFrom obj := fun obj => by
    unfold Eligible
    cases obj.popOver <;> simp [and_assoc]
  unfold rollOne Found
  simp only [← hcan]
  rw [← rollExplicitlyChanced_isSome]
  split
  case h_1 obj hroll =>
    rw [hroll]
    exact iff_of_true rfl (.inl rfl)
  case h_2 hroll =>
    rw [hroll, rollEqualChanced_isSome]
    simp

/-! ## A turn -/

section Turn

variable (F w) (up : PoolState → Nat → PoolState) (k p) (subPool motherPool : Nat)
  (isTriggerSpawned : Bool)

/-- What the roll of a turn is given -/
def rollsFor (motherPool : Nat) (s : Spawning) : Nat :=
  if motherPool ≠ 0 then motherPool else s.triggerFrom

/-- What a turn of `SpawnObject` can do -/
inductive Turn (s : Spawning) : Spawning → Prop
  | nothing (hroll : F.rollOne w s.state k p (rollsFor motherPool s) = none) :
    Turn s { s with
      state := { s.state with rolls := s.state.rolls + 1 }, triggerFrom := rollsFor motherPool s }
  | skipped (obj : PoolObject) (hroll : F.rollOne w s.state k p (rollsFor motherPool s) = some obj)
    (hlast : obj.guid = s.lastDespawned) :
    Turn s { s with
      state := { s.state with rolls := s.state.rolls + 1 }, triggerFrom := rollsFor motherPool s }
  | readded (obj : PoolObject) (hroll : F.rollOne w s.state k p (rollsFor motherPool s) = some obj)
    (hlast : obj.guid ≠ s.lastDespawned) (htrigger : obj.guid = rollsFor motherPool s)
    (hspawned : isTriggerSpawned = true) :
    Turn s { s with
      state := reSpawn1Object k obj.guid { s.state with rolls := s.state.rolls + 1 }
      triggerFrom := 0 }
  | replaced (obj : PoolObject) (hroll : F.rollOne w s.state k p (rollsFor motherPool s) = some obj)
    (hlast : obj.guid ≠ s.lastDespawned)
    (hother : ¬ (obj.guid = rollsFor motherPool s ∧ isTriggerSpawned = true))
    (hdispose : rollsFor motherPool s ≠ 0 ∧ isTriggerSpawned = true) :
    Turn s {
      state := { spawn1Object up k p obj.guid { s.state with rolls := s.state.rolls + 1 } with
        data := F.despawnObject k p (if motherPool ≠ 0 then subPool else rollsFor motherPool s)
          (spawn1Object up k p obj.guid { s.state with rolls := s.state.rolls + 1 }).data }
      triggerFrom := 0
      lastDespawned := if motherPool ≠ 0 then subPool else rollsFor motherPool s }
  | spawned (obj : PoolObject) (hroll : F.rollOne w s.state k p (rollsFor motherPool s) = some obj)
    (hlast : obj.guid ≠ s.lastDespawned)
    (hother : ¬ (obj.guid = rollsFor motherPool s ∧ isTriggerSpawned = true))
    (hkeep : ¬ (rollsFor motherPool s ≠ 0 ∧ isTriggerSpawned = true)) :
    Turn s { s with
      state := spawn1Object up k p obj.guid { s.state with rolls := s.state.rolls + 1 }
      triggerFrom := if rollsFor motherPool s = obj.guid then 0 else rollsFor motherPool s }

/-- Which of the outcomes a turn of the loop has. -/
theorem spawnOne_turn (s : Spawning) : Turn F w k p up subPool motherPool isTriggerSpawned s
    (F.spawnOne w up k p subPool motherPool isTriggerSpawned s) := by
  unfold spawnOne
  dsimp only
  rw [← rollsFor]
  cases hroll : F.rollOne w s.state k p (rollsFor motherPool s) with
  | none => exact .nothing hroll
  | some obj =>
    dsimp only
    by_cases hlast : obj.guid = s.lastDespawned
    · rw [if_pos hlast]
      exact .skipped obj hroll hlast
    rw [if_neg hlast]
    by_cases htrigger : obj.guid = rollsFor motherPool s ∧ isTriggerSpawned = true
    · rw [if_pos htrigger]
      exact .readded obj hroll hlast htrigger.1 htrigger.2
    rw [if_neg htrigger]
    by_cases hdispose : rollsFor motherPool s ≠ 0 ∧ isTriggerSpawned = true
    · rw [if_pos hdispose]
      exact .replaced obj hroll hlast htrigger hdispose
    · rw [if_neg hdispose]
      exact .spawned obj hroll hlast htrigger hdispose

end Turn

/-! ## What is not in a pool is not touched -/

theorem Below.up (hc : c ∈ (F.group .pool p).guids) (h : Below F c k g) : Below F p k g := by
  induction h with
  | child hg => exact .deeper (.child hc) hg
  | deeper _ hg ih => exact .deeper ih hg

/-- What is below has a lower rank. -/
theorem Below.rank_lt (h : Below F p k g) (hk : k = .pool) : F.rank g < F.rank p := by
  induction h with
  | child hg =>
    subst hk
    exact F.rank_lt _ _ hg
  | deeper _ hg ih =>
    subst hk
    exact (F.rank_lt _ _ hg).trans (ih rfl)

theorem not_below_sibling (hg : g ∈ (F.group .pool p).guids) (hg' : g' ∈ (F.group .pool p).guids) :
    ¬ Below F g .pool g' := by
  intro h
  cases h with
  | child hin =>
    obtain rfl := F.unique .pool g p g' hin hg'
    exact ne_of_child hg rfl
  | deeper hb hin =>
    obtain rfl := F.unique .pool _ p g' hin hg'
    exact Nat.lt_asymm (hb.rank_lt rfl) (F.rank_lt _ _ hg)

/-- Only what is in the pool `c`, and the pool itself, may be marked otherwise. -/
def Apart (F : PoolForest) (c : Nat) (d d' : SpawnedPoolData) : Prop :=
  ∀ k g, ¬ Below F c k g → ¬ (k = .pool ∧ g = c) → d'.isSpawnedObject k g = d.isSpawnedObject k g

theorem Apart.refl (c : Nat) (d : SpawnedPoolData) : Apart F c d d := fun _ _ _ _ => rfl

theorem Apart.trans (h : Apart F c d₁ d₂) (h' : Apart F c d₂ d₃) : Apart F c d₁ d₃ :=
  fun k g hb hc => (h' k g hb hc).trans (h k g hb hc)

theorem Apart.up (hc : c ∈ (F.group .pool p).guids) (h : Apart F c d d') : Apart F p d d' := by
  intro k g hb _
  refine h k g (fun hbelow => hb (hbelow.up hc)) ?_
  rintro ⟨rfl, rfl⟩
  exact hb (.child hc)

theorem apart_addSpawn (hg : g ∈ (F.group k p).guids) (d : SpawnedPoolData) :
    Apart F p d (d.addSpawn k g p) := by
  intro k' g' hb hp
  rw [Bool.eq_iff_iff, SpawnedPoolData.isSpawnedObject_addSpawn, or_iff_left_iff_imp]
  rintro (⟨rfl, rfl⟩ | h)
  · exact absurd (.child hg) hb
  · exact absurd h hp

theorem apart_removeSpawn (hg : g ∈ (F.group k p).guids) (d : SpawnedPoolData) :
    Apart F p d (d.removeSpawn k g p) := by
  intro k' g' hb hp
  rw [Bool.eq_iff_iff, SpawnedPoolData.isSpawnedObject_removeSpawn]
  constructor
  · rintro (h | h)
    · exact h.1
    · exact absurd h hp
  · intro h
    refine .inl ⟨h, ?_⟩
    rintro ⟨rfl, rfl⟩
    exact hb (.child hg)

section Despawn

variable {down : SpawnedPoolData → Nat → SpawnedPoolData}

theorem apart_despawnObjectWith (hdown : ∀ d, ∀ c ∈ (F.group .pool p).guids, Apart F c d (down d c))
    (k : PoolKind) (guid : Nat) (d : SpawnedPoolData) :
    Apart F p d (F.despawnObjectWith down k p guid d) := by
  unfold despawnObjectWith
  refine foldlRecOn (motive := fun d' => Apart F p d d') _ _ (Apart.refl p d) ?_
  intro d' hd' g hg
  split
  case isTrue =>
    refine (hd'.trans ?_).trans (apart_removeSpawn hg _)
    cases k with
    | pool => exact (hdown d' g hg).up hg
    | creature => exact Apart.refl p d'
    | gameobject => exact Apart.refl p d'
  case isFalse => exact hd'

/-- Nor does a despawn. -/
theorem apart_despawnPoolBelow (n p : Nat) (d : SpawnedPoolData) :
    Apart F p d (F.despawnPoolBelow n d p) := by
  induction n generalizing p d with
  | zero => exact Apart.refl p d
  | succ n ih =>
    have hdown : ∀ k d, Apart F p d (F.despawnObjectWith (F.despawnPoolBelow n) k p 0 d) :=
      fun k d => apart_despawnObjectWith (fun d c _ => ih c d) k 0 d
    exact ((hdown .creature d).trans (hdown .gameobject _)).trans (hdown .pool _)

/-- One object is despawned, and its sibling stays. -/
theorem despawnObject_sibling (hg' : g' ∈ (F.group k p).guids) (hne : g' ≠ g) (h0 : g ≠ 0)
    (d : SpawnedPoolData) :
    (F.despawnObject k p g d).isSpawnedObject k g' = d.isSpawnedObject k g' := by
  unfold despawnObject despawnObjectWith
  refine foldlRecOn (motive := fun d' : SpawnedPoolData =>
    d'.isSpawnedObject k g' = d.isSpawnedObject k g') _ _ rfl ?_
  intro d' hd' x hx
  split
  case isFalse => exact hd'
  case isTrue hc =>
    obtain rfl : x = g := hc.2.resolve_left h0
    rw [← hd', Bool.eq_iff_iff, SpawnedPoolData.isSpawnedObject_removeSpawn]
    have hsame : (despawn1Object (F.despawnPoolBelow (F.rank p)) k d' x).isSpawnedObject k g' =
        d'.isSpawnedObject k g' := by
      cases k with
      | pool =>
        refine apart_despawnPoolBelow _ x d' .pool g' (not_below_sibling hx hg') ?_
        exact fun h => hne h.2
      | creature => rfl
      | gameobject => rfl
    rw [hsame]
    constructor
    · rintro (h | ⟨rfl, rfl⟩)
      · exact h.1
      · exact absurd rfl (ne_of_child hg')
    · exact fun h => .inl ⟨h, fun h => hne h.2⟩

end Despawn

section Spawn

variable {up : PoolState → Nat → PoolState} {motherPool trigger triggerFrom : Nat}
  {isTriggerSpawned : Bool}

/-- What `Spawn1Object` must leave alone -/
def ApartBelow (F : PoolForest) (up : PoolState → Nat → PoolState) (p : Nat) : Prop :=
  ∀ st, ∀ c ∈ (F.group .pool p).guids, Apart F c st.data (up st c).data

theorem apart_spawn1Object (hup : ApartBelow F up p) (hg : g ∈ (F.group k p).guids)
    (st : PoolState) : Apart F p st.data (spawn1Object up k p g st).data := by
  have hadd := apart_addSpawn hg st.data
  cases k with
  | pool => exact hadd.trans ((hup _ g hg).up hg)
  | creature => exact hadd
  | gameobject => exact hadd

/-- The other objects of the group stay as they are. -/
theorem spawn1Object_sibling (hup : ApartBelow F up p) (hg : g ∈ (F.group k p).guids)
    (hg' : g' ∈ (F.group k p).guids) (hne : g' ≠ g) (st : PoolState) :
    (spawn1Object up k p g st).data.isSpawnedObject k g' = st.data.isSpawnedObject k g' := by
  have hadd : (st.data.addSpawn k g p).isSpawnedObject k g' = st.data.isSpawnedObject k g' := by
    rw [Bool.eq_iff_iff, SpawnedPoolData.isSpawnedObject_addSpawn, or_iff_left_iff_imp]
    rintro (⟨-, rfl⟩ | ⟨rfl, rfl⟩)
    · exact absurd rfl hne
    · exact absurd rfl (ne_of_child hg')
  cases k with
  | pool =>
    refine (hup _ g hg .pool g' (not_below_sibling hg hg') ?_).trans hadd
    exact fun h => hne h.2
  | creature => exact hadd
  | gameobject => exact hadd

theorem spawn1Object_self (hup : FillsBelow F up p) (hg : g ∈ (F.group k p).guids) (st : PoolState)
    (h : Exact F st.data) (hnew : st.data.isSpawnedObject k g = false) (hp : Active F st.data p) :
    (spawn1Object up k p g st).data.isSpawnedObject k g = true := by
  have hadd : (st.data.addSpawn k g p).isSpawnedObject k g = true :=
    (SpawnedPoolData.isSpawnedObject_addSpawn ..).2 (.inr (.inl ⟨rfl, rfl⟩))
  cases k with
  | pool => exact (fills_subPool hup st hg h hnew hp).grows _ _ hadd
  | creature => exact hadd
  | gameobject => exact hadd

section

variable (hup : ApartBelow F up p)
include hup

theorem apart_spawnOne (s : Spawning) : Apart F p s.state.data
    (F.spawnOne w up k p trigger motherPool isTriggerSpawned s).state.data := by
  have h := spawnOne_turn F w k p up trigger motherPool isTriggerSpawned s
  generalize F.spawnOne w up k p trigger motherPool isTriggerSpawned s = s' at h ⊢
  cases h with
  | nothing hroll => exact Apart.refl p _
  | skipped obj hroll hlast => exact Apart.refl p _
  | readded obj hroll hlast htrigger hspawned => exact Apart.refl p _
  | replaced obj hroll hlast hother hdispose =>
    refine (apart_spawn1Object hup (rollOne_spec hroll).1
      { s.state with rolls := s.state.rolls + 1 }).trans ?_
    exact apart_despawnObjectWith (fun d c _ => apart_despawnPoolBelow _ c d) k _ _
  | spawned obj hroll hlast hother hkeep => exact apart_spawn1Object hup (rollOne_spec hroll).1 _

theorem apart_spawnTimes (n : Nat) (s : Spawning) :
    Apart F p s.state.data
      (F.spawnTimes w up k p trigger motherPool isTriggerSpawned n s).state.data := by
  induction n generalizing s with
  | zero => exact Apart.refl p _
  | succ n ih => exact (apart_spawnOne hup s).trans (ih _)

theorem apart_spawnTimed (l : List PoolObject)
    (hl : ∀ obj ∈ l, obj.guid ∈ (F.group k p).guids) (st : PoolState) (count : Int) :
    Apart F p st.data (spawnTimed w up k p l st count).1.data := by
  induction l generalizing st count with
  | nil => exact Apart.refl p _
  | cons obj l ih =>
    have hl' : ∀ obj ∈ l, obj.guid ∈ (F.group k p).guids := fun obj hobj =>
      hl obj (mem_cons_of_mem _ hobj)
    unfold spawnTimed
    split
    · exact (apart_spawn1Object hup (hl obj mem_cons_self) st).trans (ih hl' _ _)
    · exact ih hl' _ _

theorem apart_spawnPoolGroup (trigger : Nat) (st : PoolState) :
    Apart F p st.data (F.spawnPoolGroup w up k p trigger st).data := by
  have hfirst : Apart F p st.data (F.spawnFirst w up k p trigger st).1.data := by
    unfold spawnFirst
    dsimp only
    split
    case isTrue => exact Apart.refl p _
    case isFalse =>
      split
      case isTrue => exact apart_spawnTimed hup _ (nodup_timed F k p).2.1 _ _
      case isFalse => exact Apart.refl p _
  unfold spawnPoolGroup spawnObject
  split
  · exact Apart.refl p _
  · exact hfirst.trans (apart_spawnTimes hup _ _)

end

/-- A spawn changes nothing outside of its pool. -/
theorem apart_spawnPoolBelow (n p : Nat) (st : PoolState) :
    Apart F p st.data (F.spawnPoolBelow w n st p).data := by
  induction n generalizing p st with
  | zero => exact Apart.refl p _
  | succ n ih =>
    have hup : ApartBelow F (F.spawnPoolBelow w n) p := fun st c _ => ih c st
    exact ((apart_spawnPoolGroup hup 0 st).trans (apart_spawnPoolGroup hup 0 _)).trans
      (apart_spawnPoolGroup hup 0 _)

/-! ## The turns after the one that settles -/

variable {turns : Nat} {s : Spawning}

/-- A trigger that has been added again stays as it is. -/
theorem spawnTimes_readded (hk : k ≠ .pool) (hfrom : s.triggerFrom = 0) :
    let s' := F.spawnTimes w up k p trigger 0 isTriggerSpawned turns s
    s'.state.respawned = s.state.respawned ∧ Grows s.state.data s'.state.data := by
  induction turns generalizing s with
  | zero => exact ⟨rfl, fun _ _ h => h⟩
  | succ n ih =>
    have hone : ∀ s', Turn F w k p up trigger 0 isTriggerSpawned s s' → s'.triggerFrom = 0 ∧
        s'.state.respawned = s.state.respawned ∧ Grows s.state.data s'.state.data := by
      have hrolls : rollsFor 0 s = 0 := hfrom
      intro s' h
      cases h with
      | nothing hroll => exact ⟨hrolls, rfl, fun _ _ h => h⟩
      | skipped obj hroll hlast => exact ⟨hrolls, rfl, fun _ _ h => h⟩
      | readded obj hroll hlast htrigger hspawned =>
        rw [hrolls] at htrigger
        exact absurd htrigger (F.guid_ne k p obj.guid (rollOne_spec hroll).1).1
      | replaced obj hroll hlast hother hdispose => exact absurd hrolls hdispose.1
      | spawned obj hroll hlast hother hkeep =>
        refine ⟨?_, ?_, fun k' g' hs => ?_⟩
        · show (if rollsFor 0 s = obj.guid then 0 else rollsFor 0 s) = 0
          rw [hrolls, ite_self]
        · show (spawn1Object up k p obj.guid _).respawned = _
          cases k with
          | creature => rfl
          | gameobject => rfl
          | pool => exact absurd rfl hk
        · show SpawnedPoolData.isSpawnedObject (spawn1Object up k p obj.guid _).data k' g' = true
          rw [spawn1Object_data up hk]
          exact (SpawnedPoolData.isSpawnedObject_addSpawn ..).2 (.inl hs)
    obtain ⟨hfrom₁, hre₁, hgrows₁⟩ := hone _ (spawnOne_turn F w k p up trigger 0 isTriggerSpawned s)
    obtain ⟨hre, hgrows⟩ := ih hfrom₁
    exact ⟨hre.trans hre₁, hgrows₁.trans hgrows⟩

/-- The trigger has been despawned, and `g` is spawned. -/
structure Disposed (k : PoolKind) (trigger motherPool g : Nat) (s : Spawning) : Prop where
  last : s.lastDespawned = trigger
  gone : s.state.data.isSpawnedObject k trigger = false
  spawned : s.state.data.isSpawnedObject k g = true
  noTrigger : motherPool = 0 → s.triggerFrom = 0

/-- A roll never finds the mother, who is in no pool of her own. -/
theorem rollsFor_ne (hcall : Called F k p trigger motherPool) {obj : PoolObject} (hfrom : motherPool = 0 → s.triggerFrom = 0)
    (hobj : obj.guid ∈ (F.group k p).guids) : obj.guid ≠ rollsFor motherPool s := by
  intro heq
  unfold rollsFor at heq
  by_cases h0 : motherPool = 0
  · rw [if_neg (by simp [h0]), hfrom h0] at heq
    exact (F.guid_ne k p obj.guid hobj).1 heq
  · obtain ⟨rfl, rfl⟩ := hcall.mother h0
    rw [if_pos h0] at heq
    exact ne_of_child hobj heq

section Disposed

variable (hup : FillsBelow F up p) (hapart : ApartBelow F up p)
  (hcall : Called F k p trigger motherPool) (hmem : trigger ∈ (F.group k p).guids)

include hup hapart hcall hmem

/-- Once the trigger is replaced, the turns that follow leave both as they are. -/
theorem Disposed.turn (hturns : Turns F d k p trigger motherPool isTriggerSpawned (turns + 1) s)
    (hne : g ≠ trigger) (hg : g ∈ (F.group k p).guids) (h : Disposed k trigger motherPool g s) :
    Disposed k trigger motherPool g (F.spawnOne w up k p trigger motherPool isTriggerSpawned s) := by
  have hidle : motherPool = 0 → rollsFor motherPool s = 0 := fun h0 => by
    unfold rollsFor
    rw [if_neg (by simp [h0])]
    exact h.noTrigger h0
  have hspawn : ∀ {obj : PoolObject}, F.rollOne w s.state k p (rollsFor motherPool s) = some obj →
      obj.guid ≠ s.lastDespawned → let d' := (spawn1Object up k p obj.guid
        { s.state with rolls := s.state.rolls + 1 }).data
      Exact F d' ∧ d'.isSpawnedObject k trigger = false ∧ d'.isSpawnedObject k g = true := by
    intro obj hroll hlast
    obtain ⟨hobj, hnew⟩ := rollOne_spec hroll
    have hunspawned := hnew.resolve_left (rollsFor_ne hcall h.noTrigger hobj)
    obtain ⟨hw, hgrows, -⟩ := spawn1Object_spec hup { s.state with rolls := s.state.rolls + 1 } hobj
      hturns.within.exact hunspawned hturns.active
    refine ⟨hw.exact, ?_, hgrows k g h.spawned⟩
    refine (spawn1Object_sibling hapart hobj hmem ?_ _).trans h.gone
    rw [← h.last]
    exact hlast.symm
  have hturn := spawnOne_turn F w k p up trigger motherPool isTriggerSpawned s
  generalize F.spawnOne w up k p trigger motherPool isTriggerSpawned s = s' at hturn ⊢
  cases hturn with
  | nothing hroll => exact ⟨h.last, h.gone, h.spawned, hidle⟩
  | skipped obj hroll hlast => exact ⟨h.last, h.gone, h.spawned, hidle⟩
  -- the roll is not for the trigger any more, so it cannot come back
  | readded obj hroll hlast htrigger hspawned =>
    exact absurd htrigger (rollsFor_ne hcall h.noTrigger (rollOne_spec hroll).1)
  | replaced obj hroll hlast hother hdispose =>
    obtain ⟨hexact, hgone, hspawned⟩ := hspawn hroll hlast
    have hm : motherPool ≠ 0 := fun h0 => hdispose.1 (hidle h0)
    have hdisposed : (if motherPool ≠ 0 then trigger else rollsFor motherPool s) = trigger :=
      if_pos hm
    have htrigger0 : trigger ≠ 0 := (F.guid_ne k p trigger hmem).1
    refine ⟨hdisposed, ?_, ?_, fun _ => rfl⟩
    · dsimp only
      rw [hdisposed, Bool.eq_false_iff]
      intro hs
      have hback := (despawnObject_spec hexact k p trigger).gone k trigger hs
      rw [hgone] at hback
      cases hback
    · dsimp only
      rw [hdisposed, despawnObject_sibling hg hne htrigger0]
      exact hspawned
  | spawned obj hroll hlast hother hkeep =>
    obtain ⟨-, hgone, hspawned⟩ := hspawn hroll hlast
    refine ⟨h.last, hgone, hspawned, fun h0 => ?_⟩
    show (if rollsFor motherPool s = obj.guid then 0 else rollsFor motherPool s) = 0
    rw [hidle h0, ite_self]

/-- So do all of them. -/
theorem Disposed.run (hturns : Turns F d k p trigger motherPool isTriggerSpawned turns s)
    (hne : g ≠ trigger) (hg : g ∈ (F.group k p).guids) (h : Disposed k trigger motherPool g s) :
    Disposed k trigger motherPool g
      (F.spawnTimes w up k p trigger motherPool isTriggerSpawned turns s) := by
  induction turns generalizing s with
  | zero => exact h
  | succ n ih =>
    exact ih (spawnOne_turns hup hcall hturns) (h.turn hup hapart hcall hmem hturns hne hg)

end Disposed

/-! ## The turn that settles -/

/-- The trigger has been added to the map again. -/
def Readded (st st' : PoolState) (k : PoolKind) (guid : Nat) : Prop :=
  st'.respawned = (k, guid) :: st.respawned ∧ st'.data.isSpawnedObject k guid = true

/-- The trigger has been despawned, and another object is spawned in its place. -/
def Replaced (F : PoolForest) (st st' : PoolState) (k : PoolKind) (p guid : Nat) : Prop :=
  st'.data.isSpawnedObject k guid = false ∧ ∃ g ∈ (F.group k p).guids, g ≠ guid ∧
    st.data.isSpawnedObject k g = false ∧ st'.data.isSpawnedObject k g = true

/-- What the rolls of the turns are given before one of them settles -/
def triggerOf (motherPool trigger : Nat) : Nat := if motherPool ≠ 0 then motherPool else trigger

/-- Rolls that find nothing are all that happens. -/
theorem spawnTimes_idle (hrolls : rollsFor motherPool s = triggerOf motherPool trigger)
    (hnone : ∀ i < turns, ¬ Found F w s.state k p (triggerOf motherPool trigger) (s.state.rolls + i)) :
    (F.spawnTimes w up k p trigger motherPool isTriggerSpawned turns s).state =
      { s.state with rolls := s.state.rolls + turns } := by
  induction turns generalizing s with
  | zero => rfl
  | succ n ih =>
    have hroll : F.rollOne w s.state k p (rollsFor motherPool s) = none := by
      rw [← Option.not_isSome_iff_eq_none, rollOne_isSome, hrolls]
      exact hnone 0 (Nat.succ_pos n)
    have hone := spawnOne_turn F w k p up trigger motherPool isTriggerSpawned s
    have hs : F.spawnOne w up k p trigger motherPool isTriggerSpawned s = { s with
        state := { s.state with rolls := s.state.rolls + 1 }
        triggerFrom := rollsFor motherPool s } := by
      generalize F.spawnOne w up k p trigger motherPool isTriggerSpawned s = s' at hone ⊢
      cases hone with
      | nothing _ => rfl
      | skipped obj hsome hlast => exact absurd (hroll.symm.trans hsome) (by simp)
      | readded obj hsome hlast htrigger hspawned => exact absurd (hroll.symm.trans hsome) (by simp)
      | replaced obj hsome hlast hother hdispose => exact absurd (hroll.symm.trans hsome) (by simp)
      | spawned obj hsome hlast hother hkeep => exact absurd (hroll.symm.trans hsome) (by simp)
    unfold spawnTimes
    rw [hs, ih]
    · dsimp only
      congr 1
      omega
    · unfold rollsFor triggerOf at hrolls ⊢
      dsimp only
      rw [hrolls]
      split_ifs <;> rfl
    · intro i hi
      have hnext := hnone (i + 1) (Nat.succ_lt_succ hi)
      rw [Nat.add_comm i 1, ← Nat.add_assoc] at hnext
      exact hnext

/-- The first roll that finds something settles what becomes of the trigger. -/
theorem spawnTimes_settled (hup : FillsBelow F up p) (hapart : ApartBelow F up p)
    (hcall : Called F k p trigger motherPool) (hmem : trigger ∈ (F.group k p).guids)
    (hturns : Turns F d k p trigger motherPool true turns s) (hlast : s.lastDespawned = 0)
    (hrolls : rollsFor motherPool s = triggerOf motherPool trigger)
    (hspawned : s.state.data.isSpawnedObject k trigger = true)
    (hfound : ∃ i < turns, Found F w s.state k p (triggerOf motherPool trigger) (s.state.rolls + i)) :
    let st' := (F.spawnTimes w up k p trigger motherPool true turns s).state
    (motherPool = 0 ∧ Readded s.state st' k trigger) ∨ Replaced F s.state st' k p trigger := by
  have htrigger0 : trigger ≠ 0 := (F.guid_ne k p trigger hmem).1
  induction turns generalizing s with
  | zero =>
    obtain ⟨i, hi, -⟩ := hfound
    exact absurd hi (Nat.not_lt_zero i)
  | succ n ih =>
    have hnext := spawnOne_turns (w := w) hup hcall hturns
    have hone := spawnOne_turn F w k p up trigger motherPool true s
    unfold spawnTimes
    generalize F.spawnOne w up k p trigger motherPool true s = s' at hnext hone ⊢
    cases hone with
    | nothing hroll =>
      refine ih hnext hlast ?_ hspawned ?_
      · unfold rollsFor triggerOf at hrolls ⊢
        dsimp only
        rw [hrolls]
        split_ifs <;> rfl
      · obtain ⟨i, hi, hf⟩ := hfound
        cases i with
        | zero =>
          rw [hrolls, ← Option.not_isSome_iff_eq_none, rollOne_isSome] at hroll
          exact absurd hf hroll
        | succ i =>
          refine ⟨i, Nat.lt_of_succ_lt_succ hi, ?_⟩
          rw [Nat.add_comm i 1, ← Nat.add_assoc] at hf
          exact hf
    | skipped obj hroll hskip =>
      rw [hlast] at hskip
      exact absurd hskip (F.guid_ne k p obj.guid (rollOne_spec hroll).1).1
    | readded obj hroll _ htrigger _ =>
      have h0 : motherPool = 0 := by
        by_contra h0
        refine rollsFor_ne hcall (s := s) (fun h => absurd h h0) (rollOne_spec hroll).1 htrigger
      subst h0
      have hk : k ≠ .pool := hcall.noMother rfl
      have hguid : obj.guid = trigger := htrigger.trans hrolls
      obtain ⟨hre, hgrows⟩ := spawnTimes_readded (F := F) (w := w) (p := p) hk (s := { s with
        state := reSpawn1Object k obj.guid { s.state with rolls := s.state.rolls + 1 }
        triggerFrom := 0 }) rfl
      refine .inl ⟨rfl, hre.trans ?_, hgrows k trigger hspawned⟩
      rw [hguid]
      cases k with
      | creature => rfl
      | gameobject => rfl
      | pool => exact absurd rfl hk
    | replaced obj hroll hskip hother hdispose =>
      obtain ⟨hobj, hnew⟩ := rollOne_spec hroll
      have hunspawned : s.state.data.isSpawnedObject k obj.guid = false :=
        hnew.resolve_left fun h => hother ⟨h, rfl⟩
      have hne : obj.guid ≠ trigger := by
        intro h
        rw [h, hspawned] at hunspawned
        cases hunspawned
      have hdisposed : (if motherPool ≠ 0 then trigger else rollsFor motherPool s) = trigger := by
        rw [hrolls]
        unfold triggerOf
        split_ifs <;> rfl
      have hexact : Exact F (spawn1Object up k p obj.guid
          { s.state with rolls := s.state.rolls + 1 }).data :=
        (spawn1Object_spec hup { s.state with rolls := s.state.rolls + 1 } hobj hturns.within.exact
          hunspawned hturns.active).1.exact
      have hadded := spawn1Object_self hup hobj { s.state with rolls := s.state.rolls + 1 }
        hturns.within.exact hunspawned hturns.active
      have hd : Disposed k trigger motherPool obj.guid {
          state := { spawn1Object up k p obj.guid { s.state with rolls := s.state.rolls + 1 } with
            data := F.despawnObject k p (if motherPool ≠ 0 then trigger else rollsFor motherPool s)
              (spawn1Object up k p obj.guid { s.state with rolls := s.state.rolls + 1 }).data }
          triggerFrom := 0
          lastDespawned := if motherPool ≠ 0 then trigger else rollsFor motherPool s } := by
        rw [hdisposed]
        refine ⟨rfl, ?_, ?_, fun _ => rfl⟩
        · exact (despawnObjectWith_shrinks (empties_despawnPoolBelow p) k trigger hexact).2 trigger
            hmem (.inr rfl)
        · exact (despawnObject_sibling hobj hne htrigger0 _).trans hadded
      have hend := hd.run (w := w) hup hapart hcall hmem hnext hne hobj
      exact .inr ⟨hend.gone, obj.guid, hobj, hne, hunspawned, hend.spawned⟩
    | spawned obj hroll hskip hother hkeep =>
      refine absurd ⟨?_, rfl⟩ hkeep
      rw [hrolls]
      unfold triggerOf
      split_ifs with h0
      · exact h0
      · exact htrigger0

end Spawn

/-! ## `UpdatePool` -/

/-- How many turns `SpawnObject` takes for a trigger that is spawned: the places that are left, as an
`int`, and the one of the trigger -/
def respawnTurns (F : PoolForest) (d : SpawnedPoolData) (p : Nat) : Nat :=
  (((F.spawnCount p : Int) - d.getSpawnedObjects p).bmod 4294967296 + 1).toNat

theorem spawnPoolGroup_settled {up : PoolState → Nat → PoolState} {trigger motherPool : Nat}
    (hup : FillsBelow F up p) (hapart : ApartBelow F up p) (h : Limited F st.data)
    (hp : Active F st.data p) (hmem : trigger ∈ (F.group k p).guids)
    (hspawned : st.data.isSpawnedObject k trigger = true)
    (hmother : motherPool = if k = .pool then p else 0) :
    let st' := F.spawnPoolGroup w up k p trigger st
    let found := ∃ i < F.respawnTurns st.data p,
      Found F w st k p (triggerOf motherPool trigger) (st.rolls + i)
    (found → (motherPool = 0 ∧ Readded st st' k trigger) ∨ Replaced F st st' k p trigger) ∧
      (¬ found → st' = { st with rolls := st.rolls + F.respawnTurns st.data p }) := by
  obtain ⟨htrigger0, hp0⟩ := F.guid_ne k p trigger hmem
  have hcall : Called F k p trigger motherPool := by
    refine ⟨.inr hmem, fun h0 => ?_, fun h0 hk => ?_⟩
    · rw [hmother] at h0
      split_ifs at h0 with hk
      · exact ⟨hk, by rw [hmother, if_pos hk]⟩
      · exact absurd rfl h0
    · rw [hmother, if_pos hk] at h0
      exact hp0 h0
  have hgroup : (F.group k p).isEmpty = false := by
    rw [Bool.eq_false_iff]
    intro hempty
    unfold PoolGroup.isEmpty at hempty
    rw [Bool.and_eq_true, List.isEmpty_iff, List.isEmpty_iff] at hempty
    unfold PoolGroup.guids at hmem
    rw [hempty.1, hempty.2] at hmem
    cases hmem
  have hfirst : F.spawnFirst w up k p trigger st =
      (st, ((F.spawnCount p : Int) - st.data.getSpawnedObjects p).bmod 4294967296 + 1) := by
    unfold spawnFirst
    dsimp only
    rw [if_pos htrigger0, if_pos hspawned]
  have heq : F.spawnPoolGroup w up k p trigger st =
      (F.spawnTimes w up k p trigger motherPool true (F.respawnTurns st.data p)
        { state := st, triggerFrom := trigger }).state := by
    unfold spawnPoolGroup spawnObject
    rw [hgroup, if_neg (by simp), hfirst, hspawned, ← hmother]
    rfl
  have hturns : Turns F st.data k p trigger motherPool (st.data.isSpawnedObject k trigger)
      (F.spawnFirst w up k p trigger st).2.toNat
      { state := (F.spawnFirst w up k p trigger st).1, triggerFrom := trigger } :=
    spawnFirst_turns up h.exact hp (h.le p)
  rw [hfirst, hspawned] at hturns
  rw [heq]
  exact ⟨fun hfound => spawnTimes_settled hup hapart hcall hmem hturns rfl rfl hspawned hfound,
    fun hnone => spawnTimes_idle rfl fun i hi hf => hnone ⟨i, hi, hf⟩⟩

/-- The respawn has been done: the object is in the map again, or it has gone and another one is
spawned in its place. Where its pool is in a mother pool, the places are those of the mother. -/
def Settled (F : PoolForest) (st st' : PoolState) (k : PoolKind) (p guid : Nat) : Prop :=
  Readded st st' k guid ∨ st'.data.isSpawnedObject k guid = false ∧
    if F.mother p ≠ 0 then Replaced F st st' .pool (F.mother p) p else Replaced F st st' k p guid

/-- One of the rolls that `UpdatePool` makes finds something. The rolls in a mother pool are given
the mother, and not the pool of the object. -/
def RespawnFound (F : PoolForest) (w : PoolChance) (st : PoolState) (k : PoolKind) (p guid : Nat) :
    Prop :=
  if F.mother p ≠ 0 then
    ∃ i < F.respawnTurns st.data (F.mother p),
      Found F w st .pool (F.mother p) (F.mother p) (st.rolls + i)
  else ∃ i < F.respawnTurns st.data p, Found F w st k p guid (st.rolls + i)

variable {guid : Nat}

/-- A roll that finds an object settles the respawn; without one nothing changes. -/
theorem updatePool_settled (h : Limited F st.data) (hmem : guid ∈ (F.group k p).guids)
    (hspawned : st.data.isSpawnedObject k guid = true) (hk : k ≠ .pool) :
    (RespawnFound F w st k p guid → Settled F st (F.updatePool w k p guid st) k p guid) ∧
      (¬ RespawnFound F w st k p guid → (F.updatePool w k p guid st).data = st.data ∧
        (F.updatePool w k p guid st).respawned = st.respawned ∧
        (F.updatePool w k p guid st).exclude = st.exclude) := by
  have hapart : ∀ q, ApartBelow F (F.spawnPoolBelow w (F.rank q)) q :=
    fun q st c _ => apart_spawnPoolBelow (F.rank q) c st
  unfold updatePool RespawnFound Settled
  by_cases hm : F.mother p = 0
  · simp only [hm, ne_eq, not_true_eq_false, if_false]
    obtain ⟨hfound, hnone⟩ := spawnPoolGroup_settled (w := w)
      (fillsBelow_spawnPoolBelow p) (hapart p) h (.inl hm) hmem hspawned (if_neg hk).symm
    refine ⟨fun hf => (hfound hf).imp And.right fun hr => ⟨hr.1, hr⟩, fun hn => ?_⟩
    rw [hnone hn]
    exact ⟨rfl, rfl, rfl⟩
  · simp only [ne_eq, hm, not_false_eq_true, if_true]
    have hchild : p ∈ (F.group .pool (F.mother p)).guids := F.of_mother p hm
    have hpool : st.data.isSpawnedObject .pool p = true :=
      (h.exact.active_of_spawned hmem hspawned).2
    have hactive : Active F st.data (F.mother p) :=
      .inr (h.exact.active_of_spawned hchild hpool).2
    obtain ⟨hfound, hnone⟩ := spawnPoolGroup_settled (w := w)
      (fillsBelow_spawnPoolBelow (F.mother p)) (hapart (F.mother p)) h hactive hchild hpool
      (if_pos rfl).symm
    have htrigger : triggerOf (F.mother p) p = F.mother p := if_pos hm
    rw [htrigger] at hfound hnone
    refine ⟨fun hf => .inr ?_, fun hn => ?_⟩
    · have hr := (hfound hf).resolve_left fun h0 => hm h0.1
      have hexact := (spawnPoolGroup_spec (w := w) (fillsBelow_spawnPoolBelow (w := w) (F.mother p))
        (.inr hchild) h.exact hactive (h.le _)).1.exact
      refine ⟨?_, hr⟩
      -- What is spawned in the pool would make it a spawned one.
      rw [Bool.eq_false_iff]
      intro hs
      have hback := (hexact.active_of_spawned hmem hs).2
      rw [hr.1] at hback
      cases hback
    · rw [hnone hn]
      exact ⟨rfl, rfl, rfl⟩

/-- The respawn of an object that is spawned is done if and only if one of the rolls finds something.
Otherwise nothing has changed. -/
theorem updatePool_settled_iff (w : PoolChance) (h : Limited F st.data)
    (hmem : guid ∈ (F.group k p).guids) (hspawned : st.data.isSpawnedObject k guid = true)
    (hk : k ≠ .pool) :
    let st' := F.updatePool w k p guid st
    (Settled F st st' k p guid ↔ RespawnFound F w st k p guid) ∧
      (¬ Settled F st st' k p guid →
        st'.data = st.data ∧ st'.respawned = st.respawned ∧ st'.exclude = st.exclude) := by
  obtain ⟨hfound, hnone⟩ := updatePool_settled (w := w) h hmem hspawned hk
  refine ⟨⟨fun hs => ?_, hfound⟩, fun hs => hnone fun hf => hs (hfound hf)⟩
  by_contra hn
  obtain ⟨hdata, hrespawned, -⟩ := hnone hn
  obtain hre | hgone := hs
  · exact absurd (hrespawned.symm.trans hre.1) (cons_ne_self _ _).symm
  · rw [hdata, hspawned] at hgone
    exact absurd hgone.1 (by simp)

/-- In a pool that is in no pool, an equally chanced object that may be spawned is found itself. -/
theorem updatePool_settled_of_equal (w : PoolChance) (h : Limited F st.data) {obj : PoolObject}
    (hobj : obj ∈ (F.group k p).equalChanced) (hspawned : st.data.isSpawnedObject k obj.guid = true)
    (hk : k ≠ .pool) (hm : F.mother p = 0) (hexclude : st.exclude k p obj.guid = false)
    (hpop : obj.popOver = true → w.populated = true) (hsmall : F.spawnCount p < 2147483648) :
    Settled F st (F.updatePool w k p obj.guid st) k p obj.guid := by
  refine (updatePool_settled_iff w h (PoolGroup.mem_guids (.inl hobj)) hspawned hk).1.mpr ?_
  unfold RespawnFound
  rw [if_neg (by simp [hm])]
  refine ⟨0, ?_, .inr ⟨obj, hobj, hexclude, hpop, .inl rfl⟩⟩
  have hle := h.le p
  unfold respawnTurns Int.bmod
  dsimp only
  split <;> omega

/-! ## Two creatures for one place -/

theorem one_lt_maxSpawn (_ : Nat) : 1 < 4294967296 := by decide

def twins : PoolForest where
  group k p := if k = .creature ∧ p = 1 then { equalChanced := [{ guid := 10 }, { guid := 11 }] } else {}
  spawnCount _ := 1
  mother _ := 0
  rank _ := 0
  nodup k p := by split <;> simp [PoolGroup.guids]
  unique k p q g hp hq := by
    split at hp
    · split at hq
      · omega
      · cases hq
    · cases hp
  guid_ne k p g h := by
    split at h
    case isTrue hc =>
      simp only [PoolGroup.guids, append_nil, map_cons, map_nil, mem_cons,
        not_mem_nil, or_false] at h
      omega
    case isFalse => cases h
  mother_of p c h := by
    rw [if_neg (by simp)] at h
    cases h
  of_mother c h := absurd rfl h
  rank_lt p c h := by
    rw [if_neg (by simp)] at h
    cases h
  spawnCount_lt := one_lt_maxSpawn
  few k p := by split <;> simp [PoolGroup.guids]

/-- Creature 10 of the two is spawned and dies, and the roll finds creature 11. -/
theorem twins_settled :
    let st := run twins.step {} [.spawnPool {} 1]
    Settled twins st (twins.updatePool { urand := fun _ => 1 } .creature 1 10 st) .creature 1 10 := by
  intro st
  have hlimited : Limited twins (twins.step {} (.spawnPool {} 1)).data :=
    step_limited (limited_empty twins) (Or.inl rfl)
  refine (updatePool_settled_iff _ hlimited (by decide) (by decide) (by decide)).1.mpr ?_
  unfold RespawnFound
  rw [if_neg (by decide)]
  exact ⟨0, by decide, .inr ⟨{ guid := 11 }, by decide, by decide, by decide, .inr (by decide)⟩⟩

/-- Pool 3 is the only one in pool 2, so with pool 2 as what triggers, no roll finds anything. -/
theorem nested_not_settled : ¬ ∀ (F : PoolForest) (w : PoolChance) (st : PoolState) (k : PoolKind)
    (p guid : Nat), Limited F st.data → guid ∈ (F.group k p).guids →
    st.data.isSpawnedObject k guid = true → k ≠ .pool →
    Settled F st (F.updatePool w k p guid st) k p guid := by
  intro h
  have hlimited : Limited nested (nested.step {} (.spawnPool {} 1)).data :=
    step_limited (limited_empty nested) (Or.inl rfl)
  obtain ⟨hre, -⟩ | ⟨hgone, -⟩ := h nested {} _ .creature 3 10 hlimited (by decide) (by decide)
    (by decide)
  · revert hre
    decide +kernel
  · revert hgone
    decide +kernel

end PoolForest

end Windrunner
