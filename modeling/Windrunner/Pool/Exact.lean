import Windrunner.Pool.State

/-!
# The counters of the pools are exact

`Exact`: the counter of every pool is the number of its children that are marked as spawned. A child
may be added only to a pool that is itself spawned, or that is in no pool (`Active`): otherwise the
new counter of the pool marks it as spawned in its own mother, who does not count it.

What an operation on a pool does is said by `Within`: it keeps the counters exact, the limits of the
pools of lower rank, and does not touch the others. The recursion into sub-pools goes by the number
of pools one below the other (`despawnPoolBelow_spec`).
-/

namespace Windrunner

open Lib List

/-- Of two tests that differ at one element only, each counts it if it holds of it. -/
theorem countP_differ {l : List Nat} (hl : l.Nodup) {g : Nat} (hg : g ∈ l) (f f' : Nat → Bool)
    (h : ∀ x ∈ l, x ≠ g → f' x = f x) :
    l.countP f' + (f g).toNat = l.countP f + (f' g).toNat := by
  have hperm := perm_cons_erase hg
  rw [hperm.countP_eq, hperm.countP_eq, countP_cons, countP_cons]
  have hrest : (l.erase g).countP f' = (l.erase g).countP f := by
    refine countP_congr fun x hx => ?_
    obtain ⟨hne, hmem⟩ := (List.Nodup.mem_erase_iff hl).1 hx
    rw [h x hmem hne]
  rw [hrest]
  cases f g <;> cases f' g <;> simp

namespace SpawnedPoolData

variable {d : SpawnedPoolData}

theorem isSpawnedObject_mark (k : PoolKind) (g p n : Nat) (spawned : Bool) (k' : PoolKind) (g' : Nat) :
    ((d.setSpawned k g spawned).setCount p n).isSpawnedObject k' g' = true ↔
      (if k' = k ∧ g' = g then spawned = true else d.isSpawnedObject k' g' = true) ∨
        (k' = .pool ∧ g' = p) := by
  unfold setCount
  cases k' with
  | creature => cases k <;> simp [setSpawned, isSpawnedObject, Function.update_apply]
  | gameobject => cases k <;> simp [setSpawned, isSpawnedObject, Function.update_apply]
  | pool =>
    cases k <;> simp only [setSpawned, isSpawnedObject, Function.update_apply] <;> split <;>
      simp_all
    split <;> simp_all

/-- A spawn marks the object, and its pool by the count. -/
theorem isSpawnedObject_addSpawn (k : PoolKind) (g p : Nat) (k' : PoolKind) (g' : Nat) :
    (d.addSpawn k g p).isSpawnedObject k' g' = true ↔
      d.isSpawnedObject k' g' = true ∨ (k' = k ∧ g' = g) ∨ (k' = .pool ∧ g' = p) := by
  refine (isSpawnedObject_mark ..).trans ?_
  by_cases h : k' = k ∧ g' = g <;> simp [h]

/-- A despawn unmarks the object only. -/
theorem isSpawnedObject_removeSpawn (k : PoolKind) (g p : Nat) (k' : PoolKind) (g' : Nat) :
    (d.removeSpawn k g p).isSpawnedObject k' g' = true ↔
      (d.isSpawnedObject k' g' = true ∧ ¬ (k' = k ∧ g' = g)) ∨ (k' = .pool ∧ g' = p) := by
  refine (isSpawnedObject_mark ..).trans ?_
  by_cases h : k' = k ∧ g' = g <;> simp [h]

theorem pools_addSpawn {k : PoolKind} {g p x : Nat} (hx : ¬ (k = .pool ∧ x = g)) (hp : x ≠ p) :
    (d.addSpawn k g p).pools x = d.pools x := by
  unfold addSpawn setCount setSpawned
  cases k <;> simp_all

theorem pools_removeSpawn {k : PoolKind} {g p x : Nat} (hx : ¬ (k = .pool ∧ x = g))
    (hp : x ≠ p) : (d.removeSpawn k g p).pools x = d.pools x := by
  unfold removeSpawn setCount setSpawned
  cases k <;> simp_all

/-- A spawn counts one more. -/
theorem pools_addSpawn_self {k : PoolKind} {g p : Nat} (hg : k = .pool → g ≠ p) :
    (d.addSpawn k g p).pools p = some (d.getSpawnedObjects p + 1) := by
  unfold addSpawn setCount setSpawned getSpawnedObjects
  cases k with
  | creature => simp
  | gameobject => simp
  | pool => simp [Ne.symm (hg rfl)]

/-- A despawn counts one less. -/
theorem pools_removeSpawn_self {k : PoolKind} {g p : Nat} (hg : k = .pool → g ≠ p) :
    (d.removeSpawn k g p).pools p = some (d.getSpawnedObjects p - 1) := by
  unfold removeSpawn setCount setSpawned getSpawnedObjects
  cases k with
  | creature => simp
  | gameobject => simp
  | pool => simp [Ne.symm (hg rfl)]

theorem pools_addSpawn_child {g p : Nat} (hg : g ≠ p) :
    (d.addSpawn .pool g p).pools g = some 0 := by
  simp [addSpawn, setCount, setSpawned, hg]

theorem pools_removeSpawn_child {g p : Nat} (hg : g ≠ p) :
    (d.removeSpawn .pool g p).pools g = none := by
  simp [removeSpawn, setCount, setSpawned, hg]

end SpawnedPoolData

namespace PoolForest

variable {F : PoolForest} {d d' : SpawnedPoolData}

/-- The children of a pool that are marked as spawned -/
def spawnedChildren (F : PoolForest) (d : SpawnedPoolData) (p : Nat) : Nat :=
  (F.group .creature p).guids.countP (d.isSpawnedObject .creature) +
    (F.group .gameobject p).guids.countP (d.isSpawnedObject .gameobject) +
    (F.group .pool p).guids.countP (d.isSpawnedObject .pool)

/-- The pool is in no pool, or it is spawned. -/
def Active (F : PoolForest) (d : SpawnedPoolData) (p : Nat) : Prop :=
  F.mother p = 0 ∨ d.isSpawnedObject .pool p = true

structure Exact (F : PoolForest) (d : SpawnedPoolData) : Prop where
  count : ∀ p, d.getSpawnedObjects p = F.spawnedChildren d p
  zero : ∀ k, d.isSpawnedObject k 0 = false

variable {p g : Nat} {k : PoolKind}

theorem spawnedChildren_congr
    (h : ∀ k, ∀ g ∈ (F.group k p).guids, d'.isSpawnedObject k g = d.isSpawnedObject k g) :
    F.spawnedChildren d' p = F.spawnedChildren d p := by
  have hk : ∀ k, (F.group k p).guids.countP (d'.isSpawnedObject k) =
      (F.group k p).guids.countP (d.isSpawnedObject k) := fun k =>
    countP_congr fun g hg => by rw [h k g hg]
  unfold spawnedChildren
  rw [hk, hk, hk]

/-- Only one child changes. -/
theorem spawnedChildren_differ (hg : g ∈ (F.group k p).guids)
    (h : ∀ k', ∀ g' ∈ (F.group k' p).guids, ¬ (k' = k ∧ g' = g) →
      d'.isSpawnedObject k' g' = d.isSpawnedObject k' g') :
    F.spawnedChildren d' p + (d.isSpawnedObject k g).toNat =
      F.spawnedChildren d p + (d'.isSpawnedObject k g).toNat := by
  have hdiffer := countP_differ (F.nodup k p) hg (d.isSpawnedObject k)
    (d'.isSpawnedObject k) fun g' hg' hne => h k g' hg' fun h => hne h.2
  have hsame : ∀ k', k' ≠ k → (F.group k' p).guids.countP (d'.isSpawnedObject k') =
      (F.group k' p).guids.countP (d.isSpawnedObject k') := fun k' hk =>
    countP_congr fun g' hg' => by rw [h k' g' hg' fun h => hk h.1]
  unfold spawnedChildren
  cases k with
  | creature =>
    rw [hsame .gameobject (by simp), hsame .pool (by simp)]
    omega
  | gameobject =>
    rw [hsame .creature (by simp), hsame .pool (by simp)]
    omega
  | pool =>
    rw [hsame .creature (by simp), hsame .gameobject (by simp)]
    omega

/-- No pool is its own child. -/
theorem ne_of_child {c : Nat} (h : c ∈ (F.group .pool p).guids) : c ≠ p := by
  rintro rfl
  exact Nat.lt_irrefl _ (F.rank_lt c c h)

section

variable (h : Exact F d) (hg : g ∈ (F.group k p).guids)
include h hg

/-- A child that is spawned is in a pool that is. -/
theorem Exact.active_of_spawned (hs : d.isSpawnedObject k g = true) :
    0 < d.getSpawnedObjects p ∧ d.isSpawnedObject .pool p = true := by
  have hpos : 0 < d.getSpawnedObjects p := by
    rw [h.count p]
    have hcount : 0 < (F.group k p).guids.countP (d.isSpawnedObject k) :=
      countP_pos_iff.2 ⟨g, hg, hs⟩
    unfold spawnedChildren
    cases k <;> omega
  refine ⟨hpos, ?_⟩
  unfold SpawnedPoolData.getSpawnedObjects at hpos
  show (d.pools p).isSome = true
  cases hp : d.pools p with
  | none => simp [hp] at hpos
  | some n => rfl

/-- A child of an active pool is marked, and the counter of the pool follows. -/
theorem Exact.mark (hother : ∀ k' g', ¬ (k' = k ∧ g' = g) → (d'.isSpawnedObject k' g' = true ↔
      d.isSpawnedObject k' g' = true ∨ (k' = .pool ∧ g' = p)))
    (hcount : d'.getSpawnedObjects p + (d.isSpawnedObject k g).toNat =
      d.getSpawnedObjects p + (d'.isSpawnedObject k g).toNat)
    (hcounts : ∀ x, x ≠ p → d'.getSpawnedObjects x = d.getSpawnedObjects x)
    (hp : Active F d p) : Exact F d' := by
  obtain ⟨hg0, hp0⟩ := F.guid_ne k p g hg
  -- The counter of the pool is no news to its mother.
  have hsame : ∀ x k' g', g' ∈ (F.group k' x).guids → ¬ (k' = k ∧ g' = g) →
      d'.isSpawnedObject k' g' = d.isSpawnedObject k' g' := by
    intro x k' g' hg' hne
    rw [Bool.eq_iff_iff, hother k' g' hne]
    refine ⟨fun hs => ?_, Or.inl⟩
    rcases hs with hs | ⟨rfl, rfl⟩
    · exact hs
    · rcases hp with hm | hs
      · rw [F.mother_of x g' hg'] at hm
        exact absurd hm (F.guid_ne _ x g' hg').2
      · exact hs
  refine ⟨fun x => ?_, fun k' => ?_⟩
  · by_cases hx : x = p
    · subst hx
      have hchildren := spawnedChildren_differ hg (fun k' g' hg' => hsame x k' g' hg')
      rw [← h.count x] at hchildren
      omega
    · have hchildren : F.spawnedChildren d' x = F.spawnedChildren d x := by
        refine spawnedChildren_congr fun k' g' hg' => hsame x k' g' hg' ?_
        rintro ⟨rfl, rfl⟩
        exact hx (F.unique k' x p g' hg' hg)
      rw [hchildren, hcounts x hx, h.count x]
  · rw [Bool.eq_false_iff, ne_eq, hother k' 0 fun hk => hg0 hk.2.symm]
    rintro (hs | ⟨-, hs⟩)
    · rw [h.zero k'] at hs
      cases hs
    · exact hp0 hs.symm

/-- A child is added to an active pool. -/
theorem Exact.addSpawn
    (hnew : d.isSpawnedObject k g = false) (hp : Active F d p) : Exact F (d.addSpawn k g p) := by
  have hne : k = .pool → g ≠ p := by
    rintro rfl
    exact ne_of_child hg
  refine h.mark hg (fun k' g' hother => ?_) ?_ (fun x hx => ?_) hp
  · rw [SpawnedPoolData.isSpawnedObject_addSpawn, or_iff_right hother]
  · have hspawned : (d.addSpawn k g p).isSpawnedObject k g = true :=
      (SpawnedPoolData.isSpawnedObject_addSpawn ..).2 (Or.inr (Or.inl ⟨rfl, rfl⟩))
    rw [hnew, hspawned, SpawnedPoolData.getSpawnedObjects, SpawnedPoolData.pools_addSpawn_self hne]
    rfl
  · unfold SpawnedPoolData.getSpawnedObjects
    by_cases hxg : k = .pool ∧ x = g
    · obtain ⟨rfl, rfl⟩ := hxg
      have hnone : d.pools x = none := by
        simpa [SpawnedPoolData.isSpawnedObject] using hnew
      rw [SpawnedPoolData.pools_addSpawn_child hx, hnone]
      rfl
    · rw [SpawnedPoolData.pools_addSpawn hxg hx]

/-- A child is removed, a sub-pool when nothing of it is spawned any more. -/
theorem Exact.removeSpawn (hs : d.isSpawnedObject k g = true)
    (hempty : k = .pool → d.getSpawnedObjects g = 0) : Exact F (d.removeSpawn k g p) := by
  have hne : k = .pool → g ≠ p := by
    rintro rfl
    exact ne_of_child hg
  obtain ⟨hpos, hp⟩ := h.active_of_spawned hg hs
  refine h.mark hg (fun k' g' hother => ?_) ?_ (fun x hx => ?_) (.inr hp)
  · rw [SpawnedPoolData.isSpawnedObject_removeSpawn, and_iff_left hother]
  · have hgone : (d.removeSpawn k g p).isSpawnedObject k g = false := by
      rw [Bool.eq_false_iff, ne_eq, SpawnedPoolData.isSpawnedObject_removeSpawn]
      rintro (hs | ⟨rfl, rfl⟩)
      · exact hs.2 ⟨rfl, rfl⟩
      · exact hne rfl rfl
    rw [hs, hgone]
    unfold SpawnedPoolData.getSpawnedObjects at hpos ⊢
    rw [SpawnedPoolData.pools_removeSpawn_self hne]
    exact Nat.sub_add_cancel hpos
  · by_cases hxg : k = .pool ∧ x = g
    · obtain ⟨rfl, rfl⟩ := hxg
      rw [hempty rfl, SpawnedPoolData.getSpawnedObjects, SpawnedPoolData.pools_removeSpawn_child hx]
      rfl
    · unfold SpawnedPoolData.getSpawnedObjects
      rw [SpawnedPoolData.pools_removeSpawn hxg hx]

end

/-! ## What an operation on a pool does -/

/-- An operation on the pool `p` keeps the counters exact and the limits below `p`, and does not
touch the counters of other pools that are not below it. -/
structure Within (F : PoolForest) (p : Nat) (d d' : SpawnedPoolData) : Prop where
  exact : Exact F d'
  frame : ∀ x, F.rank p ≤ F.rank x → x ≠ p → d'.pools x = d.pools x
  bound : ∀ x, F.rank x < F.rank p → d.getSpawnedObjects x ≤ F.spawnCount x →
    d'.getSpawnedObjects x ≤ F.spawnCount x
  active : Active F d p → Active F d' p

theorem Within.refl (h : Exact F d) (p : Nat) : Within F p d d :=
  ⟨h, fun _ _ _ => rfl, fun _ _ hx => hx, fun hp => hp⟩

theorem Within.trans {d₁ d₂ d₃ : SpawnedPoolData} (h : Within F p d₁ d₂)
    (h' : Within F p d₂ d₃) : Within F p d₁ d₃ :=
  ⟨h'.exact, fun x hr hx => (h'.frame x hr hx).trans (h.frame x hr hx),
    fun x hr hx => h'.bound x hr (h.bound x hr hx), fun hp => h'.active (h.active hp)⟩

theorem getSpawnedObjects_congr {x : Nat} (h : d'.pools x = d.pools x) :
    d'.getSpawnedObjects x = d.getSpawnedObjects x := by
  unfold SpawnedPoolData.getSpawnedObjects
  rw [h]

theorem Active.congr {x : Nat} (h : d'.pools x = d.pools x) (hx : Active F d x) :
    Active F d' x := by
  refine hx.imp_right fun hs => ?_
  show (d'.pools x).isSome = true
  rw [h]
  exact hs

/-- An operation on a child -/
theorem Within.up {c : Nat} (h : Within F c d d') (hc : F.rank c < F.rank p)
    (hbound : d.getSpawnedObjects c ≤ F.spawnCount c → d'.getSpawnedObjects c ≤ F.spawnCount c) :
    Within F p d d' ∧ d'.pools p = d.pools p := by
  have hframe : ∀ x, F.rank p ≤ F.rank x → d'.pools x = d.pools x := by
    intro x hx
    refine h.frame x (by omega) ?_
    rintro rfl
    omega
  refine ⟨⟨h.exact, fun x hx _ => hframe x hx, fun x hx hb => ?_, fun hp => ?_⟩,
    hframe p (Nat.le_refl _)⟩
  · by_cases hxc : x = c
    · subst hxc
      exact hbound hb
    · by_cases hr : F.rank x < F.rank c
      · exact h.bound x hr hb
      · rw [getSpawnedObjects_congr (h.frame x (by omega) hxc)]
        exact hb
  · exact hp.congr (hframe p (Nat.le_refl _))

/-- Nothing new is spawned. -/
structure Shrinks (F : PoolForest) (p : Nat) (d d' : SpawnedPoolData) : Prop
    extends Within F p d d' where
  gone : ∀ k g, d'.isSpawnedObject k g = true → d.isSpawnedObject k g = true
  le : ∀ x, d'.getSpawnedObjects x ≤ d.getSpawnedObjects x

theorem Shrinks.refl (h : Exact F d) (p : Nat) : Shrinks F p d d :=
  ⟨Within.refl h p, fun _ _ hs => hs, fun _ => Nat.le_refl _⟩

theorem Shrinks.trans {d₁ d₂ d₃ : SpawnedPoolData} (h : Shrinks F p d₁ d₂)
    (h' : Shrinks F p d₂ d₃) : Shrinks F p d₁ d₃ :=
  ⟨h.toWithin.trans h'.toWithin, fun k g hs => h.gone k g (h'.gone k g hs),
    fun x => Nat.le_trans (h'.le x) (h.le x)⟩

theorem Shrinks.up {c : Nat} (h : Shrinks F c d d') (hc : F.rank c < F.rank p) :
    Shrinks F p d d' ∧ d'.pools p = d.pools p := by
  obtain ⟨hw, hp⟩ := h.toWithin.up hc fun hb => Nat.le_trans (h.le c) hb
  exact ⟨⟨hw, h.gone, h.le⟩, hp⟩

/-- Nothing that is spawned goes. -/
def Grows (d d' : SpawnedPoolData) : Prop :=
  ∀ k g, d.isSpawnedObject k g = true → d'.isSpawnedObject k g = true

theorem not_child_pool {x : Nat} (hg : g ∈ (F.group k p).guids)
    (hx : F.rank p ≤ F.rank x) : ¬ (k = .pool ∧ x = g) := by
  rintro ⟨rfl, rfl⟩
  have := F.rank_lt p x hg
  omega

/-- An object that was not spawned is counted where it is. -/
theorem within_addSpawn (h : Exact F d)
    (hg : g ∈ (F.group k p).guids) (hnew : d.isSpawnedObject k g = false) (hp : Active F d p) :
    Within F p d (d.addSpawn k g p) ∧ Grows d (d.addSpawn k g p) ∧
      (d.addSpawn k g p).getSpawnedObjects p = d.getSpawnedObjects p + 1 := by
  have hgrows : Grows d (d.addSpawn k g p) := fun k' g' hs =>
    (SpawnedPoolData.isSpawnedObject_addSpawn ..).2 (Or.inl hs)
  have hne : k = .pool → g ≠ p := by
    rintro rfl
    exact ne_of_child hg
  refine ⟨⟨h.addSpawn hg hnew hp, fun x hr hx => ?_, fun x hr hx => ?_, fun hp => ?_⟩, hgrows, ?_⟩
  · exact SpawnedPoolData.pools_addSpawn (not_child_pool hg hr) hx
  · have hxp : x ≠ p := by
      rintro rfl
      omega
    by_cases hxg : k = .pool ∧ x = g
    · obtain ⟨rfl, rfl⟩ := hxg
      unfold SpawnedPoolData.getSpawnedObjects
      rw [SpawnedPoolData.pools_addSpawn_child hxp]
      exact Nat.zero_le _
    · rw [getSpawnedObjects_congr (SpawnedPoolData.pools_addSpawn hxg hxp)]
      exact hx
  · exact hp.imp_right fun hs => hgrows _ _ hs
  · show ((d.addSpawn k g p).pools p).getD 0 = _
    rw [SpawnedPoolData.pools_addSpawn_self hne]
    rfl

/-- So is one that goes, if nothing is left in it. -/
theorem shrinks_removeSpawn (h : Exact F d)
    (hg : g ∈ (F.group k p).guids) (hs : d.isSpawnedObject k g = true)
    (hempty : k = .pool → d.getSpawnedObjects g = 0) :
    Shrinks F p d (d.removeSpawn k g p) ∧ (d.removeSpawn k g p).isSpawnedObject k g = false ∧
      (d.removeSpawn k g p).getSpawnedObjects p + 1 = d.getSpawnedObjects p := by
  have hne : k = .pool → g ≠ p := by
    rintro rfl
    exact ne_of_child hg
  obtain ⟨hpos, hp⟩ := h.active_of_spawned hg hs
  have hself : (d.removeSpawn k g p).getSpawnedObjects p = d.getSpawnedObjects p - 1 := by
    show ((d.removeSpawn k g p).pools p).getD 0 = _
    rw [SpawnedPoolData.pools_removeSpawn_self hne]
    rfl
  have hle : ∀ x, (d.removeSpawn k g p).getSpawnedObjects x ≤ d.getSpawnedObjects x := by
    intro x
    by_cases hxp : x = p
    · subst hxp
      omega
    by_cases hxg : k = .pool ∧ x = g
    · obtain ⟨rfl, rfl⟩ := hxg
      unfold SpawnedPoolData.getSpawnedObjects
      rw [SpawnedPoolData.pools_removeSpawn_child (hne rfl)]
      exact Nat.zero_le _
    · exact Nat.le_of_eq (getSpawnedObjects_congr (SpawnedPoolData.pools_removeSpawn hxg hxp))
  refine ⟨⟨⟨h.removeSpawn hg hs hempty, fun x hr hx => ?_, fun x _ hx => ?_, fun _ => ?_⟩,
    fun k' g' hs' => ?_, hle⟩, ?_, by omega⟩
  · exact SpawnedPoolData.pools_removeSpawn (not_child_pool hg hr) hx
  · exact Nat.le_trans (hle x) hx
  · refine Or.inr ((SpawnedPoolData.isSpawnedObject_removeSpawn ..).2 (Or.inr ⟨rfl, rfl⟩))
  · rcases (SpawnedPoolData.isSpawnedObject_removeSpawn ..).1 hs' with hs' | ⟨rfl, rfl⟩
    · exact hs'.1
    · exact hp
  · rw [Bool.eq_false_iff, ne_eq, SpawnedPoolData.isSpawnedObject_removeSpawn]
    rintro (hs | ⟨rfl, rfl⟩)
    · exact hs.2 ⟨rfl, rfl⟩
    · exact hne rfl rfl

/-! ## Despawning -/

/-- What `Despawn1Object` must do with a sub-pool: nothing of it is spawned any more. -/
def Empties (F : PoolForest) (down : SpawnedPoolData → Nat → SpawnedPoolData) (p : Nat) : Prop :=
  ∀ d c, c ∈ (F.group .pool p).guids → Exact F d →
    Shrinks F c d (down d c) ∧ (down d c).getSpawnedObjects c = 0

variable {down : SpawnedPoolData → Nat → SpawnedPoolData} {p : Nat}

theorem despawn1Object_shrinks (hdown : Empties F down p)
    (hg : g ∈ (F.group k p).guids) (h : Exact F d) :
    Shrinks F p d (despawn1Object down k d g) ∧
      (despawn1Object down k d g).pools p = d.pools p ∧
      (despawn1Object down k d g).isSpawnedObject k g = d.isSpawnedObject k g ∧
      (k = .pool → (despawn1Object down k d g).getSpawnedObjects g = 0) := by
  cases k with
  | creature => exact ⟨Shrinks.refl h p, rfl, rfl, fun h => by cases h⟩
  | gameobject => exact ⟨Shrinks.refl h p, rfl, rfl, fun h => by cases h⟩
  | pool =>
    obtain ⟨hs, h0⟩ := hdown d g hg h
    obtain ⟨hup, hp⟩ := hs.up (F.rank_lt p g hg)
    refine ⟨hup, hp, ?_, fun _ => h0⟩
    rw [Bool.eq_iff_iff]
    refine ⟨hs.gone _ _, fun hspawned => ?_⟩
    rcases hs.active (Or.inr hspawned) with hm | hs'
    · rw [F.mother_of p g hg] at hm
      exact absurd hm (F.guid_ne _ p g hg).2
    · exact hs'

/-- The loop of `DespawnObject` takes away what it is asked to. -/
theorem despawnObjectWith_shrinks (hdown : Empties F down p) (k : PoolKind) (guid : Nat)
    (h : Exact F d) :
    Shrinks F p d (F.despawnObjectWith down k p guid d) ∧
      ∀ g ∈ (F.group k p).guids, guid = 0 ∨ g = guid →
        (F.despawnObjectWith down k p guid d).isSpawnedObject k g = false := by
  unfold despawnObjectWith
  have hall : ∀ (l : List Nat), (∀ g ∈ l, g ∈ (F.group k p).guids) → ∀ d, Exact F d →
      Shrinks F p d (l.foldl (fun d g =>
        if d.isSpawnedObject k g ∧ (guid = 0 ∨ g = guid) then
          (despawn1Object down k d g).removeSpawn k g p else d) d) ∧
      ∀ g ∈ l, guid = 0 ∨ g = guid → (l.foldl (fun d g =>
        if d.isSpawnedObject k g ∧ (guid = 0 ∨ g = guid) then
          (despawn1Object down k d g).removeSpawn k g p else d) d).isSpawnedObject k g = false := by
    intro l hl
    induction l with
    | nil => exact fun d h => ⟨Shrinks.refl h p, nofun⟩
    | cons g l ih =>
      intro d h
      rw [foldl_cons]
      have hone : ∃ d₁, d₁ = (if d.isSpawnedObject k g ∧ (guid = 0 ∨ g = guid) then
          (despawn1Object down k d g).removeSpawn k g p else d) ∧ Shrinks F p d d₁ ∧
          (guid = 0 ∨ g = guid → d₁.isSpawnedObject k g = false) := by
        refine ⟨_, rfl, ?_⟩
        split
        case isTrue hc =>
          obtain ⟨hs, -, hsame, h0⟩ := despawn1Object_shrinks hdown (hl g mem_cons_self) h
          obtain ⟨hr, hgone, -⟩ := shrinks_removeSpawn hs.exact (hl g mem_cons_self)
            (hsame.trans hc.1) h0
          exact ⟨hs.trans hr, fun _ => hgone⟩
        case isFalse hc =>
          refine ⟨Shrinks.refl h p, fun hg => ?_⟩
          rw [Bool.eq_false_iff]
          exact fun hs => hc ⟨hs, hg⟩
      obtain ⟨d₁, hd₁, hs₁, hgone₁⟩ := hone
      rw [← hd₁]
      obtain ⟨hs, hgone⟩ := ih (fun g' hg' => hl g' (mem_cons_of_mem _ hg')) d₁ hs₁.exact
      refine ⟨hs₁.trans hs, fun g' hg' hsel => ?_⟩
      rcases mem_cons.1 hg' with rfl | hg'
      · rw [Bool.eq_false_iff]
        intro hspawned
        have hback := hs.gone _ _ hspawned
        rw [hgone₁ hsel] at hback
        cases hback
      · exact hgone g' hg' hsel
  exact hall _ (fun g hg => hg) d h

/-- `DespawnPool` leaves nothing of the pool spawned. -/
theorem despawnPoolBelow_spec (n : Nat) (p : Nat) (hn : F.rank p < n) (d : SpawnedPoolData)
    (h : Exact F d) :
    Shrinks F p d (F.despawnPoolBelow n d p) ∧
      (F.despawnPoolBelow n d p).getSpawnedObjects p = 0 := by
  induction n generalizing p d with
  | zero => omega
  | succ n ih =>
    have hdown : Empties F (F.despawnPoolBelow n) p := fun d c hc h => by
      have hlt := F.rank_lt p c hc
      exact ih c (by omega) d h
    obtain ⟨h₁, g₁⟩ := despawnObjectWith_shrinks hdown .creature 0 h
    obtain ⟨h₂, g₂⟩ := despawnObjectWith_shrinks hdown .gameobject 0 h₁.exact
    obtain ⟨h₃, g₃⟩ := despawnObjectWith_shrinks hdown .pool 0 h₂.exact
    refine ⟨(h₁.trans h₂).trans h₃, ?_⟩
    show SpawnedPoolData.getSpawnedObjects (F.despawnObjectWith (F.despawnPoolBelow n) .pool p 0
      (F.despawnObjectWith (F.despawnPoolBelow n) .gameobject p 0
        (F.despawnObjectWith (F.despawnPoolBelow n) .creature p 0 d))) p = 0
    rw [h₃.exact.count p]
    have hzero : ∀ {l : List Nat} {f : Nat → Bool}, (∀ g ∈ l, f g = false) → l.countP f = 0 := by
      intro l f hf
      rw [countP_eq_zero]
      intro g hg
      rw [hf g hg]
      simp
    have hback : ∀ {b c : Bool}, (b = true → c = true) → c = false → b = false := by
      intro b c h hc
      cases b
      · rfl
      · rw [h rfl] at hc
        cases hc
    unfold spawnedChildren
    rw [hzero fun g hg => hback (h₃.gone _ _) (hback (h₂.gone _ _) (g₁ g hg (Or.inl rfl))),
      hzero fun g hg => hback (h₃.gone _ _) (g₂ g hg (Or.inl rfl)),
      hzero fun g hg => g₃ g hg (Or.inl rfl)]

theorem empties_despawnPoolBelow (p : Nat) : Empties F (F.despawnPoolBelow (F.rank p)) p :=
  fun d c hc h => despawnPoolBelow_spec _ c (F.rank_lt p c hc) d h

/-- A despawn only takes away, and leaves the counts right. -/
theorem despawnObject_spec (h : Exact F d) (k : PoolKind) (p guid : Nat) :
    Shrinks F p d (F.despawnObject k p guid d) :=
  (despawnObjectWith_shrinks (empties_despawnPoolBelow p) k guid h).1

/-- A child that was spawned no longer counts. -/
theorem despawnObject_lt (h : Exact F d) {guid : Nat}
    (hg : guid ∈ (F.group k p).guids) (hs : d.isSpawnedObject k guid = true) :
    (F.despawnObject k p guid d).getSpawnedObjects p + 1 ≤ d.getSpawnedObjects p := by
  obtain ⟨hshrinks, hgone⟩ := despawnObjectWith_shrinks (empties_despawnPoolBelow p) k guid h
  have hout := hgone guid hg (Or.inr rfl)
  have hle : ∀ k', (F.group k' p).guids.countP ((F.despawnObject k p guid d).isSpawnedObject k') ≤
      (F.group k' p).guids.countP (d.isSpawnedObject k') := fun k' =>
    countP_mono_left fun g _ => hshrinks.gone k' g
  -- Between the two tests is the one that only leaves out `guid`.
  have hlt : (F.group k p).guids.countP ((F.despawnObject k p guid d).isSpawnedObject k) + 1 ≤
      (F.group k p).guids.countP (d.isSpawnedObject k) := by
    have hdiffer := countP_differ (F.nodup k p) hg (d.isSpawnedObject k)
      (fun g => if g = guid then false else d.isSpawnedObject k g)
      fun x _ hx => if_neg hx
    have hmono : (F.group k p).guids.countP ((F.despawnObject k p guid d).isSpawnedObject k) ≤
        (F.group k p).guids.countP fun g => if g = guid then false else d.isSpawnedObject k g := by
      refine countP_mono_left fun g _ hspawned => ?_
      have hne : g ≠ guid := by
        rintro rfl
        exact absurd (hspawned.symm.trans hout) (by simp)
      rw [if_neg hne]
      exact hshrinks.gone k g hspawned
    rw [hs, if_pos rfl] at hdiffer
    simp only [Bool.toNat_true, Bool.toNat_false] at hdiffer
    omega
  have hcount : (F.despawnObject k p guid d).getSpawnedObjects p =
      F.spawnedChildren (F.despawnObject k p guid d) p := hshrinks.exact.count p
  rw [hcount, h.count p]
  have hc := hle .creature
  have hgo := hle .gameobject
  have hp := hle .pool
  unfold spawnedChildren
  cases k <;> omega

end PoolForest

end Windrunner
