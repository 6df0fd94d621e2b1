import Windrunner.Pool.Exact

/-!
# The limits of the pools are kept

`SpawnObject` works off a number of turns. As long as the object that has triggered it is spawned and
has not been disposed of, the pool may have one turn more than places; `Turns` says so for the turns
that are left. The recursion into sub-pools goes again by the number of pools one below the other
(`spawnPoolBelow_spec`).
-/

namespace Windrunner

open Lib List

namespace PoolForest

variable {F : PoolForest} {w : PoolChance}

/-! ## Rolling -/

theorem rollExplicitlyChanced_spec {can : PoolObject → Bool} {roll : Rat} {l : List PoolObject}
    {obj : PoolObject} (h : rollExplicitlyChanced can roll l = some obj) :
    obj ∈ l ∧ can obj = true := by
  induction l generalizing roll with
  | nil => cases h
  | cons x l ih =>
    unfold rollExplicitlyChanced at h
    split at h
    case isTrue hx =>
      cases h
      exact ⟨mem_cons_self, hx.2⟩
    case isFalse =>
      obtain ⟨hmem, hcan⟩ := ih h
      exact ⟨mem_cons_of_mem _ hmem, hcan⟩

theorem rollEqualChanced_spec {can : PoolObject → Bool} {urand : Nat} {l : List PoolObject}
    {obj : PoolObject} (h : rollEqualChanced can urand l = some obj) :
    obj ∈ l ∧ can obj = true :=
  mem_filter.1 (mem_of_getElem? h)

theorem PoolGroup.mem_guids {group : PoolGroup} {obj : PoolObject}
    (h : obj ∈ group.equalChanced ∨ obj ∈ group.explicitlyChanced) : obj.guid ∈ group.guids :=
  mem_map_of_mem (mem_append.2 h)

/-- A roll finds an object of the group that is the trigger or not spawned. -/
theorem rollOne_spec {st : PoolState} {k : PoolKind} {p triggerFrom : Nat} {obj : PoolObject}
    (h : F.rollOne w st k p triggerFrom = some obj) :
    obj.guid ∈ (F.group k p).guids ∧
      (obj.guid = triggerFrom ∨ st.data.isSpawnedObject k obj.guid = false) := by
  unfold rollOne at h
  simp only at h
  split at h
  case h_1 obj' hroll =>
    cases h
    obtain ⟨hmem, hcan⟩ := rollExplicitlyChanced_spec hroll
    refine ⟨PoolGroup.mem_guids (Or.inr hmem), ?_⟩
    simpa using (Bool.and_eq_true_iff.1 hcan).2
  case h_2 =>
    obtain ⟨hmem, hcan⟩ := rollEqualChanced_spec h
    refine ⟨PoolGroup.mem_guids (Or.inl hmem), ?_⟩
    simpa using (Bool.and_eq_true_iff.1 hcan).2

/-! ## Spawning one object -/

theorem Grows.trans {d₁ d₂ d₃ : SpawnedPoolData} (h : Grows d₁ d₂) (h' : Grows d₂ d₃) :
    Grows d₁ d₃ :=
  fun k g hs => h' k g (h k g hs)

/-- What an operation that spawns the pool `p` does -/
structure Fills (F : PoolForest) (p : Nat) (d d' : SpawnedPoolData) : Prop
    extends Within F p d d' where
  grows : Grows d d'
  le : d'.getSpawnedObjects p ≤ F.spawnCount p

theorem Fills.trans {p : Nat} {d₁ d₂ d₃ : SpawnedPoolData} (h : Fills F p d₁ d₂)
    (h' : Fills F p d₂ d₃) : Fills F p d₁ d₃ :=
  ⟨h.toWithin.trans h'.toWithin, h.grows.trans h'.grows, h'.le⟩

/-- What `Spawn1Object` must do with a sub-pool -/
def FillsBelow (F : PoolForest) (up : PoolState → Nat → PoolState) (p : Nat) : Prop :=
  ∀ st c, c ∈ (F.group .pool p).guids → Exact F st.data → Active F st.data c →
    st.data.getSpawnedObjects c ≤ F.spawnCount c → Fills F c st.data (up st c).data

variable {up : PoolState → Nat → PoolState} {p : Nat}

variable (up) in
theorem spawn1Object_data {k : PoolKind} (hk : k ≠ .pool) (g : Nat) (st : PoolState) :
    (spawn1Object up k p g st).data = st.data.addSpawn k g p := by
  cases k with
  | creature => rfl
  | gameobject => rfl
  | pool => exact absurd rfl hk

/-- A sub-pool is spawned as soon as it is marked. -/
theorem fills_subPool (hup : FillsBelow F up p) {c : Nat} (st : PoolState)
    (hc : c ∈ (F.group .pool p).guids) (h : Exact F st.data)
    (hnew : st.data.isSpawnedObject .pool c = false) (hp : Active F st.data p) :
    Fills F c (st.data.addSpawn .pool c p)
      (up { st with data := st.data.addSpawn .pool c p } c).data := by
  have hne := ne_of_child hc
  have hzero : (st.data.addSpawn .pool c p).getSpawnedObjects c = 0 := by
    unfold SpawnedPoolData.getSpawnedObjects
    rw [SpawnedPoolData.pools_addSpawn_child hne]
    rfl
  have hactive : Active F (st.data.addSpawn .pool c p) c := by
    refine Or.inr ?_
    show ((st.data.addSpawn .pool c p).pools c).isSome = true
    rw [SpawnedPoolData.pools_addSpawn_child hne]
    rfl
  exact hup { st with data := st.data.addSpawn .pool c p } c hc (h.addSpawn hc hnew hp) hactive
    (by rw [hzero]; exact Nat.zero_le _)

/-- One spawn adds one to its pool and fills what is below. -/
theorem spawn1Object_spec (hup : FillsBelow F up p) {k : PoolKind} {g : Nat} (st : PoolState)
    (hg : g ∈ (F.group k p).guids) (h : Exact F st.data)
    (hnew : st.data.isSpawnedObject k g = false) (hp : Active F st.data p) :
    Within F p st.data (spawn1Object up k p g st).data ∧
      Grows st.data (spawn1Object up k p g st).data ∧
      (spawn1Object up k p g st).data.getSpawnedObjects p = st.data.getSpawnedObjects p + 1 := by
  have hadd := within_addSpawn h hg hnew hp
  cases k with
  | creature => exact hadd
  | gameobject => exact hadd
  | pool =>
    obtain ⟨hw, hgrows, hcount⟩ := hadd
    have hfills := fills_subPool hup st hg h hnew hp
    obtain ⟨hw', hsame⟩ := hfills.toWithin.up (F.rank_lt p g hg) fun _ => hfills.le
    refine ⟨hw.trans hw', hgrows.trans hfills.grows, ?_⟩
    exact (getSpawnedObjects_congr hsame).trans hcount

/-! ## The loop of `SpawnObject` -/

/-- How `SpawnObject` is called -/
structure Called (F : PoolForest) (k : PoolKind) (p trigger motherPool : Nat) : Prop where
  trigger : trigger = 0 ∨ trigger ∈ (F.group k p).guids
  mother : motherPool ≠ 0 → k = .pool ∧ motherPool = p
  noMother : motherPool = 0 → k ≠ .pool

/-- Where the loop of `SpawnObject` is, with `turns` to come. The trigger that is spawned holds a
place for the turn which disposes of it. -/
structure Turns (F : PoolForest) (d : SpawnedPoolData) (k : PoolKind) (p trigger motherPool : Nat)
    (isTriggerSpawned : Bool) (turns : Nat) (s : Spawning) : Prop where
  within : Within F p d s.state.data
  active : Active F s.state.data p
  le : s.state.data.getSpawnedObjects p ≤ F.spawnCount p
  left : s.state.data.getSpawnedObjects p + turns ≤ F.spawnCount p ∨
    (isTriggerSpawned = true ∧ s.state.data.isSpawnedObject k trigger = true ∧
      (motherPool = 0 → s.triggerFrom = trigger) ∧
      s.state.data.getSpawnedObjects p + turns ≤ F.spawnCount p + 1)
  grows : isTriggerSpawned = false → Grows d s.state.data
  trigger : motherPool = 0 → s.triggerFrom = 0 ∨
    (s.triggerFrom = trigger ∧ s.state.data.isSpawnedObject k trigger = isTriggerSpawned)

variable {d : SpawnedPoolData} {k : PoolKind} {trigger motherPool turns : Nat}
  {isTriggerSpawned : Bool} {s : Spawning}

/-- Nothing is spawned in a turn. -/
theorem Turns.idle (h : Turns F d k p trigger motherPool isTriggerSpawned (turns + 1) s)
    {st : PoolState} (hst : st.data = s.state.data) :
    Turns F d k p trigger motherPool isTriggerSpawned turns
      { s with state := st
               triggerFrom := if motherPool ≠ 0 then motherPool else s.triggerFrom } := by
  have hfrom : motherPool = 0 →
      (if motherPool ≠ 0 then motherPool else s.triggerFrom) = s.triggerFrom := fun h0 =>
    if_neg (by simp [h0])
  refine ⟨?_, ?_, ?_, ?_, ?_, ?_⟩ <;> simp only [hst]
  · exact h.within
  · exact h.active
  · exact h.le
  · rcases h.left with hleft | ⟨h₁, h₂, h₃, h₄⟩
    · exact Or.inl (by omega)
    · exact Or.inr ⟨h₁, h₂, fun h0 => (hfrom h0).trans (h₃ h0), by omega⟩
  · exact h.grows
  · intro h0
    rw [hfrom h0]
    exact h.trigger h0

/-- The trigger has been disposed of, or stays as it is. -/
theorem Turns.settled {st : PoolState} {last : Nat} (hw : Within F p d st.data)
    (hp : Active F st.data p) (hle : st.data.getSpawnedObjects p + turns ≤ F.spawnCount p)
    (hgrows : isTriggerSpawned = false → Grows d st.data) :
    Turns F d k p trigger motherPool isTriggerSpawned turns
      { state := st, triggerFrom := 0, lastDespawned := last } :=
  ⟨hw, hp, Nat.le_trans (Nat.le_add_right _ _) hle, Or.inl hle, hgrows, fun _ => Or.inl rfl⟩

/-- A turn keeps the count within the limit, with the trigger's place at most. -/
theorem spawnOne_turns (hup : FillsBelow F up p) (hcall : Called F k p trigger motherPool)
    (h : Turns F d k p trigger motherPool isTriggerSpawned (turns + 1) s) :
    Turns F d k p trigger motherPool isTriggerSpawned turns
      (F.spawnOne w up k p trigger motherPool isTriggerSpawned s) := by
  unfold spawnOne
  simp only
  set triggerFrom := if motherPool ≠ 0 then motherPool else s.triggerFrom with hfrom
  split
  case h_1 => exact h.idle rfl
  case h_2 obj hroll =>
    obtain ⟨hobj, hnew⟩ := rollOne_spec hroll
    obtain ⟨hobj0, -⟩ := F.guid_ne k p obj.guid hobj
    -- The object that triggers is in no sub-pool's place: a mother is not in itself.
    have hmother : motherPool ≠ 0 → obj.guid ≠ triggerFrom := by
      intro h0 heq
      obtain ⟨rfl, rfl⟩ := hcall.mother h0
      rw [hfrom, if_pos h0] at heq
      exact ne_of_child hobj heq
    have hnoMother : motherPool = 0 → triggerFrom = s.triggerFrom := fun h0 =>
      if_neg (by simp [h0])
    split
    case isTrue => exact h.idle rfl
    case isFalse =>
      split
      case isTrue hre =>
        refine Turns.settled h.within h.active ?_ h.grows
        rcases h.left with hleft | ⟨-, -, -, hleft⟩
        · show s.state.data.getSpawnedObjects p + turns ≤ _
          omega
        · show s.state.data.getSpawnedObjects p + turns ≤ _
          omega
      case isFalse hre =>
        have hunspawned : s.state.data.isSpawnedObject k obj.guid = false := by
          rcases hnew with heq | hnew
          · have h0 : motherPool = 0 := Classical.byContradiction fun h0 => hmother h0 heq
            rcases h.trigger h0 with ht | ⟨ht, hs⟩
            · rw [← hnoMother h0, ← heq] at ht
              exact absurd ht hobj0
            · rw [heq, hnoMother h0, ht, hs, Bool.eq_false_iff]
              exact fun hspawned => hre ⟨heq, hspawned⟩
          · exact hnew
        obtain ⟨hw, hgrows, hcount⟩ := spawn1Object_spec hup { s.state with
          rolls := s.state.rolls + 1 } hobj h.within.exact hunspawned h.active
        have hactive := hw.active h.active
        split
        case isTrue hdispose =>
          -- One is spawned, and the trigger is disposed of.
          set d' := (spawn1Object up k p obj.guid { s.state with rolls := s.state.rolls + 1 }).data
            with hd'
          have hshrinks : ∀ guid, Shrinks F p d' (F.despawnObject k p guid d') := fun guid =>
            despawnObject_spec hw.exact k p guid
          refine Turns.settled (h.within.trans (hw.trans (hshrinks _).toWithin))
            ((hshrinks _).active hactive) ?_ fun hf => ?_
          · set disposed := if motherPool ≠ 0 then trigger else triggerFrom with hdisposed
            show (F.despawnObject k p disposed d').getSpawnedObjects p + turns ≤ _
            have hle := (hshrinks disposed).le p
            have hcount' : d'.getSpawnedObjects p = s.state.data.getSpawnedObjects p + 1 := hcount
            rcases h.left with hleft | ⟨-, hspawned, htrigger, hleft⟩
            · omega
            · have heq : disposed = trigger := by
                rw [hdisposed]
                split
                case isTrue => rfl
                case isFalse h0 =>
                  have h0 : motherPool = 0 := Classical.byContradiction h0
                  exact (hnoMother h0).trans (htrigger h0)
              have hmem : trigger ∈ (F.group k p).guids := by
                rcases hcall.trigger with h0 | hmem
                · rw [h0, h.within.exact.zero k] at hspawned
                  cases hspawned
                · exact hmem
              have hlt := despawnObject_lt hw.exact hmem (hgrows k trigger hspawned)
              rw [heq]
              change (F.despawnObject k p trigger d').getSpawnedObjects p + 1 ≤
                d'.getSpawnedObjects p at hlt
              omega
          · rw [hdispose.2] at hf
            cases hf
        case isFalse hkeep =>
          have hleft : s.state.data.getSpawnedObjects p + (turns + 1) ≤ F.spawnCount p := by
            rcases h.left with hleft | ⟨ht, hspawned, htrigger, -⟩
            · exact hleft
            · refine absurd ⟨fun h0 => ?_, ht⟩ hkeep
              by_cases hm : motherPool = 0
              · rw [← htrigger hm, ← hnoMother hm, h0, h.within.exact.zero k] at hspawned
                cases hspawned
              · rw [hfrom, if_pos hm] at h0
                exact hm h0
          refine ⟨h.within.trans hw, hactive, ?_, Or.inl ?_, fun hf => (h.grows hf).trans hgrows,
            fun h0 => ?_⟩
          · show SpawnedPoolData.getSpawnedObjects _ p ≤ _
            rw [hcount]
            show s.state.data.getSpawnedObjects p + 1 ≤ _
            omega
          · show SpawnedPoolData.getSpawnedObjects _ p + turns ≤ _
            rw [hcount]
            show s.state.data.getSpawnedObjects p + 1 + turns ≤ _
            omega
          · show (if triggerFrom = obj.guid then 0 else triggerFrom) = 0 ∨ _
            split
            case isTrue => exact Or.inl rfl
            case isFalse hne =>
              rcases h.trigger h0 with ht | ⟨ht, hs⟩
              · exact Or.inl ((hnoMother h0).trans ht)
              · refine Or.inr ⟨(hnoMother h0).trans ht, ?_⟩
                have hk := hcall.noMother h0
                show SpawnedPoolData.isSpawnedObject _ k trigger = isTriggerSpawned
                rw [spawn1Object_data up hk, ← hs, Bool.eq_iff_iff,
                  SpawnedPoolData.isSpawnedObject_addSpawn]
                refine ⟨fun hs => ?_, Or.inl⟩
                rcases hs with hs | ⟨-, hs⟩ | ⟨hs, -⟩
                · exact hs
                · exact absurd ((hnoMother h0).trans (ht.trans hs)) hne
                · exact absurd hs hk

/-- After the last turn no place is held any more. -/
theorem spawnTimes_turns (hup : FillsBelow F up p) (hcall : Called F k p trigger motherPool)
    (h : Turns F d k p trigger motherPool isTriggerSpawned turns s) :
    Turns F d k p trigger motherPool isTriggerSpawned 0
      (F.spawnTimes w up k p trigger motherPool isTriggerSpawned turns s) := by
  induction turns generalizing s with
  | zero => exact h
  | succ n ih => exact ih (spawnOne_turns hup hcall h)

/-! ## Spawning a pool -/

variable (up) in
/-- The objects with a timer are spawned before the loop. A pool has none. -/
theorem spawnTimed_spec (l : List PoolObject) (st : PoolState) (count : Int)
    (hl : ∀ obj ∈ l, obj.guid ∈ (F.group k p).guids) (hnodup : (l.map PoolObject.guid).Nodup)
    (hnew : ∀ obj ∈ l, st.data.isSpawnedObject k obj.guid = false) (h : Exact F st.data)
    (hp : Active F st.data p) :
    ∃ m : Nat, m ≤ l.length ∧ (spawnTimed w up k p l st count).2 = count - m ∧
      (0 ≤ count → m ≤ count) ∧
      Within F p st.data (spawnTimed w up k p l st count).1.data ∧
      Grows st.data (spawnTimed w up k p l st count).1.data ∧
      (spawnTimed w up k p l st count).1.data.getSpawnedObjects p =
        st.data.getSpawnedObjects p + m := by
  induction l generalizing st count with
  | nil => exact ⟨0, Nat.le_refl _, by simp [spawnTimed], by omega, Within.refl h p,
      fun _ _ hs => hs, rfl⟩
  | cons obj l ih =>
    unfold spawnTimed
    have hobj := hl obj mem_cons_self
    obtain ⟨hout, hnodup⟩ := nodup_cons.1 hnodup
    split
    case isTrue hc =>
      have hk := hc.2.1
      obtain ⟨hw, hgrows, hcount⟩ :=
        within_addSpawn h hobj (hnew obj mem_cons_self) hp
      have hdata := spawn1Object_data up (p := p) hk obj.guid st
      rw [← hdata] at hw hgrows hcount
      have hnew' : ∀ obj' ∈ l,
          (spawn1Object up k p obj.guid st).data.isSpawnedObject k obj'.guid = false := by
        intro obj' hobj'
        rw [hdata, Bool.eq_false_iff, ne_eq, SpawnedPoolData.isSpawnedObject_addSpawn,
          hnew obj' (mem_cons_of_mem _ hobj')]
        rintro (hs | ⟨-, hs⟩ | ⟨hs, -⟩)
        · cases hs
        · exact hout (hs ▸ mem_map_of_mem hobj')
        · exact hk hs
      obtain ⟨m, hm, hleft, hnonneg, hw', hgrows', hcount'⟩ :=
        ih (spawn1Object up k p obj.guid st) (count - 1)
          (fun obj' hobj' => hl obj' (mem_cons_of_mem _ hobj')) hnodup hnew' hw.exact
          (hw.active hp)
      have hne := hc.1
      refine ⟨m + 1, Nat.succ_le_succ hm, ?_, fun h0 => ?_, hw.trans hw', hgrows.trans hgrows', ?_⟩
      · rw [hleft]
        omega
      · have hle := hnonneg (by omega)
        omega
      · rw [hcount', hcount]
        omega
    case isFalse =>
      obtain ⟨m, hm, hrest⟩ := ih st count (fun obj' hobj' => hl obj' (mem_cons_of_mem _ hobj'))
        hnodup (fun obj' hobj' => hnew obj' (mem_cons_of_mem _ hobj')) h hp
      exact ⟨m, Nat.le_succ_of_le hm, hrest⟩

theorem nodup_timed (F : PoolForest) (k : PoolKind) (p : Nat) :
    ((if (F.group k p).explicitlyChanced.isEmpty then (F.group k p).equalChanced
      else (F.group k p).explicitlyChanced).map PoolObject.guid).Nodup ∧
    (∀ obj ∈ (if (F.group k p).explicitlyChanced.isEmpty then (F.group k p).equalChanced
      else (F.group k p).explicitlyChanced), obj.guid ∈ (F.group k p).guids) ∧
    (if (F.group k p).explicitlyChanced.isEmpty then (F.group k p).equalChanced
      else (F.group k p).explicitlyChanced).length < 2147483648 := by
  have hnodup := F.nodup k p
  have hfew := F.few k p
  unfold PoolGroup.guids at hnodup hfew
  rw [map_append, nodup_append] at hnodup
  rw [length_map, length_append] at hfew
  split
  case isTrue =>
    exact ⟨hnodup.1, fun obj hobj => PoolGroup.mem_guids (Or.inl hobj), by omega⟩
  case isFalse =>
    exact ⟨hnodup.2.1, fun obj hobj => PoolGroup.mem_guids (Or.inr hobj), by omega⟩

variable (up) in
/-- What is spawned before the loop leaves room for its turns. -/
theorem spawnFirst_turns {st : PoolState} (h : Exact F st.data) (hp : Active F st.data p)
    (hle : st.data.getSpawnedObjects p ≤ F.spawnCount p) :
    Turns F st.data k p trigger motherPool (st.data.isSpawnedObject k trigger)
      (F.spawnFirst w up k p trigger st).2.toNat
      { state := (F.spawnFirst w up k p trigger st).1, triggerFrom := trigger } := by
  have hlimit := F.spawnCount_lt p
  unfold spawnFirst
  simp only
  have hnonneg : ((F.spawnCount p : Int) - st.data.getSpawnedObjects p).bmod 4294967296 ≤
      (F.spawnCount p : Int) - st.data.getSpawnedObjects p := by
    unfold Int.bmod
    simp only
    split <;> omega
  set count := ((F.spawnCount p : Int) - st.data.getSpawnedObjects p).bmod 4294967296 with hcount
  split
  case isTrue h0 =>
    refine ⟨Within.refl h p, hp, hle, ?_, fun _ _ _ hs => hs, fun _ => Or.inr ⟨rfl, rfl⟩⟩
    simp only
    split
    case isTrue hs => exact Or.inr ⟨hs, hs, fun _ => trivial, by omega⟩
    case isFalse => exact Or.inl (by omega)
  case isFalse h0 =>
    have h0 : trigger = 0 := Classical.byContradiction h0
    split
    case isFalse =>
      refine ⟨Within.refl h p, hp, hle, Or.inl ?_, fun _ _ _ hs => hs, fun _ => Or.inl h0⟩
      simp only
      omega
    case isTrue hfull =>
      -- Nothing of the pool is spawned yet.
      have hzero : st.data.getSpawnedObjects p = 0 := by
        have hmod := hfull.2
        rw [hcount] at hmod
        unfold Int.bmod at hmod
        simp only at hmod
        split at hmod <;> omega
      have hnew : ∀ g ∈ (F.group k p).guids, st.data.isSpawnedObject k g = false := by
        intro g hg
        rw [Bool.eq_false_iff]
        intro hs
        have hpos := (h.active_of_spawned hg hs).1
        omega
      obtain ⟨hnodup, hmem, hfew⟩ := nodup_timed F k p
      obtain ⟨m, hm, hleft, hsome, hw, hgrows, hspawned⟩ := spawnTimed_spec (w := w) up
        _ st count hmem hnodup (fun obj hobj => hnew _ (hmem obj hobj)) h hp
      have hbound : (m : Int) + (count - m).toNat ≤ F.spawnCount p := by
        by_cases hpos : 0 ≤ count
        · have := hsome hpos
          omega
        · have hbig : (2147483648 : Int) ≤ F.spawnCount p := by
            rw [hcount, hzero] at hpos
            unfold Int.bmod at hpos
            simp only at hpos
            split at hpos <;> omega
          omega
      refine ⟨hw, hw.active hp, ?_, Or.inl ?_, fun _ => hgrows, fun _ => Or.inl h0⟩
      · simp only [hspawned, hzero]
        omega
      · simp only [hspawned, hzero, hleft]
        omega

/-- So `SpawnObject` stays within the limit of its pool. -/
theorem spawnObject_spec (hup : FillsBelow F up p) (hcall : Called F k p trigger motherPool)
    {st : PoolState} (h : Exact F st.data) (hp : Active F st.data p)
    (hle : st.data.getSpawnedObjects p ≤ F.spawnCount p) :
    Within F p st.data (F.spawnObject w up k p trigger motherPool st).data ∧
      (F.spawnObject w up k p trigger motherPool st).data.getSpawnedObjects p ≤ F.spawnCount p ∧
      (trigger = 0 → Grows st.data (F.spawnObject w up k p trigger motherPool st).data) := by
  have hend := spawnTimes_turns (w := w) hup hcall
    (spawnFirst_turns (w := w) up h hp hle)
  refine ⟨hend.within, hend.le, fun h0 => hend.grows ?_⟩
  rw [h0]
  exact h.zero k

theorem spawnPoolGroup_spec (hup : FillsBelow F up p)
    (htrigger : trigger = 0 ∨ trigger ∈ (F.group k p).guids) {st : PoolState}
    (h : Exact F st.data) (hp : Active F st.data p)
    (hle : st.data.getSpawnedObjects p ≤ F.spawnCount p) :
    Within F p st.data (F.spawnPoolGroup w up k p trigger st).data ∧
      (F.spawnPoolGroup w up k p trigger st).data.getSpawnedObjects p ≤ F.spawnCount p ∧
      (trigger = 0 → Grows st.data (F.spawnPoolGroup w up k p trigger st).data) := by
  unfold spawnPoolGroup
  split
  case isTrue => exact ⟨Within.refl h p, hle, fun _ _ _ hs => hs⟩
  case isFalse hempty =>
    have hp0 : k = .pool → p ≠ 0 := by
      rintro rfl rfl
      -- 0 is no pool, so it has no sub-pools.
      have hnone : (F.group .pool 0).guids = [] :=
        eq_nil_iff_forall_not_mem.2 fun g hg => (F.guid_ne .pool 0 g hg).2 rfl
      unfold PoolGroup.guids at hnone
      rw [map_eq_nil_iff, append_eq_nil_iff] at hnone
      refine hempty ?_
      unfold PoolGroup.isEmpty
      rw [hnone.1, hnone.2]
      rfl
    refine spawnObject_spec hup ⟨htrigger, fun hm => ?_, fun hm hk => ?_⟩ h hp hle
    · split at hm
      case isTrue hk => exact ⟨hk, if_pos hk⟩
      case isFalse => exact absurd rfl hm
    · rw [if_pos hk] at hm
      exact hp0 hk hm

/-- A pool and all below it are filled to their limits at most. -/
theorem spawnPoolBelow_spec (n : Nat) (p : Nat) (hn : F.rank p < n) (st : PoolState)
    (h : Exact F st.data) (hp : Active F st.data p)
    (hle : st.data.getSpawnedObjects p ≤ F.spawnCount p) :
    Fills F p st.data (F.spawnPoolBelow w n st p).data := by
  -- on the rank: the pools of a pool have lower ones
  induction n generalizing p st with
  | zero => omega
  | succ n ih =>
    have hup : FillsBelow F (F.spawnPoolBelow w n) p := fun st c hc h hp hle => by
      have hlt := F.rank_lt p c hc
      exact ih c (by omega) st h hp hle
    have hgroup : ∀ (k : PoolKind) (st : PoolState), Exact F st.data → Active F st.data p →
        st.data.getSpawnedObjects p ≤ F.spawnCount p →
        Fills F p st.data (F.spawnPoolGroup w (F.spawnPoolBelow w n) k p 0 st).data := by
      intro k st h hp hle
      obtain ⟨hw, hle', hgrows⟩ := spawnPoolGroup_spec hup (Or.inl rfl) h hp hle
      exact ⟨hw, hgrows rfl, hle'⟩
    have h₁ := hgroup .pool st h hp hle
    have hp₁ := h₁.active hp
    have h₂ := hgroup .gameobject _ h₁.exact hp₁ h₁.le
    have h₃ := hgroup .creature _ h₂.exact (h₂.active hp₁) h₂.le
    exact (h₁.trans h₂).trans h₃

theorem fillsBelow_spawnPoolBelow (p : Nat) :
    FillsBelow F (F.spawnPoolBelow w (F.rank p)) p :=
  fun st c hc h hp hle => spawnPoolBelow_spec _ c (F.rank_lt p c hc) st h hp hle

/-! ## Runs -/

/-- What holds between two operations -/
structure Limited (F : PoolForest) (d : SpawnedPoolData) : Prop where
  exact : Exact F d
  le : ∀ p, d.getSpawnedObjects p ≤ F.spawnCount p

theorem Limited.within {d d' : SpawnedPoolData} (h : Limited F d) (hw : Within F p d d')
    (hle : d'.getSpawnedObjects p ≤ F.spawnCount p) : Limited F d' := by
  refine ⟨hw.exact, fun x => ?_⟩
  by_cases hx : x = p
  · rw [hx]
    exact hle
  · by_cases hr : F.rank x < F.rank p
    · exact hw.bound x hr (h.le x)
    · rw [getSpawnedObjects_congr (hw.frame x (by omega) hx)]
      exact h.le x

theorem Limited.shrinks {d d' : SpawnedPoolData} (h : Limited F d) (hs : Shrinks F p d d') :
    Limited F d' :=
  h.within hs.toWithin (Nat.le_trans (hs.le p) (h.le p))

/-- How the pools are used: something is spawned in a pool only when the pool itself is spawned or is
in no pool. What updates a pool is one of its objects. -/
def Allowed (F : PoolForest) (st : PoolState) : Op → Prop
  | .spawnPool _ p => Active F st.data p
  | .updatePool _ k p guid =>
    (F.mother p ≠ 0 → Active F st.data (F.mother p)) ∧
      (guid = 0 ∨ guid ∈ (F.group k p).guids)
  | _ => True

/-- Every call of the manager stays within the limits. -/
theorem step_limited {st : PoolState} {op : Op} (h : Limited F st.data)
    (hop : Allowed F st op) : Limited F (F.step st op).data := by
  cases op with
  | spawnPool w p =>
    have hfills := spawnPoolBelow_spec (w := w) _ p (Nat.lt_succ_self _) st h.exact hop (h.le p)
    exact h.within hfills.toWithin hfills.le
  | despawnPool p => exact h.shrinks (despawnPoolBelow_spec _ p (Nat.lt_succ_self _) _ h.exact).1
  | updatePool w k p guid =>
    unfold Allowed at hop
    show Limited F (F.updatePool w k p guid st).data
    unfold updatePool
    split
    case isTrue hm =>
      obtain ⟨hw, hle, -⟩ := spawnPoolGroup_spec (fillsBelow_spawnPoolBelow (F.mother p))
        (Or.inr (F.of_mother p hm)) h.exact (hop.1 hm) (h.le _)
      exact h.within hw hle
    case isFalse hm =>
      obtain ⟨hw, hle, -⟩ := spawnPoolGroup_spec (fillsBelow_spawnPoolBelow p) hop.2 h.exact
        (Or.inl (Classical.byContradiction hm)) (h.le _)
      exact h.within hw hle
  | despawnObject k p guid => exact h.shrinks (despawnObject_spec h.exact k p guid)
  | setExcludeObject k p guid exclude => exact h

/-- At the start nothing is spawned. -/
theorem limited_empty (F : PoolForest) : Limited F {} := by
  refine ⟨⟨fun p => ?_, fun k => ?_⟩, fun p => Nat.zero_le _⟩
  · have hnone : ∀ k, (F.group k p).guids.countP
        (SpawnedPoolData.isSpawnedObject {} k) = 0 := fun k =>
      countP_eq_zero.2 fun g _ => by cases k <;> simp [SpawnedPoolData.isSpawnedObject]
    unfold spawnedChildren
    rw [hnone, hnone, hnone]
    rfl
  · cases k <;> rfl

/-- What is in a pool, however deep -/
inductive Below (F : PoolForest) (p : Nat) : PoolKind → Nat → Prop
  | child {k : PoolKind} {g : Nat} : g ∈ (F.group k p).guids → Below F p k g
  | deeper {k : PoolKind} {c g : Nat} :
    Below F p .pool c → g ∈ (F.group k c).guids → Below F p k g

theorem Exact.none_below {d : SpawnedPoolData} (h : Exact F d)
    (hs : d.isSpawnedObject .pool p = false) {k : PoolKind} {g : Nat} (hb : Below F p k g) :
    d.isSpawnedObject k g = false := by
  have hchild : ∀ q, d.isSpawnedObject .pool q = false → ∀ k, ∀ g ∈ (F.group k q).guids,
      d.isSpawnedObject k g = false := by
    intro q hq k g hg
    rw [Bool.eq_false_iff]
    intro hspawned
    rw [(h.active_of_spawned hg hspawned).2] at hq
    cases hq
  induction hb with
  | child hg => exact hchild p hs _ _ hg
  | deeper _ hg ih => exact hchild _ ih _ _ hg

/-- The counters count, the limits are kept, and nothing is left of a pool that is not spawned. -/
structure Counted (F : PoolForest) (d : SpawnedPoolData) : Prop where
  count : ∀ p, Active F d p →
    d.getSpawnedObjects p = F.spawnedChildren d p ∧ d.getSpawnedObjects p ≤ F.spawnCount p
  none_below : ∀ p, F.mother p ≠ 0 → d.isSpawnedObject .pool p = false →
    ∀ k g, Below F p k g → d.isSpawnedObject k g = false

/-- In every run that spawns in active pools only, the counters are exact and the limits are kept. -/
theorem run_counted (F : PoolForest) (exclude : PoolKind → Nat → Nat → Bool) (ops : List Op)
    (h : AlongRun F.step (Allowed F) { exclude } ops) :
    Counted F (run F.step { exclude } ops).data := by
  have hlimited : Limited F (run F.step { exclude } ops).data :=
    run_keeps (I := fun st => Limited F st.data) (fun st op hst hop => step_limited hst hop)
      (limited_empty F) h
  exact ⟨fun p _ => ⟨hlimited.exact.count p, hlimited.le p⟩,
    fun p _ hs k g hb => hlimited.exact.none_below hs hb⟩

/-! ## A pool in a pool in a pool -/

def nestedGroup (k : PoolKind) (p : Nat) : PoolGroup :=
  match k, p with
  | .pool, 1 => { equalChanced := [{ guid := 2 }] }
  | .pool, 2 => { equalChanced := [{ guid := 3 }] }
  | .creature, 3 => { equalChanced := [{ guid := 10 }] }
  | _, _ => {}

theorem mem_nestedGroup {k : PoolKind} {p g : Nat} :
    g ∈ (nestedGroup k p).guids ↔ (k = .pool ∧ p = 1 ∧ g = 2) ∨ (k = .pool ∧ p = 2 ∧ g = 3) ∨
      (k = .creature ∧ p = 3 ∧ g = 10) := by
  unfold nestedGroup
  split <;> simp_all [PoolGroup.guids]

/-- Pool 1 has pool 2, which has pool 3, which has a creature. -/
def nested : PoolForest where
  group := nestedGroup
  spawnCount _ := 1
  mother c := if c = 2 then 1 else if c = 3 then 2 else 0
  rank p := if p = 1 then 2 else if p = 2 then 1 else 0
  nodup k p := by
    unfold nestedGroup
    split <;> simp [PoolGroup.guids]
  unique k p q g hp hq := by
    rw [mem_nestedGroup] at hp hq
    omega
  guid_ne k p g h := by
    rw [mem_nestedGroup] at h
    omega
  mother_of p c h := by
    rw [mem_nestedGroup] at h
    rcases h with ⟨-, rfl, rfl⟩ | ⟨-, rfl, rfl⟩ | ⟨h, -⟩
    · rfl
    · rfl
    · cases h
  of_mother c h := by
    rw [mem_nestedGroup]
    split at h
    case isTrue h2 => simp [h2]
    case isFalse h2 =>
      split at h
      case isTrue h3 => simp [h3]
      case isFalse => exact absurd rfl h
  rank_lt p c h := by
    rw [mem_nestedGroup] at h
    rcases h with ⟨-, rfl, rfl⟩ | ⟨-, rfl, rfl⟩ | ⟨h, -⟩
    · decide
    · decide
    · cases h
  spawnCount_lt _ := by decide
  few k p := by
    unfold nestedGroup
    split <;> simp [PoolGroup.guids]

/-- All of it is spawned from above, the creature dies, and the pool is despawned. -/
theorem run_counted_nested :
    Counted nested (run nested.step {}
      [.spawnPool {} 1, .updatePool {} .creature 3 10, .despawnPool 1]).data :=
  run_counted nested _ [.spawnPool {} 1, .updatePool {} .creature 3 10, .despawnPool 1]
    ⟨Or.inl rfl, ⟨fun _ => Or.inr (by decide), Or.inr (mem_nestedGroup.2 (by simp))⟩, trivial,
      trivial⟩

/-- Pool 3 is updated although pool 2, in which it is, is not spawned: pool 2 then has a counter, and
pool 1 does not count it. -/
theorem updatePool_uncounted :
    ¬ Counted nested (run nested.step {} [.updatePool {} .creature 3 0]).data := by
  intro h
  have hcount := (h.count 1 (Or.inl rfl)).1
  revert hcount
  decide

end PoolForest

end Windrunner
