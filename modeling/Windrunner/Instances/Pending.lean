import Windrunner.Instances.Schedule
import Windrunner.Lib.Run

/-!
# What is pending in the reset queue

Every map with a global reset has one event, at its reset time less the delay of the type, and an
instance of a normal dungeon has one exactly while nobody is inside (`Consistent`). `Update`
processes what is due, each event once, and ends (`UpdateRight`).

The event of an instance is used up when it comes due while the empty map is loaded. The map is to
unload, but the state stays for those who are bound to it, and when one of them loads the map again
nothing is pending. `step_right` is for the runs in which no such instance is loaded.

* `Good` is the invariant, `Good.of_change` the rule for a step that takes events out of the queue
  and puts others in.
* A turn of `Update` keeps it (`turn_good`) and leaves fewer late seconds (`turn_queue`).
-/

namespace Windrunner

open Lib List SortedMap
open Option hiding map_map

/-- A global event of the map. -/
def isGlobalOf (mapid : Nat) (n : ResetNode) : Bool :=
  n.event.type ≠ .normalDungeon && n.event.mapid = mapid

/-- The event that `ScheduleReset` finds for the instance. -/
def isEventOf (mapid instanceId : Nat) (n : ResetNode) : Bool :=
  n.event.same ⟨.normalDungeon, mapid, instanceId⟩

/-- The events of the instance: one, while nobody is inside and until it is used up. -/
def DungeonInstance.pending (i : DungeonInstance) : Nat :=
  if i.players = 0 ∧ i.resetDone = false then 1 else 0

/-- Players are on loaded maps only, and nobody can enter a loaded map whose event is used up. -/
structure DungeonInstance.StateRight (cfg : ResetSettings) (i : DungeonInstance) : Prop where
  inside : i.players ≠ 0 → i.loaded = true
  done : cfg.isRaid i.mapId = false → i.resetDone = true →
    i.players = 0 ∧ (i.loaded = true → i.resetAfterUnload = true)

/-- A reset delay is at least a day, also in the seconds of a `uint32`. -/
def ResetSettings.DelaysFit (cfg : ResetSettings) : Prop :=
  ∀ m ∈ cfg.maps, m.hasGlobalReset = true → 86400 ≤ getMaxResetTimeFor m

namespace ResetWorld

variable (cfg : ResetSettings) (w w' : ResetWorld)

/-! ## What the queue is to hold -/

/-- The map has one global event, at the right time. -/
def GlobalPending (mapid : Nat) : Prop :=
  match w.queue.filter (isGlobalOf mapid) with
  | [n] => n.time = w.getResetTimeFor mapid - n.event.type.delay
  | _ => False

instance (mapid : Nat) : Decidable (w.GlobalPending mapid) :=
  match h : w.queue.filter (isGlobalOf mapid) with
  | [n] => decidable_of_iff (n.time = w.getResetTimeFor mapid - n.event.type.delay)
      (by unfold GlobalPending; rw [h])
  | [] => isFalse (by unfold GlobalPending; rw [h]; exact id)
  | _ :: _ :: _ => isFalse (by unfold GlobalPending; rw [h]; exact id)

def Consistent : Prop :=
  (∀ m ∈ cfg.maps, m.hasGlobalReset = true → w.GlobalPending m.id) ∧
  ∀ e ∈ w.instances.entries, cfg.isRaid e.2.mapId = false → e.2.loaded = true →
    e.2.resetAfterUnload = false →
    w.queue.countP (isEventOf e.2.mapId e.1) = if e.2.players = 0 then 1 else 0

instance : Decidable (w.Consistent cfg) := by
  unfold Consistent
  infer_instance

/-- What `Update` is to do, from `w` to `w'`: it processes the events that are due, each once, and
erases these, and what was inserted meanwhile is processed or still pending. -/
def UpdateRight : Prop :=
  (∀ p ∈ w'.processed, p.time < w.now ∧ p.erased = some p.node) ∧
  (w'.processed.map (·.node)).Nodup ∧
  (∀ x ∈ w.queue, x.node ∈ w'.processed.map (·.node) ↔ x.time < w.now) ∧
  (∀ node < w'.nextNode, w.nextNode ≤ node →
    node ∈ w'.processed.map (·.node) ∨ node ∈ w'.queue.map (·.node)) ∧
  ∀ x ∈ w'.queue, ¬ x.time < w.now

instance : Decidable (UpdateRight w w') := by
  unfold UpdateRight
  infer_instance

/-- The property of a step. -/
def StepRight (i : ResetInput) : Prop :=
  (w.step cfg i).Consistent cfg ∧ (i = .update → UpdateRight w (w.step cfg i))

instance (i : ResetInput) : Decidable (w.StepRight cfg i) := by
  unfold StepRight
  infer_instance

/-- When the last of the events that `n` belongs to comes due. -/
def lastTime (n : ResetNode) : Int := w.getResetTimeFor n.event.mapid - n.event.type.last.delay

/-- Of the instances of normal dungeons that a reset of all instances will empty now, none has a
reset time before the time of that reset. -/
def LeaversLater : Prop :=
  ∀ e ∈ w.instances.entries, e.2.players ≠ 0 → cfg.isRaid e.2.mapId = false → ∀ n ∈ w.queue,
    n.event.type ≠ .normalDungeon → n.event.mapid = e.2.mapId → w.lastTime n < w.now →
    w.lastTime n ≤ e.2.resetTime

instance : Decidable (w.LeaversLater cfg) := by
  unfold LeaversLater
  infer_instance

/-- No map is loaded for an instance of a normal dungeon whose event was used up. -/
def StepFits : ResetInput → Prop
  | .load id => ∀ i ∈ w.instances.find id, cfg.isRaid i.mapId = false → i.loaded = false →
      i.resetDone = false
  | .update => w.LeaversLater cfg
  | _ => True

instance : DecidablePred (w.StepFits cfg) := fun i => by
  unfold StepFits
  cases i <;> infer_instance

/-! ## The invariant -/

/-- An event of an instance. -/
structure NormalNode (n : ResetNode) : Prop where
  pos : 0 < n.event.instanceId
  le : n.event.instanceId ≤ w.maxInstanceId
  mapId : ∀ i, w.instances.find n.event.instanceId = some i → i.mapId = n.event.mapid

/-- An event of a map. -/
structure GlobalNode (n : ResetNode) : Prop where
  instanceId : n.event.instanceId = 0
  time : n.time = w.getResetTimeFor n.event.mapid - n.event.type.delay
  entry : ∃ m ∈ cfg.maps, m.id = n.event.mapid ∧ m.hasGlobalReset = true

def NodeRight (n : ResetNode) : Prop :=
  if n.event.type = .normalDungeon then w.NormalNode n else w.GlobalNode cfg n

structure Good : Prop where
  sorted : w.queue.Pairwise (·.time ≤ ·.time)
  nodup : (w.queue.map (·.node)).Nodup
  fresh : ∀ n ∈ w.queue, n.node < w.nextNode
  nodes : ∀ n ∈ w.queue, w.NodeRight cfg n
  global : ∀ m ∈ cfg.maps, m.hasGlobalReset = true → w.queue.countP (isGlobalOf m.id) = 1
  ids : ∀ id i, w.instances.find id = some i → 0 < id ∧ id ≤ w.maxInstanceId
  own : ∀ id i, w.instances.find id = some i → cfg.isRaid i.mapId = false →
    w.queue.countP (isEventOf i.mapId id) = i.pending
  states : ∀ id i, w.instances.find id = some i → i.StateRight cfg

variable {cfg w w'}

/-- Only the instances that are known and the reset time of the map matter. -/
theorem NodeRight.mono {n : ResetNode} (h : w.NodeRight cfg n) (ht : n.event.type ≠ .normalDungeon →
      w'.getResetTimeFor n.event.mapid = w.getResetTimeFor n.event.mapid)
    (hmax : w.maxInstanceId ≤ w'.maxInstanceId)
    (hi : ∀ id i', w'.instances.find id = some i' → id ≤ w.maxInstanceId →
      ∃ i, w.instances.find id = some i ∧ i.mapId = i'.mapId) : w'.NodeRight cfg n := by
  unfold NodeRight at h ⊢
  split
  · rename_i htype
    rw [if_pos htype] at h
    refine ⟨h.pos, h.le.trans hmax, fun i' hi' => ?_⟩
    obtain ⟨i, hfind, hmap⟩ := hi _ i' hi' h.le
    rw [← hmap]
    exact h.mapId i hfind
  · rename_i htype
    rw [if_neg htype] at h
    exact ⟨h.instanceId, by rw [ht htype]; exact h.time, h.entry⟩

/-- A step that takes `removed` out of the queue and puts `added` in. -/
theorem Good.of_change (hw : w.Good cfg) (removed added : List ResetNode) {kept : List ResetNode}
    (hq : w.queue.Perm (removed ++ kept)) (hq' : w'.queue.Perm (added ++ kept))
    (hsorted : w'.queue.Pairwise (·.time ≤ ·.time)) (hnext : w.nextNode ≤ w'.nextNode)
    (hnodup : (added.map (·.node)).Nodup)
    (hfresh : ∀ n ∈ added, w.nextNode ≤ n.node ∧ n.node < w'.nextNode)
    (hkept : ∀ n ∈ kept, w.NodeRight cfg n → w'.NodeRight cfg n)
    (hadded : ∀ n ∈ added, w'.NodeRight cfg n) (hglobal : ∀ m ∈ cfg.maps, m.hasGlobalReset = true →
      added.countP (isGlobalOf m.id) = removed.countP (isGlobalOf m.id))
    (hids : ∀ id i, w'.instances.find id = some i → 0 < id ∧ id ≤ w'.maxInstanceId)
    (hstates : ∀ id i, w'.instances.find id = some i → i.StateRight cfg)
    (hown : ∀ id i, w'.instances.find id = some i → cfg.isRaid i.mapId = false →
      w.queue.countP (isEventOf i.mapId id) + added.countP (isEventOf i.mapId id) =
        removed.countP (isEventOf i.mapId id) + i.pending) : w'.Good cfg where
  sorted := hsorted
  nodup := by
    have hk : (kept.map (·.node)).Nodup := by
      have := (hq.map (·.node)).nodup hw.nodup
      rw [map_append] at this
      exact this.of_append_right
    rw [(hq'.map (·.node)).nodup_iff, map_append, nodup_append]
    refine ⟨hnodup, hk, ?_⟩
    intro a ha b hb hab
    obtain ⟨x, hx, rfl⟩ := mem_map.mp ha
    obtain ⟨y, hy, rfl⟩ := mem_map.mp hb
    have hlt := hw.fresh y (hq.mem_iff.mpr (mem_append_right removed hy))
    have hle := (hfresh x hx).1
    omega
  fresh n hn := by
    rcases mem_append.mp (hq'.mem_iff.mp hn) with hn | hn
    · exact (hfresh n hn).2
    · exact (hw.fresh n (hq.mem_iff.mpr (mem_append_right removed hn))).trans_le hnext
  nodes n hn := by
    rcases mem_append.mp (hq'.mem_iff.mp hn) with hn | hn
    · exact hadded n hn
    · exact hkept n hn (hw.nodes n (hq.mem_iff.mpr (mem_append_right removed hn)))
  global m hm hg := by
    have hone := hw.global m hm hg
    rw [hq.countP_eq, countP_append] at hone
    rw [hq'.countP_eq, countP_append, hglobal m hm hg]
    exact hone
  ids := hids
  states := hstates
  own id i hi hraid := by
    have h := hown id i hi hraid
    rw [hq.countP_eq, countP_append] at h
    rw [hq'.countP_eq, countP_append]
    omega

/-! ## Instances -/

theorem isEventOf_iff {mapid id : Nat} {n : ResetNode} :
    isEventOf mapid id n = true ↔ n.event.mapid = mapid ∧ n.event.instanceId = id := by
  unfold isEventOf DungeonResetEvent.same
  rw [Bool.and_eq_true, decide_eq_true_eq, decide_eq_true_eq]
  exact and_congr eq_comm eq_comm

theorem isGlobalOf_iff {mapid : Nat} {n : ResetNode} :
    isGlobalOf mapid n = true ↔ n.event.type ≠ .normalDungeon ∧ n.event.mapid = mapid := by
  unfold isGlobalOf
  rw [Bool.and_eq_true, decide_eq_true_eq, decide_eq_true_eq]

/-- What an instance is found by is its own event. -/
theorem NodeRight.normal {n : ResetNode} (h : w.NodeRight cfg n) (hid : 0 < n.event.instanceId) :
    n.event.type = .normalDungeon ∧ w.NormalNode n := by
  unfold NodeRight at h
  split at h
  · rename_i htype
    exact ⟨htype, h⟩
  · exact absurd h.instanceId (by omega)

section

variable (hw : w.Good cfg)
include hw

/-- A step on the instances alone, that leaves the map of each and what is pending for it. -/
theorem Good.of_instances {f : SortedMap Nat DungeonInstance}
    (hf : ∀ id i', f.find id = some i' → ∃ i, w.instances.find id = some i ∧ i.mapId = i'.mapId ∧
      (cfg.isRaid i.mapId = false → i'.pending = i.pending) ∧ i'.StateRight cfg) :
    ({ w with instances := f } : ResetWorld).Good cfg :=
  hw.of_change [] [] (.refl _) (.refl _) hw.sorted le_rfl .nil
    nofun
    (fun n _ h => h.mono (fun _ => rfl) le_rfl fun id i' hi _ => by
      obtain ⟨i, hi, hmap, -⟩ := hf id i' hi
      exact ⟨i, hi, hmap⟩)
    nofun (fun _ _ _ => rfl)
    (fun id i' hi => by
      obtain ⟨i, hi, -⟩ := hf id i' hi
      exact hw.ids id i hi)
    (fun id i' hi => by
      obtain ⟨i, -, -, -, hs⟩ := hf id i' hi
      exact hs)
    (fun id i' hi hraid => by
      obtain ⟨i, hi, hmap, hp, -⟩ := hf id i' hi
      rw [← hmap] at hraid ⊢
      rw [hw.own id i hi hraid, hp hraid]
      exact Nat.add_comm _ _)

theorem Good.modifyInstance {id : Nat} {f : DungeonInstance → DungeonInstance}
    (hf : ∀ i, w.instances.find id = some i → (f i).mapId = i.mapId ∧
      (cfg.isRaid i.mapId = false → (f i).pending = i.pending) ∧ (f i).StateRight cfg) :
    (w.modifyInstance id f).Good cfg := by
  apply hw.of_instances
  intro c i' hi'
  rw [find_modify] at hi'
  split at hi'
  · rename_i hc
    subst hc
    obtain ⟨i, hi, rfl⟩ := map_eq_some_iff.mp hi'
    obtain ⟨hmap, hp, hs⟩ := hf i hi
    exact ⟨i, hi, hmap.symm, hp, hs⟩
  · exact ⟨i', hi', rfl, fun _ => rfl, hw.states c i' hi'⟩

theorem Good.eraseInstance (id : Nat) : (w.eraseInstance id).Good cfg := by
  apply hw.of_instances
  intro c i' hi'
  rw [find_erase] at hi'
  split at hi'
  · exact absurd hi' (by simp)
  · exact ⟨i', hi', rfl, fun _ => rfl, hw.states c i' hi'⟩

theorem load_good {id : Nat}
    (hdone : ∀ i ∈ w.instances.find id, cfg.isRaid i.mapId = false → i.loaded = false →
      i.resetDone = false) : (w.load id).Good cfg := by
  apply hw.modifyInstance
  intro i hi
  split_ifs with hloaded
  · exact ⟨rfl, fun _ => rfl, hw.states id i hi⟩
  · refine ⟨rfl, fun _ => rfl, fun _ => rfl, fun hraid hd => ?_⟩
    have := hdone i hi hraid (Bool.eq_false_of_not_eq_true hloaded)
    exact absurd hd (by simp [this])

theorem unload_good (id : Nat) : (w.unload id).Good cfg := by
  unfold ResetWorld.unload
  split
  · rename_i i hi
    split_ifs with h hsaved
    · apply hw.modifyInstance
      intro j hj
      obtain rfl : i = j := some.inj (hi.symm.trans hj)
      exact ⟨rfl, fun _ => rfl, fun hp => absurd h.2 hp,
        fun _ _ => ⟨h.2, fun hl => absurd hl (by simp)⟩⟩
    · exact hw.eraseInstance id
    · exact hw
  · exact hw

theorem reloadState_good (id : Nat) : (w.reloadState id).Good cfg := by
  apply hw.modifyInstance
  intro i hi
  have hs := hw.states id i hi
  split_ifs
  · exact ⟨rfl, fun _ => rfl, hs⟩
  · exact ⟨rfl, fun _ => rfl, hs.inside, hs.done⟩

theorem bind_good (id : Nat) : (w.bind id).Good cfg :=
  hw.modifyInstance fun i hi =>
    ⟨rfl, fun _ => rfl, (hw.states id i hi).inside, (hw.states id i hi).done⟩

theorem unbind_good (id : Nat) : (w.unbind id).Good cfg := by
  unfold ResetWorld.unbind
  split
  · split_ifs
    · exact hw.modifyInstance fun i hi =>
        ⟨rfl, fun _ => rfl, (hw.states id i hi).inside, (hw.states id i hi).done⟩
    · exact hw.eraseInstance id
  · exact hw

theorem bindToInstanceOrRaid_good (id : Nat) (t : Int) :
    (w.bindToInstanceOrRaid cfg id t).Good cfg := by
  apply hw.modifyInstance
  intro i hi
  have hs := hw.states id i hi
  split_ifs
  · exact ⟨rfl, fun _ => rfl, hs.inside, hs.done⟩
  · exact ⟨rfl, fun _ => rfl, hs⟩

theorem resetMap_good (id : Nat) (method : InstanceResetMethod) :
    (w.resetMap id method).Good cfg := by
  apply hw.modifyInstance
  intro i hi
  have hs := hw.states id i hi
  unfold DungeonInstance.reset
  split_ifs
  · exact ⟨rfl, fun _ => rfl, hs⟩
  · exact ⟨rfl, fun _ => rfl, hs.inside, fun hraid hd => ⟨(hs.done hraid hd).1, fun _ => rfl⟩⟩
  · exact ⟨rfl, fun _ => rfl, hs⟩

end

/-! ## Entering and leaving -/

/-- A new event for an instance that has none. -/
theorem Good.insertNormal (hw : w.Good cfg) {t : Int} {mapid id : Nat}
    (hq : w'.queue = insertAfter (·.time) ⟨t, ⟨.normalDungeon, mapid, id⟩, w.nextNode⟩ w.queue)
    (hnext : w'.nextNode = w.nextNode + 1) (ht : w'.resetTimeByMapId = w.resetTimeByMapId)
    (hmax : w.maxInstanceId ≤ w'.maxInstanceId) (hid : 0 < id ∧ id ≤ w'.maxInstanceId)
    (hother : ∀ c i, w'.instances.find c = some i → c ≠ id → w.instances.find c = some i)
    (hold : id ≤ w.maxInstanceId → ∃ i, w.instances.find id = some i ∧ i.mapId = mapid)
    (hi : ∀ i, w'.instances.find id = some i → i.mapId = mapid ∧ i.StateRight cfg ∧
      (cfg.isRaid mapid = false →
        w.queue.countP (isEventOf mapid id) = 0 ∧ i.pending = 1)) : w'.Good cfg := by
  have htime : ∀ m, w'.getResetTimeFor m = w.getResetTimeFor m := fun m => by
    unfold getResetTimeFor
    rw [ht]
  have hmapId : ∀ i, w'.instances.find id = some i → i.mapId = mapid := fun i h => (hi i h).1
  refine hw.of_change [] [⟨t, ⟨.normalDungeon, mapid, id⟩, w.nextNode⟩] (.refl _) ?_ ?_ ?_
    (nodup_singleton _) ?_ ?_ ?_ ?_ ?_ ?_ ?_
  · rw [hq]
    exact insertAfter_perm _ _ _
  · rw [hq]
    exact insertAfter_sorted hw.sorted
  · omega
  · intro n hn
    obtain rfl := mem_singleton.mp hn
    exact ⟨le_rfl, hnext ▸ Nat.lt_succ_self _⟩
  · intro n _ h
    refine h.mono (fun _ => htime _) hmax fun c i' hi' hc => ?_
    by_cases hcid : c = id
    · subst hcid
      obtain ⟨i, hfind, hmap⟩ := hold hc
      exact ⟨i, hfind, hmap.trans (hmapId i' hi').symm⟩
    · exact ⟨i', hother c i' hi' hcid, rfl⟩
  · intro n hn
    obtain rfl := mem_singleton.mp hn
    exact ⟨hid.1, hid.2, hmapId⟩
  · intro m _ _
    rfl
  · intro c i hc
    by_cases hcid : c = id
    · rw [hcid]
      exact hid
    · have := hw.ids c i (hother c i hc hcid)
      omega
  · intro c i hc
    by_cases hcid : c = id
    · subst hcid
      exact (hi i hc).2.1
    · exact hw.states c i (hother c i hc hcid)
  · intro c i hc hraid
    by_cases hcid : c = id
    · subst hcid
      obtain ⟨rfl, -, hp⟩ := hi i hc
      obtain ⟨hzero, hone⟩ := hp hraid
      have hyes : isEventOf i.mapId c ⟨t, ⟨.normalDungeon, i.mapId, c⟩, w.nextNode⟩ = true :=
        isEventOf_iff.mpr ⟨rfl, rfl⟩
      rw [hzero, hone, countP_singleton, if_pos hyes]
      rfl
    · have hnot : isEventOf i.mapId c ⟨t, ⟨.normalDungeon, mapid, id⟩, w.nextNode⟩ = false :=
        Bool.eq_false_of_not_eq_true fun h => hcid (isEventOf_iff.mp h).2.symm
      rw [hw.own c i (hother c i hc hcid) hraid, countP_singleton, hnot]
      exact Nat.add_comm _ _

theorem leave_good (hw : w.Good cfg) (id : Nat) : (w.leave cfg id).Good cfg := by
  unfold ResetWorld.leave
  split
  swap
  · exact hw
  rename_i i hi
  split_ifs with h
  swap
  · exact hw
  have hfind : ∀ c, (w.instances.modify id fun i => { i with players := i.players - 1 }).find c =
      if c = id then some { i with players := i.players - 1 } else w.instances.find c := by
    intro c
    rw [find_modify]
    split_ifs with hc
    · rw [hc, hi]
      rfl
    · rfl
  have hs := hw.states id i hi
  unfold setResetSchedule ResetWorld.modifyInstance
  rw [hfind id, if_pos rfl]
  dsimp only
  split_ifs with hlast
  · -- the last one leaves a normal dungeon: nothing was pending
    have hdone : i.resetDone = false := Bool.eq_false_of_not_eq_true fun hd =>
      h.2 (hs.done hlast.2 hd).1
    refine hw.insertNormal rfl rfl rfl le_rfl (hw.ids id i hi) ?_ (fun _ => ⟨i, hi, rfl⟩) ?_
    · intro c j hj hc
      exact (if_neg hc).symm.trans ((hfind c).symm.trans hj)
    · intro j hj
      obtain rfl := some.inj ((if_pos rfl).symm.trans ((hfind id).symm.trans hj))
      refine ⟨rfl, ⟨fun hp => absurd hlast.1 hp, fun _ hd => absurd hd (by simp [hdone])⟩, ?_⟩
      intro hraid
      refine ⟨?_, if_pos ⟨hlast.1, hdone⟩⟩
      rw [hw.own id i hi hraid]
      exact if_neg fun hp => h.2 hp.1
  · apply hw.modifyInstance
    intro j hj
    obtain rfl : i = j := some.inj (hi.symm.trans hj)
    refine ⟨rfl, fun hraid => ?_, fun _ => h.1, fun hraid hd => ?_⟩
    · have hmore : i.players - 1 ≠ 0 := fun h0 => hlast ⟨h0, hraid⟩
      unfold DungeonInstance.pending
      rw [if_neg fun hp => hmore hp.1, if_neg fun hp => h.2 hp.1]
    · exact absurd (hs.done hraid hd).1 h.2

/-- An instance that has an event loses it. -/
theorem Good.cancelNormal (hw : w.Good cfg) {t : Int} {mapid id : Nat}
    (hq : w'.queue = eraseAt (·.time) (isEventOf mapid id) t w.queue)
    (hnext : w'.nextNode = w.nextNode) (ht : w'.resetTimeByMapId = w.resetTimeByMapId)
    (hmax : w'.maxInstanceId = w.maxInstanceId) (hid : 0 < id)
    (hone : w.queue.countP (isEventOf mapid id) = 1)
    (hi : ∀ c j', w'.instances.find c = some j' → ∃ j, w.instances.find c = some j ∧
      j.mapId = j'.mapId ∧ j'.StateRight cfg ∧ (c = id → j.mapId = mapid ∧ j'.pending = 0) ∧
      (c ≠ id → j'.pending = j.pending)) : w'.Good cfg := by
  obtain ⟨x, hx, hxid, hperm⟩ := eraseAt_perm (·.time) t
    (countP_pos_iff.mp (by omega : 0 < w.queue.countP (isEventOf mapid id)))
  have hxnormal := ((hw.nodes x hx).normal (by rw [(isEventOf_iff.mp hxid).2]; exact hid)).1
  refine hw.of_change [x] [] hperm (hq ▸ .refl _)
    (hq ▸ hw.sorted.sublist (eraseAt_sublist _ _ _)) hnext.ge .nil
    nofun ?_ nofun ?_ ?_ ?_ ?_
  · intro n _ hn
    refine hn.mono (fun _ => by unfold getResetTimeFor; rw [ht]) hmax.ge fun c j' hj' _ => ?_
    obtain ⟨j, hj, hmap, -⟩ := hi c j' hj'
    exact ⟨j, hj, hmap⟩
  · intro m _ _
    have hnot : isGlobalOf m.id x = false :=
      Bool.eq_false_of_not_eq_true fun hg => (isGlobalOf_iff.mp hg).1 hxnormal
    rw [countP_singleton, hnot]
    rfl
  · intro c j' hj'
    obtain ⟨j, hj, -⟩ := hi c j' hj'
    rw [hmax]
    exact hw.ids c j hj
  · intro c j' hj'
    obtain ⟨-, -, -, hs, -⟩ := hi c j' hj'
    exact hs
  · intro c j' hj' hraid
    obtain ⟨j, hj, hmap, -, heq, hne⟩ := hi c j' hj'
    rw [← hmap] at hraid ⊢
    rw [countP_singleton]
    by_cases hc : c = id
    · subst hc
      rw [(heq rfl).1, hone, (heq rfl).2, if_pos hxid]
      rfl
    · have hnot : isEventOf j.mapId c x = false := Bool.eq_false_of_not_eq_true fun he =>
        hc ((isEventOf_iff.mp he).2.symm.trans (isEventOf_iff.mp hxid).2)
      rw [hnot, hw.own c j hj hraid, hne hc]
      exact Nat.add_comm _ _

theorem enter_good (hw : w.Good cfg) (id : Nat) : (w.enter cfg id).Good cfg := by
  unfold ResetWorld.enter
  split
  swap
  · exact hw
  rename_i i hi
  split_ifs with h
  swap
  · exact hw
  have hs := hw.states id i hi
  unfold setResetSchedule
  rw [hi]
  dsimp only
  split_ifs with hfirst
  · -- the first one enters a normal dungeon: its event is pending
    have hdone : i.resetDone = false := Bool.eq_false_of_not_eq_true fun hd =>
      absurd ((hs.done hfirst.2 hd).2 h.1) (by simp [h.2])
    have hone : w.queue.countP (isEventOf i.mapId id) = 1 := by
      rw [hw.own id i hi hfirst.2]
      exact if_pos ⟨hfirst.1, hdone⟩
    refine hw.cancelNormal rfl rfl rfl rfl (hw.ids id i hi).1 hone fun c j' hj' => ?_
    unfold ResetWorld.modifyInstance at hj'
    rw [find_modify] at hj'
    split at hj'
    · rename_i hc
      subst hc
      obtain ⟨j, hj, rfl⟩ := map_eq_some_iff.mp hj'
      obtain rfl : i = j := some.inj (hi.symm.trans hj)
      exact ⟨i, hi, rfl, ⟨fun _ => h.1, fun _ hd => absurd hd (by simp)⟩,
        fun _ => ⟨rfl, if_neg fun hp => absurd hp.1 (Nat.succ_ne_zero _)⟩,
        fun hc => absurd rfl hc⟩
    · rename_i hc
      exact ⟨j', hj', rfl, hw.states c j' hj', fun h => absurd h hc, fun _ => rfl⟩
  · apply hw.modifyInstance
    intro j hj
    obtain rfl : i = j := some.inj (hi.symm.trans hj)
    refine ⟨rfl, fun hraid => ?_, fun _ => h.1, fun _ hd => absurd hd (by simp)⟩
    have hmore : i.players ≠ 0 := fun h0 => hfirst ⟨h0, hraid⟩
    unfold DungeonInstance.pending
    rw [if_neg fun hp => absurd hp.1 (Nat.succ_ne_zero _), if_neg fun hp => hmore hp.1]

theorem isRaid_lookup {mapId : Nat} {m : MapEntry} (hm : cfg.lookupEntry mapId = some m) :
    cfg.isRaid mapId = m.isRaid := by
  unfold ResetSettings.isRaid
  rw [hm]
  rfl

theorem create_good (hw : w.Good cfg) (mapId : Nat) : (w.create cfg mapId).Good cfg := by
  have hnew : w.instances.find (w.maxInstanceId + 1) = none := by
    cases h : w.instances.find (w.maxInstanceId + 1) with
    | none => rfl
    | some i => exact absurd (hw.ids _ i h).2 (by omega)
  have hnone : w.queue.countP (isEventOf mapId (w.maxInstanceId + 1)) = 0 := by
    rw [countP_eq_zero]
    intro n hn he
    have hid := (isEventOf_iff.mp he).2
    have := ((hw.nodes n hn).normal (by omega)).2.le
    omega
  unfold ResetWorld.create
  split
  swap
  · exact hw
  rename_i m hm
  split_ifs with hdungeon hraid
  · exact hw
  · have hmap : cfg.isRaid mapId = true := (isRaid_lookup hm).trans hraid
    have hfind : ∀ c j, (w.instances.insert (w.maxInstanceId + 1)
        { mapId := mapId, resetTime := 0, resetTimeDB := 0
          loaded := true, saved := false }).find c = some j → (c = w.maxInstanceId + 1 ∧ j.mapId = mapId ∧ j.StateRight cfg) ∨
            w.instances.find c = some j := by
      intro c j hj
      rw [find_insert] at hj
      split at hj
      · rename_i hc
        obtain rfl := some.inj hj
        exact .inl ⟨hc, rfl, fun _ => rfl, fun _ hd => absurd hd (by simp)⟩
      · exact .inr hj
    refine hw.of_change [] [] (.refl _) (.refl _) hw.sorted le_rfl .nil
      nofun ?_ nofun
      (fun _ _ _ => rfl) ?_ ?_ ?_
    · intro n _ hn
      refine hn.mono (fun _ => rfl) (Nat.le_succ _) fun c j hj hc => ?_
      rcases hfind c j hj with ⟨rfl, -⟩ | h
      · exact absurd hc (by omega)
      · exact ⟨j, h, rfl⟩
    · intro c j hj
      rcases hfind c j hj with ⟨rfl, -⟩ | h
      · exact ⟨Nat.succ_pos _, le_rfl⟩
      · exact ⟨(hw.ids c j h).1, (hw.ids c j h).2.trans (Nat.le_succ _)⟩
    · intro c j hj
      rcases hfind c j hj with ⟨-, -, hs⟩ | h
      · exact hs
      · exact hw.states c j h
    · intro c j hj hr
      rcases hfind c j hj with ⟨-, hj, -⟩ | h
      · rw [hj, hmap] at hr
        exact absurd hr (by simp)
      · rw [hw.own c j h hr]
        exact Nat.add_comm _ _
  · refine hw.insertNormal rfl rfl rfl (Nat.le_succ _)
      ⟨Nat.succ_pos _, le_rfl⟩ ?_ ?_ ?_
    · intro c j hj hc
      rw [find_insert, if_neg hc] at hj
      exact hj
    · intro h
      exact absurd h (by omega)
    · intro j hj
      rw [find_insert, if_pos rfl] at hj
      obtain rfl := some.inj hj
      exact ⟨rfl, ⟨fun _ => rfl, fun _ hd => absurd hd (by simp)⟩, fun _ => ⟨hnone, rfl⟩⟩

/-! ## Resetting all raids -/

/-- A loop that writes one value at several keys. -/
theorem find_foldl_insert {ι : Type} (f : ι → Nat) (t : Int) (l : List ι) (m : SortedMap Nat Int)
    (a : Nat) : (l.foldl (fun m x => m.insert (f x) t) m).find a =
      if a ∈ l.map f then some t else m.find a := by
  induction l generalizing m with
  | nil => rfl
  | cons x l ih =>
    rw [foldl_cons, ih, find_insert, map_cons]
    by_cases ha : a ∈ l.map f
    · rw [if_pos ha, if_pos (mem_cons_of_mem _ ha)]
    · rw [if_neg ha]
      by_cases hx : a = f x
      · rw [if_pos hx, if_pos (hx ▸ mem_cons_self)]
      · rw [if_neg hx, if_neg fun h => (mem_cons.mp h).elim hx ha]

/-- What becomes of an event. -/
def forced (now : Int) (n : ResetNode) : ResetNode :=
  if n.event.type = .normalDungeon then n
  else { n with time := now, event := { n.event with type := .forcedInform1 } }

theorem isGlobalOf_forced (t : Int) (m : Nat) (n : ResetNode) :
    isGlobalOf m (forced t n) = isGlobalOf m n := by
  unfold forced
  split
  · rfl
  · rename_i h
    unfold isGlobalOf
    simp [h]

theorem isEventOf_forced (t : Int) (m id : Nat) (n : ResetNode) :
    isEventOf m id (forced t n) = isEventOf m id n := by
  unfold forced
  split <;> rfl

theorem forced_node (t : Int) (n : ResetNode) : (forced t n).node = n.node := by
  unfold forced
  split <;> rfl

theorem resetAllRaid_good (hw : w.Good cfg) : w.resetAllRaid.Good cfg := by
  have hperm : w.resetAllRaid.queue.Perm (w.queue.map (forced w.now)) := by
    have := insertAll_perm ResetNode.time (w.queue.map (forced w.now)) []
    rw [append_nil] at this
    exact this
  refine ⟨insertAll_sorted .nil, ?_, ?_, ?_, ?_, hw.ids, ?_, hw.states⟩
  · have hnode : (·.node) ∘ forced w.now = (·.node) := funext (forced_node w.now)
    rw [(hperm.map _).nodup_iff, map_map, hnode]
    exact hw.nodup
  · intro x hx
    obtain ⟨n, hn, rfl⟩ := mem_map.mp (hperm.mem_iff.mp hx)
    rw [forced_node]
    exact hw.fresh n hn
  · intro x hx
    obtain ⟨n, hn, rfl⟩ := mem_map.mp (hperm.mem_iff.mp hx)
    have hright := hw.nodes n hn
    unfold NodeRight at hright
    split at hright
    · rename_i htype
      unfold forced NodeRight
      rw [if_pos htype, if_pos htype]
      exact ⟨hright.pos, hright.le, hright.mapId⟩
    · rename_i htype
      unfold forced NodeRight
      rw [if_neg htype, if_neg (by simp)]
      refine ⟨hright.instanceId, ?_, hright.entry⟩
      have hmem : n.event.mapid ∈
          (w.queue.filter (·.event.type ≠ .normalDungeon)).map (·.event.mapid) :=
        mem_map_of_mem (mem_filter.mpr ⟨hn, decide_eq_true htype⟩)
      have hfind : w.resetAllRaid.getResetTimeFor n.event.mapid =
          w.now + ResetEventType.forcedInform1.delay := by
        unfold getResetTimeFor resetAllRaid
        rw [find_foldl_insert (fun n : ResetNode => n.event.mapid), if_pos hmem]
        rfl
      show w.now = w.resetAllRaid.getResetTimeFor n.event.mapid - _
      rw [hfind]
      exact (add_sub_cancel_right _ _).symm
  · intro m hm hg
    rw [hperm.countP_eq, countP_map]
    exact (countP_congr fun n _ => by
      rw [Function.comp_apply, isGlobalOf_forced]).trans (hw.global m hm hg)
  · intro id i hi hraid
    rw [hperm.countP_eq, countP_map]
    exact (countP_congr fun n _ => by
      rw [Function.comp_apply, isEventOf_forced]).trans (hw.own id i hi hraid)

end ResetWorld

end Windrunner
