import Windrunner.GameEvents.State
import Windrunner.Lib.Run

/-!
# What is active is in the game

`Consistent`: the active events are the rows of `game_event_status`, and the objects and quests of
every event are in the game as they should. An operation on one event leaves all others as they are
(`Agree`), and `applyNewEvent_right` and `unApplyEvent_right` set one event right.

`UpdateRight` is about overwriting: an event that was started with it stays active for its length,
and one that was stopped with it is not restarted within a minute. The code does not give that

* when the end time had passed at the start, since the new one is `length` seconds later, not
  minutes;
* when a stopped event has leap days, or is never inactive, since it is then in its window at once;
* when a disabled event that was started is enabled, since that stops it.

And the objects of the negation of an event that is disabled at the start are never spawned. An
`Update` divides by zero between the times of an event whose `occurence` is no seconds, and an id that
is no `int16` finds the lists of another one.
-/

namespace Windrunner

open Lib Finset

namespace GameEventMgr

variable {tables : GameEventTables} (w w' : GameEventMgr tables)

/-! ## The property -/

/-- The objects and quests of the event are in the game as they should. -/
@[mk_iff]
structure EventRight (event : Nat) : Prop where
  creatures : ∀ a ∈ tables.creatures, a.1 = event → (a.2 ∈ w.creatureGrid ↔ event ∈ w.activeEvents)
  creaturesNot : ∀ a ∈ tables.creatures, a.1 = -event →
    (a.2 ∈ w.creatureGrid ↔ event ∉ w.activeEvents)
  gameobjects : ∀ a ∈ tables.gameobjects, a.1 = event →
    (a.2 ∈ w.gameobjectGrid ↔ event ∈ w.activeEvents)
  gameobjectsNot : ∀ a ∈ tables.gameobjects, a.1 = -event →
    (a.2 ∈ w.gameobjectGrid ↔ event ∉ w.activeEvents)
  quests : ∀ a ∈ tables.quests, a.1 = event → (a.2 ∈ w.activeQuests ↔ event ∈ w.activeEvents)

instance (event : Nat) : Decidable (w.EventRight event) :=
  decidable_of_iff _ (w.eventRight_iff event).symm

def Consistent : Prop := w.activeEvents = w.status ∧ ∀ event ∈ w.events.keys, w.EventRight event

instance : Decidable w.Consistent := by
  unfold Consistent
  infer_instance

variable (now : Int)

/-- What an `Update` at the time `now`, from `w` to `w'`, is to respect. -/
def UpdateRight : Prop :=
  (∀ p ∈ w.started.entries, p.2.1 ≤ now → now < p.2.2 → p.1 ∈ w'.activeEvents) ∧
  ∀ p ∈ w.stopped.entries, p.2 ≤ now → now < p.2 + 60 → p.1 ∉ w'.activeEvents

instance : Decidable (UpdateRight w w' now) := by
  unfold UpdateRight
  infer_instance

/-- The property of a step; an `Update` comes to its end. -/
def StepRight (i : GameEventInput) : Prop :=
  (w.step i).Consistent ∧
  match i with
  | .update now => w.Defined now ∧ UpdateRight w (w.step i) now
  | _ => True

instance : DecidablePred w.StepRight := fun i => by
  unfold StepRight
  cases i <;> infer_instance

/-! ## The condition -/

/-- An event that is to stay active, unless it is disabled: its end time is ahead. -/
def StartedFits (p : Nat × Int × Int) : Prop :=
  ∀ e ∈ w.events.find p.1, e.disabled = 0 → now < e.endTime ∧
    now - p.2.1 < minutesInSeconds e.length

instance (p : Nat × Int × Int) : Decidable (w.StartedFits now p) := by
  unfold StartedFits
  infer_instance

/-- An event that is to stay inactive, unless it is disabled or its end time has passed: it has no
leap days, and it is inactive for a time in its turns. -/
def StoppedFits (p : Nat × Int) : Prop :=
  ∀ e ∈ w.events.find p.1, e.disabled = 0 → now < e.endTime → e.leapDays = 0 ∧
    minutesInSeconds e.length + (now - p.2) < minutesInSeconds e.occurence

instance (p : Nat × Int) : Decidable (w.StoppedFits now p) := by
  unfold StoppedFits
  infer_instance

def UpdateFits : Prop :=
  (∀ p ∈ w.started.entries, p.2.1 ≤ now → now < p.2.2 → w.StartedFits now p) ∧
  ∀ p ∈ w.stopped.entries, p.2 ≤ now → now < p.2 + 60 → w.StoppedFits now p

instance : Decidable (w.UpdateFits now) := by
  unfold UpdateFits
  infer_instance

/-- No disabled event is enabled that is to stay active. -/
def StepFits : GameEventInput → Prop
  | .update now => w.Defined now ∧ w.UpdateFits now
  | .enableEvent event true now => ∀ e ∈ w.events.find event, e.disabled ≠ 0 →
      event ∈ w.activeEvents → ¬ w.Promised event now
  | _ => True

instance : (i : GameEventInput) → Decidable (w.StepFits i)
  | .update now => inferInstanceAs (Decidable (w.Defined now ∧ w.UpdateFits now))
  | .enableEvent event true now => inferInstanceAs (Decidable (∀ e ∈ w.events.find event,
      e.disabled ≠ 0 → event ∈ w.activeEvents → ¬ w.Promised event now))
  | .enableEvent _ false _ | .startEvent .. | .stopEvent .. => inferInstanceAs (Decidable True)

/-! ## One event and the others -/

variable {w w'}

/-- The event and what is listed for it and its negation are the same in `w'` as in `w`. -/
structure Agree (event : Nat) (w w' : GameEventMgr tables) : Prop where
  active : event ∈ w'.activeEvents ↔ event ∈ w.activeEvents
  creatures : ∀ a ∈ tables.creatures, a.1 = event ∨ a.1 = -event →
    (a.2 ∈ w'.creatureGrid ↔ a.2 ∈ w.creatureGrid)
  gameobjects : ∀ a ∈ tables.gameobjects, a.1 = event ∨ a.1 = -event →
    (a.2 ∈ w'.gameobjectGrid ↔ a.2 ∈ w.gameobjectGrid)
  quests : ∀ a ∈ tables.quests, a.1 = event → (a.2 ∈ w'.activeQuests ↔ a.2 ∈ w.activeQuests)

theorem Agree.refl (event : Nat) (w : GameEventMgr tables) : Agree event w w :=
  ⟨.rfl, fun _ _ _ => .rfl, fun _ _ _ => .rfl, fun _ _ _ => .rfl⟩

theorem Agree.of_eq (event : Nat) (ha : w'.activeEvents = w.activeEvents)
    (hc : w'.creatureGrid = w.creatureGrid) (hg : w'.gameobjectGrid = w.gameobjectGrid)
    (hq : w'.activeQuests = w.activeQuests) : Agree event w w' :=
  ⟨by rw [ha], fun _ _ _ => by rw [hc], fun _ _ _ => by rw [hg], fun _ _ _ => by rw [hq]⟩

theorem Agree.trans {event : Nat} {w'' : GameEventMgr tables} (h : Agree event w w')
    (h' : Agree event w' w'') : Agree event w w'' :=
  ⟨h'.active.trans h.active, fun a ha he => (h'.creatures a ha he).trans (h.creatures a ha he),
    fun a ha he => (h'.gameobjects a ha he).trans (h.gameobjects a ha he),
    fun a ha he => (h'.quests a ha he).trans (h.quests a ha he)⟩

theorem Agree.eventRight {event : Nat} (h : Agree event w w') (hw : w.EventRight event) :
    w'.EventRight event where
  creatures a ha he := by rw [h.creatures a ha (.inl he), h.active]; exact hw.creatures a ha he
  creaturesNot a ha he := by
    rw [h.creatures a ha (.inr he), h.active]; exact hw.creaturesNot a ha he
  gameobjects a ha he := by
    rw [h.gameobjects a ha (.inl he), h.active]; exact hw.gameobjects a ha he
  gameobjectsNot a ha he := by
    rw [h.gameobjects a ha (.inr he), h.active]; exact hw.gameobjectsNot a ha he
  quests a ha he := by rw [h.quests a ha he, h.active]; exact hw.quests a ha he

theorem mem_listedFor {ι : Type} [DecidableEq ι] {rows : List (ι × Nat)} {event : ι} {guid : Nat} :
    guid ∈ listedFor rows event ↔ (event, guid) ∈ rows := by
  unfold listedFor
  rw [List.mem_toFinset, List.mem_map]
  constructor
  · rintro ⟨a, ha, rfl⟩
    obtain ⟨hmem, heq⟩ := List.mem_filter.mp ha
    exact of_decide_eq_true heq ▸ hmem
  · intro h
    exact ⟨_, List.mem_filter.mpr ⟨h, decide_eq_true rfl⟩, rfl⟩

/-- What is listed for one event is not listed for another. -/
theorem listedFor_iff {ι : Type} [DecidableEq ι] {rows : List (ι × Nat)}
    (honce : ∀ a ∈ rows, ∀ b ∈ rows, a.2 = b.2 → a.1 = b.1) {a : ι × Nat} (ha : a ∈ rows)
    (event : ι) : a.2 ∈ listedFor rows event ↔ a.1 = event := by
  rw [mem_listedFor]
  constructor
  · intro h
    exact honce a ha _ h rfl
  · rintro rfl
    exact ha

/-- The id and its negation are the `int16` that their lists are found by. -/
def IsInt16 (event : Nat) : Prop := 0 < event ∧ event < 2 ^ 15

namespace IsInt16

variable {event : Nat}

theorem toInt16_eq (h : IsInt16 event) : toInt16 event = event :=
  Int.bmod_eq_of_le (by omega) (by have := h.2; omega)

theorem toInt16_neg (h : IsInt16 event) : toInt16 (-event) = -event :=
  Int.bmod_eq_of_le (by have := h.2; omega) (by omega)

end IsInt16

section Grid

variable {rows : List (Int × Nat)} {a : Int × Nat} {event : Nat} {x : Int} {grid : Finset Nat}

section

variable (honce : ∀ a ∈ rows, ∀ b ∈ rows, a.2 = b.2 → a.1 = b.1) (ha : a ∈ rows) (h : a.1 ≠ x)
include honce ha h

theorem mem_spawn_of_ne : a.2 ∈ grid ∪ listedFor rows x ↔ a.2 ∈ grid := by
  rw [mem_union, listedFor_iff honce ha, or_iff_left h]

theorem mem_unspawn_of_ne : a.2 ∈ grid \ listedFor rows x ↔ a.2 ∈ grid := by
  rw [mem_sdiff, listedFor_iff honce ha, and_iff_left h]

end

theorem mem_spawn (ha : a ∈ rows) : a.2 ∈ grid ∪ listedFor rows a.1 :=
  mem_union_right _ (mem_listedFor.mpr ha)

theorem notMem_unspawn (ha : a ∈ rows) : a.2 ∉ grid \ listedFor rows a.1 := fun h =>
  (mem_sdiff.mp h).2 (mem_listedFor.mpr ha)

theorem ne_neg (hpos : IsInt16 event) (h : a.1 = event) : a.1 ≠ -event := by
  have := hpos.1
  omega

end Grid

theorem ne_of_ne {c event : Nat} (h : c ≠ event) (hpos : IsInt16 event) {x y : Int}
    (hx : x = event ∨ x = -event) (hy : y = c ∨ y = -c) : y ≠ x := by
  have := hpos.1
  rcases hx with rfl | rfl <;> rcases hy with rfl | rfl <;> omega

theorem gameEventSpawn_agree {c event : Nat} (h : c ≠ event) (hpos : IsInt16 event) {x : Int}
    (hx : x = event ∨ x = -event) (w : GameEventMgr tables) : Agree c w (w.gameEventSpawn x) :=
  ⟨.rfl, fun _ ha he => mem_spawn_of_ne tables.creatures_once ha (ne_of_ne h hpos hx he),
    fun _ ha he => mem_spawn_of_ne tables.gameobjects_once ha (ne_of_ne h hpos hx he),
    fun _ _ _ => .rfl⟩

theorem gameEventUnspawn_agree {c event : Nat} (h : c ≠ event) (hpos : IsInt16 event) {x : Int}
    (hx : x = event ∨ x = -event) (w : GameEventMgr tables) : Agree c w (w.gameEventUnspawn x) :=
  ⟨.rfl, fun _ ha he => mem_unspawn_of_ne tables.creatures_once ha (ne_of_ne h hpos hx he),
    fun _ ha he => mem_unspawn_of_ne tables.gameobjects_once ha (ne_of_ne h hpos hx he),
    fun _ _ _ => .rfl⟩

theorem updateEventQuests_agree {c event : Nat} (h : c ≠ event) (activate : Bool)
    (w : GameEventMgr tables) : Agree c w (w.updateEventQuests event activate) := by
  refine ⟨.rfl, fun _ _ _ => .rfl, fun _ _ _ => .rfl, fun a ha he => ?_⟩
  have hne : a.2 ∉ listedFor tables.quests event := fun hl =>
    h (he.symm.trans ((listedFor_iff tables.quests_once ha event).mp hl))
  unfold updateEventQuests
  split
  · rw [mem_union, or_iff_left hne]
  · rw [mem_sdiff, and_iff_left hne]

/-- A start changes nothing of other events. -/
theorem applyNewEvent_agree {c event : Nat} (h : c ≠ event) (hpos : IsInt16 event)
    (w : GameEventMgr tables) : Agree c w (w.applyNewEvent event) := by
  have hinsert : Agree c w { w with
      activeEvents := insert event w.activeEvents, status := insert event w.status } :=
    ⟨by rw [mem_insert, or_iff_right h], fun _ _ _ => .rfl, fun _ _ _ => .rfl,
      fun _ _ _ => .rfl⟩
  exact ((hinsert.trans (gameEventSpawn_agree h hpos (.inl hpos.toInt16_eq) _)).trans
    (gameEventUnspawn_agree h hpos (.inr hpos.toInt16_neg) _)).trans (updateEventQuests_agree h true _)

/-- Nor does a stop. -/
theorem unApplyEvent_agree {c event : Nat} (h : c ≠ event) (hpos : IsInt16 event)
    (w : GameEventMgr tables) : Agree c w (w.unApplyEvent event) := by
  have herase : Agree c w { w with
      activeEvents := w.activeEvents.erase event, status := w.status.erase event } :=
    ⟨by rw [mem_erase, and_iff_right h], fun _ _ _ => .rfl, fun _ _ _ => .rfl,
      fun _ _ _ => .rfl⟩
  exact ((herase.trans (gameEventUnspawn_agree h hpos (.inl hpos.toInt16_eq) _)).trans
    (gameEventSpawn_agree h hpos (.inr hpos.toInt16_neg) _)).trans (updateEventQuests_agree h false _)

/-- An event that becomes active spawns its rows and removes those of its negation. -/
theorem grid_apply {rows : List (Int × Nat)} (honce : ∀ a ∈ rows, ∀ b ∈ rows, a.2 = b.2 → a.1 = b.1)
    {event : Nat} (hpos : IsInt16 event) (grid : Finset Nat) {a : Int × Nat} (ha : a ∈ rows) :
    (a.1 = event →
        a.2 ∈ (grid ∪ listedFor rows (toInt16 event)) \ listedFor rows (toInt16 (-event))) ∧
      (a.1 = -event →
        a.2 ∉ (grid ∪ listedFor rows (toInt16 event)) \ listedFor rows (toInt16 (-event))) := by
  rw [hpos.toInt16_eq, hpos.toInt16_neg]
  refine ⟨fun he => ?_, fun he => ?_⟩
  · rw [mem_unspawn_of_ne honce ha (ne_neg hpos he), ← he]
    exact mem_spawn ha
  · rw [← he]
    exact notMem_unspawn ha

theorem grid_unApply {rows : List (Int × Nat)}
    (honce : ∀ a ∈ rows, ∀ b ∈ rows, a.2 = b.2 → a.1 = b.1) {event : Nat} (hpos : IsInt16 event)
    (grid : Finset Nat) {a : Int × Nat} (ha : a ∈ rows) :
    (a.1 = event →
        a.2 ∉ (grid \ listedFor rows (toInt16 event)) ∪ listedFor rows (toInt16 (-event))) ∧
      (a.1 = -event →
        a.2 ∈ (grid \ listedFor rows (toInt16 event)) ∪ listedFor rows (toInt16 (-event))) := by
  rw [hpos.toInt16_eq, hpos.toInt16_neg]
  refine ⟨fun he => ?_, fun he => ?_⟩
  · rw [mem_spawn_of_ne honce ha (ne_neg hpos he), ← he]
    exact notMem_unspawn ha
  · rw [← he]
    exact mem_spawn ha

/-- Whatever was in the grids, an event that starts is right. -/
theorem applyNewEvent_right {event : Nat} (hpos : IsInt16 event) (w : GameEventMgr tables) :
    (w.applyNewEvent event).EventRight event := by
  have hactive : event ∈ (w.applyNewEvent event).activeEvents := mem_insert_self _ _
  have hc := @grid_apply _ tables.creatures_once _ hpos w.creatureGrid
  have hg := @grid_apply _ tables.gameobjects_once _ hpos w.gameobjectGrid
  refine ⟨fun a ha he => iff_of_true ((hc ha).1 he) hactive,
    fun a ha he => iff_of_false ((hc ha).2 he) (not_not.mpr hactive),
    fun a ha he => iff_of_true ((hg ha).1 he) hactive,
    fun a ha he => iff_of_false ((hg ha).2 he) (not_not.mpr hactive), fun a ha he => ?_⟩
  refine iff_of_true ?_ hactive
  show a.2 ∈ w.activeQuests ∪ _
  rw [mem_union, listedFor_iff tables.quests_once ha]
  exact .inr he

/-- So is one that stops. -/
theorem unApplyEvent_right {event : Nat} (hpos : IsInt16 event) (w : GameEventMgr tables) :
    (w.unApplyEvent event).EventRight event := by
  have hactive : event ∉ (w.unApplyEvent event).activeEvents := notMem_erase _ _
  have hc := @grid_unApply _ tables.creatures_once _ hpos w.creatureGrid
  have hg := @grid_unApply _ tables.gameobjects_once _ hpos w.gameobjectGrid
  refine ⟨fun a ha he => iff_of_false ((hc ha).1 he) hactive,
    fun a ha he => iff_of_true ((hc ha).2 he) hactive,
    fun a ha he => iff_of_false ((hg ha).1 he) hactive,
    fun a ha he => iff_of_true ((hg ha).2 he) hactive, fun a ha he => ?_⟩
  refine iff_of_false ?_ hactive
  show a.2 ∉ w.activeQuests \ _
  rw [mem_sdiff, listedFor_iff tables.quests_once ha]
  exact fun h => h.2 he

/-! ## The turns of `Update` -/

/-- Nothing that is listed for the event or its negation is in the game. -/
structure Fresh (event : Nat) (w : GameEventMgr tables) : Prop where
  active : event ∉ w.activeEvents
  creatures : ∀ a ∈ tables.creatures, a.1 = event ∨ a.1 = -event → a.2 ∉ w.creatureGrid
  gameobjects : ∀ a ∈ tables.gameobjects, a.1 = event ∨ a.1 = -event → a.2 ∉ w.gameobjectGrid
  quests : ∀ a ∈ tables.quests, a.1 = event → a.2 ∉ w.activeQuests

theorem Agree.fresh {event : Nat} (h : Agree event w w') (hw : Fresh event w) : Fresh event w' where
  active := mt h.active.mp hw.active
  creatures a ha he := mt (h.creatures a ha he).mp (hw.creatures a ha he)
  gameobjects a ha he := mt (h.gameobjects a ha he).mp (hw.gameobjects a ha he)
  quests a ha he := mt (h.quests a ha he).mp (hw.quests a ha he)

/-- Without objects of the negation there is nothing to spawn. -/
theorem Fresh.eventRight {event : Nat} (hw : Fresh event w)
    (hc : ∀ a ∈ tables.creatures, a.1 ≠ -event) (hg : ∀ a ∈ tables.gameobjects, a.1 ≠ -event) :
    w.EventRight event where
  creatures a ha he := iff_of_false (hw.creatures a ha (.inl he)) hw.active
  creaturesNot a ha he := absurd he (hc a ha)
  gameobjects a ha he := iff_of_false (hw.gameobjects a ha (.inl he)) hw.active
  gameobjectsNot a ha he := absurd he (hg a ha)
  quests a ha he := iff_of_false (hw.quests a ha he) hw.active

/-- The event is right already, or `Update` is the first and nothing is spawned yet. -/
def Ready (event : Nat) (w : GameEventMgr tables) : Prop :=
  w.EventRight event ∨ (w.isGameEventsInit = false ∧ Fresh event w)

theorem gameEventSpawn_right {event : Nat} (hpos : IsInt16 event)
    (hw : w.EventRight event ∨ Fresh event w)
    (hactive : event ∉ w.activeEvents) :
    (w.gameEventSpawn (toInt16 (-event))).EventRight event := by
  rw [hpos.toInt16_neg]
  refine ⟨fun a ha he => ?_, fun a ha he => iff_of_true (he ▸ mem_spawn ha) hactive,
    fun a ha he => ?_, fun a ha he => iff_of_true (he ▸ mem_spawn ha) hactive, fun a ha he => ?_⟩
  · refine (mem_spawn_of_ne tables.creatures_once ha (ne_neg hpos he)).trans ?_
    exact hw.elim (fun hw => hw.creatures a ha he) fun hw =>
      iff_of_false (hw.creatures a ha (.inl he)) hactive
  · refine (mem_spawn_of_ne tables.gameobjects_once ha (ne_neg hpos he)).trans ?_
    exact hw.elim (fun hw => hw.gameobjects a ha he) fun hw =>
      iff_of_false (hw.gameobjects a ha (.inl he)) hactive
  · exact hw.elim (fun hw => hw.quests a ha he) fun hw => iff_of_false (hw.quests a ha he) hactive

theorem startEvent_false {event : Nat} {e : GameEventData} (he : w.events.find event = some e)
    (now : Int) : w.startEvent event false now = w.applyNewEvent event := by
  unfold startEvent
  rw [he]
  rfl

theorem stopEvent_false {event : Nat} {e : GameEventData} (he : w.events.find event = some e)
    (now : Int) : w.stopEvent event false now = w.unApplyEvent event := by
  unfold stopEvent
  rw [he]
  rfl

/-- What the turns leave. -/
structure TurnKeeps (w w' : GameEventMgr tables) : Prop where
  events : w'.events = w.events
  started : w'.started = w.started
  stopped : w'.stopped = w.stopped
  init : w'.isGameEventsInit = w.isGameEventsInit
  status : w.activeEvents = w.status → w'.activeEvents = w'.status

theorem updateEvent_keeps (w : GameEventMgr tables) (event : Nat) :
    TurnKeeps w (updateEvent now w event) := by
  unfold updateEvent
  split
  · rename_i e he
    split_ifs
    · exact ⟨rfl, rfl, rfl, rfl, id⟩
    · exact ⟨rfl, rfl, rfl, rfl, id⟩
    · rw [startEvent_false he]
      exact ⟨rfl, rfl, rfl, rfl, fun h => congrArg (insert event) h⟩
    · rw [stopEvent_false he]
      exact ⟨rfl, rfl, rfl, rfl, fun h => congrArg (·.erase event) h⟩
    · exact ⟨rfl, rfl, rfl, rfl, id⟩
    · exact ⟨rfl, rfl, rfl, rfl, id⟩
  · exact ⟨rfl, rfl, rfl, rfl, id⟩

/-- An event's turn is its own. -/
theorem updateEvent_agree {c event : Nat} (h : c ≠ event) (hpos : IsInt16 event) (now : Int)
    (w : GameEventMgr tables) : Agree c w (updateEvent now w event) := by
  unfold updateEvent
  split
  · rename_i e he
    split_ifs
    · exact .refl c w
    · exact .refl c w
    · rw [startEvent_false he]
      exact applyNewEvent_agree h hpos w
    · rw [stopEvent_false he]
      exact unApplyEvent_agree h hpos w
    · exact gameEventSpawn_agree h hpos (.inr hpos.toInt16_neg) w
    · exact .refl c w
  · exact .refl c w

/-- A turn makes the event active exactly in its window, and right. -/
theorem updateEvent_right {event : Nat} {e : GameEventData} (hpos : IsInt16 event)
    (he : w.events.find event = some e) (hd : e.disabled = 0) (now : Int) :
    (event ∈ (updateEvent now w event).activeEvents ↔ e.check now = true) ∧
      (Ready event w → (updateEvent now w event).EventRight event) := by
  unfold updateEvent
  rw [he]
  dsimp only
  rw [if_neg (not_not.mpr hd)]
  split_ifs with hcheck hactive hactive hinit
  · exact ⟨iff_of_true hactive hcheck, fun h => h.elim id fun h => absurd hactive h.2.active⟩
  · rw [startEvent_false he]
    exact ⟨iff_of_true (mem_insert_self _ _) hcheck, fun _ => applyNewEvent_right hpos w⟩
  · rw [stopEvent_false he]
    exact ⟨iff_of_false (notMem_erase _ _) hcheck, fun _ => unApplyEvent_right hpos w⟩
  · exact ⟨iff_of_false hactive hcheck, fun h =>
      gameEventSpawn_right hpos (h.imp_right And.right) hactive⟩
  · exact ⟨iff_of_false hactive hcheck, fun h => h.elim id fun h => absurd h.1 hinit⟩

theorem updateEvent_disabled {event : Nat} {e : GameEventData} (he : w.events.find event = some e)
    (hd : e.disabled ≠ 0) (now : Int) : updateEvent now w event = w := by
  unfold updateEvent
  rw [he]
  exact if_pos hd

/-- What the loop of `Update` does to an event that it comes to, or does not come to. -/
theorem foldl_updateEvent {ks : List Nat} (hnd : ks.Nodup) (hpos : ∀ k ∈ ks, IsInt16 k)
    (w : GameEventMgr tables) :
    TurnKeeps w (ks.foldl (updateEvent now) w) ∧
    (∀ c ∉ ks, Agree c w (ks.foldl (updateEvent now) w)) ∧
    ∀ c ∈ ks, ∀ e, w.events.find c = some e →
      (e.disabled ≠ 0 → Agree c w (ks.foldl (updateEvent now) w)) ∧
      (e.disabled = 0 → (c ∈ (ks.foldl (updateEvent now) w).activeEvents ↔ e.check now = true) ∧
        (Ready c w → (ks.foldl (updateEvent now) w).EventRight c)) := by
  induction ks generalizing w with
  | nil =>
    exact ⟨⟨rfl, rfl, rfl, rfl, id⟩, fun c _ => .refl c w, nofun⟩
  | cons k ks ih =>
    obtain ⟨hk, hnd⟩ := List.nodup_cons.mp hnd
    have hkpos := hpos k List.mem_cons_self
    have hkeeps := updateEvent_keeps now w k
    obtain ⟨hfold, hother, hmem⟩ := ih hnd (fun c hc => hpos c (List.mem_cons_of_mem k hc))
      (updateEvent now w k)
    rw [List.foldl_cons]
    refine ⟨⟨hfold.events.trans hkeeps.events, hfold.started.trans hkeeps.started,
      hfold.stopped.trans hkeeps.stopped, hfold.init.trans hkeeps.init,
      fun h => hfold.status (hkeeps.status h)⟩, fun c hc => ?_, fun c hc e he => ?_⟩
    · obtain ⟨hne, hc⟩ := not_or.mp (mt List.mem_cons.mpr hc)
      exact (updateEvent_agree hne hkpos now w).trans (hother c hc)
    · rcases List.mem_cons.mp hc with rfl | hc
      · have hrest := hother c hk
        refine ⟨fun hd => ?_, fun hd => ?_⟩
        · rw [updateEvent_disabled he hd] at hrest ⊢
          exact hrest
        · obtain ⟨hactive, hright⟩ := updateEvent_right hkpos he hd now
          exact ⟨hrest.active.trans hactive, fun h => hrest.eventRight (hright h)⟩
      · have hne : c ≠ k := fun h => hk (h ▸ hc)
        have hagree := updateEvent_agree hne hkpos now w
        obtain ⟨hdis, hen⟩ := hmem c hc e (by rw [hkeeps.events]; exact he)
        refine ⟨fun hd => hagree.trans (hdis hd), fun hd => ⟨(hen hd).1, fun h => (hen hd).2 ?_⟩⟩
        exact h.imp hagree.eventRight fun h => ⟨hkeeps.init.trans h.1, hagree.fresh h.2⟩

end GameEventMgr

end Windrunner
