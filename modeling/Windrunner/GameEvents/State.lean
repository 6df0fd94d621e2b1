import Mathlib.Algebra.Group.Nat.Defs
import Mathlib.Data.Finset.Basic
import Windrunner.Lib.SortedMap

/-!
# Game events

An event is active in turns: for `length` minutes in every `occurence` minutes, from its start time
to its end time. While it is active, the objects that are tagged with it are in the grid and its
quests can be taken; the objects that are tagged with its negation are in the grid while it is not.

* `GameEventMgr.initialize`, `update`: what the server does at its start and in turns.
* `startEvent`, `stopEvent`, `enableEvent`: what a game master does.

`started` and `stopped` note what was overwritten; no step reads them. Announcements, mails, changed
equipment and scripts are left out, and so are the ids without an event.
-/

namespace Windrunner

open Lib

/-- A time given in minutes, as the `uint32` of its seconds. -/
def minutesInSeconds (minutes : Nat) : Int := ((minutes * 60 % 2 ^ 32 : Nat) : Int)

structure GameEventData where
  start : Int
  endTime : Int
  /-- In minutes. -/
  occurence : Nat
  /-- In minutes. -/
  length : Nat
  disabled : Nat
  leapDays : Nat
  valid : 0 < length
  deriving DecidableEq, Repr

namespace GameEventData

/-- `CheckOneGameEvent`. It divides by the seconds of `occurence` (`Defined`). -/
def check (e : GameEventData) (currenttime : Int) : Bool :=
  e.start ≤ currenttime && currenttime < e.endTime &&
    (currenttime - e.start - e.leapDays * 86400).tmod (minutesInSeconds e.occurence) <
      minutesInSeconds e.length

/-- What `Update` looks at can be computed: no `% 0` in `CheckOneGameEvent` and `NextCheck`. -/
def Defined (e : GameEventData) (now : Int) : Prop :=
  e.disabled = 0 → e.start ≤ now → now ≤ e.endTime → minutesInSeconds e.occurence ≠ 0

instance (e : GameEventData) (now : Int) : Decidable (e.Defined now) := by
  unfold Defined
  infer_instance

def overwriteStart (e : GameEventData) (now : Int) : GameEventData :=
  { e with start := now, endTime := if e.endTime ≤ now then now + e.length else e.endTime }

def overwriteStop (e : GameEventData) (now : Int) : GameEventData :=
  { e with
    start := now - minutesInSeconds e.length
    endTime := if e.endTime ≤ now - minutesInSeconds e.length then
      now - minutesInSeconds e.length + e.length else e.endTime }

/-- The end of what a start with overwriting promises: its length, or the end time if that is
earlier and still ahead. -/
def promisedEnd (e : GameEventData) (now : Int) : Int :=
  if e.endTime ≤ now then now + e.length * 60 else min (now + e.length * 60) e.endTime

end GameEventData

/-- The tables of the objects and quests of events, less what does not exist or is in a pool, and
what else is in the grid or can be taken once they are loaded. -/
structure GameEventTables where
  /-- `game_event_creature`: event, or the negation of one, and guid. -/
  creatures : List (Int × Nat)
  /-- `game_event_gameobject`. -/
  gameobjects : List (Int × Nat)
  /-- `game_event_quest`. -/
  quests : List (Nat × Nat)
  creatureGrid : Finset Nat := ∅
  gameobjectGrid : Finset Nat := ∅
  activeQuests : Finset Nat := ∅
  creatures_once : ∀ a ∈ creatures, ∀ b ∈ creatures, a.2 = b.2 → a.1 = b.1
  gameobjects_once : ∀ a ∈ gameobjects, ∀ b ∈ gameobjects, a.2 = b.2 → a.1 = b.1
  quests_once : ∀ a ∈ quests, ∀ b ∈ quests, a.2 = b.2 → a.1 = b.1
  creatures_out : ∀ a ∈ creatures, a.2 ∉ creatureGrid
  gameobjects_out : ∀ a ∈ gameobjects, a.2 ∉ gameobjectGrid
  quests_out : ∀ a ∈ quests, a.2 ∉ activeQuests

/-- The rows of `game_event`; the id 0 is reserved. -/
structure GameEventList where
  map : SortedMap Nat GameEventData
  id_pos : ∀ event ∈ map.keys, 0 < event

/-- The guids or quests that are listed for the event. -/
def listedFor {ι : Type} [DecidableEq ι] (rows : List (ι × Nat)) (event : ι) : Finset Nat :=
  ((rows.filter (·.1 = event)).map (·.2)).toFinset

structure GameEventMgr (tables : GameEventTables) where
  events : SortedMap Nat GameEventData
  activeEvents : Finset Nat := ∅
  /-- The rows of `game_event_status`. -/
  status : Finset Nat
  creatureGrid : Finset Nat := tables.creatureGrid
  gameobjectGrid : Finset Nat := tables.gameobjectGrid
  activeQuests : Finset Nat := tables.activeQuests
  isGameEventsInit : Bool := false
  /-- The last start with overwriting: its time, and until when the event is to stay active. -/
  started : SortedMap Nat (Int × Int) := ∅
  /-- The last stop with overwriting. -/
  stopped : SortedMap Nat Int := ∅

namespace GameEventMgr

variable {tables : GameEventTables}

variable (w : GameEventMgr tables) (event : Nat)

/-- An id or its negation as the `int16` that the two functions below take -/
def toInt16 (event : Int) : Int := event.bmod 65536

def gameEventSpawn (event : Int) : GameEventMgr tables :=
  { w with
    creatureGrid := w.creatureGrid ∪ listedFor tables.creatures event
    gameobjectGrid := w.gameobjectGrid ∪ listedFor tables.gameobjects event }

def gameEventUnspawn (event : Int) : GameEventMgr tables :=
  { w with
    creatureGrid := w.creatureGrid \ listedFor tables.creatures event
    gameobjectGrid := w.gameobjectGrid \ listedFor tables.gameobjects event }

def updateEventQuests (activate : Bool) :
    GameEventMgr tables :=
  { w with
    activeQuests :=
      if activate then w.activeQuests ∪ listedFor tables.quests event
      else w.activeQuests \ listedFor tables.quests event }

def applyNewEvent : GameEventMgr tables :=
  ((({ w with
      activeEvents := insert event w.activeEvents
      status := insert event w.status }).gameEventSpawn (toInt16 event)).gameEventUnspawn
    (toInt16 (-event))).updateEventQuests event true

def unApplyEvent : GameEventMgr tables :=
  ((({ w with
      activeEvents := w.activeEvents.erase event
      status := w.status.erase event }).gameEventUnspawn (toInt16 event)).gameEventSpawn
    (toInt16 (-event))).updateEventQuests event false

/-- `StartEvent`, at the time `now`. -/
def startEvent (overwrite : Bool) (now : Int) :
    GameEventMgr tables :=
  match w.events.find event with
  | some e =>
    if overwrite then
      { w.applyNewEvent event with
        events := w.events.insert event (e.overwriteStart now)
        started := w.started.insert event (now, e.promisedEnd now)
        stopped := w.stopped.erase event }
    else w.applyNewEvent event
  | none => w

/-- `StopEvent`, at the time `now`. -/
def stopEvent (overwrite : Bool) (now : Int) :
    GameEventMgr tables :=
  match w.events.find event with
  | some e =>
    if overwrite then
      { w.unApplyEvent event with
        events := w.events.insert event (e.overwriteStop now)
        started := w.started.erase event
        stopped := w.stopped.insert event now }
    else w.unApplyEvent event
  | none => w

/-- The event is to stay active at the time `now`. -/
def Promised (now : Int) : Prop :=
  ∃ p ∈ w.started.find event, p.1 ≤ now ∧ now < p.2

instance (now : Int) : Decidable (w.Promised event now) := by
  unfold Promised
  infer_instance

/-- What a call of `EnableEvent` leaves of the promises: disabling ends them. -/
def promisesKept (enable : Bool) (now : Int) :
    SortedMap Nat (Int × Int) :=
  if enable = true ∧ w.Promised event now then w.started else w.started.erase event

/-- The flag that `EnableEvent` writes. -/
def disabledFlag (enable : Bool) : Nat := if enable then 0 else 1

def setDisabled (e : GameEventData) (enable : Bool) :
    GameEventMgr tables :=
  { w with events := w.events.insert event { e with disabled := disabledFlag enable } }

/-- `EnableEvent`; an active event is stopped also when it is enabled. -/
def enableEvent (enable : Bool) (now : Int) :
    GameEventMgr tables :=
  match w.events.find event with
  | some e =>
    if e.disabled = disabledFlag enable then w
    else if event ∉ w.activeEvents then
      { w.setDisabled event e enable with started := w.promisesKept event enable now }
    else
      { (w.setDisabled event e enable).stopEvent event true now with
        started := w.promisesKept event enable now }
  | none => w

/-- The turn of one event in `Update`. -/
def updateEvent (now : Int) (w : GameEventMgr tables) (event : Nat) : GameEventMgr tables :=
  match w.events.find event with
  | some e =>
    if e.disabled ≠ 0 then w
    else if e.check now then
      if event ∉ w.activeEvents then w.startEvent event false now else w
    else if event ∈ w.activeEvents then w.stopEvent event false now
    else if w.isGameEventsInit = false then w.gameEventSpawn (toInt16 (-event))
    else w
  | none => w

/-- An `Update` does not divide by zero. -/
def Defined (now : Int) : Prop := ∀ x ∈ w.events.entries, x.2.Defined now

instance (now : Int) : Decidable (w.Defined now) := by
  unfold Defined
  infer_instance

def update (now : Int) : GameEventMgr tables :=
  w.events.keys.foldl (updateEvent now) w

/-- `TRUNCATE game_event_status`, when all events are inactive. -/
def cleared : GameEventMgr tables :=
  { w with activeEvents := ∅, status := ∅ }

/-- `Initialize`: what was active at the shutdown only decides on the mails. -/
def initialise (now : Int) : GameEventMgr tables :=
  { w.cleared.update now with isGameEventsInit := true }

/-- After `LoadFromDB`. -/
def load (tables : GameEventTables) (list : GameEventList) (status : Finset Nat) :
    GameEventMgr tables := { events := list.map, status := status }

end GameEventMgr

/-- What can happen, each at its time. -/
inductive GameEventInput where
  | update (now : Int)
  | startEvent (event : Nat) (now : Int)
  | stopEvent (event : Nat) (now : Int)
  | enableEvent (event : Nat) (enable : Bool) (now : Int)
  deriving DecidableEq, Repr

def GameEventMgr.step {tables : GameEventTables} (w : GameEventMgr tables) :
    GameEventInput → GameEventMgr tables
  | .update now => w.update now
  | .startEvent event now => w.startEvent event true now
  | .stopEvent event now => w.stopEvent event true now
  | .enableEvent event enable now => w.enableEvent event enable now

end Windrunner
