import Mathlib.Data.List.Nodup
import Windrunner.Lib.SortedMap
import Windrunner.Lib.TimerQueue

/-!
# The reset queue of the dungeons

An instance of a normal dungeon has an event of its own while nobody is inside; a map with a reset
delay has one event for all its instances, which is a warning at first and the reset last.

* `DungeonResetScheduler`: `scheduleAllDungeonResets`, `scheduleReset`, `update`, `resetAllRaid`.
* `DungeonMap`: `enter`, `leave`, `reset`; the map and the state of an instance come and go
  (`create`, `load`, `unload`, `reloadState`, `bind`, `unbind`).

`node`, `processed` and `resetDone` are notes that no step reads. What the players are sent is left
out, and an instance that is still known can be loaded at any time.
-/

namespace Windrunner

open Lib

inductive ResetEventType where
  | normalDungeon
  | inform1
  | inform2
  | inform3
  | informLast
  | forcedInform1
  | forcedInform2
  | forcedInform3
  | forcedInformLast
  deriving DecidableEq, Repr

namespace ResetEventType

/-- `resetEventTypeDelay`, in seconds. -/
def delay : ResetEventType → Int
  | normalDungeon => 0
  | inform1 => 3600
  | inform2 => 900
  | inform3 => 300
  | informLast => 60
  | forcedInform1 => 60
  | forcedInform2 => 30
  | forcedInform3 => 10
  | forcedInformLast => 5

/-- `ResetEventType(type + 1)`; the last has none. -/
def next : ResetEventType → ResetEventType
  | normalDungeon => inform1
  | inform1 => inform2
  | inform2 => inform3
  | inform3 => informLast
  | informLast => forcedInform1
  | forcedInform1 => forcedInform2
  | forcedInform2 => forcedInform3
  | forcedInform3 => forcedInformLast
  | forcedInformLast => forcedInformLast

/-- The event resets, and does not only warn. -/
def isLast : ResetEventType → Bool
  | informLast | forcedInformLast => true
  | _ => false

/-- The event that ends the warnings this one belongs to. -/
def last : ResetEventType → ResetEventType
  | normalDungeon => normalDungeon
  | inform1 | inform2 | inform3 | informLast => informLast
  | forcedInform1 | forcedInform2 | forcedInform3 | forcedInformLast => forcedInformLast

end ResetEventType

inductive MapType where
  | common
  | «instance» : MapType
  | raid
  | battleground
  deriving DecidableEq, Repr

structure MapEntry where
  id : Nat
  mapType : MapType
  /-- In days. -/
  resetDelay : Nat
  deriving DecidableEq, Repr

namespace MapEntry

def isDungeon (m : MapEntry) : Bool := m.mapType = .«instance» || m.mapType = .raid

def isRaid (m : MapEntry) : Bool := m.mapType = .raid

/-- All instances of the map are reset together. -/
def hasGlobalReset (m : MapEntry) : Bool := m.isDungeon && m.resetDelay != 0

end MapEntry

/-- The maps, and the hour of the day at which they are reset. -/
structure ResetSettings where
  maps : List MapEntry
  nodup : (maps.map (·.id)).Nodup
  instanceResetTimeHour : Nat

/-- `DungeonResetEvent`; the instance of a global event is 0. -/
structure DungeonResetEvent where
  type : ResetEventType
  mapid : Nat
  instanceId : Nat
  deriving DecidableEq, Repr

/-- The operator `==`, which does not look at the type. -/
def DungeonResetEvent.same (a b : DungeonResetEvent) : Bool :=
  b.mapid = a.mapid && b.instanceId = a.instanceId

/-- An element of `m_resetTimeQueue`, numbered. -/
structure ResetNode where
  time : Int
  event : DungeonResetEvent
  node : Nat
  deriving DecidableEq, Repr

/-- What a turn of the loop processed, and the element it erased. -/
structure ProcessedEvent where
  node : Nat
  time : Int
  erased : Option Nat
  deriving DecidableEq, Repr

inductive InstanceResetMethod where
  | all
  | global
  | groupDisband
  | groupJoin
  | respawnDelay
  deriving DecidableEq, Repr

/-- The state of an instance, with its map while it is loaded. -/
structure DungeonInstance where
  mapId : Nat
  resetTime : Int
  /-- The reset time in the row of `instance`. -/
  resetTimeDB : Int
  loaded : Bool := false
  players : Nat := 0
  resetAfterUnload : Bool := false
  /-- A character or a group is bound to it, or it has respawn times. -/
  saved : Bool := true
  /-- Its event was processed while the map was loaded, and nobody has entered since. -/
  resetDone : Bool := false
  deriving DecidableEq, Repr

/-- `DungeonMap::Reset`; when the map unloads is left open. -/
def DungeonInstance.reset (i : DungeonInstance) (method : InstanceResetMethod) : DungeonInstance :=
  if i.players ≠ 0 ∧ method = .all then i else { i with resetAfterUnload := true }

/-- What `_ResetOrWarnAll` leaves of a loaded map. -/
def DungeonInstance.resetGlobal (i : DungeonInstance) : DungeonInstance :=
  { { i with players := 0 }.reset .global with saved := false }

structure ResetWorld where
  now : Int
  queue : List ResetNode := []
  nextNode : Nat := 0
  resetTimeByMapId : SortedMap Nat Int
  instances : SortedMap Nat DungeonInstance
  maxInstanceId : Nat
  processed : List ProcessedEvent := []

/-! ## Times -/

namespace ResetSettings

variable (cfg : ResetSettings)

abbrev minute : Int := 60
abbrev hour : Nat := 3600
abbrev day : Int := 86400

def lookupEntry (mapId : Nat) : Option MapEntry := cfg.maps.find? (·.id = mapId)

def isRaid (mapId : Nat) : Bool := (cfg.lookupEntry mapId).any (·.isRaid)

/-- Seconds in a `uint32`. -/
def diff : Int := ((cfg.instanceResetTimeHour * hour % 2 ^ 32 : Nat) : Int)

/-- Seconds in a `uint32`. -/
def getMaxResetTimeFor (m : MapEntry) : Int := ((m.resetDelay * 86400 % 2 ^ 32 : Nat) : Int)

def calculateNextResetTime (m : MapEntry) (prevResetTime : Int) : Int :=
  (prevResetTime + minute).tdiv day * day + getMaxResetTimeFor m + cfg.diff

/-- The reset time that `ScheduleAllDungeonResets` gives a map whose row has the time `t`. -/
def firstResetTime (m : MapEntry) (now t : Int) : Int :=
  let today := now.tdiv day * day
  let t := if t = 0 then today + getMaxResetTimeFor m + cfg.diff else t
  if t < now then
    t.tdiv day * day +
      ((today - t.tdiv day * day).tdiv (getMaxResetTimeFor m) + 1) * getMaxResetTimeFor m + cfg.diff
  else t

end ResetSettings

/-- The first warning that is still to come, or else the reset. -/
def firstInform (resetTime now : Int) : ResetEventType :=
  ([.inform1, .inform2, .inform3].find? fun type => now < resetTime - type.delay).getD .informLast

namespace ResetWorld

variable (cfg : ResetSettings)

variable (w : ResetWorld) (id : Nat)

def getResetTimeFor (mapid : Nat) : Int := (w.resetTimeByMapId.find mapid).getD 0

def setResetTimeFor (mapid : Nat) (t : Int) : ResetWorld :=
  { w with resetTimeByMapId := w.resetTimeByMapId.insert mapid t }

/-! ## The queue -/

def insertNode (time : Int) (event : DungeonResetEvent) : ResetWorld :=
  { w with
    queue := insertAfter (·.time) ⟨time, event, w.nextNode⟩ w.queue
    nextNode := w.nextNode + 1 }

/-- An event that is not at its time is looked for in the whole queue. -/
def cancelNode (time : Int) (event : DungeonResetEvent) : ResetWorld :=
  { w with queue := eraseAt (·.time) (fun n => n.event.same event) time w.queue }

def scheduleReset (add : Bool) (time : Int) (event : DungeonResetEvent) :
    ResetWorld :=
  if add then w.insertNode time event else w.cancelNode time event

/-- `event.type = type`, in the element itself. -/
def retype (node : Nat) (type : ResetEventType) : ResetWorld :=
  { w with queue := w.queue.map fun n =>
      if n.node = node then { n with event := { n.event with type := type } } else n }

/-- `m_resetTimeQueue.erase(m_resetTimeQueue.begin())`, at the end of a turn. -/
def eraseFront (front : ResetNode) : ResetWorld :=
  { w with
    queue := w.queue.tail
    processed := w.processed ++ [⟨front.node, front.time, w.queue.head?.map (·.node)⟩] }

/-! ## Maps of instances -/

def modifyInstance (f : DungeonInstance → DungeonInstance) :
    ResetWorld :=
  { w with instances := w.instances.modify id f }

def eraseInstance : ResetWorld :=
  { w with instances := w.instances.erase id }

/-- `DungeonMap::SetResetSchedule`. -/
def setResetSchedule (on : Bool) (id : Nat) : ResetWorld :=
  match w.instances.find id with
  | some i =>
    if i.players = 0 ∧ cfg.isRaid i.mapId = false then
      w.scheduleReset on i.resetTime ⟨.normalDungeon, i.mapId, id⟩
    else w
  | none => w

/-- `DungeonMap::Add`. -/
def enter : ResetWorld :=
  match w.instances.find id with
  | some i =>
    if i.loaded = true ∧ i.resetAfterUnload = false then
      (w.setResetSchedule cfg false id).modifyInstance id fun i =>
        { i with
          players := i.players + 1, resetAfterUnload := false, saved := true, resetDone := false }
    else w
  | none => w

/-- `DungeonMap::Remove`. -/
def leave (w : ResetWorld) (id : Nat) : ResetWorld :=
  match w.instances.find id with
  | some i =>
    if i.loaded = true ∧ i.players ≠ 0 then
      (w.modifyInstance id fun i =>
        { i with players := i.players - 1 }).setResetSchedule cfg true id
    else w
  | none => w

/-- A player without an instance gets a new one: `AddPersistentState` for an id not seen before. -/
def create (mapId : Nat) : ResetWorld :=
  match cfg.lookupEntry mapId with
  | some m =>
    if m.isDungeon = false then w
    else if m.isRaid then
      { w with
        maxInstanceId := w.maxInstanceId + 1
        instances := w.instances.insert (w.maxInstanceId + 1)
          { mapId := mapId, resetTime := 0, resetTimeDB := 0, loaded := true, saved := false } }
    else
      { w.scheduleReset true (w.now + 2 * 3600) ⟨.normalDungeon, mapId, w.maxInstanceId + 1⟩ with
        maxInstanceId := w.maxInstanceId + 1
        instances := w.instances.insert (w.maxInstanceId + 1)
          { mapId := mapId, resetTime := w.now + 2 * 3600, resetTimeDB := w.now + 2 * 3600
            loaded := true, saved := false } }
  | none => w

/-- A map for a known instance; the state is the old one, so nothing is scheduled. -/
def load : ResetWorld := w.modifyInstance id fun i =>
  if i.loaded then i else { i with loaded := true, resetAfterUnload := false }

/-- The map is deleted, and the state with it when nothing is bound to it. -/
def unload : ResetWorld :=
  match w.instances.find id with
  | some i =>
    if i.loaded = true ∧ i.players = 0 then
      if i.saved then
        w.modifyInstance id fun i => { i with loaded := false, resetAfterUnload := false }
      else w.eraseInstance id
    else w
  | none => w

/-- The state is dropped and read again from its row. -/
def reloadState : ResetWorld := w.modifyInstance id fun i =>
  if i.loaded then i else { i with resetTime := i.resetTimeDB }

def bind : ResetWorld := w.modifyInstance id fun i =>
  { i with saved := true }

/-- The last binding goes. -/
def unbind : ResetWorld :=
  match w.instances.find id with
  | some i =>
    if i.loaded then w.modifyInstance id fun i => { i with saved := false } else w.eraseInstance id
  | none => w

/-- `Map::BindToInstanceOrRaid`, when a creature dies. -/
def bindToInstanceOrRaid (objectResetTime : Int) : ResetWorld :=
  w.modifyInstance id fun i =>
    if cfg.isRaid i.mapId = false ∧ i.resetTime < objectResetTime + 2 * 3600 then
      { i with resetTime := objectResetTime + 2 * 3600 }
    else i

/-- `DungeonMap::Reset` of a loaded map, asked for by a player or a group. -/
def resetMap (method : InstanceResetMethod) : ResetWorld :=
  w.modifyInstance id fun i => if i.loaded then i.reset method else i

/-! ## Resets -/

/-- `_ResetInstance`: a loaded map is only told to unload. -/
def resetInstance (mapid instanceId : Nat) : ResetWorld :=
  match w.instances.find instanceId with
  | some i =>
    if mapid ≠ i.mapId then w
    else if i.loaded then
      w.modifyInstance instanceId fun i => { i.reset .respawnDelay with resetDone := true }
    else w.eraseInstance instanceId
  | none => w

/-- The loaded instances of the map that have players inside and are not of a raid. -/
def leavers (mapid : Nat) : List (Nat × DungeonInstance) :=
  w.instances.entries.filter fun e =>
    e.2.mapId = mapid && e.2.loaded && e.2.players != 0 && !cfg.isRaid mapid

/-- `_ResetOrWarnAll` at the reset: of the maps that are loaded, all players are teleported away,
the last one through `setResetSchedule`; the other instances are gone with their binds. -/
def resetAll (mapid : Nat) : ResetWorld :=
  { (w.leavers cfg mapid).foldl
      (fun w e => w.scheduleReset true e.2.resetTime ⟨.normalDungeon, mapid, e.1⟩) w with
    instances := (w.instances.filter fun _ i => i.mapId ≠ mapid || i.loaded).mapVal fun _ i =>
      if i.mapId = mapid then i.resetGlobal else i }

/-- The event gets its next type in place, and a copy of it the time of that type. -/
def followUp (front : ResetNode) (type : ResetEventType) (resetTime : Int) :
    ResetWorld :=
  (w.retype front.node type).scheduleReset true (resetTime - type.delay)
    { front.event with type := type }

/-- The body of the loop of `Update`, without the erasing. -/
def processEvent (front : ResetNode) : ResetWorld :=
  if front.event.type = .normalDungeon then
    w.resetInstance front.event.mapid front.event.instanceId
  else if front.event.type.isLast = false then
    w.followUp front front.event.type.next (w.getResetTimeFor front.event.mapid)
  else
    match cfg.lookupEntry front.event.mapid with
    | some m =>
      ((w.resetAll cfg front.event.mapid).setResetTimeFor front.event.mapid
        (cfg.calculateNextResetTime m (w.getResetTimeFor front.event.mapid))).followUp front
        (firstInform (cfg.calculateNextResetTime m (w.getResetTimeFor front.event.mapid)) w.now)
        (cfg.calculateNextResetTime m (w.getResetTimeFor front.event.mapid))
    | none => w

/-- The front event, if its time is before now. -/
def due : Option ResetNode := w.queue.head?.filter (·.time < w.now)

/-- One turn of the loop. -/
def turn : Option ResetWorld :=
  w.due.map fun front => (w.processEvent cfg front).eraseFront front

/-- A bound on the turns: no turn leaves as many seconds for which events are late, those included
that the players inside would leave behind. -/
def lateSeconds : Nat :=
  (w.queue.map fun n => (w.now - n.time).toNat).sum +
    (w.instances.entries.map fun e =>
      if e.2.players = 0 then 0 else (w.now - e.2.resetTime).toNat).sum

def update : ResetWorld :=
  drain (turn cfg) w.lateSeconds { w with processed := [] }

/-- `ResetAllRaid`: every global event becomes the first forced one, at once. -/
def resetAllRaid : ResetWorld :=
  { w with
    queue := insertAll (·.time) (w.queue.map fun n =>
      if n.event.type = .normalDungeon then n
      else { n with time := w.now, event := { n.event with type := .forcedInform1 } }) []
    resetTimeByMapId := (w.queue.filter (·.event.type ≠ .normalDungeon)).foldl
      (fun m n => m.insert n.event.mapid (w.now + ResetEventType.forcedInform1.delay))
      w.resetTimeByMapId }

/-! ## Start -/

/-- A map gets its reset time and its first event. -/
def scheduleMap (m : MapEntry) : ResetWorld :=
  if m.hasGlobalReset then
    (w.setResetTimeFor m.id
        (cfg.firstResetTime m w.now (w.getResetTimeFor m.id))).scheduleReset true
      (cfg.firstResetTime m w.now (w.getResetTimeFor m.id) -
        (firstInform (cfg.firstResetTime m w.now (w.getResetTimeFor m.id)) w.now).delay)
      ⟨firstInform (cfg.firstResetTime m w.now (w.getResetTimeFor m.id)) w.now, m.id, 0⟩
  else w

end ResetWorld

/-- The table `instance` at a start: map and reset time by id. The ids are packed, and only the rows
of raids have no reset time. -/
structure InstanceTable (cfg : ResetSettings) where
  rows : SortedMap Nat (Nat × Int)
  id_pos : ∀ e ∈ rows.entries, 0 < e.1
  normal : ∀ e ∈ rows.entries, cfg.isRaid e.2.1 = false → e.2.2 ≠ 0

namespace ResetWorld

variable (cfg : ResetSettings)

/-- Before anything is scheduled. -/
def loadResetTimes (now : Int) (table : InstanceTable cfg) (resetTimes : SortedMap Nat Int) :
    ResetWorld where
  now := now
  resetTimeByMapId := resetTimes
  instances := table.rows.mapVal fun _ r => { mapId := r.1, resetTime := r.2, resetTimeDB := r.2 }
  maxInstanceId := table.rows.keys.foldl max 100

def scheduleRow (w : ResetWorld) (e : Nat × Nat × Int) : ResetWorld :=
  if e.2.2 = 0 then w else w.scheduleReset true e.2.2 ⟨.normalDungeon, e.2.1, e.1⟩

def scheduleAllDungeonResets (now : Int) (table : InstanceTable cfg)
    (resetTimes : SortedMap Nat Int) : ResetWorld :=
  cfg.maps.foldl (scheduleMap cfg)
    (table.rows.entries.foldl scheduleRow (loadResetTimes cfg now table resetTimes))

end ResetWorld

/-- What can happen, in any order. -/
inductive ResetInput where
  | tick (seconds : Nat)
  | update
  | resetAllRaid
  | create (mapId : Nat)
  | load (id : Nat)
  | unload (id : Nat)
  | reloadState (id : Nat)
  | bind (id : Nat)
  | unbind (id : Nat)
  | enter (id : Nat)
  | leave (id : Nat)
  | bindToInstanceOrRaid (id : Nat) (objectResetTime : Int)
  | resetMap (id : Nat) (method : InstanceResetMethod)
  deriving DecidableEq, Repr

def ResetWorld.step (cfg : ResetSettings) (w : ResetWorld) : ResetInput → ResetWorld
  | .tick seconds => { w with now := w.now + seconds }
  | .update => w.update cfg
  | .resetAllRaid => w.resetAllRaid
  | .create mapId => w.create cfg mapId
  | .load id => w.load id
  | .unload id => w.unload id
  | .reloadState id => w.reloadState id
  | .bind id => w.bind id
  | .unbind id => w.unbind id
  | .enter id => w.enter cfg id
  | .leave id => w.leave cfg id
  | .bindToInstanceOrRaid id objectResetTime => w.bindToInstanceOrRaid cfg id objectResetTime
  | .resetMap id method => w.resetMap id method

end Windrunner
