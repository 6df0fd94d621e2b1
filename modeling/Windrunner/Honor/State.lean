import Mathlib.Data.Rat.Defs
import Mathlib.Data.UInt
import Windrunner.Lib.SortedMap

/-!
# Honor: kills, stored counters and the weekly maintenance

A kill is a row of `character_honor_cp` until the maintenance adds it to a counter of the
`characters` row. `HonorWorld` is the realm: the database, the maintenance days, the players in the
game, and what happened (`history`, which no step reads).

* `HonorMgr.update`: the totals that the player sees.
* `loadWeeklyScores`, `flushRankPoints`: the maintenance, which runs at a server start.
* `HonorWorld.step`: what can happen. A server start needs all players offline, and a logout saves.

Rank points, contribution points and the currency are left out.
-/

namespace Windrunner

open Lib

inductive HonorType where
  | honorable
  | dishonorable
  | bonus
  | quest
  | other
  deriving DecidableEq, Repr

/-- An honor record. -/
structure HonorCP where
  victimType : Nat
  victimId : Nat
  date : Nat
  type : HonorType
  /-- `STATE_NEW`: not in the table yet. -/
  isNew : Bool := false
  deriving DecidableEq, Repr

/-- The record as it is once it is saved. -/
def HonorCP.unchanged (c : HonorCP) : HonorCP := { c with isNew := false }

/-! ## The player's side -/

/-- The kill counters are `uint32` in the source, and numbers here: 2^32 kills are out of reach. -/
structure HonorMgr where
  honorCP : List HonorCP
  storedHK : Nat
  storedDK : Nat
  totalHK : Nat := 0
  totalDK : Nat := 0
  todayHK : Nat := 0
  todayDK : Nat := 0
  yesterdayKills : Nat := 0
  thisWeekKills : Nat := 0
  deriving DecidableEq, Repr

namespace HonorMgr

/-- One record in the loop of `Update`. -/
def count (today thisWeekBegin : Nat) (m : HonorMgr) (c : HonorCP) : HonorMgr :=
  match c.type with
  | .honorable =>
    { m with
      todayHK := if c.date = today then m.todayHK + 1 else m.todayHK
      yesterdayKills := if c.date = today - 1 then m.yesterdayKills + 1 else m.yesterdayKills
      thisWeekKills := if thisWeekBegin ≤ c.date then m.thisWeekKills + 1 else m.thisWeekKills
      totalHK := if thisWeekBegin ≤ c.date then m.totalHK + 1 else m.totalHK }
  | .dishonorable =>
    -- the date is tested for the day's counter only
    { m with
      todayDK := if c.date = today then m.todayDK + 1 else m.todayDK
      totalDK := m.totalDK + 1 }
  | _ => m

def update (m : HonorMgr) (today thisWeekBegin : Nat) : HonorMgr :=
  m.honorCP.foldl (count today thisWeekBegin)
    { m with
      totalHK := m.storedHK
      totalDK := m.storedDK
      todayHK := 0
      todayDK := 0
      yesterdayKills := 0
      thisWeekKills := 0 }

end HonorMgr

/-! ## The database -/

/-- A row of `character_honor_cp`. -/
structure HonorRow where
  guid : Nat
  cp : HonorCP
  deriving DecidableEq, Repr

/-- `honorStoredHK` and `honorStoredDK` of a row of `characters`, as numbers (`HonorMgr`). -/
structure HonorCharacter where
  storedHK : Nat := 0
  storedDK : Nat := 0
  deriving DecidableEq, Repr

/-- `m_lastMaintenanceDay`, `m_nextMaintenanceDay` and `m_markerToStart`; also their columns in
`saved_variables`. -/
structure HonorMaintenancer where
  lastMaintenanceDay : Nat := 0
  nextMaintenanceDay : Nat := 0
  markerToStart : Bool := false
  deriving DecidableEq, Repr

structure HonorDb where
  honorCp : List HonorRow := []
  characters : SortedMap Nat HonorCharacter := ∅
  savedVariables : Option HonorMaintenancer := none

structure WeeklyScore where
  hk : Nat
  dk : Nat

namespace HonorMaintenancer

def weekBeginDay (m : HonorMaintenancer) : Nat := m.lastMaintenanceDay

def weekEndDay (m : HonorMaintenancer) : Nat := m.lastMaintenanceDay + 6

end HonorMaintenancer

namespace HonorDb

/-- The records of a character in the table. -/
def rowsOf (db : HonorDb) (guid : Nat) : List HonorCP :=
  (db.honorCp.filter (·.guid == guid)).map (·.cp)

/-- `HonorMgr::Load`, and the stored counters. -/
def loadHonor (db : HonorDb) (guid : Nat) (c : HonorCharacter) : HonorMgr :=
  { honorCP := (db.rowsOf guid).map HonorCP.unchanged
    storedHK := c.storedHK
    storedDK := c.storedDK }

/-- `COUNT(*)` of a type `BETWEEN` two days. -/
def countBetween (db : HonorDb) (guid : Nat) (type : HonorType) (first last : Nat) : Nat :=
  (db.rowsOf guid).countP fun c => c.type == type && (first ≤ c.date && c.date ≤ last)

/-- `LoadWeeklyScores`: a score for each character with a record in the week. -/
def loadWeeklyScores (db : HonorDb) (m : HonorMaintenancer) : SortedMap Nat WeeklyScore :=
  let inWeek := fun c : HonorCP => m.weekBeginDay ≤ c.date && c.date ≤ m.weekEndDay
  (db.characters.filter fun guid _ => (db.rowsOf guid).any inWeek).mapVal fun guid _ =>
    { hk := db.countBetween guid .honorable m.weekBeginDay m.weekEndDay
      dk := db.countBetween guid .dishonorable m.weekBeginDay m.weekEndDay }

/-- `FlushRankPoints`: the scores are added to the counters, and the records before the last day of
the week are deleted. -/
def flushRankPoints (db : HonorDb) (m : HonorMaintenancer) (scores : SortedMap Nat WeeklyScore) :
    HonorDb :=
  { db with
    characters := scores.entries.foldl (fun cs pair =>
      cs.modify pair.1 fun c =>
        { c with
          storedHK := c.storedHK + pair.2.hk
          storedDK := c.storedDK + pair.2.dk }) db.characters
    honorCp := db.honorCp.filter fun r => !(decide (r.cp.date < m.weekEndDay)) }

end HonorDb

/-! ## The realm -/

structure HonorConfig where
  rateHonor : ℚ
  maintenanceDay : UInt32

structure HonorWorld where
  db : HonorDb
  gameDay : Nat
  maintenancer : HonorMaintenancer := {}
  /-- The players in the game. -/
  online : SortedMap Nat HonorMgr := ∅
  /-- The records that `Add` has made, by character. -/
  history : Nat → List HonorCP := fun _ => []

inductive HonorInput where
  | newDays (days : Nat)
  | create (guid : Nat)
  | login (guid : Nat)
  | add (guid : Nat) (cp : ℚ) (type : HonorType) (victimType victimId : Nat)
  | save (guid : Nat)
  | logout (guid : Nat)
  | checkMaintenanceDay
  | serverStart (wday : UInt32)
  deriving DecidableEq

namespace HonorWorld

variable (cfg : HonorConfig) (w : HonorWorld)

/-- `World::GetLastMaintenanceDay`, on a day that is the `wday`-th of the calendar's week. -/
def getLastMaintenanceDay (wday : UInt32) : Nat :=
  w.gameDay - ((wday - cfg.maintenanceDay + 7) % 7).toNat

/-- Sets the days and the marker, with their columns. -/
def setMaintenancer (m : HonorMaintenancer) : HonorWorld :=
  { w with maintenancer := m, db := { w.db with savedVariables := some m } }

def setMaintenanceDays (last : Nat) : HonorWorld :=
  w.setMaintenancer { w.maintenancer with lastMaintenanceDay := last, nextMaintenanceDay := last + 7 }

def toggleMaintenanceMarker : HonorWorld :=
  w.setMaintenancer { w.maintenancer with markerToStart := !w.maintenancer.markerToStart }

def checkMaintenanceDay : HonorWorld :=
  if w.maintenancer.nextMaintenanceDay ≤ w.gameDay ∧ w.maintenancer.markerToStart = false then
    w.toggleMaintenanceMarker
  else w

/-- `HonorMaintenancer::Initialize` of a server that starts. -/
def initializeMaintenance (wday : UInt32) : HonorWorld :=
  let w := { w with maintenancer := w.db.savedVariables.getD {} }
  if w.maintenancer.lastMaintenanceDay = 0 then
    w.setMaintenanceDays (w.getLastMaintenanceDay cfg wday)
  else w

def doMaintenance : HonorWorld :=
  if w.maintenancer.markerToStart then
    let scores := w.db.loadWeeklyScores w.maintenancer
    let w := { w with db := w.db.flushRankPoints w.maintenancer scores }
    let w := w.toggleMaintenanceMarker
    w.setMaintenanceDays w.maintenancer.nextMaintenanceDay
  else w

/-- `HonorMgr::Update` of a player. -/
def updated (m : HonorMgr) : HonorMgr := m.update w.gameDay w.maintenancer.weekBeginDay

def login (guid : Nat) : HonorWorld :=
  match w.online.find guid, w.db.characters.find guid with
  | none, some c => { w with online := w.online.insert guid (w.updated (w.db.loadHonor guid c)) }
  | _, _ => w

/-- A new record of a player. -/
def record (guid : Nat) (m : HonorMgr) (c : HonorCP) : HonorWorld :=
  { w with
    online := w.online.insert guid (w.updated { m with honorCP := m.honorCP ++ [c] })
    history := fun g => if g = guid then w.history g ++ [c.unchanged] else w.history g }

/-- `HonorMgr::Add`: nothing is recorded for an amount that is not positive. -/
def add (guid : Nat) (cp : ℚ) (type : HonorType) (victimType victimId : Nat) : HonorWorld :=
  match w.online.find guid with
  | none => w
  | some m =>
    if cp ≤ 0 then w
    else if type ≠ .dishonorable ∧ cp * cfg.rateHonor ≤ 0 then w
    else w.record guid m { victimType, victimId, date := w.gameDay, type, isNew := true }

/-- `Player::SaveToDB`, as far as honor goes: the stored counters, and the new records. -/
def savePlayer (guid : Nat) (m : HonorMgr) : HonorWorld :=
  { w with
    online := w.online.insert guid { m with honorCP := m.honorCP.map HonorCP.unchanged }
    db := { w.db with
      honorCp := w.db.honorCp ++
        (m.honorCP.filter (·.isNew)).map fun c => { guid, cp := c.unchanged }
      characters := w.db.characters.modify guid fun _ => ⟨m.storedHK, m.storedDK⟩ } }

def save (guid : Nat) : HonorWorld :=
  match w.online.find guid with
  | none => w
  | some m => w.savePlayer guid (w.updated m)

def logout (guid : Nat) : HonorWorld :=
  let w := w.save guid
  { w with online := w.online.erase guid }

def step (w : HonorWorld) : HonorInput → HonorWorld
  | .newDays days => { w with gameDay := w.gameDay + days }
  | .create guid =>
    match w.db.characters.find guid with
    | some _ => w
    | none => { w with db := { w.db with characters := w.db.characters.insert guid {} } }
  | .login guid => w.login guid
  | .add guid cp type victimType victimId => w.add cfg guid cp type victimType victimId
  | .save guid => w.save guid
  | .logout guid => w.logout guid
  | .checkMaintenanceDay => w.checkMaintenanceDay
  | .serverStart wday =>
    if w.online.entries.isEmpty then (w.initializeMaintenance cfg wday).doMaintenance else w

/-- A realm that starts for the first time. -/
def newRealm (gameDay : Nat) (wday : UInt32) : HonorWorld :=
  ({ db := {}, gameDay } : HonorWorld).step cfg (.serverStart wday)

end HonorWorld

end Windrunner
