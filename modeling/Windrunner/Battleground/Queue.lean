import Windrunner.Lib.Total

/-!
# A battleground queue

A group info has the players who have joined together, or one who has joined alone. It stands in one
of four lists of its bracket: the premade and the normal groups of each team. `m_QueuedPlayers` has
the group info of each player.

* `addGroup`, `removePlayer`: a group or a player enters, a player leaves.
* `playerLoggedIn`, `playerLoggedOut`: the mark of a player in the queue.

A pointer to a group info is a number here, and one that is deleted is not used again.
-/

namespace Windrunner

open Lib

abbrev maxBattlegroundBrackets : Nat := 8
abbrev bgTeamsCount : Nat := 2
abbrev offlineBgQueueTime : UInt32 := 60 * 1000
abbrev inviteAcceptWaitTime : UInt32 := 80 * 1000

inductive BgTeam where
  | alliance
  | horde
  deriving DecidableEq, Repr

/-- `GetTeamIndexByTeamId`; `BG_QUEUE_PREMADE_*` of the team is the same number. -/
def BgTeam.index : BgTeam → Nat
  | alliance => 0
  | horde => 1

/-- `BattleGroundTypeId`; each type has a queue of its own. -/
inductive BgType where
  | av
  | ws
  | ab
  | br
  | sv
  deriving DecidableEq, Repr

/-- `BGQueueTypeId` -/
def BgType.queueId : BgType → Nat
  | av => 1
  | ws => 2
  | ab => 3
  | br => 4
  | sv => 5

structure PlayerQueueInfo where
  online : Bool := true
  lastOnlineTime : UInt32 := 0
  groupInfo : Nat
  deriving DecidableEq, Repr

structure GroupQueueInfo where
  /-- The keys of `Players`. -/
  players : List Nat := []
  groupTeam : BgTeam := .alliance
  bgTypeId : BgType := .av
  joinTime : UInt32 := 0
  removeInviteTime : UInt32 := 0
  isInvitedToBGInstanceGUID : Nat := 0
  desiredInstanceId : Nat := 0
  bracketId : Nat := 0
  deriving DecidableEq, Repr

structure BgQueue where
  queuedPlayers : FinMap Nat PlayerQueueInfo := ∅
  infos : Nat → Option GroupQueueInfo := fun _ => none
  nextInfo : Nat := 0
  /-- `m_QueuedGroups[bracket][type]` -/
  queuedGroups : Nat → Nat → List Nat := fun _ _ => []

/-- What a group joins for. -/
structure BgJoin where
  bgTypeId : BgType
  bracketId : Nat
  isPremade : Bool := false
  instanceId : Nat := 0
  now : UInt32 := 0
  deriving DecidableEq, Repr

/-- The members of a group who are online, and how many members it has. -/
structure BgGroup where
  leader : Nat
  members : List Nat
  nodup : members.Nodup
  membersCount : Nat
  deriving DecidableEq

namespace BgQueue

variable (q : BgQueue)

def info (i : Nat) : GroupQueueInfo := (q.infos i).getD {}

def playersOf (i : Nat) : List Nat := (q.info i).players

/-- The group info of a player in `m_QueuedPlayers`. -/
def groupOf (guid : Nat) : Option Nat :=
  (q.queuedPlayers.lookup guid).map (·.groupInfo)

def setInfo (i : Nat) (gi : Option GroupQueueInfo) : BgQueue :=
  { q with infos := fun j => if j = i then gi else q.infos j }

def setGroups (bracket type : Nat) (groups : List Nat) : BgQueue :=
  { q with queuedGroups := fun b t =>
      if b = bracket ∧ t = type then groups else q.queuedGroups b t }

/-! ## Joining -/

/-- `BG_QUEUE_*` of a group. -/
def typeIndex (isPremade : Bool) (team : BgTeam) : Nat :=
  (if isPremade then 0 else bgTeamsCount) + team.index

def newInfo (team : BgTeam) (j : BgJoin) : BgQueue :=
  { q.setInfo q.nextInfo (some
      { groupTeam := team, bgTypeId := j.bgTypeId, joinTime := j.now
        desiredInstanceId := j.instanceId, bracketId := j.bracketId }) with
    nextInfo := q.nextInfo + 1 }

/-- `m_QueuedPlayers[guid]` and `ginfo->Players[guid]` are set. -/
def queuePlayer (i : Nat) (q : BgQueue) (guid : Nat) : BgQueue :=
  let gi := q.info i
  { q.setInfo i (some { gi with
      players := if guid ∈ gi.players then gi.players else gi.players ++ [guid] }) with
    queuedPlayers := q.queuedPlayers.insert guid { groupInfo := i } }

/-- A group info without players is not put into a list. -/
def pushGroup (bracket type i : Nat) : BgQueue :=
  if q.playersOf i = [] then q
  else q.setGroups bracket type (q.queuedGroups bracket type ++ [i])

/-- `AddGroup` of a player alone. -/
def addSolo (team : Nat → BgTeam) (j : BgJoin) (q : BgQueue) (guid : Nat) : BgQueue :=
  let i := q.nextInfo
  let q := (q.newInfo (team guid) j).queuePlayer i guid
  q.pushGroup j.bracketId (typeIndex j.isPremade (team guid)) i

/-- `AddGroup` of a group; its members are queued alone when it is above the limit. -/
def addGroup (team : Nat → BgTeam) (groupLimit : Nat) (j : BgJoin) (q : BgQueue) (leader : Nat)
    (grp : BgGroup) (excluded : List Nat) : BgQueue :=
  let i := q.nextInfo
  let q := grp.members.foldl (fun q guid =>
    if guid ∈ excluded then q
    else if grp.membersCount > groupLimit then q.addSolo team { j with isPremade := false } guid
    else q.queuePlayer i guid) (q.newInfo (team leader) j)
  q.pushGroup j.bracketId (typeIndex j.isPremade (team leader)) i

/-! ## Leaving -/

/-- Where a group info stands, in the lists of its team; higher brackets first, and of a bracket the
last list that has it. -/
def findGroup (i : Nat) (team : BgTeam) : Option (Nat × Nat) :=
  (List.range maxBattlegroundBrackets).reverse.findSome? fun bracket =>
    ([team.index + bgTeamsCount, team.index].find? fun type =>
      decide (i ∈ q.queuedGroups bracket type)).map (bracket, ·)

/-- The player is taken out of `m_QueuedPlayers` and of his group info. -/
def takeOut (guid i : Nat) : BgQueue :=
  { q.setInfo i (some { q.info i with players := (q.playersOf i).filter (· != guid) }) with
    queuedPlayers := q.queuedPlayers.erase guid }

def removePlayer (guid : Nat) : BgQueue :=
  match q.groupOf guid with
  | none => q
  | some i =>
    let place := q.findGroup i (q.info i).groupTeam
    let q := q.takeOut guid i
    match place with
    | none => q
    | some (bracket, type) =>
      if q.playersOf i = [] then
        (q.setGroups bracket type ((q.queuedGroups bracket type).erase i)).setInfo i none
      else q

def playerLoggedOut (guid : Nat) (now : UInt32) : BgQueue :=
  match q.queuedPlayers.lookup guid with
  | none => q
  | some pl =>
    { q with queuedPlayers :=
        q.queuedPlayers.insert guid { pl with lastOnlineTime := now, online := false } }

def playerLoggedIn (guid : Nat) : BgQueue :=
  match q.queuedPlayers.lookup guid with
  | none => q
  | some pl => { q with queuedPlayers := q.queuedPlayers.insert guid { pl with online := true } }

def isPlayerInvited (guid bgInstanceGuid : Nat) (removeTime : UInt32) : Bool :=
  (q.groupOf guid).any fun i =>
    (q.info i).isInvitedToBGInstanceGUID == bgInstanceGuid &&
      (q.info i).removeInviteTime == removeTime

end BgQueue

end Windrunner
