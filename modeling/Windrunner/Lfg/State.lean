import Windrunner.Group.Orderly
import Windrunner.Lib.SortedMap

/-!
# The queue of the meeting stones

`LFGQueue` keeps the players who wait alone and the groups that wait for more members. An update
first fills the groups, one role after another, and then puts two players together into a new group.

* `Group.calculateLFGRoles`: the roles that a group still needs.
* `addToQueue`, `removePlayerFromQueue`, `removeGroupFromQueue`, `restoreOfflinePlayer`: the entries
  of the queue.
* `findRoleToGroup`, `fillGroup`, `formGroup`, `update`: the search.
* `LfgWorld.step`: one call, on the queue or on the groups.
-/

namespace Windrunner

open Lib

/-! ## Roles -/

inductive PlayerClass where
  | warrior | paladin | hunter | rogue | priest | shaman | mage | warlock | druid
  | other
  deriving DecidableEq, Repr

/-- The single roles of `ClassRoles`. -/
inductive ClassRole where
  | tank
  | healer
  | dps
  deriving DecidableEq, Repr

/-- The bit of a role in a mask. -/
def ClassRole.bit : ClassRole → UInt32
  | .tank => 1
  | .healer => 2
  | .dps => 4

/-- `RolesPriority`, as a number. -/
inductive RolesPriority where
  | none
  | low
  | normal
  | high
  deriving DecidableEq, Repr

def RolesPriority.toNat : RolesPriority → Nat
  | .none => 0
  | .low => 1
  | .normal => 2
  | .high => 3

/-- The conversion to `bool`. -/
def RolesPriority.toBool (r : RolesPriority) : Bool := r.toNat != 0

def potentialRoles : List ClassRole := [.tank, .healer, .dps]

/-- `LFGQueue::CalculateRoles` -/
def PlayerClass.calculateRoles : PlayerClass → UInt32
  | .druid | .paladin => ClassRole.tank.bit ||| ClassRole.dps.bit ||| ClassRole.healer.bit
  | .hunter | .mage | .rogue | .warlock => ClassRole.dps.bit
  | .priest | .shaman => ClassRole.dps.bit ||| ClassRole.healer.bit
  | .warrior => ClassRole.tank.bit ||| ClassRole.dps.bit
  | .other => 0

/-- `LFGQueue::getPriority` -/
def PlayerClass.getPriority : PlayerClass → ClassRole → RolesPriority
  | .druid, .tank | .paladin, .tank => .normal
  | .warrior, .tank => .high
  | _, .tank => .none
  | .druid, .healer | .paladin, .healer | .priest, .healer | .shaman, .healer => .high
  | _, .healer => .none
  | .druid, .dps | .paladin, .dps | .shaman, .dps | .warrior, .dps => .normal
  | .hunter, .dps | .mage, .dps | .rogue, .dps | .warlock, .dps => .high
  | .priest, .dps => .low
  | .other, .dps => .none

/-- `GetMaximumDPSSlots` -/
abbrev maximumDpsSlots : UInt32 := 3

/-- A role is taken: what is still needed, and the count of damage dealers. -/
def takeRole (availableRoles dpsCount : UInt32) : ClassRole → UInt32 × UInt32
  | .tank => (availableRoles &&& ~~~ClassRole.tank.bit, dpsCount)
  | .healer => (availableRoles &&& ~~~ClassRole.healer.bit, dpsCount)
  | .dps =>
    if dpsCount < maximumDpsSlots then
      (if dpsCount + 1 ≥ maximumDpsSlots then availableRoles &&& ~~~ClassRole.dps.bit
        else availableRoles, dpsCount + 1)
    else (availableRoles, dpsCount)

/-! ## The queue -/

/-- What the queue reads of a character. -/
structure LfgCharacter where
  playerClass : PlayerClass := .warrior
  team : UInt32 := 0
  isHardcore : Bool := false
  deriving DecidableEq, Repr

structure LfgPlayerQueueInfo where
  roleMask : UInt32 := 0
  team : UInt32 := 0
  areaId : UInt32 := 0
  timeInLFG : UInt32 := 0
  hasQueuePriority : Bool := false
  isHardcore : Bool := false
  rolePriority : List (ClassRole × RolesPriority) := []
  deriving DecidableEq, Repr

structure LfgGroupQueueInfo where
  availableRoles : UInt32 := 0
  dpsCount : UInt32 := 0
  team : UInt32 := 0
  areaId : UInt32 := 0
  isHardcore : Bool := false
  groupTimer : UInt32 := 0
  deriving DecidableEq, Repr

namespace LfgPlayerQueueInfo

/-- `CalculateRoles`; the list of priorities grows with every call. -/
def calculateRoles (info : LfgPlayerQueueInfo) (playerClass : PlayerClass) : LfgPlayerQueueInfo :=
  { info with
    roleMask := playerClass.calculateRoles
    rolePriority := info.rolePriority ++
      potentialRoles.map fun role => (role, playerClass.getPriority role) }

/-- `GetRolePriority`: the first entry of the role. -/
def getRolePriority (info : LfgPlayerQueueInfo) (role : ClassRole) : RolesPriority :=
  ((info.rolePriority.find? (·.1 = role)).map (·.2)).getD .none

/-- The role is among those of the mask. -/
def canPlay (info : LfgPlayerQueueInfo) (role : ClassRole) : Bool :=
  info.roleMask &&& role.bit == role.bit

end LfgPlayerQueueInfo

/-- What an update did, with the queue as it was then. No step reads it. -/
inductive LfgEvent where
  /-- `FindRoleToGroup` was called for a player, and what it returned. -/
  | asked (players : SortedMap Nat LfgPlayerQueueInfo) (guid : Nat) (info : LfgPlayerQueueInfo)
      (group : LfgGroupQueueInfo) (role : ClassRole) (found : Bool)
  /-- A new group was due, which needs its first two players in the world. -/
  | formed (players : SortedMap Nat LfgPlayerQueueInfo) (online : Bool)
      (pair : Option (LfgPlayerQueueInfo × LfgPlayerQueueInfo))
  deriving DecidableEq

structure LfgQueue where
  queuedPlayers : SortedMap Nat LfgPlayerQueueInfo := ∅
  offlinePlayers : SortedMap Nat LfgPlayerQueueInfo := ∅
  /-- By `m_Id` of the group. -/
  queuedGroups : SortedMap Nat LfgGroupQueueInfo := ∅

structure LfgWorld where
  groups : GroupWorld := {}
  characters : Nat → LfgCharacter := fun _ => {}
  /-- `m_LFGAreaId` of each group. -/
  lfgAreaId : Nat → UInt32 := fun _ => 0
  queue : LfgQueue := {}
  log : List LfgEvent := []

/-! ## The roles of a group -/

/-- The state of the loop in `CalculateLFGRoles`. -/
structure LfgRoles where
  initRoles : UInt32 := ClassRole.tank.bit ||| ClassRole.dps.bit ||| ClassRole.healer.bit
  dpsCount : UInt32 := 0
  processed : List Nat := []
  deriving DecidableEq, Repr

namespace Group

/-- `FillPremadeLFG`: the role goes to the member unless one without a role is better at it. -/
def fillPremadeLFG (g : Group) (classOf : Nat → PlayerClass) (guid : Nat) (requiredRole : ClassRole)
    (r : LfgRoles) : Option LfgRoles :=
  let priority := (classOf guid).getPriority requiredRole
  if g.memberSlots.any fun s => s.guid != guid && !r.processed.contains s.guid &&
      priority.toNat < ((classOf s.guid).getPriority requiredRole).toNat then none
  else
    let (roles, dpsCount) := takeRole r.initRoles r.dpsCount requiredRole
    some ⟨roles, dpsCount, r.processed ++ [guid]⟩

/-- The first role that a member can fill. -/
def fillMember (g : Group) (classOf : Nat → PlayerClass) (r : LfgRoles) (guid : Nat) : LfgRoles :=
  (potentialRoles.findSome? fun role =>
    if (classOf guid).calculateRoles &&& role.bit == 0 then none
    else if role.bit &&& r.initRoles == role.bit then g.fillPremadeLFG classOf guid role r
    else none).getD r

def calculateLFGRoles (g : Group) (classOf : Nat → PlayerClass) (info : LfgGroupQueueInfo) :
    LfgGroupQueueInfo :=
  let r := (g.memberSlots.map (·.guid)).foldl (g.fillMember classOf) {}
  { info with availableRoles := r.initRoles, dpsCount := r.dpsCount }

end Group

namespace LfgWorld

/-! ## Entries -/

abbrev minuteMs : UInt32 := 60 * 1000

variable (w : LfgWorld)

def classOf (guid : Nat) : PlayerClass := (w.characters guid).playerClass

/-- `m_Id` of a group. Only the raid of a battleground has none. -/
def groupId (k : Nat) : Nat := if (w.groups.groups k).bgGroup then 0 else k + 1

/-- `sObjectMgr.GetGroupById`: a group is known from its creation on. -/
def getGroupById (id : Nat) : Option Nat :=
  if id = 0 then none
  else if (w.groups.groups (id - 1)).bgGroup || (w.groups.groups (id - 1)).memberSlots.isEmpty then
    none
  else some (id - 1)

def isInLFG (k : Nat) : Bool := w.lfgAreaId k > 0

/-- `GetGroup` of a player who was found. -/
def getGroup (guid : Nat) : Option Nat :=
  (w.groups.getPlayer guid).bind (·.group.target)

def setLFGAreaId (k : Nat) (areaId : UInt32) : LfgWorld :=
  { w with lfgAreaId := fun j => if j = k then areaId else w.lfgAreaId j }

def setQueuedPlayers (m : SortedMap Nat LfgPlayerQueueInfo) : LfgWorld :=
  { w with queue.queuedPlayers := m }

def setQueuedGroups (m : SortedMap Nat LfgGroupQueueInfo) : LfgWorld :=
  { w with queue.queuedGroups := m }

def addEvent (e : LfgEvent) : LfgWorld := { w with log := w.log ++ [e] }

def updateGroup (id : Nat) : LfgWorld :=
  match w.getGroupById id with
  | none => w
  | some k =>
    if (w.groups.groups k).isFull then w
    else w.setQueuedGroups
      (w.queue.queuedGroups.modify id ((w.groups.groups k).calculateLFGRoles w.classOf))

/-- `AddToQueue` of a player who was found. -/
def addToQueue (leader : Nat) (queueAreaId : UInt32) : LfgWorld :=
  if (w.groups.getPlayer leader).isNone then w
  else
    let c := w.characters leader
    match w.getGroup leader with
    | some k =>
      if (w.groups.groups k).leaderGuid = leader then
        let info := (w.queue.queuedGroups.find (w.groupId k)).getD {}
        let info := (w.groups.groups k).calculateLFGRoles w.classOf info
        (w.setQueuedGroups <| w.queue.queuedGroups.insert (w.groupId k)
          { info with
            team := c.team
            areaId := queueAreaId
            groupTimer := 5 * minuteMs
            isHardcore := c.isHardcore }).setLFGAreaId k queueAreaId
      else w
    | none =>
      let info := (w.queue.queuedPlayers.find leader).getD {}
      w.setQueuedPlayers <| w.queue.queuedPlayers.insert leader <|
        ({ info with
            team := c.team
            areaId := queueAreaId
            hasQueuePriority := false
            isHardcore := c.isHardcore }).calculateRoles c.playerClass

def restoreOfflinePlayer (guid : Nat) : LfgWorld :=
  match w.queue.offlinePlayers.find guid with
  | none => w
  | some info =>
    { w with
      queue.queuedPlayers := w.queue.queuedPlayers.insert guid info
      queue.offlinePlayers := w.queue.offlinePlayers.erase guid }

def removePlayerFromQueue (guid : Nat) : LfgWorld :=
  w.setQueuedPlayers (w.queue.queuedPlayers.erase guid)

def removeGroupFromQueue (id : Nat) : LfgWorld :=
  if w.queue.queuedGroups.contains id then
    let w' := (w.getGroupById id).elim w fun k => w.setLFGAreaId k 0
    w'.setQueuedGroups (w'.queue.queuedGroups.erase id)
  else w

/-! ## The search -/

/-- Another player of the area and the team who can play the role and comes first. -/
def comesFirst (info other : LfgPlayerQueueInfo) (role : ClassRole) : Bool :=
  let queueTimePriority := info.hasQueuePriority
  -- the priorities are read into variables of type `bool`
  let classPriority := (info.getRolePriority role).toBool
  let otherTimePriority := other.hasQueuePriority
  let otherClassPriority := (other.getRolePriority role).toBool
  let otherLongerInQueue := other.timeInLFG > info.timeInLFG
  (otherClassPriority && !classPriority) || (otherTimePriority && otherLongerInQueue) ||
    (!queueTimePriority && otherLongerInQueue)

/-- The loop of `FindRoleToGroup` over the others. -/
def hasBetter (players : SortedMap Nat LfgPlayerQueueInfo) (guid : Nat) (info : LfgPlayerQueueInfo)
    (role : ClassRole) : Bool :=
  players.entries.any fun x => x.1 != guid && info.areaId == x.2.areaId && info.team == x.2.team &&
    x.2.canPlay role && comesFirst info x.2 role

/-- `Group::AddMember` for the queue, which ignores the result. -/
def addMember (k guid : Nat) : LfgWorld :=
  { w with groups := (w.groups.addMember k guid).getD w.groups }

def findRoleToGroup (guid k : Nat) (role : ClassRole) : Bool × LfgWorld :=
  match w.queue.queuedGroups.find (w.groupId k), w.queue.queuedPlayers.find guid with
  | some group, some info =>
    let event := LfgEvent.asked w.queue.queuedPlayers guid info group role
    if hasBetter w.queue.queuedPlayers guid info role then (false, w.addEvent (event false))
    else
      let (availableRoles, dpsCount) := takeRole group.availableRoles group.dpsCount role
      let w' := (w.addEvent (event true)).setQueuedGroups <|
        w.queue.queuedGroups.insert (w.groupId k) { group with availableRoles, dpsCount }
      (true, (w'.addMember k guid).removePlayerFromQueue guid)
  | _, _ => (false, w)

/-- The roles of a player, one after another, until the group takes him for one. -/
def tryRoles (id k guid : Nat) (roleMask : UInt32) : List ClassRole → LfgWorld → Bool × LfgWorld
  | [], w => (false, w)
  | role :: roles, w =>
    if roleMask &&& role.bit == 0 then tryRoles id k guid roleMask roles w
    else if (w.queue.queuedGroups.find id).any (role.bit &&& ·.availableRoles == role.bit) then
      match w.findRoleToGroup guid k role with
      | (true, w') => (true, w')
      | (false, w') => tryRoles id k guid roleMask roles w'
    else tryRoles id k guid roleMask roles w

/-- The player and the group wait for the same area, in the same team, both hardcore or not. -/
def compatible (info : LfgPlayerQueueInfo) (group : LfgGroupQueueInfo) : Bool :=
  info.team == group.team && info.areaId == group.areaId && info.isHardcore == group.isHardcore

/-- The loop over the players, who are taken until the group is full. -/
def fillGroup (id k : Nat) : List Nat → LfgWorld → LfgWorld
  | [], w => w
  | guid :: guids, w =>
    match w.queue.queuedPlayers.find guid, w.queue.queuedGroups.find id with
    | some info, some group =>
      if compatible info group then
        let (groupFound, w') := tryRoles id k guid info.roleMask potentialRoles w
        if groupFound && (w'.groups.groups k).isFull then w' else fillGroup id k guids w'
      else fillGroup id k guids w
    | _, _ => fillGroup id k guids w

/-- The timer of a group that still waits. -/
def updateTimer (diff : UInt32) (info : LfgGroupQueueInfo) : LfgGroupQueueInfo :=
  if info.groupTimer ≤ diff then { info with groupTimer := 5 * minuteMs }
  else { info with groupTimer := info.groupTimer - diff }

/-- The loop over the groups. It ends with the first one that is full. -/
def fillGroups (diff : UInt32) : List Nat → LfgWorld → LfgWorld
  | [], w => w
  | id :: ids, w =>
    match w.getGroupById id with
    | none => fillGroups diff ids (w.setQueuedGroups (w.queue.queuedGroups.erase id))
    | some k =>
      if (w.groups.groups k).isFull then w.removeGroupFromQueue id
      else
        let w := fillGroup id k w.queue.queuedPlayers.keys w
        if (w.groups.groups k).isFull then w.removeGroupFromQueue id
        else fillGroups diff ids
          (w.setQueuedGroups (w.queue.queuedGroups.modify id (updateTimer diff)))

/-- The timers of the players, and those who are not in the world leave the queue. -/
def updatePlayers (diff : UInt32) : LfgWorld :=
  let players := w.queue.queuedPlayers
  let found := fun guid => (w.groups.getPlayer guid).isSome
  { w with
    queue.offlinePlayers := players.entries.foldl
      (fun m x => if found x.1 then m else m.insert x.1 x.2) w.queue.offlinePlayers
    queue.queuedPlayers := (players.filter fun guid _ => found guid).mapVal fun _ info =>
      let timeInLFG := info.timeInLFG + diff
      { info with
        timeInLFG
        hasQueuePriority := info.hasQueuePriority || timeInLFG ≥ 30 * minuteMs } }

abbrev groupSize : Nat := 5

def findInArea (players : SortedMap Nat LfgPlayerQueueInfo) (area team : UInt32) (exclude : Nat) :
    List (Nat × LfgPlayerQueueInfo) :=
  players.entries.filter fun x => x.1 != exclude && x.2.areaId == area && x.2.team == team

/-- The two players of a new group, if there are enough for one. -/
def firstPair (players : SortedMap Nat LfgPlayerQueueInfo) :
    Option ((Nat × LfgPlayerQueueInfo) × (Nat × LfgPlayerQueueInfo)) :=
  match players.entries with
  | [] => none
  | leader :: rest =>
    let playersInArea := findInArea players leader.2.areaId leader.2.team leader.1
    if rest.length + 1 ≥ groupSize && playersInArea.length ≥ groupSize - 1 then
      playersInArea.head?.map (leader, ·)
    else none

/-- `Group::Create` of a new group. -/
def createGroup (w : GroupWorld) (leader : Nat) : Option GroupWorld :=
  GroupWorld.create { w.setGroup w.nextGroup {} with nextGroup := w.nextGroup + 1 } w.nextGroup
    leader

/-- The last part of `Update`. -/
def formGroup : LfgWorld :=
  match firstPair w.queue.queuedPlayers with
  | none => w
  | some (leader, member) =>
    let event := LfgEvent.formed w.queue.queuedPlayers
    let online := (w.groups.getPlayer leader.1).isSome && (w.groups.getPlayer member.1).isSome &&
      leader.1 != 0
    if !online then w.addEvent (event false none)
    else
      match createGroup w.groups leader.1 with
      | none => w.addEvent (event true none)
      | some groups =>
        let w' := { w with groups }.addEvent (event true (some (leader.2, member.2)))
        let w' := (w'.addMember w.groups.nextGroup member.1).addToQueue leader.1 leader.2.areaId
        (w'.removePlayerFromQueue leader.1).removePlayerFromQueue member.1

def update (diff : UInt32) : LfgWorld :=
  if w.queue.queuedGroups.entries.isEmpty && w.queue.queuedPlayers.entries.isEmpty then w
  else
    let w := w.updatePlayers diff
    (fillGroups diff w.queue.queuedGroups.keys w).formGroup

/-! ## The groups besides -/

/-- `Group::AddMember` in a group that waits: the roles that it needs are counted again. -/
def accept (w : LfgWorld) (guid : Nat) (allowed : Bool) : LfgWorld :=
  let w' := { w with groups := w.groups.step (.accept guid allowed) }
  match (w.groups.getPlayer guid).bind (·.groupInvite) with
  | none => w'
  | some k =>
    if (w'.groups.groups k).isMember guid && w'.isInLFG k then w'.updateGroup (w'.groupId k) else w'

/-- `RemoveMember`: a player who is kicked takes his group out of the queue and enters it himself. -/
def removeMember (k guid : Nat) (kick : Bool) : LfgWorld :=
  let g := w.groups.groups k
  let id := w.groupId k
  let w' := { w with groups := w.groups.removeMember k guid }
  if g.memberSlots.length > g.getMembersMinCount then
    let w' := if kick && (w.groups.getPlayer guid).isSome && w'.isInLFG k then
        let w' := w'.removeGroupFromQueue id
        w'.addToQueue guid (w'.lfgAreaId k)
      else w'
    let w' := if g.leaderGuid = guid then w'.removeGroupFromQueue id else w'
    if w'.isInLFG k then w'.updateGroup id else w'
  else if w.isInLFG k &&
      g.memberSlots.any fun s =>
        (w.groups.getPlayer s.guid).isSome && (w'.getGroup s.guid).isNone then
    -- the group is disbanded, and gone when the queue forgets it
    w'.setQueuedGroups (w'.queue.queuedGroups.erase id)
  else w'

/-- The group of an offer of `LFTManager`: the leader's, or a new one. -/
def offerGroup (w : LfgWorld) (leader : Nat) : Option Nat → Option (Nat × LfgWorld)
  | some k => some (k, w)
  | none =>
    if (w.groups.getPlayer leader).isNone then none
    else match w.getGroup leader with
      | some k => some (k, w)
      | none => (createGroup w.groups leader).map fun groups =>
        (w.groups.nextGroup, { w with groups })

/-- `LFTManager::AddPlayerToGroup`. The queue of the meeting stones is not told. -/
def addPlayerToGroup (w : LfgWorld) (group : Option Nat) (leader member : Nat) (canGroup : Bool) :
    Bool × Option Nat × LfgWorld :=
  if (w.groups.getPlayer member).isNone then (false, group, w)
  else match w.offerGroup leader group with
    | none => (false, none, w)
    | some (k, w) =>
      if (w.groups.groups k).isMember member then (true, some k, w)
      else if (w.getGroup member).any (· != k) ||
          (w.groups.getPlayer leader).isSome && !canGroup || (w.groups.groups k).isFull then
        (false, some k, w)
      else ((w.groups.addMember k member).isSome, some k, w.addMember k member)

/-- The groups in `LFTManager::CompleteOffer`: the players are added until one cannot be. -/
def completeOffer (leader : Nat) (canGroup : Nat → Bool) :
    List Nat → Option Nat → LfgWorld → LfgWorld
  | [], _, w => w
  | member :: members, group, w =>
    match w.addPlayerToGroup group leader member (canGroup member) with
    | (true, group, w) => completeOffer leader canGroup members group w
    | (false, _, w) => w

end LfgWorld

inductive LfgInput where
  | update (diff : UInt32)
  /-- `HandleMeetingStoneJoinOpcode`, or a script. -/
  | join (guid : Nat) (areaId : UInt32)
  /-- `HandleMeetingStoneLeaveOpcode` -/
  | leave (guid : Nat)
  /-- `HandleMeetingStoneInfoOpcode` -/
  | info (guid : Nat)
  | accept (guid : Nat) (allowed : Bool)
  | removeMember (k guid : Nat) (kick : Bool)
  /-- The other finder completes an offer. -/
  | completeOffer (leader : Nat) (members : List Nat) (canGroup : Nat → Bool)
  /-- Another call on the groups. -/
  | group (i : GroupInput)
  | setCharacter (guid : Nat) (c : LfgCharacter)

namespace LfgWorld

def step (w : LfgWorld) : LfgInput → LfgWorld
  | .update diff => w.update diff
  | .join guid areaId => w.addToQueue guid areaId
  | .leave guid =>
    match w.getGroup guid with
    | some k =>
      if (w.groups.groups k).leaderGuid = guid ∧ w.isInLFG k = true then
        w.removeGroupFromQueue (w.groupId k)
      else w
    | none => w.removePlayerFromQueue guid
  | .info guid =>
    if (w.groups.getPlayer guid).isNone || (w.getGroup guid).isSome then w
    else w.restoreOfflinePlayer guid
  | .accept guid allowed => w.accept guid allowed
  | .removeMember k guid kick => w.removeMember k guid kick
  | .completeOffer leader members canGroup => completeOffer leader canGroup members none w
  | .group (.accept guid allowed) => w.accept guid allowed
  | .group (.removeMember k guid) => w.removeMember k guid false
  | .group i => { w with groups := w.groups.step i }
  | .setCharacter guid c =>
    { w with characters := fun p => if p = guid then c else w.characters p }

end LfgWorld

end Windrunner
