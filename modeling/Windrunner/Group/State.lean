import Windrunner.Loot.Roll

/-!
# Groups and raids

A group keeps a slot for every member, with his subgroup, and in a raid a counter for each subgroup.
A player who is online has two references, `m_group` and `m_originalGroup`: a player in the raid of a
battleground keeps his own group in the second one.

* `addMember`, `removeMember`, `chooseLeader`: the members of a group.
* `changeMembersGroup`, `swapMembersGroup`: their subgroups. `sObjectMgr.GetPlayer` finds a player
  only while he is in the world, not between two maps.
* `handleGroupInvite`, `handleGroupAccept`: how a group is formed.
* `GroupWorld.step`: one call, or what players do besides.
-/

namespace Windrunner

abbrev maxGroupSize : Nat := 5
abbrev maxRaidSubgroups : Nat := 8

inductive GroupType where
  | normal
  | raid
  deriving DecidableEq, Repr

structure MemberSlot where
  guid : Nat
  group : UInt8 := 0
  assistant : Bool := false
  deriving DecidableEq, Repr

structure Group where
  memberSlots : List MemberSlot := []
  leaderGuid : Nat := 0
  groupType : GroupType := .normal
  /-- The group is the raid of a battleground. -/
  bgGroup : Bool := false
  subGroupsCounts : Option (List UInt8) := none
  deriving DecidableEq, Repr

/-- `GroupReference`: the group that a player is in, and his subgroup. -/
structure GroupRef where
  target : Option Nat := none
  subGroup : UInt8 := 0
  deriving DecidableEq, Repr

/-- A player who is online. -/
structure GroupPlayer where
  /-- Not so while he goes from one map to another. -/
  inWorld : Bool := true
  group : GroupRef := {}
  originalGroup : GroupRef := {}
  /-- `m_groupInvite`; the group has the player among its invitees then. -/
  groupInvite : Option Nat := none
  deriving DecidableEq, Repr

/-- The groups and the players online. The group of an id that is not in use is empty. -/
structure GroupWorld where
  groups : Nat → Group := fun _ => {}
  players : Nat → Option GroupPlayer := fun _ => none
  nextGroup : Nat := 0

namespace Group

variable (g : Group) (guid : Nat)

def isRaidGroup : Bool := g.groupType == .raid

/-- The most members a group of its type can have. -/
def maxSize : Nat := if g.isRaidGroup then maxRaidSize else maxGroupSize

def isFull : Bool := g.memberSlots.length ≥ g.maxSize

def getMembersMinCount : Nat := if g.bgGroup then 1 else 2

/-- `_getMemberCSlot`: the first slot of a guid, and where it is. -/
def getMemberSlot : Option (Nat × MemberSlot) :=
  (g.memberSlots.findIdx? (·.guid == guid)).bind fun i => g.memberSlots[i]?.map (i, ·)

def isMember : Bool := g.memberSlots.any (·.guid == guid)

def isAssistant : Bool := (g.getMemberSlot guid).any (·.2.assistant)

def slotOf : Option UInt8 := (g.getMemberSlot guid).map (·.2.group)

/-- `GetMemberGroup`: more than any subgroup when there is no such member. -/
def getMemberGroup : UInt8 := (g.slotOf guid).getD 9

def subGroupCounterIncrease (subgroup : UInt8) : Group :=
  { g with subGroupsCounts := g.subGroupsCounts.map (·.modify subgroup.toNat (· + 1)) }

def subGroupCounterDecrease (subgroup : UInt8) : Group :=
  { g with subGroupsCounts := g.subGroupsCounts.map (·.modify subgroup.toNat (· - 1)) }

def initRaidSubGroupsCounter : Group :=
  { g with subGroupsCounts := some (g.memberSlots.foldl
      (fun c s => c.modify s.group.toNat (· + 1)) (List.replicate maxRaidSubgroups 0)) }

def convertToRaid : Group := initRaidSubGroupsCounter { g with groupType := .raid }

/-- A new slot, and its counter. -/
def addSlot (group : UInt8) : Group :=
  subGroupCounterIncrease { g with memberSlots := g.memberSlots ++ [⟨guid, group, false⟩] } group

/-- The subgroup for a new member: the first one with room, in a group without counters `0`. -/
def freeSubGroup : Option UInt8 :=
  match g.subGroupsCounts with
  | none => some 0
  | some c => (c.findIdx? (·.toNat < maxGroupSize)).map UInt8.ofNat

/-- The slot of `_removeMember` is erased, and its counter. -/
def removeSlot : Group :=
  match g.getMemberSlot guid with
  | none => g
  | some (i, s) =>
    { g.subGroupCounterDecrease s.group with memberSlots := g.memberSlots.eraseIdx i }

def setLeader : Group :=
  if g.isMember guid then { g with leaderGuid := guid } else g

def setMembersGroup (group : UInt8) : Option Group :=
  (g.getMemberSlot guid).map fun x =>
    subGroupCounterIncrease
      { g with memberSlots := g.memberSlots.set x.1 { x.2 with group } } group

/-- There is room in a subgroup, as far as the counters say. -/
def hasRoom (group : UInt8) : Bool :=
  !(g.subGroupsCounts.any fun n => (n[group.toNat]?.getD 0).toNat ≥ maxGroupSize)

def swapSlots (guid swapGuid : Nat) : Option Group :=
  match g.getMemberSlot guid, g.getMemberSlot swapGuid with
  | some (i, s), some (j, t) =>
    some { g with memberSlots :=
      (g.memberSlots.set j { t with group := s.group }).set i { s with group := t.group } }
  | _, _ => none

end Group

namespace GroupPlayer

variable (pl : GroupPlayer)

def setGroup (k : Option Nat) (subgroup : UInt8) : GroupPlayer :=
  match k with
  | none => { pl with group.target := none }
  | some k => { pl with group := ⟨some k, subgroup⟩ }

def setOriginalGroup (k : Option Nat) (subgroup : UInt8) : GroupPlayer :=
  match k with
  | none => { pl with originalGroup.target := none }
  | some k => { pl with originalGroup := ⟨some k, subgroup⟩ }

def setBattleGroundRaid (k : Nat) (subgroup : UInt8) : GroupPlayer :=
  (pl.setOriginalGroup pl.group.target pl.group.subGroup).setGroup (some k) subgroup

def removeFromBattleGroundRaid : GroupPlayer :=
  (pl.setGroup pl.originalGroup.target pl.originalGroup.subGroup).setOriginalGroup none 0

/-- A member is taken out of group `k`. -/
def leave (pl : GroupPlayer) (k : Nat) (bg : Bool) : GroupPlayer :=
  if bg then pl.removeFromBattleGroundRaid
  else if pl.originalGroup.target = some k then pl.setOriginalGroup none 0
  else pl.setGroup none 0

/-- The subgroup of the reference to group `k` is set, in one of the two references. -/
def setSubGroup (k : Nat) (subgroup : UInt8) : GroupPlayer :=
  if pl.group.target = some k then { pl with group.subGroup := subgroup }
  else { pl with originalGroup.subGroup := subgroup }

/-- The subgroup that the reference to group `k` carries. -/
def refTo (k : Nat) : Option UInt8 :=
  if pl.group.target = some k then some pl.group.subGroup
  else if pl.originalGroup.target = some k then some pl.originalGroup.subGroup
  else none

/-- The group is deleted, which cuts the references to it. -/
def forget (k : Nat) : GroupPlayer :=
  { pl with
    group.target := if pl.group.target = some k then none else pl.group.target
    originalGroup.target := if pl.originalGroup.target = some k then none else pl.originalGroup.target
    groupInvite := if pl.groupInvite = some k then none else pl.groupInvite }

end GroupPlayer

namespace GroupWorld

variable (w : GroupWorld) (k guid : Nat)

def setGroup (k : Nat) (g : Group) : GroupWorld :=
  { w with groups := fun j => if j = k then g else w.groups j }

def setPlayer (guid : Nat) (pl : GroupPlayer) : GroupWorld :=
  { w with players := fun p => if p = guid then some pl else w.players p }

/-- `sObjectMgr.GetPlayer`. -/
def getPlayer (guid : Nat) : Option GroupPlayer := (w.players guid).filter (·.inWorld)

/-- The group of a player that is not the raid of a battleground. -/
def normalGroup (pl : GroupPlayer) : Option Nat :=
  pl.group.target.bind fun k => if (w.groups k).bgGroup then pl.originalGroup.target else some k

/-! ## Members -/

/-- `_addMember` with a subgroup. -/
def addMemberTo (group : UInt8) : Option GroupWorld :=
  let g := w.groups k
  if g.isFull || guid == 0 then none
  else
    let w := w.setGroup k (g.addSlot guid group)
    match w.getPlayer guid with
    | none => some w
    | some pl =>
      let pl := { pl with groupInvite := none }
      some <| w.setPlayer guid <|
        if pl.group.target.isSome && g.bgGroup then pl.setBattleGroundRaid k group
        else if pl.group.target.isSome then pl.setOriginalGroup (some k) group
        else pl.setGroup (some k) group

def addMember : Option GroupWorld :=
  (w.groups k).freeSubGroup.bind fun group => w.addMemberTo k guid group

def create : Option GroupWorld :=
  let g := { w.groups k with leaderGuid := guid }
  let g := if g.bgGroup then ({ g with groupType := .raid } : Group).initRaidSubGroupsCounter
    else { g with groupType := .normal }
  (w.setGroup k g).addMember k guid

/-- `_chooseLeader`: an online member, in a raid an assistant first; otherwise anyone, unless the
leader is only offline. -/
def chooseLeader (k : Nat) (offline : Bool) : GroupWorld :=
  let g := w.groups k
  if g.memberSlots.length < g.getMembersMinCount then w
  else
    let online := g.memberSlots.filter fun s =>
      s.guid != g.leaderGuid && (w.getPlayer s.guid).any (·.group.target == some k)
    let chosen := if g.isRaidGroup then (online.find? (·.assistant)).or online.head? else online.head?
    match chosen with
    | some s => w.setGroup k (g.setLeader s.guid)
    | none => if offline then w
      else (g.memberSlots.head?).elim w fun s => w.setGroup k (g.setLeader s.guid)

/-- `_removeMember` -/
def removeSlot : GroupWorld :=
  let g := w.groups k
  let w := ((w.getPlayer guid).map (·.leave k g.bgGroup)).elim w (w.setPlayer guid)
  let w := w.setGroup k (g.removeSlot guid)
  if g.leaderGuid = guid then w.chooseLeader k false else w

/-- `Disband`, and the group is deleted. -/
def disband (k : Nat) : GroupWorld :=
  let g := w.groups k
  { w.setGroup k {} with
    players := fun p => (w.players p).map fun pl =>
      (if g.isMember p && pl.inWorld then pl.leave k g.bgGroup else pl).forget k }

def removeMember : GroupWorld :=
  let g := w.groups k
  if g.memberSlots.length > g.getMembersMinCount then w.removeSlot k guid else w.disband k

def changeLeader : GroupWorld :=
  w.setGroup k ((w.groups k).setLeader guid)

/-- `ConvertToRaid`, for a group that the leader is in. -/
def convertToRaid (k : Nat) : GroupWorld :=
  if (w.groups k).memberSlots = [] then w else w.setGroup k (w.groups k).convertToRaid

/-- `leaderDue`: the leader is away for long enough and not about to come back. -/
def updateOfflineLeader (k : Nat) (leaderDue : Bool) : GroupWorld :=
  if (w.groups k).bgGroup then w
  else if (w.getPlayer (w.groups k).leaderGuid).isSome then w
  else if !leaderDue then w
  else w.chooseLeader k true

/-! ## Subgroups -/

/-- `ChangeMembersGroup` of a player who was found. -/
def changePlayersGroup (group : UInt8) : GroupWorld :=
  let g := w.groups k
  match w.getPlayer guid with
  | none => w
  | some pl =>
    if !g.isRaidGroup || group.toNat ≥ maxRaidSubgroups then w
    else
      let prevSubGroup := g.getMemberGroup guid
      if prevSubGroup = group ∨ prevSubGroup.toNat ≥ maxRaidSubgroups then w
      else if !g.hasRoom group then w
      else
        match g.setMembersGroup guid group with
        | none => w
        | some g =>
          -- a player in a battleground has this group in the other reference
          let prevSubGroup :=
            if pl.group.target = some k then prevSubGroup else pl.originalGroup.subGroup
          (w.setPlayer guid (pl.setSubGroup k group)).setGroup k
            (g.subGroupCounterDecrease prevSubGroup)

/-- `ChangeMembersGroup` of a guid. -/
def changeMembersGroup (group : UInt8) : GroupWorld :=
  let g := w.groups k
  if !g.isRaidGroup || group.toNat ≥ maxRaidSubgroups then w
  else if !g.hasRoom group then w
  else
    match w.getPlayer guid with
    | some _ => w.changePlayersGroup k guid group
    | none =>
      let prevSubGroup := g.getMemberGroup guid
      if prevSubGroup = group then w
      else
        match g.setMembersGroup guid group with
        | none => w
        | some g => w.setGroup k (g.subGroupCounterDecrease prevSubGroup)

/-- The reference of a player who was found follows his slot. -/
def setSubGroup (group : UInt8) : GroupWorld :=
  match w.getPlayer guid with
  | none => w
  | some pl => w.setPlayer guid (pl.setSubGroup k group)

/-- `SwapMembersGroup` of two guids. With two players who were found, the other overload does the
same. -/
def swapMembersGroup (k guid swapGuid : Nat) : GroupWorld :=
  let g := w.groups k
  if !g.isRaidGroup then w
  else
    let group := g.getMemberGroup guid
    let swapGroup := g.getMemberGroup swapGuid
    if group = swapGroup ∨ group.toNat ≥ maxRaidSubgroups ∨ swapGroup.toNat ≥ maxRaidSubgroups then w
    else
      match g.swapSlots guid swapGuid with
      | none => w
      | some g =>
        ((w.setGroup k g).setSubGroup k guid swapGroup).setSubGroup k swapGuid group

/-- `SwapMembersGroup` of two players. -/
def swapPlayersGroup (k guid swapGuid : Nat) : GroupWorld :=
  match w.getPlayer guid, w.getPlayer swapGuid with
  | some _, some _ => w.swapMembersGroup k guid swapGuid
  | _, _ => w

/-! ## Invitations -/

def addInvite : Option GroupWorld :=
  (w.getPlayer guid).bind fun pl =>
    if pl.groupInvite.isSome || (w.normalGroup pl).isSome then none
    else some (w.setPlayer guid { pl with groupInvite := some k })

/-- `HandleGroupInviteOpcode`; `allowed` by the checks on factions, maps, ignored players and
hardcore characters. -/
def handleGroupInvite (guid invited : Nat) (allowed : Bool) : GroupWorld :=
  match w.getPlayer guid, w.getPlayer invited with
  | some pl, some player =>
    if !allowed || (w.normalGroup player).isSome || player.groupInvite.isSome then w
    else
      match w.normalGroup pl with
      | some k =>
        let g := w.groups k
        if !(g.leaderGuid == guid || g.isAssistant guid) || g.isFull then w
        else (w.addInvite k invited).getD w
      | none =>
        -- a new group, which exists as long as somebody is invited
        let k := w.nextGroup
        let w' := { w.setGroup k { leaderGuid := guid } with nextGroup := k + 1 }
        ((w'.addInvite k guid).bind fun w' => w'.addInvite k invited).getD w
  | _, _ => w

/-- The group is formed by the first acceptance. -/
def formGroup (k : Nat) : Option GroupWorld :=
  let g := w.groups k
  if g.memberSlots = [] then w.create k g.leaderGuid else some w

def handleGroupAccept (guid : Nat) (allowed : Bool) : GroupWorld :=
  match w.getPlayer guid with
  | none => w
  | some pl =>
    match pl.groupInvite with
    | none => w
    | some k =>
      if (w.groups k).leaderGuid = guid then w
      else
        let w := w.setPlayer guid { pl with groupInvite := none }
        if (w.groups k).isFull || !allowed then w
        else
          match w.formGroup k with
          | none => w
          | some w => (w.addMember k guid).getD w

/-- `UninviteFromGroup`: a group that nobody has joined is given up. -/
def uninviteFromGroup (guid : Nat) : GroupWorld :=
  match w.players guid with
  | none => w
  | some pl =>
    match pl.groupInvite with
    | none => w
    | some k =>
      let w := w.setPlayer guid { pl with groupInvite := none }
      if (w.groups k).memberSlots.length ≤ 1 then w.disband k else w

/-! ## What players do besides -/

/-- `AddOrSetPlayerToCorrectBgGroup` for the raid `k` of a battleground. -/
def joinBattleGround : GroupWorld :=
  let g := w.groups k
  match w.getPlayer guid with
  | none => w
  | some pl =>
    if !g.bgGroup then w
    else if g.memberSlots = [] then (w.create k guid).getD w
    else if g.isMember guid then w.setPlayer guid (pl.setBattleGroundRaid k (g.getMemberGroup guid))
    else
      match w.addMember k guid with
      | none => w
      | some w =>
        if ((w.players guid).bind (·.originalGroup.target)).any
            fun r => (w.groups r).leaderGuid == guid then w.changeLeader k guid
        else w

/-- The group of which `guid` is a member, by the table `group_member` or as the raid of a
battleground. -/
def groupOf (guid : Nat) (bg : Bool) : Option Nat :=
  (List.range w.nextGroup).find? fun k => (w.groups k).bgGroup == bg && (w.groups k).isMember guid

/-- A character comes online, by `_LoadGroup` with his group, and in a battleground with its raid. -/
def login (guid : Nat) : GroupWorld :=
  match w.players guid with
  | some _ => w
  | none =>
    let pl : GroupPlayer := (w.groupOf guid false).elim {} fun k =>
      GroupPlayer.setGroup {} (some k) ((w.groups k).getMemberGroup guid)
    let pl := (w.groupOf guid true).elim pl fun k =>
      pl.setBattleGroundRaid k ((w.groups k).getMemberGroup guid)
    w.setPlayer guid pl

def logout (guid : Nat) : GroupWorld :=
  let w := w.uninviteFromGroup guid
  { w with players := fun p => if p = guid then none else w.players p }

/-- A player goes to another map, or arrives there. -/
def setInWorld (guid : Nat) (inWorld : Bool) : GroupWorld :=
  match w.players guid with
  | none => w
  | some pl => w.setPlayer guid { pl with inWorld }

/-- A battleground starts, with an empty raid. -/
def newBattleGround : GroupWorld :=
  { w.setGroup w.nextGroup { bgGroup := true } with nextGroup := w.nextGroup + 1 }

end GroupWorld

inductive GroupInput where
  | invite (guid invited : Nat) (allowed : Bool)
  | accept (guid : Nat) (allowed : Bool)
  | uninvite (guid : Nat)
  | convertToRaid (k : Nat)
  | removeMember (k guid : Nat)
  | changeLeader (k guid : Nat)
  | updateOfflineLeader (k : Nat) (leaderDue : Bool)
  | changeMembersGroup (k guid : Nat) (group : UInt8)
  | changePlayersGroup (k guid : Nat) (group : UInt8)
  | swapMembersGroup (k guid swapGuid : Nat)
  | swapPlayersGroup (k guid swapGuid : Nat)
  | newBattleGround
  | joinBattleGround (k guid : Nat)
  | login (guid : Nat)
  | logout (guid : Nat)
  | setInWorld (guid : Nat) (inWorld : Bool)
  deriving DecidableEq, Repr

namespace GroupWorld

def step (w : GroupWorld) : GroupInput → GroupWorld
  | .invite guid invited allowed => w.handleGroupInvite guid invited allowed
  | .accept guid allowed => w.handleGroupAccept guid allowed
  | .uninvite guid => w.uninviteFromGroup guid
  | .convertToRaid k => w.convertToRaid k
  | .removeMember k guid => w.removeMember k guid
  | .changeLeader k guid => w.changeLeader k guid
  | .updateOfflineLeader k leaderDue => w.updateOfflineLeader k leaderDue
  | .changeMembersGroup k guid group => w.changeMembersGroup k guid group
  | .changePlayersGroup k guid group => w.changePlayersGroup k guid group
  | .swapMembersGroup k guid swapGuid => w.swapMembersGroup k guid swapGuid
  | .swapPlayersGroup k guid swapGuid => w.swapPlayersGroup k guid swapGuid
  | .newBattleGround => w.newBattleGround
  | .joinBattleGround k guid => w.joinBattleGround k guid
  | .login guid => w.login guid
  | .logout guid => w.logout guid
  | .setInWorld guid inWorld => w.setInWorld guid inWorld

end GroupWorld

end Windrunner
