import Mathlib.Data.UInt
import Windrunner.Lib.Total

/-!
# A chat channel

The members of a channel are a map from a guid to an entry with the guid and the member flags; the
owner is a guid besides, and a member flag. A write through `m_players[guid]` inserts an entry when
there is none (`modify`).

`ChannelWorld` has, besides the channel, who is online and whose list of channels has it.
-/

namespace Windrunner

open Lib

abbrev memberFlagOwner : UInt8 := 0x01
abbrev memberFlagModerator : UInt8 := 0x02
abbrev memberFlagMuted : UInt8 := 0x08

abbrev channelFlagCustom : UInt8 := 0x01
abbrev channelFlagGeneral : UInt8 := 0x10

/-- `SEC_OBSERVER`; an ordinary player is below. -/
abbrev secObserver : Nat := 1

/-- `PlayerInfo` -/
structure ChannelMember where
  player : Nat := 0
  flags : UInt8 := 0
  deriving DecidableEq, Repr

namespace ChannelMember

variable (m : ChannelMember)

def setFlag (flag : UInt8) (state : Bool) : ChannelMember :=
  { m with flags := if state then m.flags ||| flag else m.flags &&& ~~~flag }

def isOwner : Bool := m.flags &&& memberFlagOwner != 0
def isModerator : Bool := m.flags &&& memberFlagModerator != 0
def isMuted : Bool := m.flags &&& memberFlagMuted != 0

def setOwner (state : Bool) : ChannelMember := m.setFlag memberFlagOwner state
def setModerator (state : Bool) : ChannelMember :=
  m.setFlag memberFlagModerator state
def setMuted (state : Bool) : ChannelMember := m.setFlag memberFlagMuted state

end ChannelMember

/-- A custom channel, unless said otherwise. -/
structure Channel where
  channelId : Nat := 0
  flags : UInt8 := channelFlagCustom
  securityLevel : Nat := 0
  password : String := ""
  ownerGuid : Nat := 0
  players : FinMap Nat ChannelMember := ∅
  banned : Finset Nat := ∅

/-- What the players are. -/
structure ChannelSetup where
  security : Nat → Nat := fun _ => 0
  team : Nat → Bool := fun _ => true
  hasGuild : Nat → Bool := fun _ => false
  /-- `CONFIG_BOOL_ALLOW_TWO_SIDE_INTERACTION_CHANNEL` -/
  twoSide : Bool := false

namespace Channel

variable (s : ChannelSetup) (c : Channel) (guid : Nat)

def isConstant : Bool := c.channelId != 0
def hasFlag (flag : UInt8) : Bool := c.flags &&& flag != 0
def isOn : Bool := (c.players.lookup guid).isSome
def isBanned : Bool := decide (guid ∈ c.banned)

/-- `m_players[guid]`, where there may be no entry yet. -/
def entry : ChannelMember := (c.players.lookup guid).getD {}

/-- A write through `m_players[guid]` -/
def modify (f : ChannelMember → ChannelMember) : Channel :=
  { c with players := c.players.insert guid (f (c.entry guid)) }

def isEmpty : Bool := c.players.entries.isEmpty

/-- `m_players.begin()->second.player`, or no guid -/
def firstPlayer : Nat :=
  match (c.players.entries.map (·.1)).min? with
  | none => 0
  | some guid => (c.entry guid).player

/-- A moderator, or nobody of the ordinary players -/
def isModeratorOr : Bool :=
  (c.entry guid).isModerator || decide (secObserver ≤ s.security guid)

/-- `SetOwner(guid, exclaim)`; nobody has the empty guid. -/
def changeOwner (online : Nat → Bool) (c : Channel) (guid : Nat) : Channel :=
  if guid = 0 ∨ online guid = false then c
  else if c.hasFlag channelFlagGeneral ∧ s.security guid < secObserver then c
  else
    let c := if c.ownerGuid ≠ 0 ∧ c.isOn c.ownerGuid then
      c.modify c.ownerGuid (·.setOwner false) else c
    { c with ownerGuid := guid }.modify guid (·.setOwner true)

/-- Nothing speaks against a join. -/
def mayJoin (password : String) : Bool :=
  !c.isOn guid && !c.isBanned guid && (c.password == "" || password == c.password) &&
    decide (c.securityLevel ≤ s.security guid) && !(s.hasGuild guid && c.flags == 0x38)

def join (s : ChannelSetup) (online : Nat → Bool) (c : Channel) (guid : Nat) (password : String) :
    Channel :=
  if c.mayJoin s guid password then
    let c := { c with players := c.players.insert guid { player := guid } }
    if c.hasFlag channelFlagCustom ∧ ¬ c.isConstant ∧ c.ownerGuid = 0 then
      (c.changeOwner s online guid).modify guid (·.setModerator true)
    else c
  else c

def leave (s : ChannelSetup) (online : Nat → Bool) (c : Channel) (guid : Nat) : Channel :=
  if c.isOn guid then
    let changeowner := (c.entry guid).isOwner
    let c := { c with players := c.players.erase guid }
    if changeowner then c.changeOwner s online c.firstPlayer else c
  else c

/-- `ChannelMgr::LeftChannel`: a channel without members is deleted. The next join makes a new one. -/
def leftChannel : Channel :=
  if c.isEmpty ∧ ¬ c.isConstant ∧ c.securityLevel = 0 then {} else c

/-- The caller may kick or ban the target, who is the player of the name, if there is one. -/
def mayKick (target : Option Nat) : Option Nat :=
  if c.isOn guid ∧ c.isModeratorOr s guid then
    target.filter fun target => c.isOn target &&
      !(decide (s.security guid < secObserver) && c.ownerGuid == target && guid != c.ownerGuid)
  else none

/-- The target is out, and may be banned. -/
def expel (target : Nat) (ban : Bool) : Channel :=
  { c with
    banned := if ban then insert target c.banned else c.banned
    players := c.players.erase target }

def kickOrBan (online : Nat → Bool) (c : Channel) (guid : Nat)
    (target : Option Nat) (ban : Bool) : Channel :=
  match c.mayKick s guid target with
  | none => c
  | some target =>
    let changeowner := c.ownerGuid == target
    let c := c.expel target ban
    if changeowner then c.changeOwner s online (if c.isEmpty then 0 else guid) else c

def unBan (target : Option Nat) : Channel :=
  if c.isOn guid ∧ c.isModeratorOr s guid then
    match target with
    | none => c
    | some target => { c with banned := c.banned.erase target }
  else c

def setPassword (password : String) : Channel :=
  if c.isOn guid ∧ c.isModeratorOr s guid then { c with password } else c

/-- The team does not keep the one from what the other does to him. -/
def sameSide (guid target : Nat) : Bool :=
  s.team guid == s.team target || s.twoSide

/-- `SetModerator`, `UnsetModerator`, `SetMute` and `UnsetMute` -/
def setMode (target : Option Nat) (moderator set : Bool) : Channel :=
  if c.isOn guid ∧ c.isModeratorOr s guid then
    match target with
    | none => c
    | some target =>
      if moderator ∧ guid = c.ownerGuid ∧ target = c.ownerGuid then c
      else if ¬ c.isOn target then c
      else if (s.security guid < secObserver ∨ s.security target < secObserver) ∧
          ¬ sameSide s guid target then c
      else if c.ownerGuid = target ∧ c.ownerGuid ≠ guid then c
      else if moderator then
        if c.hasFlag channelFlagGeneral ∧ s.security target < secObserver then c
        else if (c.entry target).isModerator ≠ set then c.modify target (·.setModerator set)
        else c
      else if (c.entry target).isMuted ≠ set then c.modify target (·.setMuted set)
      else c
  else c

/-- `SetOwner(guid, name)` -/
def setOwner (online : Nat → Bool) (c : Channel) (guid : Nat) (target : Option Nat) : Channel :=
  if c.isOn guid ∧ (secObserver ≤ s.security guid ∨ guid = c.ownerGuid) then
    match target with
    | none => c
    | some target =>
      if ¬ c.isOn target ∨ ¬ sameSide s guid target then c
      else if c.hasFlag channelFlagGeneral ∧ s.security target < secObserver then c
      else (c.modify target (·.setModerator true)).changeOwner s online target
  else c

end Channel

structure ChannelWorld where
  channel : Channel := {}
  online : Nat → Bool := fun _ => false
  /-- Those whose `m_channels` has the channel. -/
  joined : Finset Nat := ∅

namespace ChannelWorld

inductive Input where
  | login (guid : Nat)
  | logout (guid : Nat)
  | join (guid : Nat) (password : String)
  | leave (guid : Nat)
  | kickOrBan (guid : Nat) (target : Option Nat) (ban : Bool)
  | unBan (guid : Nat) (target : Option Nat)
  | password (guid : Nat) (password : String)
  | setMode (guid : Nat) (target : Option Nat) (moderator set : Bool)
  | setOwner (guid : Nat) (target : Option Nat)
  deriving DecidableEq

/-- A logout leaves the channels of the player first (`CleanupChannels`). A packet to leave is one that
names this channel, also of a player who is not on it: the manager deletes what is empty. -/
def step (s : ChannelSetup) (w : ChannelWorld) : Input → ChannelWorld
  | .login guid => { w with online := Function.update w.online guid true }
  | .logout guid =>
    { channel :=
        if guid ∈ w.joined then (w.channel.leave s w.online guid).leftChannel else w.channel
      online := Function.update w.online guid false
      joined := w.joined.erase guid }
  | .join guid password =>
    { w with
      channel := w.channel.join s w.online guid password
      joined := if w.channel.mayJoin s guid password then insert guid w.joined else w.joined }
  | .leave guid =>
    { w with
      channel := (w.channel.leave s w.online guid).leftChannel
      joined := if w.channel.isOn guid then w.joined.erase guid else w.joined }
  | .kickOrBan guid target ban =>
    { w with
      channel := w.channel.kickOrBan s w.online guid target ban
      joined := match w.channel.mayKick s guid target with
        | none => w.joined
        | some target => w.joined.erase target }
  | .unBan guid target => { w with channel := w.channel.unBan s guid target }
  | .password guid password => { w with channel := w.channel.setPassword s guid password }
  | .setMode guid target moderator set =>
    { w with channel := w.channel.setMode s guid target moderator set }
  | .setOwner guid target => { w with channel := w.channel.setOwner s w.online guid target }

/-- The player who makes the call, if it is one. -/
def Input.caller : Input → Option Nat
  | .login _ | .logout _ => none
  | .join guid _ | .leave guid | .kickOrBan guid _ _ | .unBan guid _ | .password guid _
  | .setMode guid _ _ _ | .setOwner guid _ => some guid

end ChannelWorld

end Windrunner
