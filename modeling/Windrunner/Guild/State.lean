import Mathlib.Data.UInt
import Windrunner.Lib.Run

/-!
# Guilds

A guild keeps its leader, a slot for every member and its ranks, the best one first. The tables
`guild`, `guild_member` and `guild_rank` follow, and a member who is online has his rank a third
time, in a field of the player.

* `changeRank`, `setNewLeader`, `addMember`, `delMember`: what the handlers are made of.
  `sObjectMgr.GetPlayer` finds a player in the world, `FindPlayerNotInWorld` also one between two
  maps.
* `canPromote`, `canDemote`, `canRemove`: the checks of the packets, which read the field.
* `GuildWorld.step`: one packet or call, or what players do besides.
-/

namespace Windrunner

open Lib

abbrev guildRanksMinCount : Nat := 5
abbrev guildRanksMaxCount : Nat := 10
abbrev grGuildMaster : Nat := 0
abbrev grOfficer : Nat := 1

abbrev rightEmpty : UInt32 := 0x40
abbrev rightGchatListen : UInt32 := 0x41
abbrev rightGchatSpeak : UInt32 := 0x42
abbrev rightPromote : UInt32 := 0xC0
abbrev rightDemote : UInt32 := 0x140
abbrev rightInvite : UInt32 := 0x50
abbrev rightRemove : UInt32 := 0x60
abbrev rightSetMotd : UInt32 := 0x1040
abbrev rightEpNote : UInt32 := 0x2040
abbrev rightEoffNote : UInt32 := 0x8040
abbrev rightModifyGuildInfo : UInt32 := 0x10040
abbrev rightAll : UInt32 := 0xFF1FF

structure RankInfo where
  name : String
  rights : UInt32
  deriving DecidableEq, Repr

/-- The slot of a member. -/
structure GuildMember where
  guid : Nat
  rankId : Nat
  publicNote : String := ""
  officerNote : String := ""
  deriving DecidableEq, Repr

structure Guild where
  id : Nat
  leaderGuid : Nat
  members : List GuildMember := []
  ranks : List RankInfo := []
  motd : String := ""
  info : String := ""
  deriving DecidableEq, Repr

structure GuildRow where
  leaderguid : Nat
  info : String
  motd : String
  deriving DecidableEq, Repr

/-- A row of `guild_member`, of any guild; `guid` is unique. -/
structure GuildMemberRow where
  guildid : Nat
  guid : Nat
  rank : Nat
  pnote : String := ""
  offnote : String := ""
  deriving DecidableEq, Repr

structure GuildRankRow where
  rid : Nat
  rname : String
  rights : UInt32
  deriving DecidableEq, Repr

structure GuildTables where
  guild : GuildRow
  guildMember : List GuildMemberRow := []
  guildRank : List GuildRankRow := []
  deriving DecidableEq, Repr

/-- A player who is online. -/
structure GuildPlayer where
  /-- Not so while he goes from one map to another. -/
  inWorld : Bool := true
  guildId : Nat := 0
  rank : Nat := 0
  guildIdInvited : Nat := 0
  deriving DecidableEq, Repr

/-- A guild, its tables and the players online. -/
structure GuildWorld where
  guild : Guild
  disbanded : Bool := false
  tables : GuildTables
  players : Nat → Option GuildPlayer := fun _ => none

/-- `mysql_real_escape_string`. -/
def escapeChar (c : Char) : List Char :=
  let escaped (n : Nat) : List Char := [Char.ofNat 92, Char.ofNat n]
  match c.toNat with
  | 0 => escaped 48
  | 10 => escaped 110
  | 13 => escaped 114
  | 26 => escaped 90
  | 34 => escaped 34
  | 39 => escaped 39
  | 92 => escaped 92
  | _ => [c]

def escapeString (s : String) : String := String.ofList (s.toList.flatMap escapeChar)

namespace Guild

variable (g : Guild)

def getRanksSize : Nat := g.ranks.length

def getLowestRank : Nat := g.ranks.length - 1

/-- Of a rank that does not exist `0`. -/
def getRankRights (rankId : Nat) : UInt32 := (g.ranks[rankId]?.map (·.rights)).getD 0

def hasRankRight (rankId : Nat) (right : UInt32) : Bool :=
  (g.getRankRights rankId &&& right) != rightEmpty

/-- `GetMemberSlot`; a name in a packet stands for the guid of the first slot with that name. -/
def getMemberSlot (guid : Nat) : Option GuildMember := g.members.find? (·.guid == guid)

def mapMember (guid : Nat) (f : GuildMember → GuildMember) : Guild :=
  { g with members := g.members.map fun s => if s.guid = guid then f s else s }

def putMember (slot : GuildMember) : Guild :=
  if (g.getMemberSlot slot.guid).isSome then g.mapMember slot.guid fun _ => slot
  else { g with members := g.members ++ [slot] }

/-- `GetSuitableNewLeader`: of the members with the best rank the first one in the order of the
map, which is up to `next`. -/
def suitableNewLeader (next : Nat) : Option GuildMember :=
  let others := g.members.filter (·.guid != g.leaderGuid)
  let best := others.filter fun s => others.all (s.rankId ≤ ·.rankId)
  best[next]?.or best.head?

/-- `GetSuitableNewLeader` with `preferOldestOfficer`; `oldest` is the first officer in the log of
invitations. -/
def oldestOfficer (oldest : Option Nat) (next : Nat) : Option GuildMember :=
  let officer := (oldest.bind g.getMemberSlot).filter fun s =>
    s.rankId == grOfficer && s.guid != g.leaderGuid
  if (g.suitableNewLeader next).isNone then none else officer.or (g.suitableNewLeader next)

end Guild

namespace GuildWorld

variable (w : GuildWorld) (guid : Nat)

def setPlayer (pl : GuildPlayer) : GuildWorld :=
  { w with players := fun p => if p = guid then some pl else w.players p }

/-- `sObjectMgr.GetPlayer`. -/
def getPlayer : Option GuildPlayer :=
  (w.players guid).filter (·.inWorld)

/-- The fields of a player who is in the world are set. -/
def mapPlayer (f : GuildPlayer → GuildPlayer) : GuildWorld :=
  ((w.getPlayer guid).map f).elim w (w.setPlayer guid)

/-- The row of a character in `guild_member`. -/
def row : Option GuildMemberRow :=
  w.tables.guildMember.find? (·.guid == guid)

/-- `UPDATE guild_member ... WHERE guid` -/
def updateRow (f : GuildMemberRow → GuildMemberRow) : GuildWorld :=
  { w with tables.guildMember :=
      w.tables.guildMember.map fun r => if r.guid = guid then f r else r }

/-! ## Members -/

/-- `MemberSlot::ChangeRank` -/
def changeRank (w : GuildWorld) (guid newRank : Nat) : GuildWorld :=
  let w := { w with guild := w.guild.mapMember guid ({ · with rankId := newRank }) }
  let w := w.mapPlayer guid ({ · with rank := newRank })
  w.updateRow guid ({ · with rank := newRank })

/-- `SetLeader` of a slot. -/
def setLeader : GuildWorld :=
  let w := { w with guild.leaderGuid := guid }
  let w := w.changeRank guid grGuildMaster
  { w with tables.guild.leaderguid := guid }

/-- `SetNewLeader` of two slots. -/
def setNewLeader (newLeader : Nat) (oldLeader : Option Nat) : GuildWorld :=
  let w := w.setLeader newLeader
  oldLeader.elim w (w.changeRank · grOfficer)

def setNewLeaderGuid : GuildWorld :=
  match w.guild.getMemberSlot guid, w.guild.getMemberSlot w.guild.leaderGuid with
  | some new, some old => if new.guid = old.guid then w else w.setNewLeader new.guid (some old.guid)
  | _, _ => w

/-- `AddMember` puts nobody in who is in a guild, or whose data is not sound: `known`. -/
def refuses (known : Bool) : Bool :=
  match w.players guid with
  | some pl => pl.guildId != 0
  | none => (w.guild.getMemberSlot guid).isSome || !known

/-- `INSERT INTO guild_member`, which fails when there is a row with that `guid`. -/
def insertRow (r : GuildMemberRow) : GuildWorld :=
  if (w.row r.guid).isSome then w
  else { w with tables.guildMember := w.tables.guildMember ++ [r] }

def addMember (guid rank : Nat) (known : Bool) : GuildWorld :=
  if w.refuses guid known then w
  else
    let w := { w with guild := w.guild.putMember { guid, rankId := rank } }
    let w := w.insertRow { guildid := w.guild.id, guid, rank }
    (w.players guid).elim w fun pl =>
      w.setPlayer guid { pl with guildId := w.guild.id, rank, guildIdInvited := 0 }

/-- The end of `DelMember`. -/
def eraseMember : GuildWorld :=
  let w := { w with guild.members := w.guild.members.filter (·.guid != guid) }
  let w := w.mapPlayer guid ({ · with guildId := 0, rank := 0 })
  { w with tables.guildMember := w.tables.guildMember.filter (·.guid != guid) }

/-- `Disband`; the guild is deleted. -/
def disband : GuildWorld :=
  { w with
    disbanded := true
    tables.guildMember := w.tables.guildMember.filter fun r =>
      !(w.guild.getMemberSlot r.guid).isSome
    players := fun p => (w.players p).map fun pl =>
      if (w.guild.getMemberSlot p).isSome && pl.inWorld then { pl with guildId := 0, rank := 0 }
      else pl }

/-- `DelMember`, after which the callers disband a guild that has nobody left. -/
def delMember (guid next : Nat) : GuildWorld :=
  let w' := if w.guild.leaderGuid = guid
    then (w.guild.suitableNewLeader next).map fun best =>
      (w.setNewLeader best.guid ((w.guild.getMemberSlot guid).map (·.guid))).eraseMember guid
    else some (w.eraseMember guid)
  match w' with
  | none => w.disband
  | some w' => if w'.guild.members = [] then w'.disband else w'

/-! ## Packets -/

/-- The one who sends a packet, when he is in the guild by his field. -/
def sender : Option GuildPlayer :=
  (w.getPlayer guid).filter (·.guildId == w.guild.id)

/-- `HandleGuildInviteOpcode`; `allowed` by the checks on factions and ignored players. -/
def handleGuildInvite (guid invited : Nat) (allowed : Bool) : GuildWorld :=
  match w.getPlayer invited, w.sender guid with
  | some player, some pl =>
    if !allowed || player.guildId != 0 || player.guildIdInvited != 0 ||
        !w.guild.hasRankRight pl.rank rightInvite then w
    else w.setPlayer invited { player with guildIdInvited := pl.guildId }
  | _, _ => w

/-- The checks of `HandleGuildAcceptOpcode`. -/
def accepts (allowed : Bool) : Bool :=
  (w.getPlayer guid).any fun player =>
    player.guildIdInvited == w.guild.id && player.guildId == 0 && allowed

def handleGuildAccept (allowed : Bool) : GuildWorld :=
  if w.accepts guid allowed then w.addMember guid w.guild.getLowestRank true else w

def handleGuildDecline : GuildWorld :=
  match w.getPlayer guid with
  | none => w
  | some player =>
    if player.guildId != 0 || player.guildIdInvited == 0 then w
    else w.setPlayer guid { player with guildIdInvited := 0 }

/-- The slot that a packet with `right` from `guid` about `target` is allowed to change, if `check`
passes on the rank in the field of the sender and the slot. -/
def allowed (guid target : Nat) (right : UInt32)
    (check : Nat → GuildMember → Bool) : Option GuildMember :=
  (w.sender guid).bind fun pl =>
    if !w.guild.hasRankRight pl.rank right then none
    else (w.guild.getMemberSlot target).filter (check pl.rank)

def canPromote (guid target : Nat) : Option GuildMember :=
  w.allowed guid target rightPromote fun rank s => s.guid != guid && !(rank + 1 ≥ s.rankId)

def canDemote (guid target : Nat) : Option GuildMember :=
  w.allowed guid target rightDemote fun rank s =>
    s.guid != guid && !(rank ≥ s.rankId) && !(s.rankId ≥ w.guild.getLowestRank)

def canRemove (guid target : Nat) : Option GuildMember :=
  w.allowed guid target rightRemove fun rank s => s.rankId != grGuildMaster && !(rank ≥ s.rankId)

def handleGuildPromote (guid target : Nat) : GuildWorld :=
  (w.canPromote guid target).elim w fun s => w.changeRank s.guid (s.rankId - 1)

def handleGuildDemote (guid target : Nat) : GuildWorld :=
  (w.canDemote guid target).elim w fun s => w.changeRank s.guid (s.rankId + 1)

def handleGuildRemove (guid target next : Nat) : GuildWorld :=
  (w.canRemove guid target).elim w fun s => w.delMember s.guid next

def handleGuildLeave (guid next : Nat) : GuildWorld :=
  match w.sender guid with
  | none => w
  | some _ =>
    if guid = w.guild.leaderGuid then if w.guild.members.length > 1 then w else w.disband
    else w.delMember guid next

/-- The guild master sends a packet. -/
def isMaster : Bool :=
  (w.sender guid).isSome && guid == w.guild.leaderGuid

def handleGuildLeader (guid target : Nat) : GuildWorld :=
  if !w.isMaster guid then w
  else
    match w.guild.getMemberSlot guid, w.guild.getMemberSlot target with
    | some old, some new =>
      if old.guid = new.guid then w else w.setNewLeader new.guid (some old.guid)
    | _, _ => w

/-- The guild master dies for good in hardcore mode. -/
def hardcoreDeath (oldest : Option Nat) (next : Nat) : GuildWorld :=
  (w.guild.oldestOfficer oldest next).elim w fun best =>
    w.setNewLeader best.guid ((w.guild.getMemberSlot w.guild.leaderGuid).map (·.guid))

/-! ## Ranks and texts -/

def createRank (name : String) (rights : UInt32) : GuildWorld :=
  if w.guild.ranks.length ≥ guildRanksMaxCount then w
  else
    { w with
      guild.ranks := w.guild.ranks ++ [⟨name, rights⟩]
      tables.guildRank := w.tables.guildRank ++ [⟨w.guild.ranks.length, name, rights⟩] }

/-- The members who have the lowest rank keep it. -/
def delRank (w : GuildWorld) : GuildWorld :=
  if w.guild.ranks.length ≤ guildRanksMinCount then w
  else
    { w with
      guild.ranks := w.guild.ranks.dropLast
      tables.guildRank := w.tables.guildRank.filter fun r => !(r.rid ≥ w.guild.getLowestRank) }

def setRank (rankId : Nat) (name : String) (rights : UInt32) : GuildWorld :=
  if rankId ≥ w.guild.ranks.length then w
  else
    { w with
      guild.ranks := w.guild.ranks.set rankId ⟨name, rights⟩
      tables.guildRank := w.tables.guildRank.map fun r =>
        if r.rid = rankId then ⟨r.rid, name, rights⟩ else r }

def handleGuildAddRank (name : String) : GuildWorld :=
  if !w.isMaster guid || w.guild.ranks.length ≥ guildRanksMaxCount then w
  else w.createRank name (rightGchatListen ||| rightGchatSpeak)

def handleGuildDelRank : GuildWorld :=
  if !w.isMaster guid then w else w.delRank

def handleGuildRank (guid rankId : Nat) (name : String) (rights : UInt32) :
    GuildWorld :=
  if !w.isMaster guid then w
  else w.setRank rankId name (if rankId = grGuildMaster then rightAll else rights)

/-- `SetPublicNote`: the note is escaped in place. -/
def setPublicNote (note : String) : GuildWorld :=
  match w.guild.getMemberSlot guid with
  | none => w
  | some s =>
    if s.publicNote = note then w
    else
      let guild := w.guild.mapMember guid ({ · with publicNote := escapeString note })
      { w with guild }.updateRow guid ({ · with pnote := note })

def setOfficerNote (note : String) : GuildWorld :=
  match w.guild.getMemberSlot guid with
  | none => w
  | some s =>
    if s.officerNote = note then w
    else
      let guild := w.guild.mapMember guid ({ · with officerNote := escapeString note })
      { w with guild }.updateRow guid ({ · with offnote := note })

def setMotd (motd : String) : GuildWorld :=
  { w with guild.motd := motd, tables.guild.motd := motd }

def setGinfo (info : String) : GuildWorld :=
  { w with guild.info := info, tables.guild.info := info }

/-- A packet that needs a right only. -/
def withRight (right : UInt32) (w' : GuildWorld) : GuildWorld :=
  if (w.sender guid).any fun pl => w.guild.hasRankRight pl.rank right then w' else w

end GuildWorld

inductive GuildInput where
  /-- `guildExists` of the guild in the row, if that is another one. -/
  | login (guid : Nat) (guildExists : Bool)
  | logout (guid : Nat)
  | setInWorld (guid : Nat) (inWorld : Bool)
  /-- Someone joins another guild, or leaves it when `guildid = 0`. -/
  | elsewhere (guid guildid rank : Nat)
  | invite (guid invited : Nat) (allowed : Bool)
  | accept (guid : Nat) (allowed : Bool)
  | decline (guid : Nat)
  | promote (guid target : Nat)
  | demote (guid target : Nat)
  | remove (guid target next : Nat)
  | leave (guid next : Nat)
  | leader (guid target : Nat)
  /-- `AddMember` with the lowest rank, for a petition or a game master. -/
  | addMember (guid : Nat) (known : Bool)
  /-- `DelMember`, for a deleted character or a game master. -/
  | delMember (guid next : Nat)
  | setNewLeader (guid : Nat)
  | hardcoreDeath (oldest : Option Nat) (next : Nat)
  | addRank (guid : Nat) (name : String)
  | delRank (guid : Nat)
  | rank (guid rankId : Nat) (name : String) (rights : UInt32)
  | publicNote (guid target : Nat) (note : String)
  | officerNote (guid target : Nat) (note : String)
  | motd (guid : Nat) (motd : String)
  | infoText (guid : Nat) (info : String)
  deriving DecidableEq, Repr

namespace GuildWorld

/-- `_LoadGuild`: the fields come from the row, if there is one and its guild exists. -/
def login (w : GuildWorld) (guid : Nat) (guildExists : Bool) : GuildWorld :=
  match w.players guid with
  | some _ => w
  | none =>
    w.setPlayer guid <| ((w.row guid).filter (·.guildid == w.guild.id || guildExists)).elim {}
      fun r => { guildId := r.guildid, rank := r.rank }

/-- What another guild does to someone who is not in this one. -/
def elsewhere (w : GuildWorld) (guid guildid rank : Nat) : GuildWorld :=
  if (w.guild.getMemberSlot guid).isSome || guildid == w.guild.id ||
      (w.row guid).any (·.guildid == w.guild.id) ||
      (w.players guid).any (·.guildId == w.guild.id) then w
  else
    let rows := w.tables.guildMember.filter (·.guid != guid)
    let row : GuildMemberRow := { guildid, guid, rank }
    let w := { w with tables.guildMember := if guildid = 0 then rows else rows ++ [row] }
    (w.players guid).elim w fun pl => w.setPlayer guid { pl with guildId := guildid, rank }

def call (w : GuildWorld) : GuildInput → GuildWorld
  | .login guid guildExists => w.login guid guildExists
  | .logout guid => { w with players := fun p => if p = guid then none else w.players p }
  | .setInWorld guid inWorld =>
    (w.players guid).elim w fun pl => w.setPlayer guid { pl with inWorld }
  | .elsewhere guid guildid rank => w.elsewhere guid guildid rank
  | .invite guid invited allowed => w.handleGuildInvite guid invited allowed
  | .accept guid allowed => w.handleGuildAccept guid allowed
  | .decline guid => w.handleGuildDecline guid
  | .promote guid target => w.handleGuildPromote guid target
  | .demote guid target => w.handleGuildDemote guid target
  | .remove guid target next => w.handleGuildRemove guid target next
  | .leave guid next => w.handleGuildLeave guid next
  | .leader guid target => w.handleGuildLeader guid target
  | .addMember guid known => w.addMember guid w.guild.getLowestRank known
  | .delMember guid next => w.delMember guid next
  | .setNewLeader guid => w.setNewLeaderGuid guid
  | .hardcoreDeath oldest next => w.hardcoreDeath oldest next
  | .addRank guid name => w.handleGuildAddRank guid name
  | .delRank guid => w.handleGuildDelRank guid
  | .rank guid rankId name rights => w.handleGuildRank guid rankId name rights
  | .publicNote guid target note => w.withRight guid rightEpNote (w.setPublicNote target note)
  | .officerNote guid target note => w.withRight guid rightEoffNote (w.setOfficerNote target note)
  | .motd guid motd => w.withRight guid rightSetMotd (w.setMotd motd)
  | .infoText guid info => w.withRight guid rightModifyGuildInfo (w.setGinfo info)

/-- A guild that is gone takes no packets. -/
def step (w : GuildWorld) (i : GuildInput) : GuildWorld := if w.disbanded then w else w.call i

end GuildWorld

end Windrunner
