import Windrunner.Guild.State

/-!
# The start of a guild

* `createDefaultGuildRanks`, `create`: a guild that a player founds.
* `loadRanks`, `loadMembers`, `checkGuildStructure`, `load`: a guild that is read from its tables
  when the server starts. What is not sound in the tables is repaired, sometimes in memory only.
-/

namespace Windrunner

open Lib

namespace GuildWorld

/-- `CreateDefaultGuildRanks` of a guild without ranks; `text` has the names. -/
def createDefaultGuildRanks (w : GuildWorld) (text : Nat → String) : GuildWorld :=
  let w := { w with tables.guildRank := [] }
  let w := w.createRank (text 0) rightAll
  let w := w.createRank (text 1) rightAll
  let w := w.createRank (text 2) (rightGchatListen ||| rightGchatSpeak)
  let w := w.createRank (text 3) (rightGchatListen ||| rightGchatSpeak)
  w.createRank (text 4) (rightGchatListen ||| rightGchatSpeak)

/-- `Create`, among the rows and players of `w`; nothing comes of it when the leader is in a
guild. -/
def create (id leader : Nat) (text : Nat → String) (rows : List GuildMemberRow)
    (players : Nat → Option GuildPlayer) : GuildWorld :=
  let w : GuildWorld :=
    { guild := { id, leaderGuid := leader, motd := "No message set." }
      tables :=
        { guild := { leaderguid := leader, info := "", motd := "No message set." }
          guildMember := rows.filter (·.guildid != id) }
      players }
  (w.createDefaultGuildRanks text).addMember leader grGuildMaster true

/-- `LoadRanksFromDB` of a guild without ranks. The rows come in the order of `rid`. -/
def loadRanks (w : GuildWorld) (text : Nat → String) : GuildWorld :=
  let ranks := w.tables.guildRank.map fun r => RankInfo.mk r.rname r.rights
  let ranks := ranks.modify 0 fun r => { r with rights := r.rights ||| rightAll }
  let broken := w.tables.guildRank.map (·.rid) != List.range ranks.length
  if ranks.length < guildRanksMinCount then w.createDefaultGuildRanks text
  else
    let rows := ranks.mapIdx fun rid r => GuildRankRow.mk rid r.name r.rights
    { w with
      guild.ranks := ranks
      tables.guildRank := if broken then rows else w.tables.guildRank }

/-- The slot of a row; a rank that does not exist becomes the lowest one, in memory only. -/
def slotOf (g : Guild) (r : GuildMemberRow) : GuildMember :=
  { guid := r.guid
    rankId := if r.rank ≥ g.getRanksSize then g.getLowestRank else r.rank
    publicNote := r.pnote
    officerNote := r.offnote }

/-- `LoadMembersFromDB`; `sound` are the characters that exist, with sound data. -/
def loadMembers (w : GuildWorld) (sound : Nat → Bool) : GuildWorld :=
  let rows := w.tables.guildMember
  let members := (rows.filter fun r => r.guildid == w.guild.id && sound r.guid).map (slotOf w.guild)
  let w := { w with
    guild.members := members
    tables.guildMember := rows.filter fun r => r.guildid != w.guild.id || sound r.guid }
  if members = [] then w.disband else w

/-- `CheckGuildStructure`: a leader who is a member, and no other guild master. -/
def checkGuildStructure (w : GuildWorld) (next : Nat) : GuildWorld :=
  let w := match w.guild.getMemberSlot w.guild.leaderGuid with
    | none => w.delMember w.guild.leaderGuid next
    | some s => if s.rankId ≠ grGuildMaster then w.setLeader s.guid else w
  let others := w.guild.members.filter fun s =>
    s.rankId == grGuildMaster && s.guid != w.guild.leaderGuid
  if w.disbanded then w
  else (others.map (·.guid)).foldl (fun w guid => w.changeRank guid grOfficer) w

/-- `LoadGuildFromDB`, `LoadRanksFromDB` and `LoadMembersFromDB`. -/
def loadTables (id : Nat) (t : GuildTables) (text : Nat → String) (sound : Nat → Bool) :
    GuildWorld :=
  let w : GuildWorld :=
    { guild := { id, leaderGuid := t.guild.leaderguid, motd := t.guild.motd, info := t.guild.info }
      tables := t }
  (w.loadRanks text).loadMembers sound

/-- A guild is loaded, and `CheckGuildStructure` repairs it. -/
def load (id : Nat) (t : GuildTables) (text : Nat → String) (sound : Nat → Bool) (next : Nat) :
    GuildWorld :=
  let w := loadTables id t text sound
  if w.disbanded then w else w.checkGuildStructure next

end GuildWorld

end Windrunner
