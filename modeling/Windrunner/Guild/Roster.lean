import Windrunner.Guild.State
import Windrunner.Lib.Budget
import Windrunner.Objects.ByteBuffer

/-!
# The roster packet

`Roster` lists the members of a guild in one packet, those online first; `BuildOnlineRosterPacket` only
those. Before it writes a record it looks at an estimate of the whole packet. Is that below
`MAX_UNCOMPRESSED_PACKET_SIZE`, every record is written. Otherwise the members are sorted by rank, and
no record is begun where one of `GUILD_MEMBER_BLOCK_SIZE` would not fit.

The estimate is not what is written, and a record may be longer than such a block.

* `RosterRecord`, `RosterPacket`: what the packet says, and its bytes.
* `RosterGuild.roster`, `RosterGuild.onlineRoster`: the two functions.
-/

namespace Windrunner

open Lib UInt32

abbrev guildNoteMaxLength : Nat := 31
abbrev guildInfoMaxLength : Nat := 500
abbrev guildMotdMaxLength : Nat := 128
abbrev maxInternalPlayerName : Nat := 15
abbrev maxUncompressedPacketSize : Nat := 0x8000

abbrev guildMemberBlockSize : Nat :=
  8 + 1 + (1 + maxInternalPlayerName) + 4 + 1 + 1 + 4 + (1 + guildNoteMaxLength) + (1 + guildNoteMaxLength)

abbrev guildMemberBlockSizeWithoutNote : Nat :=
  8 + 1 + (1 + maxInternalPlayerName) + 4 + 1 + 1 + 4 + (1 + 0) + (1 + 0)

abbrev guildMaxMembers : Nat :=
  (0x8000 - 10 - guildRanksMaxCount - guildInfoMaxLength - guildMotdMaxLength) /
    guildMemberBlockSizeWithoutNote

abbrev rightViewOffNote : UInt32 := 0x4040

/-! ## The packet -/

structure RosterRecord where
  guid : Nat
  online : Bool
  name : String
  rankId : Nat
  level : UInt8
  cls : UInt8
  zoneId : UInt32
  /-- The bits of the days since the logout, of those who have no player. -/
  offlineDays : Option UInt32
  publicNote : String
  officerNote : String

def RosterRecord.bytes (r : RosterRecord) : List UInt8 :=
  littleEndian 8 r.guid ++ [if r.online then 1 else 0] ++ cString r.name ++ littleEndian 4 r.rankId ++
    [r.level, r.cls] ++ littleEndian 4 r.zoneId.toNat ++
    (r.offlineDays.elim [] fun days => littleEndian 4 days.toNat) ++ cString r.publicNote ++
    cString r.officerNote

structure RosterPacket where
  count : UInt32
  motd : String
  info : String
  ranks : List UInt32
  records : List RosterRecord := []

def RosterPacket.bytes (p : RosterPacket) : List UInt8 :=
  littleEndian 4 p.count.toNat ++ cString p.motd ++ cString p.info ++ littleEndian 4 p.ranks.length ++
    (p.ranks.flatMap fun rights => littleEndian 4 rights.toNat) ++ p.records.flatMap RosterRecord.bytes

/-! ## The guild -/

/-- What a slot has besides `GuildMember`. -/
structure MemberDetails where
  name : String
  level : UInt8
  cls : UInt8
  zoneId : UInt32
  logoutTime : UInt64

/-- A player in the world. -/
structure RosterPlayer where
  name : String
  level : UInt8
  cls : UInt8
  cachedZoneId : UInt32
  hasGMDisabledSocials : Bool := false

/-- The members are a map by the low part of the guid, which no character has `0`. -/
structure RosterGuild extends Guild where
  details : Nat → MemberDetails
  keyed : (members.map (·.guid)).Nodup
  low : ∀ s ∈ members, 0 < s.guid ∧ s.guid < 2 ^ 32

structure TempMemberInfo where
  slot : GuildMember
  details : MemberDetails
  member : Option RosterPlayer

/-- What the two functions ask for besides the guild. -/
structure RosterMoment where
  /-- `ObjectAccessor::FindPlayer` -/
  findPlayer : Nat → Option RosterPlayer
  /-- The bits of the days since a time, a `float`. -/
  daysSince : UInt64 → UInt32
  /-- `std::sort` with the comparison of the ranks. -/
  byRank : Sorting fun a b : TempMemberInfo => a.slot.rankId ≤ b.slot.rankId

namespace TempMemberInfo

def isOnline (m : TempMemberInfo) : Bool := m.member.any fun player => !player.hasGMDisabledSocials

/-- The record of a member who has a player. -/
def ofPlayer (m : TempMemberInfo) (player : RosterPlayer) (online sendOfficerNote : Bool) : RosterRecord where
  guid := m.slot.guid
  online := online
  name := player.name
  rankId := m.slot.rankId
  level := player.level
  cls := player.cls
  zoneId := player.cachedZoneId
  offlineDays := none
  publicNote := m.slot.publicNote
  officerNote := if sendOfficerNote then m.slot.officerNote else ""

/-- The record that `Roster` writes. -/
def record (m : TempMemberInfo) (daysSince : UInt64 → UInt32) (sendOfficerNote : Bool) : RosterRecord :=
  match m.member with
  | some player => m.ofPlayer player m.isOnline sendOfficerNote
  | none =>
    { guid := m.slot.guid
      online := false
      name := m.details.name
      rankId := m.slot.rankId
      level := m.details.level
      cls := m.details.cls
      zoneId := m.details.zoneId
      offlineDays := some (daysSince m.details.logoutTime)
      publicNote := m.slot.publicNote
      officerNote := if sendOfficerNote then m.slot.officerNote else "" }

end TempMemberInfo

namespace RosterPacket

def writeMemberData (inPacketCap : Bool) (p : RosterPacket) (r : RosterRecord) : Option RosterPacket :=
  if inPacketCap = false ∧ p.bytes.length + guildMemberBlockSize ≥ maxUncompressedPacketSize then none
  else some { p with records := p.records ++ [r] }

/-- A loop over members: some are skipped, and the first record that is not written ends it. -/
def writeMembers (inPacketCap : Bool) (skip : TempMemberInfo → Bool) (record : TempMemberInfo → RosterRecord) :
    List TempMemberInfo → RosterPacket × UInt32 → RosterPacket × UInt32
  | [], s => s
  | m :: ms, (p, finalCount) =>
    if skip m then writeMembers inPacketCap skip record ms (p, finalCount)
    else
      match p.writeMemberData inPacketCap (record m) with
      | none => (p, finalCount)
      | some p => writeMembers inPacketCap skip record ms (p, finalCount + 1)

end RosterPacket

namespace RosterGuild

variable (g : RosterGuild) (now : RosterMoment)

def infos : List TempMemberInfo :=
  g.members.map fun slot => ⟨slot, g.details slot.guid, now.findPlayer slot.guid⟩

def onlineMembers : List TempMemberInfo := (g.infos now).filter (·.isOnline)

def offlineMembers : List TempMemberInfo := (g.infos now).filter fun m => !m.isOnline

/-- `totalSize` before the members. -/
def headerEstimate : UInt32 :=
  4 + ofNat (g.motd.utf8ByteSize + 1 + g.info.utf8ByteSize + 1) + 4 + ofNat (4 * g.ranks.length)

/-- `totalSize` in `Roster`: every member, with both notes. -/
def totalSize : UInt32 :=
  (g.infos now).foldl (fun total m => total + ofNat guildMemberBlockSizeWithoutNote +
    ofNat (m.slot.publicNote.utf8ByteSize + 1 + m.slot.officerNote.utf8ByteSize + 1)) g.headerEstimate

def inPacketCap : Bool := (g.totalSize now).toNat < maxUncompressedPacketSize

/-- `totalSize` in `BuildOnlineRosterPacket`: who is online, with the notes that are sent. -/
def onlineTotalSize (sendOfficerNote : Bool) : UInt32 :=
  (g.onlineMembers now).foldl (fun total m => total + ofNat guildMemberBlockSizeWithoutNote +
    ofNat m.slot.publicNote.utf8ByteSize +
    if sendOfficerNote then ofNat m.slot.officerNote.utf8ByteSize else 0) g.headerEstimate

def onlineInPacketCap (sendOfficerNote : Bool) : Bool :=
  (g.onlineTotalSize now sendOfficerNote).toNat < maxUncompressedPacketSize

/-- The members are sorted when the packet is expected to be too long. -/
def sortUnless (inPacketCap : Bool) (ms : List TempMemberInfo) : List TempMemberInfo :=
  if inPacketCap then ms else now.byRank.sort ms

/-- The packet before the members. -/
def header (count : Nat) : RosterPacket where
  count := ofNat count
  motd := g.motd
  info := g.info
  ranks := g.ranks.map (·.rights)

/-- `sendOfficerNote` of a session with a player of some rank. -/
def sendOfficerNote (session : Option Nat) : Bool :=
  session.any fun rank => g.hasRankRight rank rightViewOffNote

/-- The number of those online whom `Roster` keeps. -/
def onlineKept : Nat := min (g.onlineMembers now).length guildMaxMembers

def offlineKept : Nat := min (g.offlineMembers now).length (guildMaxMembers - g.onlineKept now)

/-- Somebody online, and deleted characters, which have no name, are not listed with the others. -/
def skipOffline (m : TempMemberInfo) : Bool := m.isOnline || m.details.name == ""

/-- `Guild::Roster`, the packet. -/
def roster (session : Option Nat) : RosterPacket :=
  let inPacketCap := g.inPacketCap now
  let record := fun m : TempMemberInfo => m.record now.daysSince (g.sendOfficerNote session)
  let count := min ((g.onlineMembers now).length + (g.offlineMembers now).length) guildMaxMembers
  let online := (sortUnless now inPacketCap (g.onlineMembers now)).take (g.onlineKept now)
  let offline := (sortUnless now inPacketCap (g.offlineMembers now)).take (g.offlineKept now)
  let s := RosterPacket.writeMembers inPacketCap (fun m => m.member.isNone) record online (g.header count, 0)
  let s := RosterPacket.writeMembers inPacketCap skipOffline record offline s
  { s.1 with count := s.2 }

/-- `Guild::BuildOnlineRosterPacket` -/
def onlineRoster (sendOfficerNote : Bool) : RosterPacket :=
  let inPacketCap := g.onlineInPacketCap now sendOfficerNote
  let record := fun m : TempMemberInfo =>
    m.member.elim (m.record now.daysSince sendOfficerNote) fun player => m.ofPlayer player true sendOfficerNote
  let online := sortUnless now inPacketCap (g.onlineMembers now)
  let s := RosterPacket.writeMembers inPacketCap (fun m => m.member.isNone) record online
    (g.header (g.onlineMembers now).length, 0)
  { s.1 with count := s.2 }

end RosterGuild

end Windrunner
