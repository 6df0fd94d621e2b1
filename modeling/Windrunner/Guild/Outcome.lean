import Windrunner.Guild.Views

/-!
# What a step of a guild can do

`Outcome w i w'` says what `w'` is, one constructor for each thing that comes of an input, with the
checks it has passed. `step_outcome` is the only place where the handlers are unfolded.
-/

namespace Windrunner

namespace GuildWorld

inductive Outcome (w : GuildWorld) : GuildInput → GuildWorld → Prop
  | same {i : GuildInput} : Outcome w i w
  /-- A player goes to another map, is invited or declines. -/
  | player {i : GuildInput} {q : Nat} {pl pl' : GuildPlayer} (hq : w.players q = some pl)
      (hid : pl'.guildId = pl.guildId) (hrank : pl'.rank = pl.rank) : Outcome w i (w.setPlayer q pl')
  | login (guid : Nat) (guildExists : Bool) :
      Outcome w (.login guid guildExists) (w.login guid guildExists)
  | logout (guid : Nat) : Outcome w (.logout guid)
      { w with players := fun p => if p = guid then none else w.players p }
  | elsewhere (guid guildid rank : Nat) :
      Outcome w (.elsewhere guid guildid rank) (w.elsewhere guid guildid rank)
  | accept {guid : Nat} {allowed : Bool} (hacc : w.accepts guid allowed = true) :
      Outcome w (.accept guid allowed) (w.addMember guid w.guild.getLowestRank true)
  | promote {guid target : Nat} {s : GuildMember} (hs : w.canPromote guid target = some s) :
      Outcome w (.promote guid target) (w.changeRank s.guid (s.rankId - 1))
  | demote {guid target : Nat} {s : GuildMember} (hs : w.canDemote guid target = some s) :
      Outcome w (.demote guid target) (w.changeRank s.guid (s.rankId + 1))
  | remove {guid target next : Nat} {s : GuildMember} (hs : w.canRemove guid target = some s) :
      Outcome w (.remove guid target next) (w.delMember s.guid next)
  | leave {guid next : Nat} {pl : GuildPlayer} (hpl : w.sender guid = some pl)
      (hne : guid ≠ w.guild.leaderGuid) : Outcome w (.leave guid next) (w.delMember guid next)
  | leaveLast {guid next : Nat} (hl : guid = w.guild.leaderGuid)
      (hlen : w.guild.members.length ≤ 1) : Outcome w (.leave guid next) w.disband
  | leader {guid target : Nat} (hm : w.isMaster guid = true)
      (hold : (w.guild.getMemberSlot w.guild.leaderGuid).isSome)
      (hnew : (w.guild.getMemberSlot target).isSome) (hne : target ≠ w.guild.leaderGuid) :
      Outcome w (.leader guid target) (w.setNewLeader target (some w.guild.leaderGuid))
  | addMember (guid : Nat) (known : Bool) :
      Outcome w (.addMember guid known) (w.addMember guid w.guild.getLowestRank known)
  | delMember (guid next : Nat) : Outcome w (.delMember guid next) (w.delMember guid next)
  | setNewLeader {guid : Nat} (hold : (w.guild.getMemberSlot w.guild.leaderGuid).isSome)
      (hnew : (w.guild.getMemberSlot guid).isSome) (hne : guid ≠ w.guild.leaderGuid) :
      Outcome w (.setNewLeader guid) (w.setNewLeader guid (some w.guild.leaderGuid))
  | hardcoreDeath {oldest : Option Nat} {next : Nat} {best : GuildMember}
      (hbest : w.guild.oldestOfficer oldest next = some best) :
      Outcome w (.hardcoreDeath oldest next) (w.setNewLeader best.guid
        ((w.guild.getMemberSlot w.guild.leaderGuid).map fun _ => w.guild.leaderGuid))
  | addRank {guid : Nat} {name : String} (hm : w.isMaster guid = true)
      (hlen : w.guild.getRanksSize < guildRanksMaxCount) : Outcome w (.addRank guid name)
        { w with
          guild.ranks := w.guild.ranks ++ [⟨name, rightGchatListen ||| rightGchatSpeak⟩]
          tables.guildRank := w.tables.guildRank ++
            [⟨w.guild.ranks.length, name, rightGchatListen ||| rightGchatSpeak⟩] }
  | delRank {guid : Nat} (hm : w.isMaster guid = true)
      (hlen : guildRanksMinCount < w.guild.getRanksSize) : Outcome w (.delRank guid)
        { w with
          guild.ranks := w.guild.ranks.dropLast
          tables.guildRank := w.tables.guildRank.filter fun r => !(r.rid ≥ w.guild.getLowestRank) }
  | rank {guid rankId : Nat} {name : String} {rights rights' : UInt32} (hm : w.isMaster guid = true)
      (hlen : rankId < w.guild.ranks.length) (hall : rankId = grGuildMaster → rights' = rightAll) :
      Outcome w (.rank guid rankId name rights)
        { w with
          guild.ranks := w.guild.ranks.set rankId ⟨name, rights'⟩
          tables.guildRank := w.tables.guildRank.map fun r =>
            if r.rid = rankId then ⟨r.rid, name, rights'⟩ else r }
  | publicNote {guid target : Nat} {note : String} {s : GuildMember}
      (hr : ((w.sender guid).any fun pl => w.guild.hasRankRight pl.rank rightEpNote) = true)
      (hs : w.guild.getMemberSlot target = some s) (hne : s.publicNote ≠ note) :
      Outcome w (.publicNote guid target note)
        (({ w with guild := w.guild.mapMember target ({ · with publicNote := escapeString note }) } :
          GuildWorld).updateRow target ({ · with pnote := note }))
  | officerNote {guid target : Nat} {note : String} {s : GuildMember}
      (hr : ((w.sender guid).any fun pl => w.guild.hasRankRight pl.rank rightEoffNote) = true)
      (hs : w.guild.getMemberSlot target = some s) (hne : s.officerNote ≠ note) :
      Outcome w (.officerNote guid target note)
        (({ w with guild := w.guild.mapMember target ({ · with officerNote := escapeString note }) } :
          GuildWorld).updateRow target ({ · with offnote := note }))
  | motd (guid : Nat) (motd : String) : Outcome w (.motd guid motd) (w.setMotd motd)
  | infoText (guid : Nat) (info : String) : Outcome w (.infoText guid info) (w.setGinfo info)

variable (w : GuildWorld)

/-- The leader hands over to another member, or nothing happens. -/
theorem handleGuildLeader_outcome (guid target : Nat) :
    Outcome w (.leader guid target) (w.handleGuildLeader guid target) := by
  unfold handleGuildLeader
  split_ifs with hm
  · exact .same
  have hm : w.isMaster guid = true := by simpa using hm
  obtain ⟨rfl, -⟩ := w.isMaster_true hm
  cases hold : w.guild.getMemberSlot w.guild.leaderGuid with
  | none => exact .same
  | some old =>
    cases hnew : w.guild.getMemberSlot target with
    | none => exact .same
    | some new =>
      dsimp only
      rw [Guild.slot_guid hold, Guild.slot_guid hnew]
      split_ifs with he
      · exact .same
      · exact .leader hm (by rw [hold]; rfl) (by rw [hnew]; rfl) fun h => he h.symm

theorem setNewLeaderGuid_outcome (guid : Nat) :
    Outcome w (.setNewLeader guid) (w.setNewLeaderGuid guid) := by
  unfold setNewLeaderGuid
  cases hnew : w.guild.getMemberSlot guid with
  | none => exact .same
  | some new =>
    cases hold : w.guild.getMemberSlot w.guild.leaderGuid with
    | none => exact .same
    | some old =>
      dsimp only
      rw [Guild.slot_guid hold, Guild.slot_guid hnew]
      split_ifs with he
      · exact .same
      · exact .setNewLeader (by rw [hold]; rfl) (by rw [hnew]; rfl) he

/-- A hardcore leader who dies is succeeded by an officer. -/
theorem hardcoreDeath_outcome (oldest : Option Nat) (next : Nat) :
    Outcome w (.hardcoreDeath oldest next) (w.hardcoreDeath oldest next) := by
  unfold GuildWorld.hardcoreDeath
  cases hbest : w.guild.oldestOfficer oldest next with
  | none => exact .same
  | some best =>
    have hold : (w.guild.getMemberSlot w.guild.leaderGuid).map (·.guid)
        = (w.guild.getMemberSlot w.guild.leaderGuid).map fun _ => w.guild.leaderGuid := by
      cases hs : w.guild.getMemberSlot w.guild.leaderGuid with
      | none => rfl
      | some s => rw [Option.map_some, Option.map_some, Guild.slot_guid hs]
    rw [Option.elim_some, hold]
    exact .hardcoreDeath hbest

/-- Every step has one of the outcomes. -/
theorem step_outcome (i : GuildInput) : Outcome w i (w.step i) := by
  unfold step
  split_ifs
  · exact .same
  cases i with
  | login guid guildExists => exact .login guid guildExists
  | logout guid => exact .logout guid
  | setInWorld guid inWorld =>
    show Outcome w _ ((w.players guid).elim w _)
    cases hpl : w.players guid with
    | none => exact .same
    | some pl => exact .player hpl rfl rfl
  | elsewhere guid guildid rank => exact .elsewhere guid guildid rank
  | invite guid invited allowed =>
    show Outcome w _ (w.handleGuildInvite guid invited allowed)
    unfold handleGuildInvite
    split
    · rename_i hpl _
      split_ifs
      · exact .same
      · exact .player (Option.filter_eq_some_iff.mp hpl).1 rfl rfl
    · exact .same
  | accept guid allowed =>
    show Outcome w _ (w.handleGuildAccept guid allowed)
    unfold handleGuildAccept
    split_ifs with hacc
    · exact .accept hacc
    · exact .same
  | decline guid =>
    show Outcome w _ (w.handleGuildDecline guid)
    unfold handleGuildDecline
    split
    · exact .same
    · rename_i hpl
      split_ifs
      · exact .same
      · exact .player (Option.filter_eq_some_iff.mp hpl).1 rfl rfl
  | promote guid target =>
    show Outcome w _ (w.handleGuildPromote guid target)
    unfold handleGuildPromote
    cases hs : w.canPromote guid target with
    | none => exact .same
    | some s => exact .promote hs
  | demote guid target =>
    show Outcome w _ (w.handleGuildDemote guid target)
    unfold handleGuildDemote
    cases hs : w.canDemote guid target with
    | none => exact .same
    | some s => exact .demote hs
  | remove guid target next =>
    show Outcome w _ (w.handleGuildRemove guid target next)
    unfold handleGuildRemove
    cases hs : w.canRemove guid target with
    | none => exact .same
    | some s => exact .remove hs
  | leave guid next =>
    show Outcome w _ (w.handleGuildLeave guid next)
    unfold handleGuildLeave
    split
    · exact .same
    · rename_i hpl
      split_ifs with hl hlen
      · exact .same
      · exact .leaveLast hl (Nat.not_lt.mp hlen)
      · exact .leave hpl hl
  | leader guid target => exact w.handleGuildLeader_outcome guid target
  | addMember guid known => exact .addMember guid known
  | delMember guid next => exact .delMember guid next
  | setNewLeader guid => exact w.setNewLeaderGuid_outcome guid
  | hardcoreDeath oldest next => exact w.hardcoreDeath_outcome oldest next
  | addRank guid name =>
    show Outcome w _ (w.handleGuildAddRank guid name)
    unfold handleGuildAddRank createRank
    split_ifs with hno hlen
    · exact .same
    · exact .same
    · rw [Bool.or_eq_true, not_or] at hno
      exact .addRank (by simpa using hno.1) (Nat.not_le.mp hlen)
  | delRank guid =>
    show Outcome w _ (w.handleGuildDelRank guid)
    unfold handleGuildDelRank delRank
    split_ifs with hm hlen
    · exact .same
    · exact .same
    · exact .delRank (by simpa using hm) (Nat.not_le.mp hlen)
  | rank guid rankId name rights =>
    show Outcome w _ (w.handleGuildRank guid rankId name rights)
    unfold handleGuildRank setRank
    split_ifs with hm hlen hall
    · exact .same
    · exact .same
    · exact .rank (by simpa using hm) (Nat.not_le.mp hlen) fun _ => rfl
    · exact .rank (by simpa using hm) (Nat.not_le.mp hlen) fun h => absurd h hall
  | publicNote guid target note =>
    show Outcome w _ (w.withRight guid rightEpNote (w.setPublicNote target note))
    unfold withRight setPublicNote
    split_ifs with hr
    · split
      · exact .same
      · rename_i hs
        split_ifs with hne
        · exact .same
        · exact .publicNote hr hs hne
    · exact .same
  | officerNote guid target note =>
    show Outcome w _ (w.withRight guid rightEoffNote (w.setOfficerNote target note))
    unfold withRight setOfficerNote
    split_ifs with hr
    · split
      · exact .same
      · rename_i hs
        split_ifs with hne
        · exact .same
        · exact .officerNote hr hs hne
    · exact .same
  | motd guid motd =>
    show Outcome w _ (w.withRight guid rightSetMotd (w.setMotd motd))
    unfold withRight
    split_ifs
    · exact .motd guid motd
    · exact .same
  | infoText guid info =>
    show Outcome w _ (w.withRight guid rightModifyGuildInfo (w.setGinfo info))
    unfold withRight
    split_ifs
    · exact .infoText guid info
    · exact .same

end GuildWorld

end Windrunner
