import Windrunner.Guild.Titled
import Windrunner.Guild.Ranks

/-!
# A guild after a restart

Every setter writes memory and the tables on its own. `Agrees` says that the tables have what is in
memory, and `Stored.sameGuild` that a restart then gives the same guild.

Three operations can part them. `SetPublicNote` and `SetOfficerNote` escape the note in memory, while
the table gets the note as it was. `DelRank` leaves members with a rank that the next start
replaces. The row that `AddMember` inserts is refused when the character has one already. Runs of
`Kept` steps do none of this (`survives_of_run`).
-/

namespace Windrunner

open Lib List Option

namespace GuildWorld

variable {w : GuildWorld} {p q n : Nat}

/-- The slot that a row describes. -/
def rowSlot (r : GuildMemberRow) : GuildMember :=
  { guid := r.guid, rankId := r.rank, publicNote := r.pnote, officerNote := r.offnote }

def ownRow (w : GuildWorld) (p : Nat) : Option GuildMemberRow :=
  (w.row p).filter (·.guildid == w.guild.id)

/-- The tables have what is in memory. -/
structure Agrees (w : GuildWorld) : Prop where
  guild : w.tables.guild = ⟨w.guild.leaderGuid, w.guild.info, w.guild.motd⟩
  ranks : w.tables.guildRank = rankRows w.guild.ranks
  member : ∀ p, w.guild.getMemberSlot p = (w.ownRow p).map rowSlot

/-- A packet of `guid` that needs `right` is carried out. -/
def mayWrite (w : GuildWorld) (guid : Nat) (right : UInt32) : Bool :=
  (w.sender guid).any fun pl => w.guild.hasRankRight pl.rank right

/-- The note that a packet sets. -/
def noteSet (w : GuildWorld) : GuildInput → Option String
  | .publicNote guid target note =>
    if w.mayWrite guid rightEpNote && (w.guild.getMemberSlot target).any (·.publicNote != note)
    then some note else none
  | .officerNote guid target note =>
    if w.mayWrite guid rightEoffNote && (w.guild.getMemberSlot target).any (·.officerNote != note)
    then some note else none
  | _ => none

/-- Notes have nothing to escape, nobody has a rank that is deleted, nobody with a row is let
in. -/
def Kept (w : GuildWorld) (i : GuildInput) : Prop :=
  (∀ note ∈ w.noteSet i, escapeString note = note) ∧
  (w.deletesRank i = true → ∀ s ∈ w.guild.members, s.rankId ≠ w.guild.getLowestRank) ∧
  ∀ p ∈ w.added i, w.row p = none

instance (w : GuildWorld) (i : GuildInput) : Decidable (w.Kept i) := by
  unfold Kept
  infer_instance

/-- The tables agree, and what they have is read as it is. -/
structure Filed (w : GuildWorld) : Prop extends Agrees w where
  /-- `guid` is unique in `guild_member`. -/
  keyed : Keyed (·.guid) w.tables.guildMember
  min : guildRanksMinCount ≤ w.guild.getRanksSize
  max : w.guild.getRanksSize ≤ guildRanksMaxCount
  /-- The master has every right. -/
  top : ∀ r ∈ w.guild.ranks.head?, r.rights ||| rightAll = r.rights
  within : w.guild.Within w.guild.getRanksSize

/-- Somebody is left, too, so that a restart does not disband the guild. -/
structure Stored (w : GuildWorld) : Prop extends Filed w where
  manned : w.guild.members ≠ []

/-! ## The restart -/

/-- The rows of the ranks are read back as they were written. -/
theorem rankRows_ranks (ranks : List RankInfo) :
    (rankRows ranks).map (fun r => RankInfo.mk r.rname r.rights) = ranks := by
  refine ext_getElem? fun i => ?_
  rw [rankRows, getElem?_map, getElem?_mapIdx, Option.map_map]
  exact congrFun map_id _

/-- Ranks whose rows are right are read as they were. -/
theorem loadRanks_rankRows {ranks : List RankInfo} (ht : w.tables.guildRank = rankRows ranks)
    (hmin : guildRanksMinCount ≤ ranks.length)
    (htop : ∀ r ∈ ranks.head?, r.rights ||| rightAll = r.rights) (text : Nat → String) :
    w.loadRanks text = { w with guild.ranks := ranks } := by
  have hread : (w.tables.guildRank.map fun r => RankInfo.mk r.rname r.rights).modify 0
      (fun r => { r with rights := r.rights ||| rightAll }) = ranks := by
    rw [ht, rankRows_ranks]
    cases ranks with
    | nil => rfl
    | cons r ranks =>
      rw [modify_zero_cons, htop r rfl]
  have hrows : (if w.tables.guildRank.map (·.rid) != range ranks.length then rankRows ranks
      else w.tables.guildRank) = w.tables.guildRank := by
    rw [ht, ite_self]
  unfold loadRanks
  dsimp only
  rw [hread, if_neg (Nat.not_lt.mpr hmin)]
  unfold rankRows at hrows
  rw [hrows]

/-- What a restart gives is the guild that was in memory. -/
structure SameGuild (w' w : GuildWorld) : Prop where
  alive : w'.disbanded = false
  leader : w'.guild.leaderGuid = w.guild.leaderGuid
  ranks : w'.guild.ranks = w.guild.ranks
  motd : w'.guild.motd = w.guild.motd
  info : w'.guild.info = w.guild.info
  member : ∀ p, w'.guild.getMemberSlot p = w.guild.getMemberSlot p

/-- The slots that are loaded from the rows of sound characters. -/
theorem loadMembers_slot (hk : Keyed (·.guid) w.tables.guildMember) {sound : Nat → Bool} :
    (w.loadMembers sound).guild.getMemberSlot p =
      ((w.row p).filter fun r => r.guildid == w.guild.id && sound r.guid).map (slotOf w.guild) := by
  have hguild : (w.loadMembers sound).guild = { w.guild with
      members := (w.tables.guildMember.filter fun r =>
        r.guildid == w.guild.id && sound r.guid).map (slotOf w.guild) } := by
    unfold GuildWorld.loadMembers
    dsimp only
    split_ifs <;> rfl
  rw [hguild]
  show find? _ (map _ _) = _
  rw [find?_map]
  exact congrArg (Option.map _) hk.find?_filter

/-- A guild with a member is not disbanded at the load. -/
theorem loadMembers_alive {sound : Nat → Bool} (hd : w.disbanded = false)
    (h : ((w.loadMembers sound).guild.getMemberSlot p).isSome) :
    (w.loadMembers sound).disbanded = false := by
  unfold GuildWorld.loadMembers at h ⊢
  dsimp only at h ⊢
  split_ifs at h ⊢ with hnil
  · unfold disband Guild.getMemberSlot at h
    dsimp only at h
    rw [hnil] at h
    exact absurd h Bool.noConfusion
  · exact hd

/-- A row of the guild is read as the slot it was written for. -/
theorem Stored.slot_read (h : Stored w) {sound : Nat → Bool}
    (hsound : ∀ s ∈ w.guild.members, sound s.guid = true) {g : Guild}
    (hg : g.getRanksSize = w.guild.getRanksSize) :
    ((w.row p).filter fun r => r.guildid == w.guild.id && sound r.guid).map (slotOf g) =
      w.guild.getMemberSlot p := by
  have hmember := h.member p
  unfold ownRow at hmember
  cases hr : w.row p with
  | none =>
    rw [hr] at hmember
    exact hmember.symm
  | some r =>
    rw [hr] at hmember
    -- a row of another guild is no member's
    by_cases hid : r.guildid = w.guild.id
    · rw [filter_some_pos (by simpa using hid), map_some] at hmember
      have hmem := mem_of_find?_eq_some hmember
      have hlt : r.rank < g.getRanksSize := hg ▸ h.within _ hmem
      have hok : sound r.guid = true := hsound _ hmem
      -- his rank exists, so the load does not lower it
      rw [filter_some_pos (by simp [hid, hok]), map_some, hmember, slotOf,
        if_neg (Nat.not_le.mpr hlt)]
      rfl
    · rw [filter_some_neg (by simpa using hid)] at hmember
      rw [filter_some_neg (by simp [hid]), hmember]
      rfl

/-- The guild that is loaded before its members are. -/
def blank (w : GuildWorld) : GuildWorld where
  guild := { w.guild with members := [] }
  tables := w.tables

/-- The head of the guild and its ranks come back first. -/
theorem Stored.loadTables_eq (h : Stored w) (text : Nat → String) (sound : Nat → Bool) :
    loadTables w.guild.id w.tables text sound = w.blank.loadMembers sound := by
  let w₀ : GuildWorld :=
    { guild := { id := w.guild.id, leaderGuid := w.guild.leaderGuid, motd := w.guild.motd,
                 info := w.guild.info }
      tables := w.tables }
  have hranks : w₀.loadRanks text = w.blank :=
    @loadRanks_rankRows w₀ w.guild.ranks h.ranks h.min h.top text
  unfold loadTables
  dsimp only
  rw [h.guild]
  exact congrArg (·.loadMembers sound) hranks

theorem Stored.loaded_slot (h : Stored w) {sound : Nat → Bool}
    (hsound : ∀ s ∈ w.guild.members, sound s.guid = true) :
    (w.blank.loadMembers sound).guild.getMemberSlot p = w.guild.getMemberSlot p :=
  (@loadMembers_slot w.blank p h.keyed sound).trans (h.slot_read hsound rfl)

/-- Somebody is loaded, so that the guild is not disbanded. -/
theorem Stored.loaded (h : Stored w) {sound : Nat → Bool}
    (hsound : ∀ s ∈ w.guild.members, sound s.guid = true) :
    ∃ members ≠ [], (∀ s ∈ members, s.rankId < w.guild.getRanksSize) ∧
      w.blank.loadMembers sound = { w.blank with
        guild.members := members
        tables.guildMember := w.tables.guildMember.filter fun r =>
          r.guildid != w.guild.id || sound r.guid } := by
  have hmin : 5 ≤ w.guild.ranks.length := h.min
  -- one member is enough for the load to keep the guild
  obtain ⟨s, hs⟩ := exists_mem_of_ne_nil _ h.manned
  have hsome : ((w.blank.loadMembers sound).guild.getMemberSlot s.guid).isSome :=
    h.loaded_slot hsound ▸ Guild.slot_isSome hs
  have halive := loadMembers_alive (w := w.blank) rfl hsome
  unfold loadMembers at halive ⊢
  dsimp only at halive ⊢
  split_ifs at halive ⊢ with hnil
  · exact absurd halive Bool.noConfusion
  · refine ⟨_, hnil, fun s hs => ?_, rfl⟩
    obtain ⟨r, -, rfl⟩ := mem_map.mp hs
    show (if w.guild.ranks.length ≤ r.rank then w.guild.ranks.length - 1 else r.rank) <
      w.guild.ranks.length
    split_ifs <;> omega

/-- A restart gives the guild that was in memory. -/
theorem Stored.sameGuild (h : Stored w) (text : Nat → String) {sound : Nat → Bool}
    (hsound : ∀ s ∈ w.guild.members, sound s.guid = true) :
    SameGuild (loadTables w.guild.id w.tables text sound) w := by
  have hslot := fun p => @Stored.loaded_slot w p h sound hsound
  obtain ⟨members, -, -, he⟩ := h.loaded hsound
  rw [h.loadTables_eq]
  refine { alive := ?_, leader := ?_, ranks := ?_, motd := ?_, info := ?_, member := hslot }
  all_goals
    rw [he]
    rfl

/-- A guild that a restart has given can be restarted again. -/
theorem Stored.restart (h : Stored w) (text : Nat → String) {sound : Nat → Bool}
    (hsound : ∀ s ∈ w.guild.members, sound s.guid = true) :
    Stored (loadTables w.guild.id w.tables text sound) := by
  have hslot := fun p => @Stored.loaded_slot w p h sound hsound
  obtain ⟨members, hne, hin, he⟩ := h.loaded hsound
  rw [h.loadTables_eq]
  refine { guild := ?_, ranks := ?_, member := fun p => (hslot p).trans ?_, keyed := ?_, min := ?_,
           max := ?_, top := ?_, within := ?_, manned := ?_ } <;> rw [he]
  · exact h.guild
  · exact h.ranks
  · rw [h.member p]
    refine congrArg (Option.map rowSlot) ?_
    unfold ownRow row
    dsimp only [blank]
    rw [h.keyed.find?_filter]
    cases hr : w.tables.guildMember.find? (·.guid == p) with
    | none => rfl
    | some r =>
      -- only rows of broken characters go, and no member's is one
      by_cases hid : r.guildid = w.guild.id
      · have hmem : w.guild.getMemberSlot p = some (rowSlot r) := by
          rw [h.member p, ownRow, row, hr, Option.filter_some_pos (by simpa using hid)]
          rfl
        have hok : sound r.guid = true := hsound _ (List.mem_of_find?_eq_some hmem)
        simp [Option.filter_some, hok, hid]
      · simp [Option.filter_some, hid]
  · exact h.keyed.filter _
  · exact h.min
  · exact h.max
  · exact h.top
  · exact hin
  · exact hne

/-! ## Operations -/

/-- What changes only the rows and slots of members. -/
theorem Filed.of_members (h : Filed w) {w' : GuildWorld}
    (hguild : ∃ members, w'.guild = { w.guild with members })
    (htables : ∃ guildMember, w'.tables = { w.tables with guildMember })
    (hk : Keyed (·.guid) w'.tables.guildMember)
    (hm : ∀ p, w'.guild.getMemberSlot p = (w'.ownRow p).map rowSlot)
    (hin : w'.guild.Within w.guild.getRanksSize) : Filed w' := by
  obtain ⟨members, hg⟩ := hguild
  obtain ⟨rows, ht⟩ := htables
  refine ⟨⟨?_, ?_, hm⟩, hk, ?_, ?_, ?_, ?_⟩
  · rw [ht, hg]
    exact h.guild
  · rw [ht, hg]
    exact h.ranks
  · rw [hg]
    exact h.min
  · rw [hg]
    exact h.max
  · rw [hg]
    exact h.top
  · rw [show w'.guild.getRanksSize = w.guild.getRanksSize by rw [hg]; rfl]
    exact hin

/-- A slot and a row change alike. -/
theorem ownRow_map {w' : GuildWorld} {f : GuildMember → GuildMember}
    {f' : GuildMemberRow → GuildMemberRow} (hf : ∀ r, (f' r).guildid = r.guildid)
    (hff : ∀ r, rowSlot (f' r) = f (rowSlot r)) (hid : w'.guild.id = w.guild.id)
    (hslot : w'.guild.getMemberSlot p = if p = q then (w.guild.getMemberSlot p).map f
      else w.guild.getMemberSlot p)
    (hrow : w'.row p = if p = q then (w.row p).map f' else w.row p)
    (h : w.guild.getMemberSlot p = (w.ownRow p).map rowSlot) :
    w'.guild.getMemberSlot p = (w'.ownRow p).map rowSlot := by
  unfold ownRow at h ⊢
  rw [hslot, hrow, hid]
  split_ifs
  · rw [h]
    cases w.row p with
    | none => rfl
    | some r =>
      by_cases hr : r.guildid = w.guild.id
      · simp [filter_some, hf, hr, hff]
      · simp [filter_some, hf, hr]
  · exact h

/-- A rank goes into the row as it goes into the slot. -/
theorem Filed.changeRank (h : Filed w) (hn : n < w.guild.getRanksSize) :
    Filed (w.changeRank q n) := by
  refine h.of_members ⟨_, changeRank_guild w⟩ ⟨_, changeRank_tables w⟩ ?_ (fun p => ?_)
    (within_changeRank h.within hn)
  · rw [changeRank_tables]
    exact h.keyed.map fun r _ => by split_ifs <;> rfl
  · refine ownRow_map (fun _ => ?_) (fun _ => ?_) (by rw [changeRank_guild]; rfl)
      (changeRank_slot w) (changeRank_row w) (h.member p)
    · rfl
    · rfl

theorem setLeader_tables (w : GuildWorld) (q : Nat) : (w.setLeader q).tables =
    { w.tables with
      guild.leaderguid := q
      guildMember := w.tables.guildMember.map fun r =>
        if r.guid = q then { r with rank := grGuildMaster } else r } := by
  unfold GuildWorld.setLeader
  dsimp only
  rw [changeRank_tables]

/-- The leader is written in `guild`, and his rank in `guild_member`. -/
theorem Filed.setLeader (h : Filed w) : Filed (w.setLeader q) := by
  have hmin : 5 ≤ w.guild.getRanksSize := h.min
  refine ⟨⟨?_, ?_, fun p => ?_⟩, ?_, ?_, ?_, ?_, ?_⟩
  · rw [setLeader_tables, setLeader_guild]
    show ({ w.tables.guild with leaderguid := q } : GuildRow) = ⟨q, w.guild.info, w.guild.motd⟩
    rw [h.guild]
  · rw [setLeader_tables, setLeader_guild]
    exact h.ranks
  · refine ownRow_map (fun _ => ?_) (fun _ => ?_) (by rw [setLeader_guild]; rfl)
      (setLeader_slot w) (setLeader_row w) (h.member p)
    · rfl
    · rfl
  · rw [setLeader_tables]
    exact h.keyed.map fun r _ => by split_ifs <;> rfl
  · rw [setLeader_guild]
    exact h.min
  · rw [setLeader_guild]
    exact h.max
  · rw [setLeader_guild]
    exact h.top
  · rw [setLeader_guild]
    exact within_mapMember h.within fun _ _ => by show 0 < w.guild.getRanksSize; omega

/-- So is a handover. -/
theorem Filed.setNewLeader (h : Filed w) (old : Option Nat) : Filed (w.setNewLeader q old) := by
  cases old with
  | none => exact h.setLeader
  | some o =>
    refine (Filed.setLeader h).changeRank ?_
    have hmin : 5 ≤ (w.setLeader q).guild.getRanksSize := (Filed.setLeader h).min
    show 1 < _
    omega

theorem eraseMember_tables (w : GuildWorld) (q : Nat) : (w.eraseMember q).tables =
    { w.tables with guildMember := w.tables.guildMember.filter (·.guid != q) } := by
  simp [GuildWorld.eraseMember]

/-- The row goes with the slot. -/
theorem Filed.eraseMember (h : Filed w) : Filed (w.eraseMember q) := by
  refine h.of_members ⟨_, eraseMember_guild w⟩ ⟨_, eraseMember_tables w q⟩ ?_ (fun p => ?_)
    (within_eraseMember h.within)
  · rw [eraseMember_tables]
    exact h.keyed.filter _
  · unfold ownRow
    rw [eraseMember_slot, eraseMember_row, eraseMember_guild]
    split_ifs
    · rfl
    · exact h.member p

theorem insertRow_tables (w : GuildWorld) (r : GuildMemberRow) :
    ∃ rows, (w.insertRow r).tables = { w.tables with guildMember := rows } ∧
      (Keyed (·.guid) w.tables.guildMember → Keyed (·.guid) rows) := by
  unfold insertRow
  split_ifs with hr
  · exact ⟨_, rfl, id⟩
  · refine ⟨_, rfl, fun hk => hk.concat fun t ht he => hr ?_⟩
    exact find?_isSome.mpr ⟨t, ht, by simpa using he⟩

/-- A new member has a row of this guild, and no other one. -/
theorem Filed.addMember (h : Filed w) {known : Bool} (hn : n < w.guild.getRanksSize)
    (hrow : w.refuses q known = false → w.row q = none) : Filed (w.addMember q n known) := by
  cases hr : w.refuses q known with
  | true =>
    rw [addMember_refused w hr]
    exact h
  | false =>
    have hguild : ∃ members, (w.addMember q n known).guild = { w.guild with members } := by
      rw [addMember_guild hr]
      unfold Guild.putMember
      split_ifs <;> exact ⟨_, rfl⟩
    obtain ⟨rows, ht, hk⟩ : ∃ rows, (w.addMember q n known).tables =
        { w.tables with guildMember := rows } ∧
          (Keyed (·.guid) w.tables.guildMember → Keyed (·.guid) rows) := by
      have hins := insertRow_tables
        ({ w with guild := w.guild.putMember { guid := q, rankId := n } } : GuildWorld)
        { guildid := w.guild.id, guid := q, rank := n }
      unfold GuildWorld.addMember
      rw [hr]
      cases hpl : w.players q <;> simpa [hpl] using hins
    refine h.of_members hguild ⟨rows, ht⟩ (ht ▸ hk h.keyed) (fun p => ?_)
      (within_addMember h.within hn known)
    have hid : (w.addMember q n known).guild.id = w.guild.id := by
      rw [addMember_guild hr, Guild.putMember_id]
    unfold ownRow
    rw [addMember_slot hr, addMember_row hr, hid]
    split_ifs with hp
    · rw [hp, hrow hr]
      simp [filter_some, rowSlot]
    · rw [or_none]
      exact h.member p

/-- Without a disbanding a member goes with his row. -/
theorem Filed.delMember (h : Filed w) {next : Nat}
    (hd : (w.delMember q next).disbanded = false) : Filed (w.delMember q next) := by
  obtain ⟨-, he⟩ | ⟨-, best, -, he⟩ := delMember_eq hd
  · rw [he]
    exact h.eraseMember
  · rw [he]
    exact (Filed.setNewLeader h _).eraseMember

/-- A note changes in the slot and in the row. -/
theorem Filed.note (h : Filed w) {f : GuildMember → GuildMember} {f' : GuildMemberRow → GuildMemberRow}
    (hf : ∀ s, (f s).guid = s.guid ∧ (f s).rankId = s.rankId)
    (hf' : ∀ r, (f' r).guid = r.guid ∧ (f' r).guildid = r.guildid)
    (hff : ∀ r, rowSlot (f' r) = f (rowSlot r)) :
    Filed (({ w with guild := w.guild.mapMember q f } : GuildWorld).updateRow q f') := by
  refine h.of_members ⟨_, rfl⟩ ⟨_, rfl⟩ ?_ (fun p => ?_) ?_
  · exact h.keyed.map fun r _ => by
      split_ifs
      · exact (hf' r).1
      · rfl
  · exact ownRow_map (w := w) (fun r => (hf' r).2) hff rfl
      (w.guild.mapMember_slot fun s => (hf s).1) (updateRow_row _ fun r => (hf' r).1) (h.member p)
  · exact within_mapMember h.within fun s hs => by
      rw [(hf s).2]
      exact hs

/-! ## What other players do -/

/-- A row that another guild has written is its row. -/
theorem elsewhere_row_self {w' : GuildWorld} {guildid rank : Nat} {r : GuildMemberRow}
    (ht : w'.tables = { w.tables with
      guildMember := if guildid = 0 then w.tables.guildMember.filter (·.guid != q)
        else w.tables.guildMember.filter (·.guid != q) ++ [{ guildid, guid := q, rank }] })
    (hr : w'.row q = some r) : r.guildid = guildid := by
  have hfilter : (w.tables.guildMember.filter (·.guid != q)).find? (·.guid == q) = none :=
    find?_remove.trans (if_pos rfl)
  unfold row at hr
  rw [ht] at hr
  dsimp only at hr
  split_ifs at hr
  · rw [hfilter] at hr
    exact absurd hr (some_ne_none r).symm
  · have hconcat := @find?_concat _ _ (·.guid) (w.tables.guildMember.filter (·.guid != q))
      ({ guildid, guid := q, rank } : GuildMemberRow) _ q
    rw [hconcat, hfilter, if_pos rfl, none_or, some_inj] at hr
    rw [← hr]

/-- What happens in other guilds writes rows of who is in none of our slots. -/
theorem Filed.elsewhere (h : Filed w) (guildid rank : Nat) : Filed (w.elsewhere q guildid rank) := by
  have hguild := elsewhere_guild w (q := q) guildid rank
  obtain ht | ⟨hid, hrow, ht⟩ := elsewhere_tables w (q := q) guildid rank
  · refine h.of_members ⟨_, hguild⟩ ⟨_, ht⟩ (ht ▸ h.keyed) (fun p => ?_) (hguild ▸ h.within)
    unfold ownRow row
    rw [hguild, ht]
    exact h.member p
  · have hfilter : Keyed (·.guid) (w.tables.guildMember.filter (·.guid != q)) := h.keyed.filter _
    refine h.of_members ⟨_, hguild⟩ ⟨_, ht⟩ ?_ (fun p => ?_) (hguild ▸ h.within)
    · rw [ht]
      show Keyed _ (if _ then _ else _)
      split_ifs
      · exact hfilter
      · exact hfilter.concat fun r hr => by simpa using (mem_filter.mp hr).2
    · have hown : (w.elsewhere q guildid rank).ownRow p = w.ownRow p := by
        unfold ownRow
        rw [hguild]
        by_cases hp : p = q
        · rw [hp]
          have hnone : (w.row q).filter (·.guildid == w.guild.id) = none := by
            rw [filter_eq_none_iff]
            intro r hr
            simpa using hrow r hr
          rw [hnone]
          rw [filter_eq_none_iff]
          intro r hr
          have hrow' : r.guildid = guildid := elsewhere_row_self ht hr
          simpa [hrow'] using hid
        · rw [elsewhere_row w _ _ hp]
      rw [hguild, hown]
      exact h.member p

theorem Filed.of_players (h : Filed w) {w' : GuildWorld} (hg : w'.guild = w.guild)
    (ht : w'.tables = w.tables) : Filed w' := by
  refine h.of_members ⟨_, hg⟩ ⟨_, ht⟩ (ht ▸ h.keyed) (fun p => ?_) (hg ▸ h.within)
  unfold ownRow row
  rw [hg, ht]
  exact h.member p

/-! ## The ranks -/

/-- A new rank is the last row. -/
theorem Filed.addRank (h : Filed w) {name : String} {rights : UInt32}
    (hlen : w.guild.getRanksSize < guildRanksMaxCount) :
    Filed { w with
      guild.ranks := w.guild.ranks ++ [⟨name, rights⟩]
      tables.guildRank := w.tables.guildRank ++ [⟨w.guild.ranks.length, name, rights⟩] } := by
  have hsize : (w.guild.ranks ++ ([⟨name, rights⟩] : List RankInfo)).length =
      w.guild.getRanksSize + 1 := by
    rw [length_append, length_singleton]
    rfl
  refine ⟨⟨h.guild, ?_, h.member⟩, h.keyed, ?_, ?_, ?_, fun s hs => ?_⟩
  · show w.tables.guildRank ++ _ = rankRows (_ ++ _)
    rw [h.ranks, rankRows, rankRows, mapIdx_concat]
  · exact Nat.le_trans h.min (Nat.le_of_lt (Nat.lt_of_lt_of_eq (Nat.lt_succ_self _) hsize.symm))
  · exact Nat.le_trans (Nat.le_of_eq hsize) hlen
  · have hne : w.guild.ranks ≠ [] := ne_nil_of_length_pos (Nat.lt_of_lt_of_le (by decide) h.min)
    show ∀ r ∈ (w.guild.ranks ++ _).head?, _
    rw [head?_append_of_ne_nil _ hne]
    exact h.top
  · exact Nat.lt_trans (h.within s hs) (Nat.lt_of_lt_of_eq (Nat.lt_succ_self _) hsize.symm)

/-- `DelRank` deletes the rows from the lowest rank on, which is one. -/
theorem rankRows_dropLast (ranks : List RankInfo) :
    (rankRows ranks).filter (fun r => !(r.rid ≥ ranks.length - 1)) = rankRows ranks.dropLast := by
  rcases ranks.eq_nil_or_concat' with rfl | ⟨init, last, rfl⟩
  · rfl
  rw [dropLast_concat, rankRows, mapIdx_concat, filter_append,
    length_append, length_singleton, Nat.add_sub_cancel]
  have hinit : ∀ r ∈ rankRows init, r.rid < init.length := by
    intro r hr
    obtain ⟨i, hi, rfl⟩ := mem_mapIdx.mp hr
    exact hi
  rw [show (init.mapIdx _).filter _ = rankRows init from filter_eq_self.mpr fun r hr => by
    simpa using hinit r hr]
  simp

/-- The lowest rank goes, if nobody has it. -/
theorem Filed.delRank (h : Filed w) (hlen : guildRanksMinCount < w.guild.getRanksSize)
    (hout : ∀ s ∈ w.guild.members, s.rankId ≠ w.guild.getLowestRank) :
    Filed { w with
      guild.ranks := w.guild.ranks.dropLast
      tables.guildRank := w.tables.guildRank.filter fun r => !(r.rid ≥ w.guild.getLowestRank) } := by
  have hlen' : 5 < w.guild.ranks.length := hlen
  have hsize : w.guild.ranks.dropLast.length = w.guild.ranks.length - 1 := length_dropLast
  have hmax : w.guild.ranks.length ≤ 10 := h.max
  refine ⟨⟨h.guild, ?_, h.member⟩, h.keyed, ?_, ?_, ?_, fun s hs => ?_⟩
  · rw [h.ranks]
    exact rankRows_dropLast _
  · show 5 ≤ w.guild.ranks.dropLast.length
    omega
  · show w.guild.ranks.dropLast.length ≤ 10
    omega
  · intro r hr
    refine h.top r ?_
    change w.guild.ranks.dropLast.head? = some r at hr
    rw [head?_eq_getElem?, getElem?_dropLast, if_pos (by omega)] at hr
    rw [head?_eq_getElem?]
    exact hr
  · have hin : s.rankId < w.guild.ranks.length := h.within s hs
    have hne : s.rankId ≠ w.guild.ranks.length - 1 := hout s hs
    show s.rankId < w.guild.ranks.dropLast.length
    omega

theorem rankRows_set (ranks : List RankInfo) (rankId : Nat) (name : String) (rights : UInt32) :
    (rankRows ranks).map (fun r => if r.rid = rankId then ⟨r.rid, name, rights⟩ else r) =
      rankRows (ranks.set rankId ⟨name, rights⟩) := by
  refine ext_getElem? fun i => ?_
  rw [rankRows, rankRows, getElem?_map, getElem?_mapIdx, getElem?_mapIdx,
    getElem?_set]
  by_cases hi : rankId = i
  · subst hi
    cases hr : ranks[rankId]? with
    | none =>
      have : ¬ rankId < ranks.length := Nat.not_lt.mpr (getElem?_eq_none_iff.mp hr)
      simp [this]
    | some r =>
      have : rankId < ranks.length := (List.getElem?_eq_some_iff.mp hr).1
      simp [this]
  · rw [if_neg hi]
    cases ranks[i]? with
    | none => rfl
    | some r => simp [Ne.symm hi]

/-- A rank is rewritten in its row. -/
theorem Filed.setRank (h : Filed w) {rankId : Nat} {name : String} {rights : UInt32}
    (hall : rankId = grGuildMaster → rights = rightAll) :
    Filed { w with
      guild.ranks := w.guild.ranks.set rankId ⟨name, rights⟩
      tables.guildRank := w.tables.guildRank.map fun r =>
        if r.rid = rankId then ⟨r.rid, name, rights⟩ else r } := by
  have hsize : (w.guild.ranks.set rankId ⟨name, rights⟩).length = w.guild.getRanksSize :=
    length_set
  refine ⟨⟨h.guild, ?_, h.member⟩, h.keyed, Nat.le_trans h.min (Nat.le_of_eq hsize.symm),
    Nat.le_trans (Nat.le_of_eq hsize) h.max, ?_,
    fun s hs => Nat.lt_of_lt_of_eq (h.within s hs) hsize.symm⟩
  · rw [h.ranks]
    exact rankRows_set _ rankId name rights
  · intro r hr
    change (w.guild.ranks.set rankId ⟨name, rights⟩).head? = some r at hr
    rw [head?_eq_getElem?, getElem?_set] at hr
    split_ifs at hr with h0 hne
    · rw [← some_inj.mp hr, hall h0]
      exact UInt32.or_self
    · exact h.top r (by rw [head?_eq_getElem?]; exact hr)

/-! ## Steps -/

/-- Every step writes what it changes. -/
theorem Filed.step (h : Filed w) {i : GuildInput} (hi : w.Kept i)
    (hd : (w.step i).disbanded = false) : Filed (w.step i) := by
  obtain ⟨hnote, hdel, hadd⟩ := hi
  have hmin : 5 ≤ w.guild.getRanksSize := h.min
  have hlow : w.guild.getLowestRank < w.guild.getRanksSize := by
    show w.guild.ranks.length - 1 < w.guild.ranks.length
    have : 5 ≤ w.guild.ranks.length := h.min
    omega
  have hstep := w.step_outcome i
  generalize hw : w.step i = w' at hstep hd ⊢
  cases hstep with
  | same => exact h
  | player => exact h.of_players rfl rfl
  | login guid guildExists =>
    unfold GuildWorld.login
    cases w.players guid with
    | none => exact h.of_players rfl rfl
    | some _ => exact h
  | logout => exact h.of_players rfl rfl
  | elsewhere guid guildid rank => exact h.elsewhere guildid rank
  | @accept guid _ hacc => exact h.addMember hlow fun _ => hadd guid (by simp [added, hacc])
  | promote hs =>
    obtain ⟨pl, -, -, hslot, -, hrank⟩ := w.canPromote_some hs
    have := h.within _ (mem_of_find?_eq_some hslot)
    exact h.changeRank (by omega)
  | demote hs =>
    obtain ⟨pl, -, -, -, -, -, hrank⟩ := w.canDemote_some hs
    exact h.changeRank (by omega)
  | remove => exact h.delMember hd
  | leave => exact h.delMember hd
  | leaveLast => exact absurd hd Bool.noConfusion
  | leader => exact h.setNewLeader _
  | addMember guid known => exact h.addMember hlow fun hr => hadd guid (by simp [added, hr])
  | delMember => exact h.delMember hd
  | setNewLeader => exact h.setNewLeader _
  | hardcoreDeath => exact h.setNewLeader _
  | addRank _ hlen => exact h.addRank hlen
  | @delRank guid hm hlen =>
    have hgone : w.disbanded = false := hd
    refine h.delRank hlen fun s hs => hdel ?_ s hs
    have hlen' : 5 < w.guild.getRanksSize := hlen
    simp [deletesRank, hgone, hm, hlen']
  | rank _ _ hall => exact h.setRank hall
  | @publicNote guid target note s hr hs hne =>
    have hesc : escapeString note = note :=
      hnote note (by simp [noteSet, mayWrite, hr, hs, hne])
    rw [hesc]
    exact h.note (fun _ => ⟨rfl, rfl⟩) (fun _ => ⟨rfl, rfl⟩) fun _ => rfl
  | @officerNote guid target note s hr hs hne =>
    have hesc : escapeString note = note :=
      hnote note (by simp [noteSet, mayWrite, hr, hs, hne])
    rw [hesc]
    exact h.note (fun _ => ⟨rfl, rfl⟩) (fun _ => ⟨rfl, rfl⟩) fun _ => rfl
  | motd guid motd =>
    refine ⟨⟨?_, h.ranks, h.member⟩, h.keyed, h.min, h.max, h.top, h.within⟩
    show ({ w.tables.guild with motd } : GuildRow) = _
    rw [h.guild]
    rfl
  | infoText guid info =>
    refine ⟨⟨?_, h.ranks, h.member⟩, h.keyed, h.min, h.max, h.top, h.within⟩
    show ({ w.tables.guild with info } : GuildRow) = _
    rw [h.guild]
    rfl

/-! ## Somebody is left -/

theorem mapMember_manned {g : Guild} (h : g.members ≠ []) (f : GuildMember → GuildMember) :
    (g.mapMember q f).members ≠ [] := fun hnil => h (map_eq_nil_iff.mp hnil)

theorem putMember_manned {g : Guild} (h : g.members ≠ []) (s : GuildMember) :
    (g.putMember s).members ≠ [] := by
  unfold Guild.putMember
  split_ifs
  · exact mapMember_manned h _
  · exact append_ne_nil_of_left_ne_nil h _

theorem addMember_manned (h : w.guild.members ≠ []) (known : Bool) :
    (w.addMember q n known).guild.members ≠ [] := by
  cases hr : w.refuses q known with
  | true =>
    rw [addMember_refused w hr]
    exact h
  | false =>
    rw [addMember_guild hr]
    exact putMember_manned h _

theorem changeRank_manned (h : w.guild.members ≠ []) : (w.changeRank q n).guild.members ≠ [] := by
  rw [changeRank_guild]
  exact mapMember_manned h _

theorem setNewLeader_manned (h : w.guild.members ≠ []) (old : Option Nat) :
    (w.setNewLeader q old).guild.members ≠ [] := by
  have hl : (w.setLeader q).guild.members ≠ [] := by
    rw [setLeader_guild]
    exact mapMember_manned h _
  cases old with
  | none => exact hl
  | some o => exact changeRank_manned hl

/-- A guild whose last member is deleted is disbanded. -/
theorem delMember_manned {next : Nat} (hd : (w.delMember q next).disbanded = false) :
    (w.delMember q next).guild.members ≠ [] := by
  have hend : ∀ w' : GuildWorld,
      (if w'.guild.members = [] then w'.disband else w').disbanded = false →
      (if w'.guild.members = [] then w'.disband else w').guild.members ≠ [] := by
    intro w' hd
    split_ifs at hd ⊢ with hnil
    · exact absurd hd Bool.noConfusion
    · exact hnil
  unfold delMember at hd ⊢
  split_ifs at hd ⊢
  · cases hbest : w.guild.suitableNewLeader next with
    | none =>
      rw [hbest] at hd
      exact absurd hd Bool.noConfusion
    | some best =>
      rw [hbest] at hd
      exact hend _ hd
  · exact hend _ hd

/-- A guild that is not disbanded has a member. -/
theorem manned_step (h : w.guild.members ≠ []) {i : GuildInput}
    (hd : (w.step i).disbanded = false) : (w.step i).guild.members ≠ [] := by
  have hstep := w.step_outcome i
  generalize hw : w.step i = w' at hstep hd ⊢
  cases hstep with
  | login guid guildExists =>
    unfold GuildWorld.login
    cases w.players guid <;> exact h
  | elsewhere guid guildid rank =>
    rw [elsewhere_guild]
    exact h
  | accept => exact addMember_manned h true
  | promote => exact changeRank_manned h
  | demote => exact changeRank_manned h
  | remove => exact delMember_manned hd
  | leave => exact delMember_manned hd
  | leader => exact setNewLeader_manned h _
  | addMember _ known => exact addMember_manned h known
  | delMember => exact delMember_manned hd
  | setNewLeader => exact setNewLeader_manned h _
  | hardcoreDeath => exact setNewLeader_manned h _
  | publicNote => exact mapMember_manned h _
  | officerNote => exact mapMember_manned h _
  | same | player | logout | leaveLast | addRank | delRank | rank | motd | infoText => exact h

/-! ## Runs -/

/-- Once a guild is gone it stays so. -/
theorem step_disbanded (h : w.disbanded = true) (i : GuildInput) : w.step i = w := if_pos h

/-- So every step leaves the tables as the guild is. -/
theorem Stored.step (h : Stored w) {i : GuildInput} (hi : w.Kept i)
    (hd : (w.step i).disbanded = false) : Stored (w.step i) :=
  ⟨Filed.step h.toFiled hi hd, manned_step h.manned hd⟩

/-- A guild is gone, or its tables have what is in memory. -/
theorem stored_of_run {is : List GuildInput} (h : Stored w) (his : AlongRun step Kept w is)
    (hd : (run step w is).disbanded = false) : Stored (run step w is) := by
  have hkeeps : ∀ w i, (w.disbanded = false → Stored w) → w.Kept i →
      ((w.step i).disbanded = false → Stored (w.step i)) := by
    intro w i h hi hd
    cases hgone : w.disbanded with
    | true =>
      rw [step_disbanded hgone] at hd
      exact absurd (hgone.symm.trans hd) Bool.noConfusion
    | false => exact Stored.step (h hgone) hi hd
  exact run_keeps hkeeps (fun _ => h) his hd

/-- The tables agree with memory, and a restart that finds sound members gives the same guild. -/
def Survives (w : GuildWorld) : Prop :=
  Agrees w ∧ ∀ (text : Nat → String) (sound : Nat → Bool),
    (∀ s ∈ w.guild.members, sound s.guid = true) →
    SameGuild (loadTables w.guild.id w.tables text sound) w

/-- A restart after a run of `Kept` steps gives the guild that is in memory. -/
theorem survives_of_run {is : List GuildInput} (h : Stored w) (his : AlongRun step Kept w is)
    (hd : (run step w is).disbanded = false) : Survives (run step w is) :=
  have hstored := stored_of_run h his hd
  ⟨hstored.toAgrees, fun text _ hsound => hstored.sameGuild text hsound⟩

/-- A guild that is founded by someone who has no row is stored. -/
theorem create_stored {id leader : Nat} {text : Nat → String} {rows : List GuildMemberRow}
    {players : Nat → Option GuildPlayer} (hk : Keyed (·.guid) rows)
    (hnew : ∀ r ∈ rows, r.guid = leader → r.guildid = id)
    (hfree : ∀ pl ∈ players leader, pl.guildId = 0) :
    Stored (create id leader text rows players) := by
  let w₀ : GuildWorld :=
    { guild := { id, leaderGuid := leader, motd := "No message set.", ranks := defaultRanks text }
      tables := { guild := { leaderguid := leader, info := "", motd := "No message set." }
                  guildMember := rows.filter (·.guildid != id)
                  guildRank := rankRows (defaultRanks text) }
      players }
  have hcreate : create id leader text rows players = w₀.addMember leader grGuildMaster true := by
    unfold create
    dsimp only
    rw [createDefaultGuildRanks_eq _ rfl]
  have hw₀ : Filed w₀ :=
    { guild := rfl
      ranks := rfl
      member := fun p => by
        have hown : w₀.ownRow p = none := by
          rw [ownRow, filter_eq_none_iff]
          intro r hr
          simpa using (mem_filter.mp (mem_of_find?_eq_some hr)).2
        rw [hown]
        rfl
      keyed := hk.filter _
      min := by show 5 ≤ 5; omega
      max := by show 5 ≤ 10; omega
      top := fun r hr => by
        obtain rfl : _ = r := some_inj.mp hr
        exact UInt32.or_self
      within := nofun }
  have hnone : w₀.row leader = none := by
    rw [row, find?_eq_none]
    intro r hr
    obtain ⟨hr, hne⟩ := mem_filter.mp hr
    have := hnew r hr
    grind
  have hr : w₀.refuses leader true = false := by
    unfold refuses
    cases hpl : w₀.players leader with
    | none => rfl
    | some pl => simpa using hfree pl hpl
  rw [hcreate]
  refine ⟨hw₀.addMember (by show 0 < 5; omega) fun _ => hnone, ?_⟩
  rw [addMember_guild hr]
  exact cons_ne_nil _ _

end GuildWorld

def twoPlayers : Nat → Option GuildPlayer := fun p => if p = 1 ∨ p = 2 then some {} else none

def foundedGuild : GuildWorld :=
  .create 7 1 (fun i => ["Guild Master", "Officer", "Veteran", "Member", "Initiate"].getD i "") []
    twoPlayers

theorem foundedGuild_stored : foundedGuild.Stored :=
  GuildWorld.create_stored nodup_nil (by decide) (by decide)

/-- The founder invites someone, promotes him, notes what he is for and hands over to him. -/
def notedRun (note : String) : List GuildInput :=
  [.invite 1 2 true, .accept 2 true, .promote 1 2, .publicNote 1 2 note, .addRank 1 "Bank",
    .motd 1 "Raid at 8", .leader 1 2]

theorem notedRun_survives :
    GuildWorld.Survives (run GuildWorld.step foundedGuild (notedRun "Tank")) :=
  GuildWorld.survives_of_run foundedGuild_stored (by decide +kernel) (by decide +kernel)

/-- `it's`, which the guild has with a backslash until it is restarted. -/
def quotedNote : String :=
  String.ofList [Char.ofNat 105, Char.ofNat 116, Char.ofNat 39, Char.ofNat 115]

theorem quotedNote_not_survives :
    ¬ ∀ (w : GuildWorld) (is : List GuildInput), w.Stored →
      (run GuildWorld.step w is).disbanded = false →
      GuildWorld.Survives (run GuildWorld.step w is) := by
  intro h
  have hs := h foundedGuild (notedRun quotedNote) foundedGuild_stored (by decide +kernel)
  have hm := (hs.2 (fun _ => "") (fun _ => true) fun _ _ => rfl).member 2
  exact absurd hm (by decide +kernel)

end Windrunner
