import Windrunner.Guild.Outcome

/-!
# One guild master

The rank of a member stands in his slot, in his row and, when he is online, in the field of the
player. The leader is the one member with the rank of the guild master (`OneMaster`), and nobody is
online with another rank than that of his slot (`FieldsAgree`).

`ChangeRank` looks for the player with `sObjectMgr.GetPlayer`, which does not find somebody between
two maps; his field keeps the old rank until he logs in again. `AddMember` looks with
`FindPlayerNotInWorld`, which does. Its row is not written, though, when the character has a row
in `guild_member` already, and the login then takes what that row says. `Seen` are the steps that
give nobody a rank behind his back, and `oneMaster_of_run` follows what runs of them keep.
-/

namespace Windrunner

open Lib List

/-- Exactly one member has the rank of the guild master, and he is the leader. -/
def Guild.OneMaster (g : Guild) : Prop :=
  (g.members.filter (·.rankId = grGuildMaster)).map (·.guid) = [g.leaderGuid]

instance (g : Guild) : Decidable g.OneMaster := inferInstanceAs (Decidable (_ = _))

/-- The guild master, and who is not. -/
theorem Guild.OneMaster.iff {g : Guild} (h : g.OneMaster) (hk : Keyed (·.guid) g.members) :
    (∃ s ∈ g.members, s.guid = g.leaderGuid ∧ s.rankId = grGuildMaster) ∧
      ∀ s ∈ g.members, s.rankId = grGuildMaster ↔ s.guid = g.leaderGuid := by
  have hmem : ∀ p, p ∈ (g.members.filter (·.rankId = grGuildMaster)).map (·.guid) ↔
      p = g.leaderGuid := by
    intro p
    rw [show _ = [g.leaderGuid] from h, mem_singleton]
  obtain ⟨m, hm, hguid⟩ := mem_map.mp ((hmem g.leaderGuid).mpr rfl)
  obtain ⟨hm, hrank⟩ := mem_filter.mp hm
  have hrank : m.rankId = grGuildMaster := by simpa using hrank
  refine ⟨⟨m, hm, hguid, hrank⟩, fun s hs => ⟨fun hr => ?_, fun he => ?_⟩⟩
  · exact (hmem s.guid).mp (mem_map.mpr ⟨s, mem_filter.mpr ⟨hs, by simpa using hr⟩, rfl⟩)
  · rw [hk.inj hs hm (he.trans hguid.symm)]
    exact hrank

namespace GuildWorld

variable {w : GuildWorld} {p q n : Nat}

/-- The field of each member who is online has the rank of his slot. -/
def FieldsAgree (w : GuildWorld) : Prop :=
  ∀ s ∈ w.guild.members, ∀ pl ∈ w.players s.guid, pl.rank = s.rankId

instance (w : GuildWorld) : Decidable w.FieldsAgree := by
  unfold FieldsAgree
  infer_instance

/-! ## The condition -/

/-- Those whose rank a step changes. -/
def ranked (w : GuildWorld) : GuildInput → List Nat
  | .promote guid target => (w.canPromote guid target).toList.map (·.guid)
  | .demote guid target => (w.canDemote guid target).toList.map (·.guid)
  | .leader guid target =>
    if w.isMaster guid then (w.guild.getMemberSlot target).toList.map (·.guid) else []
  | .setNewLeader guid =>
    if (w.guild.getMemberSlot guid).isSome && guid != w.guild.leaderGuid then
      [guid, w.guild.leaderGuid]
    else []
  | .hardcoreDeath oldest next =>
    (w.guild.oldestOfficer oldest next).elim [] fun s => [s.guid, w.guild.leaderGuid]
  | .delMember guid next =>
    if guid = w.guild.leaderGuid then (w.guild.suitableNewLeader next).toList.map (·.guid) else []
  | _ => []

/-- The one whom a step lets in. -/
def added (w : GuildWorld) : GuildInput → Option Nat
  | .accept guid allowed => if w.accepts guid allowed then some guid else none
  | .addMember guid known => if w.refuses guid known then none else some guid
  | _ => none

/-- Nobody between two maps gets a new rank, and nobody with a row is let in. -/
def Seen (w : GuildWorld) (i : GuildInput) : Prop :=
  (∀ p ∈ w.ranked i, ∀ pl ∈ w.players p, pl.inWorld = true) ∧ ∀ p ∈ w.added i, w.row p = none

instance (w : GuildWorld) (i : GuildInput) : Decidable (w.Seen i) := by
  unfold Seen
  infer_instance

/-! ## Recorded ranks -/

/-- What is recorded of `p`, if he is a member, is his rank. -/
def RecordedAt (w : GuildWorld) (p : Nat) : Prop :=
  ∀ s, w.guild.getMemberSlot p = some s →
    (∀ pl, w.players p = some pl → pl.guildId = w.guild.id ∧ pl.rank = s.rankId) ∧
    ∃ r, w.row p = some r ∧ r.guildid = w.guild.id ∧ r.rank = s.rankId

section

variable (h : w.RecordedAt p) (hv : p = q → ∀ pl, w.players p = some pl → pl.inWorld = true)
include h hv

/-- A rank is changed in the slot, in the row and in the fields of a player in the world. -/
theorem RecordedAt.changeRank :
    (w.changeRank q n).RecordedAt p := by
  intro s hs
  rw [changeRank_slot] at hs
  rw [changeRank_players, changeRank_row, changeRank_guild]
  by_cases hp : p = q
  · rw [if_pos hp] at hs ⊢
    rw [if_pos hp]
    obtain ⟨s, hslot, rfl⟩ := Option.map_eq_some_iff.mp hs
    obtain ⟨hfield, r, hr, hid, -⟩ := h s hslot
    refine ⟨fun pl hpl => ?_, { r with rank := n }, by rw [hr]; rfl, hid, rfl⟩
    obtain ⟨old, hold, rfl⟩ := Option.map_eq_some_iff.mp hpl
    -- `FindPlayer` sees a player in the world only, hence the hypothesis
    rw [if_pos (hv hp old hold)]
    exact ⟨(hfield old hold).1, rfl⟩
  · rw [if_neg hp] at hs ⊢
    rw [if_neg hp]
    exact h s hs

theorem RecordedAt.setLeader :
    (w.setLeader q).RecordedAt p := by
  have hrank := @RecordedAt.changeRank { w with guild.leaderGuid := q } p q grGuildMaster h hv
  exact hrank

end

theorem RecordedAt.eraseMember (h : p ≠ q → w.RecordedAt p) : (w.eraseMember q).RecordedAt p := by
  intro s hs
  rw [eraseMember_slot] at hs
  rw [eraseMember_players, eraseMember_row, eraseMember_guild]
  split_ifs at hs with hp
  rw [if_neg hp, if_neg hp]
  exact h hp s hs

/-- A new member is recorded, if no row is there before his. -/
theorem RecordedAt.addMember {known : Bool} (h : w.RecordedAt p)
    (hrow : w.refuses q known = false → w.row q = none) :
    (w.addMember q n known).RecordedAt p := by
  cases hr : w.refuses q known with
  | true =>
    rw [addMember_refused w hr]
    exact h
  | false =>
    intro s hs
    rw [addMember_slot hr] at hs
    rw [addMember_players hr, addMember_row hr, addMember_guild hr, Guild.putMember_id]
    by_cases hp : p = q
    · rw [if_pos hp] at hs ⊢
      rw [if_pos hp, hp, hrow hr, ← Option.some.inj hs]
      refine ⟨fun pl hpl => ?_, _, rfl, rfl, rfl⟩
      obtain ⟨pl, -, rfl⟩ := Option.map_eq_some_iff.mp hpl
      exact ⟨rfl, rfl⟩
    · rw [if_neg hp] at hs ⊢
      rw [if_neg hp, Option.or_none]
      exact h s hs

/-! ## The invariant -/

/-- The members have keys of their own, and their ranks are recorded. -/
structure Enrolled (w : GuildWorld) : Prop where
  keyed : Keyed (·.guid) w.guild.members
  ranks : guildRanksMinCount ≤ w.guild.ranks.length
  recorded : ∀ p, w.RecordedAt p

structure Titled (w : GuildWorld) : Prop extends Enrolled w where
  master : ∀ p s, w.guild.getMemberSlot p = some s →
    (s.rankId = grGuildMaster ↔ p = w.guild.leaderGuid)
  seat : (w.guild.getMemberSlot w.guild.leaderGuid).isSome

/-- The slot of the leader is the only one with his rank. -/
theorem Titled.oneMaster (h : Titled w) : w.guild.OneMaster := by
  obtain ⟨s, hs⟩ := Option.isSome_iff_exists.mp h.seat
  have hfilter : w.guild.members.filter (·.rankId = grGuildMaster)
      = w.guild.members.filter (·.guid = w.guild.leaderGuid) := by
    refine filter_congr fun t ht => ?_
    have := h.master t.guid t ((Guild.slot_iff h.keyed).mpr ⟨ht, rfl⟩)
    simp [this]
  unfold Guild.OneMaster
  rw [hfilter]
  exact h.keyed.filter_key_eq ((Guild.slot_iff h.keyed).mp hs).1 ((Guild.slot_iff h.keyed).mp hs).2

/-- The fields of who is online are those of his slot. -/
theorem Enrolled.fieldsAgree (h : Enrolled w) : w.FieldsAgree := by
  intro s hs pl hpl
  exact ((h.recorded s.guid s ((Guild.slot_iff h.keyed).mpr ⟨hs, rfl⟩)).1 pl hpl).2

/-! ## Ranks change -/

theorem Enrolled.changeRank (h : Enrolled w)
    (hv : ∀ pl, w.players q = some pl → pl.inWorld = true) : Enrolled (w.changeRank q n) where
  keyed := by
    rw [changeRank_guild]
    exact Guild.mapMember_keyed (fun _ => rfl) h.keyed
  ranks := by
    rw [changeRank_guild]
    exact h.ranks
  recorded p := (h.recorded p).changeRank fun hp => hp ▸ hv

/-- The new leader's rank is recorded like any other. -/
theorem Enrolled.setLeader (h : Enrolled w)
    (hv : ∀ pl, w.players q = some pl → pl.inWorld = true) : Enrolled (w.setLeader q) where
  keyed := by
    rw [setLeader_guild]
    exact Guild.mapMember_keyed (fun _ => rfl) h.keyed
  ranks := by
    rw [setLeader_guild]
    exact h.ranks
  recorded p := (h.recorded p).setLeader fun hp => hp ▸ hv

/-- Another member than the leader gets another rank than his. -/
theorem Titled.changeRank (h : Titled w) (hq : q ≠ w.guild.leaderGuid) (hn : n ≠ grGuildMaster)
    (hv : ∀ pl, w.players q = some pl → pl.inWorld = true) : Titled (w.changeRank q n) where
  toEnrolled := h.toEnrolled.changeRank hv
  master p s hs := by
    rw [changeRank_slot] at hs
    rw [changeRank_guild]
    by_cases hp : p = q
    · rw [if_pos hp] at hs
      obtain ⟨s, -, rfl⟩ := Option.map_eq_some_iff.mp hs
      exact iff_of_false hn (hp ▸ hq)
    · rw [if_neg hp] at hs
      exact h.master p s hs
  seat := by
    rw [changeRank_guild, Guild.mapMember_leaderGuid, ← changeRank_guild, changeRank_slot,
      if_neg hq.symm]
    exact h.seat

/-- The leader hands over to another member. -/
theorem Titled.setNewLeader (h : Titled w) (hq : (w.guild.getMemberSlot q).isSome)
    (hne : q ≠ w.guild.leaderGuid)
    (hv : ∀ p ∈ [q, w.guild.leaderGuid], ∀ pl, w.players p = some pl → pl.inWorld = true) :
    Titled (w.setNewLeader q (some w.guild.leaderGuid)) where
  toEnrolled := by
    refine (h.toEnrolled.setLeader (hv q (by simp))).changeRank fun pl hpl => ?_
    rw [setLeader_players, if_neg hne.symm] at hpl
    exact hv w.guild.leaderGuid (by simp) pl hpl
  master p s hs := by
    simp only [GuildWorld.setNewLeader, Option.elim_some, changeRank_slot, setLeader_slot] at hs
    simp only [GuildWorld.setNewLeader, Option.elim_some, changeRank_guild, setLeader_guild]
    -- the old leader becomes an officer, the new one the guild master, nobody else changes
    by_cases hold : p = w.guild.leaderGuid
    · rw [if_pos hold, if_neg (hold ▸ hne.symm)] at hs
      obtain ⟨s, -, rfl⟩ := Option.map_eq_some_iff.mp hs
      exact iff_of_false (show grOfficer ≠ grGuildMaster by decide) (hold ▸ hne.symm)
    · rw [if_neg hold] at hs
      by_cases hp : p = q
      · rw [if_pos hp] at hs
        obtain ⟨s, -, rfl⟩ := Option.map_eq_some_iff.mp hs
        exact iff_of_true rfl hp
      · rw [if_neg hp] at hs
        exact iff_of_false (fun hm => hold ((h.master p s hs).mp hm)) hp
  seat := by
    show ((((w.setLeader q).changeRank w.guild.leaderGuid grOfficer).guild).getMemberSlot
      ((w.setLeader q).changeRank w.guild.leaderGuid grOfficer).guild.leaderGuid).isSome
    rw [show ((w.setLeader q).changeRank w.guild.leaderGuid grOfficer).guild.leaderGuid = q by simp,
      changeRank_slot, setLeader_slot, if_neg hne, if_pos rfl, Option.isSome_map]
    exact hq

/-! ## Members come and go -/

/-- Of the one who is erased nothing need be recorded. -/
theorem Enrolled.of_erase (hk : Keyed (·.guid) w.guild.members)
    (hr : guildRanksMinCount ≤ w.guild.ranks.length) (h : ∀ p, p ≠ q → w.RecordedAt p) :
    Enrolled (w.eraseMember q) where
  keyed := by
    rw [eraseMember_guild]
    exact hk.filter _
  ranks := by
    rw [eraseMember_guild]
    exact hr
  recorded p := RecordedAt.eraseMember (h p)

/-- Somebody who is not the leader is erased. -/
theorem Titled.eraseMember (h : Titled w) (hq : q ≠ w.guild.leaderGuid) :
    Titled (w.eraseMember q) where
  toEnrolled := .of_erase h.keyed h.ranks fun p _ => h.recorded p
  master p s hs := by
    rw [eraseMember_slot] at hs
    rw [eraseMember_guild]
    split_ifs at hs
    exact h.master p s hs
  seat := by
    rw [show (w.eraseMember q).guild.leaderGuid = w.guild.leaderGuid by simp, eraseMember_slot,
      if_neg hq.symm]
    exact h.seat

/-- The leader goes and leaves his place to `best`; `old` is his slot, if he has one. -/
def succeed (w : GuildWorld) (best : Nat) (old : Option Nat) : GuildWorld :=
  (w.setNewLeader best old).eraseMember w.guild.leaderGuid

section Succeed

variable {best : Nat} {old : Option Nat} (hold : ∀ p ∈ old, p = w.guild.leaderGuid)
include hold

/-- Who succeeds has the leader's rank, and the leader has no slot. -/
theorem succeed_slot :
    (w.succeed best old).guild.getMemberSlot p
      = if p = w.guild.leaderGuid then none
        else if p = best then (w.guild.getMemberSlot p).map ({ · with rankId := grGuildMaster })
        else w.guild.getMemberSlot p := by
  rw [succeed, eraseMember_slot]
  by_cases hp : p = w.guild.leaderGuid
  · rw [if_pos hp, if_pos hp]
  · rw [if_neg hp, if_neg hp]
    -- the old leader's rank is set only if he has a slot, which is erased right after
    cases old with
    | none => exact setLeader_slot w
    | some o =>
      obtain rfl := hold o rfl
      show ((w.setLeader best).changeRank _ _).guild.getMemberSlot p = _
      rw [changeRank_slot, if_neg hp]
      exact setLeader_slot w

theorem succeed_leaderGuid : (w.succeed best old).guild.leaderGuid = best := by
  cases old <;> simp [succeed, GuildWorld.setNewLeader]

/-- The one who goes need not be recorded. -/
theorem Enrolled.succeed (h : Enrolled w)
    (hv : ∀ pl, w.players best = some pl → pl.inWorld = true) : Enrolled (w.succeed best old) := by
  have hleader := h.setLeader hv
  cases old with
  | none => exact .of_erase hleader.keyed hleader.ranks fun p _ => hleader.recorded p
  | some o =>
    obtain rfl := hold o rfl
    refine .of_erase ?_ ?_ fun p hp => (hleader.recorded p).changeRank fun he => absurd he hp
    · show Keyed (·.guid) ((w.setLeader best).changeRank _ _).guild.members
      rw [changeRank_guild]
      exact Guild.mapMember_keyed (fun _ => rfl) hleader.keyed
    · show guildRanksMinCount ≤ ((w.setLeader best).changeRank _ _).guild.ranks.length
      rw [changeRank_guild]
      exact hleader.ranks

/-- The guild has a leader again. -/
theorem Titled.succeed (h : Titled w) (hbest : (w.guild.getMemberSlot best).isSome)
    (hne : best ≠ w.guild.leaderGuid)
    (hv : ∀ pl, w.players best = some pl → pl.inWorld = true) : Titled (w.succeed best old) where
  toEnrolled := h.toEnrolled.succeed hold hv
  master p s hs := by
    rw [succeed_slot hold] at hs
    rw [succeed_leaderGuid hold]
    split_ifs at hs with hl hp
    · obtain ⟨s, -, rfl⟩ := Option.map_eq_some_iff.mp hs
      exact iff_of_true rfl hp
    · exact iff_of_false (fun hm => hl ((h.master p s hs).mp hm)) hp
  seat := by
    rw [succeed_leaderGuid hold, succeed_slot hold, if_neg hne, if_pos rfl, Option.isSome_map]
    exact hbest

end Succeed

/-- `DelMember` without a disbanding. -/
theorem delMember_eq {next : Nat} (h : (w.delMember q next).disbanded = false) :
    q ≠ w.guild.leaderGuid ∧ w.delMember q next = w.eraseMember q ∨
    q = w.guild.leaderGuid ∧ ∃ best, w.guild.suitableNewLeader next = some best ∧
      w.delMember q next = w.succeed best.guid ((w.guild.getMemberSlot q).map (·.guid)) := by
  unfold delMember at h ⊢
  by_cases hq : w.guild.leaderGuid = q
  · rw [if_pos hq] at h ⊢
    cases hbest : w.guild.suitableNewLeader next with
    | none =>
      rw [hbest] at h
      exact absurd h Bool.noConfusion
    | some best =>
      rw [hbest] at h
      refine .inr ⟨hq.symm, best, rfl, ?_⟩
      dsimp only [Option.map_some] at h ⊢
      split_ifs at h ⊢
      · exact absurd h Bool.noConfusion
      · rw [succeed, hq]
  · rw [if_neg hq] at h ⊢
    refine .inl ⟨fun he => hq he.symm, ?_⟩
    dsimp only at h ⊢
    split_ifs at h ⊢
    · exact absurd h Bool.noConfusion
    · rfl

/-- Whoever is deleted, the guild that is left has one leader. -/
theorem Titled.delMember (h : Titled w) {next : Nat}
    (hv : q = w.guild.leaderGuid → ∀ best ∈ w.guild.suitableNewLeader next,
      ∀ pl, w.players best.guid = some pl → pl.inWorld = true)
    (hd : (w.delMember q next).disbanded = false) : Titled (w.delMember q next) := by
  obtain ⟨hq, he⟩ | ⟨hq, best, hbest, he⟩ := delMember_eq hd
  · rw [he]
    exact h.eraseMember hq
  · obtain ⟨hmem, hne, -⟩ := suitableNewLeader_some hbest
    rw [he]
    refine h.succeed (fun p hp => ?_) (Guild.slot_isSome hmem) hne (hv hq best hbest)
    obtain ⟨s, hs, rfl⟩ := Option.map_eq_some_iff.mp hp
    rw [Guild.slot_guid hs, hq]

/-- A new member is not the guild master. -/
theorem Titled.addMember (h : Titled w) {known : Bool} (hn : n ≠ grGuildMaster)
    (hrow : w.refuses q known = false → w.row q = none) : Titled (w.addMember q n known) := by
  cases hr : w.refuses q known with
  | true =>
    rw [addMember_refused w hr]
    exact h
  | false =>
    -- A member has a row, so nobody is let in twice.
    have hnew : w.guild.getMemberSlot q = none := by
      by_contra hsome
      obtain ⟨s, hs⟩ := Option.ne_none_iff_exists'.mp hsome
      obtain ⟨-, r, hrow', -⟩ := h.recorded q s hs
      rw [hrow hr] at hrow'
      exact absurd hrow' (by simp)
    have hne : w.guild.leaderGuid ≠ q := by
      rintro rfl
      exact absurd h.seat (by rw [hnew]; exact Bool.noConfusion)
    exact
      { keyed := by
          rw [addMember_guild hr]
          exact Guild.putMember_keyed h.keyed
        ranks := by
          rw [addMember_guild hr, Guild.putMember_ranks]
          exact h.ranks
        recorded := fun p => (h.recorded p).addMember hrow
        master := fun p s hs => by
          rw [addMember_slot hr] at hs
          rw [addMember_guild hr, Guild.putMember_leaderGuid]
          by_cases hp : p = q
          · rw [if_pos hp] at hs
            rw [← Option.some.inj hs]
            exact iff_of_false hn (hp ▸ hne.symm)
          · rw [if_neg hp] at hs
            exact h.master p s hs
        seat := by
          rw [addMember_guild hr, Guild.putMember_leaderGuid, ← addMember_guild hr,
            addMember_slot hr, if_neg hne]
          exact h.seat }

/-! ## What leaves the ranks alone -/

/-- Players come, go and move. One who comes has in his fields what his row says. -/
theorem Titled.of_players (h : Titled w) {w' : GuildWorld} (hguild : w'.guild = w.guild)
    (hrow : ∀ p, (w.guild.getMemberSlot p).isSome → w'.row p = w.row p)
    (hpl : ∀ p pl', (w.guild.getMemberSlot p).isSome → w'.players p = some pl' →
      (∃ pl, w.players p = some pl ∧ pl'.guildId = pl.guildId ∧ pl'.rank = pl.rank) ∨
      ∀ r, w.row p = some r → r.guildid = w.guild.id →
        pl'.guildId = r.guildid ∧ pl'.rank = r.rank) : Titled w' where
  keyed := hguild ▸ h.keyed
  ranks := hguild ▸ h.ranks
  recorded p s hs := by
    rw [hguild] at hs ⊢
    have hsome : (w.guild.getMemberSlot p).isSome := Option.isSome_iff_exists.mpr ⟨s, hs⟩
    obtain ⟨hfield, r, hr, hid, hrank⟩ := h.recorded p s hs
    refine ⟨fun pl' hpl' => ?_, r, (hrow p hsome).trans hr, hid, hrank⟩
    obtain ⟨pl, hpl, h1, h2⟩ | hnew := hpl p pl' hsome hpl'
    · rw [h1, h2]
      exact hfield pl hpl
    · obtain ⟨h1, h2⟩ := hnew r hr hid
      exact ⟨h1.trans hid, h2.trans hrank⟩
  master := hguild ▸ h.master
  seat := hguild ▸ h.seat

/-- Only the ranks and the texts of the guild change. -/
theorem Titled.of_members (h : Titled w) {w' : GuildWorld}
    (hm : w'.guild.members = w.guild.members) (hid : w'.guild.id = w.guild.id)
    (hl : w'.guild.leaderGuid = w.guild.leaderGuid)
    (hr : guildRanksMinCount ≤ w'.guild.ranks.length)
    (ht : w'.tables.guildMember = w.tables.guildMember) (hp : w'.players = w.players) :
    Titled w' := by
  have hslot : w'.guild.getMemberSlot = w.guild.getMemberSlot := by
    funext p
    unfold Guild.getMemberSlot
    rw [hm]
  have hrow : w'.row = w.row := by
    funext p
    unfold row
    rw [ht]
  exact
    { keyed := hm ▸ h.keyed
      ranks := hr
      recorded := fun p => by
        unfold RecordedAt
        rw [hslot, hp, hrow, hid]
        exact h.recorded p
      master := by
        rw [hslot, hl]
        exact h.master
      seat := by
        rw [hslot, hl]
        exact h.seat }

/-- A note changes, in the slot and in the row. -/
theorem Titled.note (h : Titled w) {f : GuildMember → GuildMember}
    {f' : GuildMemberRow → GuildMemberRow} (hf : ∀ s, (f s).guid = s.guid ∧ (f s).rankId = s.rankId)
    (hf' : ∀ r, (f' r).guid = r.guid ∧ (f' r).guildid = r.guildid ∧ (f' r).rank = r.rank) :
    Titled (({ w with guild := w.guild.mapMember q f } : GuildWorld).updateRow q f') where
  keyed := Guild.mapMember_keyed (fun s => (hf s).1) h.keyed
  ranks := h.ranks
  recorded p s hs := by
    rw [updateRow_guild, Guild.mapMember_slot _ fun s => (hf s).1] at hs
    rw [updateRow_row _ fun r => (hf' r).1]
    show (∀ pl, w.players p = some pl → _) ∧ ∃ r, (if p = q then (w.row p).map f' else w.row p) = _ ∧ _
    by_cases hp : p = q
    · rw [if_pos hp] at hs ⊢
      obtain ⟨t, ht, rfl⟩ := Option.map_eq_some_iff.mp hs
      obtain ⟨hfield, r, hr, hid, hrank⟩ := h.recorded p t ht
      rw [(hf t).2]
      exact ⟨hfield, f' r, by rw [hr]; rfl, (hf' r).2.1.trans hid, (hf' r).2.2.trans hrank⟩
    · rw [if_neg hp] at hs ⊢
      exact h.recorded p s hs
  master p s hs := by
    rw [updateRow_guild, Guild.mapMember_slot _ fun s => (hf s).1] at hs
    show s.rankId = _ ↔ p = w.guild.leaderGuid
    split_ifs at hs
    · obtain ⟨t, ht, rfl⟩ := Option.map_eq_some_iff.mp hs
      rw [(hf t).2]
      exact h.master p t ht
    · exact h.master p s hs
  seat := by
    show ((w.guild.mapMember q f).getMemberSlot w.guild.leaderGuid).isSome
    rw [Guild.mapMember_slot _ fun s => (hf s).1]
    split_ifs
    · rw [Option.isSome_map]
      exact h.seat
    · exact h.seat

/-! ## Steps -/

/-- With five ranks the lowest one is not the first. -/
theorem getLowestRank_ne (h : Titled w) : w.guild.getLowestRank ≠ grGuildMaster := by
  have hr : 5 ≤ w.guild.ranks.length := h.ranks
  show w.guild.ranks.length - 1 ≠ 0
  omega

/-- Who logs in reads guild and rank from his row. -/
theorem Titled.login (h : Titled w) (guildExists : Bool) : Titled (w.login q guildExists) := by
  unfold GuildWorld.login
  cases hq : w.players q with
  | some _ => exact h
  | none =>
    refine h.of_players rfl (fun _ _ => rfl) fun p pl' _ hpl' => ?_
    rw [setPlayer_players] at hpl'
    split_ifs at hpl' with hp
    · refine .inr fun r hr hid => ?_
      rw [← Option.some.inj hpl', ← hp, hr]
      simp [Option.filter, hid]
    · exact .inl ⟨pl', hpl', rfl, rfl⟩

/-- A player whose guild and rank stay. -/
theorem Titled.setPlayer (h : Titled w) {pl pl' : GuildPlayer} (hq : w.players q = some pl)
    (hid : pl'.guildId = pl.guildId) (hrank : pl'.rank = pl.rank) : Titled (w.setPlayer q pl') := by
  refine h.of_players rfl (fun _ _ => rfl) fun p pl₂ _ hpl₂ => .inl ?_
  rw [setPlayer_players] at hpl₂
  split_ifs at hpl₂ with hp
  · rw [← Option.some.inj hpl₂, hp]
    exact ⟨pl, hq, hid, hrank⟩
  · exact ⟨pl₂, hpl₂, rfl, rfl⟩

/-- A player with a slot here is in no other guild, so nothing of his changes. -/
theorem Titled.elsewhere (h : Titled w) (guildid rank : Nat) :
    Titled (w.elsewhere q guildid rank) := by
  have hstay : ∀ p, (w.guild.getMemberSlot p).isSome →
      (w.elsewhere q guildid rank).row p = w.row p ∧
      (w.elsewhere q guildid rank).players p = w.players p := by
    intro p hp
    by_cases hpq : p = q
    · rw [GuildWorld.elsewhere, if_pos (by simp [← hpq, hp])]
      exact ⟨rfl, rfl⟩
    · exact ⟨elsewhere_row w _ _ hpq, elsewhere_players w _ _ hpq⟩
  refine h.of_players (elsewhere_guild w _ _) (fun p hp => (hstay p hp).1) fun p pl hp hpl => .inl ?_
  rw [(hstay p hp).2] at hpl
  exact ⟨pl, hpl, rfl, rfl⟩

/-- One step of those that give nobody a rank behind his back. -/
theorem Titled.step (h : Titled w) {i : GuildInput} (hi : w.Seen i)
    (hd : (w.step i).disbanded = false) : Titled (w.step i) := by
  obtain ⟨hv, ha⟩ := hi
  have hnotMaster : ∀ s : GuildMember, w.guild.getMemberSlot s.guid = some s → 0 < s.rankId →
      s.guid ≠ w.guild.leaderGuid := by
    intro s hs hrank he
    have : s.rankId = 0 := (h.master s.guid s hs).mpr he
    omega
  have hstep := w.step_outcome i
  generalize w.step i = w' at hstep hd ⊢
  cases hstep with
  | same => exact h
  | player hq hid hrank => exact h.setPlayer hq hid hrank
  | login guid guildExists => exact h.login guildExists
  | logout guid =>
    refine h.of_players rfl (fun _ _ => rfl) fun p pl _ hpl => .inl ?_
    dsimp only at hpl
    split_ifs at hpl
    exact ⟨pl, hpl, rfl, rfl⟩
  | elsewhere guid guildid rank => exact h.elsewhere guildid rank
  | @accept guid _ hacc =>
    exact h.addMember (getLowestRank_ne h) fun _ => ha guid (by simp [added, hacc])
  -- the checks of the packets keep the leader's own rank out of reach
  | @promote _ _ s hs =>
    obtain ⟨pl, -, -, hslot, -, hrank⟩ := w.canPromote_some hs
    have hn : s.rankId - 1 ≠ 0 := by omega
    exact h.changeRank (hnotMaster s hslot (by omega)) hn (hv s.guid (by simp [ranked, hs]))
  | @demote _ _ s hs =>
    obtain ⟨pl, -, -, hslot, -, hrank, -⟩ := w.canDemote_some hs
    exact h.changeRank (hnotMaster s hslot (by omega)) (Nat.succ_ne_zero _)
      (hv s.guid (by simp [ranked, hs]))
  | @remove _ _ _ s hs =>
    obtain ⟨pl, -, -, hslot, hrank⟩ := w.canRemove_some hs
    exact h.delMember (fun he => absurd he (hnotMaster s hslot (by omega))) hd
  | leave _ hne => exact h.delMember (fun he => absurd he hne) hd
  -- the last member disbands the guild
  | leaveLast => exact absurd hd Bool.noConfusion
  | @leader guid target hm _ hnew hne =>
    refine h.setNewLeader hnew hne fun p hp => ?_
    obtain rfl | hp := mem_cons.mp hp
    · obtain ⟨s, hs⟩ := Option.isSome_iff_exists.mp hnew
      exact hv p (by simp [ranked, hm, hs, Guild.slot_guid hs])
    · obtain ⟨hguid, pl, hpl, hw, -⟩ := w.isMaster_true hm
      rw [mem_singleton.mp hp, ← hguid, hpl]
      rintro pl' ⟨⟩
      exact hw
  | addMember guid known =>
    exact h.addMember (getLowestRank_ne h) fun hr => ha guid (by simp [added, hr])
  | delMember guid next =>
    refine h.delMember (fun he best hbest => hv best.guid ?_) hd
    have hbest : w.guild.suitableNewLeader next = some best := hbest
    simp [ranked, he, hbest]
  | setNewLeader _ hnew hne =>
    exact h.setNewLeader hnew hne fun p hp => hv p (by simpa [ranked, hnew, hne] using hp)
  | hardcoreDeath hbest =>
    obtain ⟨hmem, hne⟩ := oldestOfficer_some hbest
    obtain ⟨old, hold⟩ := Option.isSome_iff_exists.mp h.seat
    rw [hold]
    exact h.setNewLeader hmem hne fun p hp => hv p (by simpa [ranked, hbest] using hp)
  | addRank =>
    refine h.of_members rfl rfl rfl ?_ rfl rfl
    have := h.ranks
    simp only [length_append, length_singleton]
    omega
  -- the ranks of the members stay, even those that no longer exist
  | delRank _ hlen =>
    refine h.of_members rfl rfl rfl ?_ rfl rfl
    simp only [length_dropLast]
    exact Nat.le_sub_one_of_lt hlen
  | rank => exact h.of_members rfl rfl rfl (by simpa using h.ranks) rfl rfl
  | publicNote => exact h.note (fun _ => ⟨rfl, rfl⟩) fun _ => ⟨rfl, rfl, rfl⟩
  | officerNote => exact h.note (fun _ => ⟨rfl, rfl⟩) fun _ => ⟨rfl, rfl, rfl⟩
  | motd => exact h.of_members rfl rfl rfl h.ranks rfl rfl
  | infoText => exact h.of_members rfl rfl rfl h.ranks rfl rfl

/-! ## The start -/

/-- Several members get one rank. -/
theorem foldl_changeRank_slot (guids : List Nat) :
    (guids.foldl (fun w guid => w.changeRank guid n) w).guild.getMemberSlot p
      = if p ∈ guids then (w.guild.getMemberSlot p).map ({ · with rankId := n })
        else w.guild.getMemberSlot p := by
  induction guids generalizing w with
  | nil => rfl
  | cons guid guids ih =>
    rw [foldl_cons, ih, changeRank_slot]
    by_cases hp : p = guid
    · by_cases hm : p ∈ guids
      · rw [if_pos hm, if_pos hp, if_pos (mem_cons_of_mem _ hm), Option.map_map]
        rfl
      · rw [if_neg hm, if_pos hp, if_pos (mem_cons.mpr (.inl hp))]
    · rw [if_neg hp]
      by_cases hm : p ∈ guids
      · rw [if_pos hm, if_pos (mem_cons_of_mem _ hm)]
      · rw [if_neg hm, if_neg (by rw [mem_cons]; exact not_or.mpr ⟨hp, hm⟩)]

theorem foldl_changeRank_leaderGuid (guids : List Nat) :
    (guids.foldl (fun w guid => w.changeRank guid n) w).guild.leaderGuid = w.guild.leaderGuid := by
  induction guids generalizing w with
  | nil => rfl
  | cons guid guids ih => rw [foldl_cons, ih, changeRank_guild, Guild.mapMember_leaderGuid]

/-- Nobody is online. -/
def Offline (w : GuildWorld) : Prop := ∀ p, w.players p = none

theorem Offline.changeRank (h : Offline w) : Offline (w.changeRank q n) := by
  intro p
  rw [changeRank_players, h p]
  split_ifs <;> rfl

theorem Offline.setLeader (h : Offline w) : Offline (w.setLeader q) := by
  intro p
  rw [setLeader_players, h p]
  split_ifs <;> rfl

theorem Offline.succeed (h : Offline w) (best : Nat) (old : Option Nat) :
    Offline (w.succeed best old) := by
  intro p
  rw [GuildWorld.succeed, eraseMember_players]
  have hnone : (w.setNewLeader best old).players p = none := by
    cases old with
    | none => exact h.setLeader p
    | some o => exact h.setLeader.changeRank p
  rw [hnone]
  split_ifs <;> rfl

/-- Loading puts nobody online. -/
theorem Offline.loadMembers (h : Offline w) (sound : Nat → Bool) : Offline (w.loadMembers sound) := by
  intro p
  unfold GuildWorld.loadMembers
  dsimp only
  split_ifs
  · show (w.players p).map _ = none
    rw [h p]
    rfl
  · exact h p

theorem Enrolled.foldl_changeRank (h : Enrolled w) (ho : Offline w) (guids : List Nat) :
    Enrolled (guids.foldl (fun w guid => w.changeRank guid n) w) := by
  induction guids generalizing w with
  | nil => exact h
  | cons guid guids ih =>
    refine ih (h.changeRank fun pl hpl => ?_) ho.changeRank
    rw [ho guid] at hpl
    exact absurd hpl (by simp)

/-- The members with the rank of the guild master who are not the leader become officers. -/
theorem Enrolled.demoteOthers (h : Enrolled w) (ho : Offline w)
    (hl : ∃ s, w.guild.getMemberSlot w.guild.leaderGuid = some s ∧ s.rankId = grGuildMaster) :
    Titled (((w.guild.members.filter fun s =>
      s.rankId == grGuildMaster && s.guid != w.guild.leaderGuid).map (·.guid)).foldl
        (fun w guid => w.changeRank guid grOfficer) w) where
  toEnrolled := h.foldl_changeRank ho _
  master p s hs := by
    rw [foldl_changeRank_slot] at hs
    rw [foldl_changeRank_leaderGuid]
    split_ifs at hs with hp
    · obtain ⟨t, ht, rfl⟩ := Option.map_eq_some_iff.mp hs
      obtain ⟨u, hu, rfl⟩ := mem_map.mp hp
      have hu := (mem_filter.mp hu).2
      refine iff_of_false (show grOfficer ≠ grGuildMaster by decide) fun he => ?_
      simp [he] at hu
    · -- the rank of the guild master is left to the leader only
      have hmem := (Guild.slot_iff h.keyed).mp hs
      constructor
      · intro hrank
        by_contra hne
        refine hp (mem_map.mpr ⟨s, mem_filter.mpr ⟨hmem.1, ?_⟩, hmem.2⟩)
        simp [hrank, hmem.2, hne]
      · rintro rfl
        obtain ⟨t, ht, hrank⟩ := hl
        rw [Option.some.inj (hs.symm.trans ht)]
        exact hrank
  seat := by
    obtain ⟨s, hs, -⟩ := hl
    rw [foldl_changeRank_leaderGuid, foldl_changeRank_slot, hs]
    split_ifs <;> rfl

/-- Whatever the tables say, the loaded guild has one leader. -/
theorem Enrolled.checkGuildStructure (h : Enrolled w) (ho : Offline w) {next : Nat}
    (hd : (w.checkGuildStructure next).disbanded = false) :
    Titled (w.checkGuildStructure next) := by
  have hnone : ∀ p pl, w.players p = some pl → pl.inWorld = true := by
    intro p pl hpl
    rw [ho p] at hpl
    exact absurd hpl (by simp)
  unfold GuildWorld.checkGuildStructure at hd ⊢
  cases hs : w.guild.getMemberSlot w.guild.leaderGuid with
  | none =>
    -- The leader is no member: the best member succeeds him.
    rw [hs] at hd
    dsimp only at hd ⊢
    split_ifs at hd ⊢ with hgone
    · exact absurd hd (by rw [hgone]; exact Bool.noConfusion)
    obtain ⟨hl, -⟩ | ⟨-, best, hbest, he⟩ := delMember_eq (Bool.eq_false_iff.mpr hgone)
    · exact absurd rfl hl
    obtain ⟨hmem, hne, -⟩ := suitableNewLeader_some hbest
    obtain ⟨t, ht⟩ := Option.isSome_iff_exists.mp (Guild.slot_isSome hmem)
    have hold : ∀ p ∈ (w.guild.getMemberSlot w.guild.leaderGuid).map (·.guid),
        p = w.guild.leaderGuid := by
      rw [hs]
      rintro p hp
      exact absurd hp (by simp)
    rw [he]
    refine (h.succeed hold (hnone best.guid)).demoteOthers (ho.succeed _ _) ?_
    refine ⟨{ t with rankId := grGuildMaster }, ?_, rfl⟩
    rw [succeed_leaderGuid hold, succeed_slot hold, if_neg hne, if_pos rfl, ht]
    rfl
  | some s =>
    rw [hs] at hd
    dsimp only at hd ⊢
    have hguid : s.guid = w.guild.leaderGuid := Guild.slot_guid hs
    -- the leader has his rank already, or is given it
    by_cases hrank : s.rankId = grGuildMaster
    · rw [if_neg (not_not.mpr hrank)] at hd ⊢
      split_ifs at hd ⊢ with hgone
      · exact absurd hd (by rw [hgone]; exact Bool.noConfusion)
      exact h.demoteOthers ho ⟨s, hs, hrank⟩
    · rw [if_pos hrank] at hd ⊢
      split_ifs at hd ⊢ with hgone
      · exact absurd hd (by rw [hgone]; exact Bool.noConfusion)
      refine (h.setLeader (hnone s.guid)).demoteOthers ho.setLeader ?_
      refine ⟨{ s with rankId := grGuildMaster }, ?_, rfl⟩
      rw [show (w.setLeader s.guid).guild.leaderGuid = s.guid by simp, setLeader_slot, if_pos rfl,
        show w.guild.getMemberSlot s.guid = some s from hguid ▸ hs]
      rfl

/-- Too few rows are replaced by the default ranks. -/
theorem loadRanks_eq (h : w.guild.ranks = []) (text : Nat → String) :
    ∃ ranks rows, w.loadRanks text = { w with guild.ranks := ranks, tables.guildRank := rows } ∧
      ranks.length = max guildRanksMinCount w.tables.guildRank.length := by
  unfold loadRanks
  dsimp only
  rw [length_modify, length_map]
  split_ifs with hfew
  · refine ⟨_, _, createDefaultGuildRanks_eq w h text, ?_⟩
    rw [Nat.max_eq_left hfew.le]
    rfl
  all_goals
    refine ⟨_, _, rfl, ?_⟩
    rw [length_modify, length_map, Nat.max_eq_right (Nat.not_lt.mp hfew)]

/-- The members of a guild that is loaded have the ranks of their rows, if these exist. -/
theorem Enrolled.loadMembers (hr : guildRanksMinCount ≤ w.guild.ranks.length) (ho : Offline w)
    (hk : Keyed (·.guid) w.tables.guildMember) {sound : Nat → Bool}
    (hrank : ∀ r ∈ w.tables.guildMember, r.guildid = w.guild.id → sound r.guid = true →
      r.rank < w.guild.ranks.length)
    (hd : (w.loadMembers sound).disbanded = false) : Enrolled (w.loadMembers sound) := by
  unfold GuildWorld.loadMembers at hd ⊢
  dsimp only at hd ⊢
  split_ifs at hd ⊢
  · exact absurd hd Bool.noConfusion
  have hmem : Keyed (·.guid) ((w.tables.guildMember.filter fun r =>
      r.guildid == w.guild.id && sound r.guid).map (slotOf w.guild)) :=
    (hk.filter _).map fun _ _ => rfl
  refine ⟨hmem, hr, fun p s hs => ⟨fun pl hpl => ?_, ?_⟩⟩
  · exact absurd (hpl.symm.trans (ho p)) (by simp)
  · have hs := (@Guild.slot_iff { w.guild with members := _ } p hmem s).mp hs
    obtain ⟨r, hr, rfl⟩ := mem_map.mp hs.1
    obtain ⟨hr, hmine⟩ := mem_filter.mp hr
    rw [Bool.and_eq_true, beq_iff_eq] at hmine
    refine ⟨r, ?_, hmine.1, ?_⟩
    · refine (hk.filter _).find?_eq_some_iff.mpr ⟨mem_filter.mpr ⟨hr, ?_⟩, hs.2⟩
      rw [hmine.2, Bool.or_true]
    · have := hrank r hr hmine.1 hmine.2
      exact (if_neg (Nat.not_le.mpr this)).symm

/-- The first member is the leader. -/
theorem Titled.found (hm : w.guild.members = []) (hr : guildRanksMinCount ≤ w.guild.ranks.length)
    (hno : w.refuses w.guild.leaderGuid true = false) (hrow : w.row w.guild.leaderGuid = none) :
    Titled (w.addMember w.guild.leaderGuid grGuildMaster true) := by
  have hnone : ∀ p, w.guild.getMemberSlot p = none := by
    intro p
    unfold Guild.getMemberSlot
    rw [hm]
    rfl
  have hslot : ∀ p s, (w.addMember w.guild.leaderGuid grGuildMaster true).guild.getMemberSlot p
      = some s → p = w.guild.leaderGuid ∧ s.rankId = grGuildMaster := by
    intro p s hs
    rw [addMember_slot hno, hnone p] at hs
    split_ifs at hs with hp
    rw [← Option.some.inj hs]
    exact ⟨hp, rfl⟩
  exact
    { keyed := by
        rw [addMember_guild hno]
        refine Guild.putMember_keyed ?_
        rw [hm]
        exact Keyed.nil
      ranks := by
        rw [addMember_guild hno, Guild.putMember_ranks]
        exact hr
      recorded := fun p => by
        refine RecordedAt.addMember (fun s hs => ?_) fun _ => hrow
        rw [hnone p] at hs
        exact absurd hs (by simp)
      master := fun p s hs => by
        obtain ⟨hp, hrank⟩ := hslot p s hs
        rw [addMember_guild hno, Guild.putMember_leaderGuid]
        exact iff_of_true hrank hp
      seat := by
        rw [addMember_guild hno, Guild.putMember_leaderGuid, ← addMember_guild hno,
          addMember_slot hno, if_pos rfl]
        rfl }

end GuildWorld

/-! ## The start -/

/-- Where a guild comes from: it is loaded from its tables, or a player founds it. -/
inductive GuildStart where
  | loaded (id : Nat) (t : GuildTables) (text : Nat → String) (sound : Nat → Bool) (next : Nat)
  | created (id leader : Nat) (text : Nat → String) (rows : List GuildMemberRow)
      (players : Nat → Option GuildPlayer)

namespace GuildStart

def world : GuildStart → GuildWorld
  | loaded id t text sound next => .load id t text sound next
  | created id leader text rows players => .create id leader text rows players

/-- `guid` is unique in `guild_member`; who founds a guild is online and in no guild. -/
def Proper : GuildStart → Prop
  | loaded _ t _ _ _ => Keyed (·.guid) t.guildMember
  | created _ leader _ _ players => ∃ pl ∈ players leader, pl.guildId = 0

/-- The ranks that the rows of the guild name exist; who founds a guild has no row. -/
def Seen : GuildStart → Prop
  | loaded id t _ sound _ => ∀ r ∈ t.guildMember, r.guildid = id → sound r.guid = true →
      r.rank < max guildRanksMinCount t.guildRank.length
  | created id leader _ rows _ => ∀ r ∈ rows, r.guid = leader → r.guildid = id

/-- A guild that starts properly has one leader. -/
theorem titled {s : GuildStart} (hp : s.Proper) (hs : s.Seen) (hd : s.world.disbanded = false) :
    s.world.Titled := by
  cases s with
  | loaded id t text sound next =>
    have hd : (GuildWorld.load id t text sound next).disbanded = false := hd
    show (GuildWorld.load id t text sound next).Titled
    unfold GuildWorld.load GuildWorld.loadTables at hd ⊢
    dsimp only at hd ⊢
    obtain ⟨ranks, rows, he, hlen⟩ := GuildWorld.loadRanks_eq (w :=
      { guild := { id, leaderGuid := t.guild.leaderguid, motd := t.guild.motd, info := t.guild.info }
        tables := t }) rfl text
    rw [he] at hd ⊢
    split_ifs at hd ⊢ with hgone
    · exact absurd hd (by rw [hgone]; exact Bool.noConfusion)
    have hr : guildRanksMinCount ≤ ranks.length := hlen ▸ Nat.le_max_left _ _
    have ho : ∀ ranks rows, GuildWorld.Offline
        { guild := { id, leaderGuid := t.guild.leaderguid, ranks, motd := t.guild.motd,
                     info := t.guild.info }
          tables := { t with guildRank := rows } } := fun _ _ _ => rfl
    refine (GuildWorld.Enrolled.loadMembers hr (ho ranks rows) hp (fun r hm hid hsound => ?_)
      (Bool.eq_false_iff.mpr hgone)).checkGuildStructure ((ho ranks rows).loadMembers sound) hd
    show r.rank < ranks.length
    rw [hlen]
    exact hs r hm hid hsound
  | created id leader text rows players =>
    obtain ⟨pl, hpl, hid⟩ := hp
    show (GuildWorld.create id leader text rows players).Titled
    unfold GuildWorld.create
    dsimp only
    rw [GuildWorld.createDefaultGuildRanks_eq _ rfl]
    refine GuildWorld.Titled.found (w :=
      { guild := { id, leaderGuid := leader, motd := "No message set.",
                   ranks := GuildWorld.defaultRanks text }
        tables := { guild := { leaderguid := leader, info := "", motd := "No message set." }
                    guildMember := rows.filter (·.guildid != id)
                    guildRank := GuildWorld.rankRows (GuildWorld.defaultRanks text) }
        players }) rfl (by show 5 ≤ 5; omega) ?_ ?_
    · have hpl : players leader = some pl := hpl
      simp [GuildWorld.refuses, hpl, hid]
    · show (rows.filter (·.guildid != id)).find? (·.guid == leader) = none
      rw [find?_eq_none]
      intro r hr
      obtain ⟨hr, hne⟩ := mem_filter.mp hr
      have := hs r hr
      grind

end GuildStart

/-- Start and run that give nobody a rank behind his back leave one guild master, whom the guild
calls its leader, and every member online with the rank of his slot. -/
theorem oneMaster_of_run {s : GuildStart} {is : List GuildInput} (hp : s.Proper) (hs : s.Seen)
    (his : AlongRun GuildWorld.step GuildWorld.Seen s.world is)
    (hd : (run GuildWorld.step s.world is).disbanded = false) :
    (run GuildWorld.step s.world is).guild.OneMaster ∧
      (run GuildWorld.step s.world is).FieldsAgree := by
  have hrun : (run GuildWorld.step s.world is).disbanded = false →
      (run GuildWorld.step s.world is).Titled := by
    refine run_keeps (I := fun w => w.disbanded = false → w.Titled)
      (fun w i h hi hd => ?_) (s.titled hp hs) his
    refine (h ?_).step hi hd
    by_contra hgone
    have : w.step i = w := if_pos (by simpa using hgone)
    rw [this] at hd
    exact hgone hd
  exact ⟨(hrun hd).oneMaster, (hrun hd).fieldsAgree⟩

/-- A guild with a leader and one initiate. -/
def guildTables : GuildTables where
  guild := { leaderguid := 1, info := "", motd := "" }
  guildMember := [⟨7, 1, 0, "", ""⟩, ⟨7, 2, 4, "", ""⟩]
  guildRank := [⟨0, "Guild Master", rightAll⟩, ⟨1, "Officer", rightAll⟩, ⟨2, "Veteran", 0x43⟩,
    ⟨3, "Member", 0x43⟩, ⟨4, "Initiate", 0x43⟩]

def guildStart : GuildStart := .loaded 7 guildTables (fun _ => "") (fun _ => true) 0

theorem guildStart_proper : guildStart.Proper := by
  show (guildTables.guildMember.map (·.guid)).Nodup
  decide

/-- The leader promotes the initiate, hands over to him and is removed. -/
theorem oneMaster_handedOver :
    (run GuildWorld.step guildStart.world
      [.login 1 true, .login 2 true, .promote 1 2, .leader 1 2, .remove 2 1 0]).guild.OneMaster ∧
    (run GuildWorld.step guildStart.world
      [.login 1 true, .login 2 true, .promote 1 2, .leader 1 2, .remove 2 1 0]).FieldsAgree :=
  oneMaster_of_run guildStart_proper
    (show ∀ r ∈ guildTables.guildMember, r.guildid = 7 → true = true → r.rank < 5 by decide)
    (by decide +kernel) (by decide +kernel)

/-- The initiate is promoted while he goes from one map to another. -/
theorem promotedBetweenMaps_not_fieldsAgree :
    ¬ ∀ (s : GuildStart) (is : List GuildInput), s.Proper →
      (run GuildWorld.step s.world is).disbanded = false →
      (run GuildWorld.step s.world is).guild.OneMaster ∧
        (run GuildWorld.step s.world is).FieldsAgree := by
  intro h
  have := h guildStart [.login 1 true, .login 2 true, .setInWorld 2 false, .promote 1 2]
    guildStart_proper (by decide +kernel)
  exact absurd this.2 (by decide +kernel)

end Windrunner
