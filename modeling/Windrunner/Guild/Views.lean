import Mathlib.Data.Finset.Max
import Windrunner.Lib.Keyed
import Windrunner.Guild.Load

/-!
# A guild as one character sees it

What concerns the character `p` is his slot, his fields as a player and his row. `changeRank`,
`setNewLeader`, `addMember`, `eraseMember` change these of few characters, and the guild besides
in few fields: every invariant of guilds is derived from the lemmas of this module.
-/

namespace Windrunner

open Lib Option

namespace Guild

variable (g : Guild) {p q : Nat}

theorem mapMember_slot {f : GuildMember → GuildMember} (hf : ∀ s, (f s).guid = s.guid) :
    (g.mapMember q f).getMemberSlot p
      = if p = q then (g.getMemberSlot p).map f else g.getMemberSlot p :=
  find?_map_at fun s hs => (hf s).trans hs

variable {g}

theorem slot_guid {s : GuildMember} (h : g.getMemberSlot p = some s) : s.guid = p := by
  have := List.find?_some h
  simpa using this

theorem putMember_slot (s : GuildMember) :
    (g.putMember s).getMemberSlot p = if p = s.guid then some s else g.getMemberSlot p := by
  unfold putMember
  split_ifs with hs hp hp
  · obtain ⟨t, ht⟩ := isSome_iff_exists.mp hs
    have := @find?_map_at _ _ (·.guid) g.members _ p s.guid (fun _ => s) fun _ _ => rfl
    rw [hp] at this ⊢
    exact this.trans (by rw [if_pos rfl]; exact congrArg (Option.map _) ht)
  · have := @find?_map_at _ _ (·.guid) g.members _ p s.guid (fun _ => s) fun _ _ => rfl
    exact this.trans (if_neg hp)
  · have hnone : g.getMemberSlot p = none := by
      rw [hp]
      simpa using hs
    have := @find?_concat _ _ (·.guid) g.members s _ p
    refine this.trans ?_
    rw [if_pos hp, show g.members.find? (·.guid == p) = none from hnone]
    rfl
  · have := @find?_concat _ _ (·.guid) g.members s _ p
    refine this.trans ?_
    rw [if_neg hp, or_none]
    rfl

/-! ## The keys and the rest -/

theorem mapMember_keyed {f : GuildMember → GuildMember} (hf : ∀ s, (f s).guid = s.guid)
    (h : Keyed (·.guid) g.members) : Keyed (·.guid) (g.mapMember q f).members := by
  refine h.map fun s _ => ?_
  split_ifs
  · exact hf s
  · rfl

theorem putMember_keyed {s : GuildMember} (h : Keyed (·.guid) g.members) :
    Keyed (·.guid) (g.putMember s).members := by
  unfold putMember
  split_ifs with hs
  · refine h.map fun t _ => ?_
    split_ifs with ht
    · exact ht.symm
    · rfl
  · refine h.concat fun t ht he => hs ?_
    exact List.find?_isSome.mpr ⟨t, ht, by simpa using he⟩

theorem slot_isSome {s : GuildMember} (hs : s ∈ g.members) : (g.getMemberSlot s.guid).isSome :=
  List.find?_isSome.mpr ⟨s, hs, by simp⟩

theorem slot_iff (h : Keyed (·.guid) g.members) {s : GuildMember} :
    g.getMemberSlot p = some s ↔ s ∈ g.members ∧ s.guid = p := h.find?_eq_some_iff

@[simp] theorem mapMember_ranks (f : GuildMember → GuildMember) :
    (g.mapMember q f).ranks = g.ranks := rfl

@[simp] theorem mapMember_leaderGuid (f : GuildMember → GuildMember) :
    (g.mapMember q f).leaderGuid = g.leaderGuid := rfl

@[simp] theorem putMember_ranks (s : GuildMember) : (g.putMember s).ranks = g.ranks := by
  unfold putMember
  split_ifs <;> rfl

@[simp] theorem putMember_leaderGuid (s : GuildMember) :
    (g.putMember s).leaderGuid = g.leaderGuid := by
  unfold putMember
  split_ifs <;> rfl

@[simp] theorem putMember_id (s : GuildMember) : (g.putMember s).id = g.id := by
  unfold putMember
  split_ifs <;> rfl

end Guild

namespace GuildWorld

variable (w : GuildWorld) {p q n : Nat}

/-! ## Players and rows -/

variable (f : GuildPlayer → GuildPlayer) (pl : GuildPlayer)

@[simp] theorem setPlayer_players :
    (w.setPlayer q pl).players p = if p = q then some pl else w.players p := rfl

@[simp] theorem setPlayer_guild : (w.setPlayer q pl).guild = w.guild := rfl

@[simp] theorem setPlayer_tables : (w.setPlayer q pl).tables = w.tables := rfl

@[simp] theorem setPlayer_row : (w.setPlayer q pl).row p = w.row p := rfl

/-- `mapPlayer` writes a player in the world, and no other one. -/
theorem mapPlayer_players :
    (w.mapPlayer q f).players p
      = if p = q then (w.players p).map fun pl => if pl.inWorld then f pl else pl
        else w.players p := by
  unfold mapPlayer getPlayer
  cases h : w.players q with
  | none =>
    by_cases hp : p = q
    · simp [hp, h]
    · simp [hp]
  | some pl =>
    by_cases hp : p = q <;> by_cases hw : pl.inWorld <;> simp [Option.filter, hp, hw, h]

@[simp] theorem mapPlayer_guild :
    (w.mapPlayer q f).guild = w.guild := by
  unfold mapPlayer
  cases w.getPlayer q <;> rfl

@[simp] theorem mapPlayer_tables :
    (w.mapPlayer q f).tables = w.tables := by
  unfold mapPlayer
  cases w.getPlayer q <;> rfl

@[simp] theorem mapPlayer_disbanded :
    (w.mapPlayer q f).disbanded = w.disbanded := by
  unfold mapPlayer
  cases w.getPlayer q <;> rfl

theorem updateRow_row {f : GuildMemberRow → GuildMemberRow} (hf : ∀ r, (f r).guid = r.guid) :
    (w.updateRow q f).row p = if p = q then (w.row p).map f else w.row p :=
  find?_map_at fun r hr => (hf r).trans hr

@[simp] theorem updateRow_guild (f : GuildMemberRow → GuildMemberRow) :
    (w.updateRow q f).guild = w.guild := rfl

/-! ## Ranks -/

@[simp] theorem changeRank_guild :
    (w.changeRank q n).guild = w.guild.mapMember q ({ · with rankId := n }) := by
  simp [changeRank]

theorem changeRank_slot :
    (w.changeRank q n).guild.getMemberSlot p
      = if p = q then (w.guild.getMemberSlot p).map ({ · with rankId := n })
        else w.guild.getMemberSlot p := by
  rw [changeRank_guild]
  exact w.guild.mapMember_slot fun _ => rfl

/-- Only a player in the world hears of his new rank. -/
theorem changeRank_players :
    (w.changeRank q n).players p
      = if p = q then (w.players p).map fun pl => if pl.inWorld then { pl with rank := n } else pl
        else w.players p := by
  unfold changeRank
  exact mapPlayer_players _ _

theorem changeRank_tables :
    (w.changeRank q n).tables = { w.tables with
      guildMember := w.tables.guildMember.map fun r =>
        if r.guid = q then { r with rank := n } else r } := by
  simp [changeRank, updateRow]

theorem changeRank_row :
    (w.changeRank q n).row p
      = if p = q then (w.row p).map ({ · with rank := n }) else w.row p := by
  have hrow : (w.changeRank q n).row p
      = (w.tables.guildMember.map fun r => if r.guid = q then { r with rank := n } else r).find?
          (·.guid == p) := by
    unfold row
    rw [changeRank_tables]
  rw [hrow]
  exact find?_map_at fun r hr => hr

@[simp] theorem changeRank_disbanded : (w.changeRank q n).disbanded = w.disbanded := by
  simp [changeRank, updateRow]

/-! ## The leader -/

@[simp] theorem setLeader_guild :
    (w.setLeader q).guild
      = { w.guild.mapMember q ({ · with rankId := grGuildMaster }) with leaderGuid := q } := by
  simp [setLeader, Guild.mapMember]

theorem setLeader_slot :
    (w.setLeader q).guild.getMemberSlot p
      = if p = q then (w.guild.getMemberSlot p).map ({ · with rankId := grGuildMaster })
        else w.guild.getMemberSlot p := by
  rw [setLeader_guild]
  exact w.guild.mapMember_slot fun _ => rfl

theorem setLeader_players :
    (w.setLeader q).players p
      = if p = q then
          (w.players p).map fun pl => if pl.inWorld then { pl with rank := grGuildMaster } else pl
        else w.players p := by
  exact changeRank_players _

theorem setLeader_row :
    (w.setLeader q).row p
      = if p = q then (w.row p).map ({ · with rank := grGuildMaster }) else w.row p := by
  exact changeRank_row _

/-! ## Members -/

theorem insertRow_row (r : GuildMemberRow) :
    (w.insertRow r).row p = (w.row p).or (if p = r.guid then some r else none) := by
  unfold insertRow
  split_ifs with h hp hp
  · obtain ⟨t, ht⟩ := isSome_iff_exists.mp h
    rw [hp, ht]
    rfl
  · rw [or_none]
  · have := @find?_concat _ _ (·.guid) w.tables.guildMember r _ p
    rw [if_pos hp] at this
    exact this
  · have := @find?_concat _ _ (·.guid) w.tables.guildMember r _ p
    rw [if_neg hp] at this
    exact this

@[simp] theorem insertRow_guild (r : GuildMemberRow) : (w.insertRow r).guild = w.guild := by
  unfold insertRow
  split_ifs <;> rfl

@[simp] theorem insertRow_players (r : GuildMemberRow) : (w.insertRow r).players = w.players := by
  unfold insertRow
  split_ifs <;> rfl

section AddMember

variable {w} {known : Bool} (h : w.refuses q known = false)
include h

theorem addMember_guild :
    (w.addMember q n known).guild = w.guild.putMember { guid := q, rankId := n } := by
  unfold addMember
  rw [h]
  dsimp only
  cases (({ w with guild := _ } : GuildWorld).insertRow _).players q <;> simp

theorem addMember_slot :
    (w.addMember q n known).guild.getMemberSlot p
      = if p = q then some { guid := q, rankId := n } else w.guild.getMemberSlot p := by
  rw [addMember_guild h]
  exact Guild.putMember_slot _

theorem addMember_players :
    (w.addMember q n known).players p
      = if p = q then (w.players p).map fun pl =>
          { pl with guildId := w.guild.id, rank := n, guildIdInvited := 0 }
        else w.players p := by
  unfold addMember
  rw [h]
  by_cases hp : p = q
  · subst hp
    cases hpl : w.players p <;> simp [hpl]
  · cases hpl : w.players q <;> simp [hpl, hp]

/-- An older row of the player stays in front of the new one. -/
theorem addMember_row :
    (w.addMember q n known).row p
      = (w.row p).or (if p = q then some { guildid := w.guild.id, guid := q, rank := n } else none)
    := by
  unfold addMember
  rw [h]
  have hrow : (({ w with guild := w.guild.putMember { guid := q, rankId := n } } :
      GuildWorld).insertRow { guildid := w.guild.id, guid := q, rank := n }).row p
        = (w.row p).or (if p = q then some { guildid := w.guild.id, guid := q, rank := n } else none) :=
    insertRow_row _ _
  cases hpl : w.players q with
  | none => simpa [hpl] using hrow
  | some pl => simpa [hpl] using hrow

end AddMember

theorem addMember_refused {known : Bool} (h : w.refuses q known = true) :
    w.addMember q n known = w := by
  unfold addMember
  rw [if_pos h]

theorem eraseMember_slot :
    (w.eraseMember q).guild.getMemberSlot p
      = if p = q then none else w.guild.getMemberSlot p := by
  simp only [eraseMember, mapPlayer_guild]
  exact find?_remove

@[simp] theorem eraseMember_guild :
    (w.eraseMember q).guild
      = { w.guild with members := w.guild.members.filter (·.guid != q) } := by
  simp [eraseMember]

theorem eraseMember_players :
    (w.eraseMember q).players p
      = if p = q then
          (w.players p).map fun pl => if pl.inWorld then { pl with guildId := 0, rank := 0 } else pl
        else w.players p := by
  exact mapPlayer_players _ _

theorem eraseMember_row :
    (w.eraseMember q).row p = if p = q then none else w.row p := by
  unfold eraseMember row
  simp only [mapPlayer_tables]
  exact find?_remove

/-! ## The ranks -/

@[simp] theorem setNewLeader_ranks (old : Option Nat) :
    (w.setNewLeader q old).guild.ranks = w.guild.ranks := by
  cases old <;> simp [setNewLeader]

@[simp] theorem delMember_ranks (next : Nat) :
    (w.delMember q next).guild.ranks = w.guild.ranks := by
  have hend : ∀ w' : GuildWorld, (if w'.guild.members = [] then w'.disband else w').guild.ranks
      = w'.guild.ranks := by
    intro w'
    split_ifs <;> rfl
  unfold delMember
  split_ifs
  · cases w.guild.suitableNewLeader next with
    | none => rfl
    | some best => exact (hend _).trans (by simp)
  · exact (hend _).trans (by simp)

@[simp] theorem addMember_ranks (known : Bool) :
    (w.addMember q n known).guild.ranks = w.guild.ranks := by
  cases h : w.refuses q known with
  | true => rw [addMember_refused w h]
  | false => rw [addMember_guild h, Guild.putMember_ranks]

/-! ## Other guilds -/

@[simp] theorem elsewhere_guild (guildid rank : Nat) :
    (w.elsewhere q guildid rank).guild = w.guild := by
  unfold elsewhere
  dsimp only
  rw [apply_ite GuildWorld.guild]
  cases w.players q <;> simp

theorem elsewhere_players (guildid rank : Nat) (hp : p ≠ q) :
    (w.elsewhere q guildid rank).players p = w.players p := by
  unfold elsewhere
  dsimp only
  rw [apply_ite (GuildWorld.players · p)]
  cases w.players q <;> simp [hp]

theorem elsewhere_row (guildid rank : Nat) (hp : p ≠ q) :
    (w.elsewhere q guildid rank).row p = w.row p := by
  have hfilter : (w.tables.guildMember.filter (·.guid != q)).find? (·.guid == p) = w.row p :=
    find?_remove.trans (if_neg hp)
  have hrow : (if guildid = 0 then w.tables.guildMember.filter (·.guid != q)
      else w.tables.guildMember.filter (·.guid != q) ++ [{ guildid, guid := q, rank }]).find?
        (·.guid == p) = w.row p := by
    split_ifs
    · exact hfilter
    · exact find?_concat.trans (by rw [if_neg hp, or_none]; exact hfilter)
  unfold elsewhere
  dsimp only
  rw [apply_ite (GuildWorld.row · p)]
  rw [ite_eq_left_iff]
  intro _
  cases w.players q with
  | none => exact hrow
  | some pl => exact hrow

/-- What another guild does to the rows, if it does anything. -/
theorem elsewhere_tables (guildid rank : Nat) :
    (w.elsewhere q guildid rank).tables = w.tables ∨
    guildid ≠ w.guild.id ∧ (∀ r ∈ w.row q, r.guildid ≠ w.guild.id) ∧
      (w.elsewhere q guildid rank).tables = { w.tables with
        guildMember := if guildid = 0 then w.tables.guildMember.filter (·.guid != q)
          else w.tables.guildMember.filter (·.guid != q) ++ [{ guildid, guid := q, rank }] } := by
  unfold elsewhere
  split
  · exact .inl rfl
  · rename_i hno
    simp only [Bool.or_eq_true, not_or, beq_iff_eq, any_eq_true, not_exists, not_and] at hno
    obtain ⟨⟨⟨-, hid⟩, hrow⟩, -⟩ := hno
    refine .inr ⟨hid, hrow, ?_⟩
    dsimp only
    cases w.players q <;> rfl

/-! ## What the packets check -/

/-- What a packet that is let through has checked. -/
theorem allowed_some {guid target : Nat} {right : UInt32} {check : Nat → GuildMember → Bool}
    {s : GuildMember} (h : w.allowed guid target right check = some s) :
    ∃ pl, w.sender guid = some pl ∧ w.guild.hasRankRight pl.rank right = true ∧
      w.guild.getMemberSlot target = some s ∧ check pl.rank s = true := by
  obtain ⟨pl, hpl, h⟩ := bind_eq_some_iff.mp h
  split_ifs at h with hright
  obtain ⟨hs, hcheck⟩ := filter_eq_some_iff.mp h
  exact ⟨pl, hpl, by simpa using hright, hs, hcheck⟩

theorem canPromote_some {guid target : Nat} {s : GuildMember} (h : w.canPromote guid target = some s) :
    ∃ pl, w.sender guid = some pl ∧ w.guild.hasRankRight pl.rank rightPromote = true ∧
      w.guild.getMemberSlot s.guid = some s ∧ s.guid ≠ guid ∧ pl.rank + 1 < s.rankId := by
  obtain ⟨pl, hpl, hright, hs, hcheck⟩ := w.allowed_some h
  rw [Bool.and_eq_true, Bool.not_eq_true', decide_eq_false_iff_not] at hcheck
  exact ⟨pl, hpl, hright, by rw [Guild.slot_guid hs]; exact hs, by simpa using hcheck.1, by omega⟩

theorem canDemote_some {guid target : Nat} {s : GuildMember} (h : w.canDemote guid target = some s) :
    ∃ pl, w.sender guid = some pl ∧ w.guild.hasRankRight pl.rank rightDemote = true ∧
      w.guild.getMemberSlot s.guid = some s ∧ s.guid ≠ guid ∧ pl.rank < s.rankId ∧
      s.rankId < w.guild.getLowestRank := by
  obtain ⟨pl, hpl, hright, hs, hcheck⟩ := w.allowed_some h
  rw [Bool.and_eq_true, Bool.and_eq_true, Bool.not_eq_true', Bool.not_eq_true',
    decide_eq_false_iff_not, decide_eq_false_iff_not] at hcheck
  exact ⟨pl, hpl, hright, by rw [Guild.slot_guid hs]; exact hs, by simpa using hcheck.1.1,
    by omega, by omega⟩

theorem canRemove_some {guid target : Nat} {s : GuildMember} (h : w.canRemove guid target = some s) :
    ∃ pl, w.sender guid = some pl ∧ w.guild.hasRankRight pl.rank rightRemove = true ∧
      w.guild.getMemberSlot s.guid = some s ∧ pl.rank < s.rankId := by
  obtain ⟨pl, hpl, hright, hs, hcheck⟩ := w.allowed_some h
  rw [Bool.and_eq_true, Bool.not_eq_true', decide_eq_false_iff_not] at hcheck
  exact ⟨pl, hpl, hright, by rw [Guild.slot_guid hs]; exact hs, by omega⟩

/-- Who sends a packet is in the world and in this guild. -/
theorem sender_some {guid : Nat} {pl : GuildPlayer} (h : w.sender guid = some pl) :
    w.players guid = some pl ∧ pl.inWorld = true ∧ pl.guildId = w.guild.id := by
  obtain ⟨h, hid⟩ := filter_eq_some_iff.mp h
  obtain ⟨h, hw⟩ := filter_eq_some_iff.mp h
  exact ⟨h, hw, by simpa using hid⟩

theorem isMaster_true {guid : Nat} (h : w.isMaster guid = true) :
    guid = w.guild.leaderGuid ∧
      ∃ pl, w.players guid = some pl ∧ pl.inWorld = true ∧ pl.guildId = w.guild.id := by
  rw [isMaster, Bool.and_eq_true, isSome_iff_exists, beq_iff_eq] at h
  obtain ⟨⟨pl, hpl⟩, hl⟩ := h
  exact ⟨hl, pl, w.sender_some hpl⟩

/-! ## Successors -/

/-- The successor is another member, with the best rank there is. -/
theorem suitableNewLeader_some {g : Guild} {next : Nat} {s : GuildMember}
    (h : g.suitableNewLeader next = some s) :
    s ∈ g.members ∧ s.guid ≠ g.leaderGuid ∧
      ∀ t ∈ g.members, t.guid ≠ g.leaderGuid → s.rankId ≤ t.rankId := by
  have hs : s ∈ (g.members.filter (·.guid != g.leaderGuid)).filter fun s =>
      (g.members.filter (·.guid != g.leaderGuid)).all (s.rankId ≤ ·.rankId) := by
    obtain h | ⟨-, h⟩ := or_eq_some_iff.mp h
    · exact List.mem_of_getElem? h
    · exact List.mem_of_head? h
  obtain ⟨hs, hbest⟩ := List.mem_filter.mp hs
  obtain ⟨hs, hne⟩ := List.mem_filter.mp hs
  refine ⟨hs, by simpa using hne, fun t ht hte => ?_⟩
  have := List.all_eq_true.mp hbest t (List.mem_filter.mpr ⟨ht, by simpa using hte⟩)
  simpa using this

theorem oldestOfficer_some {g : Guild} {oldest : Option Nat} {next : Nat} {s : GuildMember}
    (h : g.oldestOfficer oldest next = some s) :
    (g.getMemberSlot s.guid).isSome ∧ s.guid ≠ g.leaderGuid := by
  unfold Guild.oldestOfficer at h
  split_ifs at h
  obtain h | ⟨-, h⟩ := or_eq_some_iff.mp h
  · obtain ⟨h, hcheck⟩ := filter_eq_some_iff.mp h
    obtain ⟨guid, -, hs⟩ := bind_eq_some_iff.mp h
    rw [Bool.and_eq_true] at hcheck
    refine ⟨?_, by simpa using hcheck.2⟩
    rw [Guild.slot_guid hs, hs]
    rfl
  · obtain ⟨hs, hne, -⟩ := suitableNewLeader_some h
    exact ⟨Guild.slot_isSome hs, hne⟩

/-! ## Default ranks -/

def defaultRanks (text : Nat → String) : List RankInfo :=
  [⟨text 0, rightAll⟩, ⟨text 1, rightAll⟩, ⟨text 2, rightGchatListen ||| rightGchatSpeak⟩,
    ⟨text 3, rightGchatListen ||| rightGchatSpeak⟩, ⟨text 4, rightGchatListen ||| rightGchatSpeak⟩]

/-- The rows of ranks that are numbered from 0. -/
def rankRows (ranks : List RankInfo) : List GuildRankRow :=
  ranks.mapIdx fun rid r => GuildRankRow.mk rid r.name r.rights

theorem createDefaultGuildRanks_eq (h : w.guild.ranks = []) (text : Nat → String) :
    w.createDefaultGuildRanks text = { w with
      guild.ranks := defaultRanks text
      tables.guildRank := rankRows (defaultRanks text) } := by
  rcases w with ⟨⟨id, leaderGuid, members, ranks, motd, info⟩, disbanded, tables, players⟩
  obtain rfl : ranks = [] := h
  rfl

end GuildWorld

end Windrunner
