import Windrunner.Guild.Titled

/-!
# No privilege escalation

The packets of members who are not the guild master: promote, demote and remove compare the rank in
the field of the sender with the slot of the target. `Honest` are the packets in which the field is
right, and those newcomers who are not members yet. Runs of them give nobody a rank above the best
one that a member besides the master had, as long as that rank exists (`Governed`), and touch the
members below the sender only (`Respects`).
-/

namespace Windrunner

open Lib Option

/-- Who sends a packet of a member. -/
def GuildInput.sender : GuildInput → Option Nat
  | .invite guid _ _ => some guid
  | .promote guid _ => some guid
  | .demote guid _ => some guid
  | .remove guid _ _ => some guid
  | .leave guid _ => some guid
  | _ => none

namespace GuildWorld

variable {w : GuildWorld} {p q n best leader : Nat}

/-- Packets of members other than the master, newcomers, and what players do besides. -/
def Common (w : GuildWorld) : GuildInput → Prop
  | .invite guid _ _ => guid ≠ w.guild.leaderGuid
  | .promote guid _ => guid ≠ w.guild.leaderGuid
  | .demote guid _ => guid ≠ w.guild.leaderGuid
  | .remove guid _ _ => guid ≠ w.guild.leaderGuid
  | .leave guid _ => guid ≠ w.guild.leaderGuid
  | .accept _ _ => True
  | .decline _ => True
  | .login _ _ => True
  | .logout _ => True
  | .setInWorld _ _ => True
  | .elsewhere _ _ _ => True
  | _ => False

instance (w : GuildWorld) : DecidablePred w.Common := fun i => by
  unfold Common
  cases i <;> infer_instance

/-- The field of `guid` has the rank of his slot. -/
def FieldRight (w : GuildWorld) (guid : Nat) : Prop :=
  ∃ s ∈ w.guild.getMemberSlot guid, ∀ pl ∈ w.players guid, pl.rank = s.rankId

/-- A packet that is carried out has a sender whose field is right; who accepts is no member. -/
def Honest (w : GuildWorld) : GuildInput → Prop
  | .promote guid target => (w.canPromote guid target).isSome → w.FieldRight guid
  | .demote guid target => (w.canDemote guid target).isSome → w.FieldRight guid
  | .remove guid target _ => (w.canRemove guid target).isSome → w.FieldRight guid
  | .accept guid allowed => w.accepts guid allowed = true → w.guild.getMemberSlot guid = none
  | _ => True

instance (w : GuildWorld) (guid : Nat) : Decidable (w.FieldRight guid) := by
  unfold FieldRight
  infer_instance

instance (w : GuildWorld) : DecidablePred w.Honest := fun i => by
  unfold Honest
  cases i <;> infer_instance

/-- Another member than the sender stays as he is, unless his rank is below that of the sender. -/
def Respects (w : GuildWorld) (i : GuildInput) : Prop :=
  ∀ s ∈ w.guild.members, (w.step i).guild.getMemberSlot s.guid ≠ some s →
    i.sender = some s.guid ∨
      ∃ guid ∈ i.sender, ∃ t ∈ w.guild.getMemberSlot guid, t.rankId < s.rankId

/-- `leader` is master, and the others have ranks from `best` on, which exists. -/
structure Governed (leader best : Nat) (w : GuildWorld) : Prop where
  keyed : Keyed (·.guid) w.guild.members
  led : w.guild.leaderGuid = leader
  master : ∃ s, w.guild.getMemberSlot leader = some s ∧ s.rankId = grGuildMaster
  others : ∀ p s, w.guild.getMemberSlot p = some s → p ≠ leader → best ≤ s.rankId
  pos : 0 < best
  low : best ≤ w.guild.getLowestRank

/-! ## Operations -/

section

variable (h : Governed leader best w)
include h

/-- Who has a lower rank than the first is not the leader. -/
theorem Governed.ne {s : GuildMember}
    (hs : w.guild.getMemberSlot p = some s) (hr : 0 < s.rankId) : p ≠ leader := by
  rintro rfl
  obtain ⟨t, ht, hrank⟩ := h.master
  have hrank : t.rankId = 0 := hrank
  rw [← some.inj (hs.symm.trans ht)] at hrank
  omega

theorem Governed.of_guild {w' : GuildWorld} (he : w'.guild = w.guild) :
    Governed leader best w' :=
  ⟨he ▸ h.keyed, he ▸ h.led, he ▸ h.master, he ▸ h.others, h.pos, he ▸ h.low⟩

/-- Nobody but the leader gets a rank above `best`. -/
theorem Governed.changeRank (hq : q ≠ leader) (hn : best ≤ n) :
    Governed leader best (w.changeRank q n) where
  keyed := by
    rw [changeRank_guild]
    exact Guild.mapMember_keyed (fun _ => rfl) h.keyed
  led := by
    rw [changeRank_guild]
    exact h.led
  master := by
    rw [changeRank_slot, if_neg hq.symm]
    exact h.master
  others p s hs hp := by
    rw [changeRank_slot] at hs
    split_ifs at hs
    · obtain ⟨t, -, rfl⟩ := map_eq_some_iff.mp hs
      exact hn
    · exact h.others p s hs hp
  pos := h.pos
  low := by
    rw [changeRank_guild]
    exact h.low

/-- A new member comes in below. -/
theorem Governed.addMember {known : Bool} (hq : w.guild.getMemberSlot q = none) (hn : best ≤ n) :
    Governed leader best (w.addMember q n known) := by
  cases hr : w.refuses q known with
  | true =>
    rw [addMember_refused w hr]
    exact h
  | false =>
    have hne : leader ≠ q := by
      rintro rfl
      obtain ⟨s, hs, -⟩ := h.master
      exact absurd (hq.symm.trans hs) (by simp)
    exact
      { keyed := by
          rw [addMember_guild hr]
          exact Guild.putMember_keyed h.keyed
        led := by
          rw [addMember_guild hr, Guild.putMember_leaderGuid]
          exact h.led
        master := by
          rw [addMember_slot hr, if_neg hne]
          exact h.master
        others := fun p s hs hp => by
          rw [addMember_slot hr] at hs
          split_ifs at hs
          · rw [← some.inj hs]
            exact hn
          · exact h.others p s hs hp
        pos := h.pos
        low := by
          rw [addMember_guild hr]
          unfold Guild.getLowestRank
          rw [Guild.putMember_ranks]
          exact h.low }

/-- Who goes takes no rank from the leader. -/
theorem Governed.eraseMember (hq : q ≠ leader) :
    Governed leader best (w.eraseMember q) where
  keyed := by
    rw [eraseMember_guild]
    exact h.keyed.filter _
  led := by
    rw [eraseMember_guild]
    exact h.led
  master := by
    rw [eraseMember_slot, if_neg hq.symm]
    exact h.master
  others p s hs hp := by
    rw [eraseMember_slot] at hs
    split_ifs at hs
    exact h.others p s hs hp
  pos := h.pos
  low := by
    rw [eraseMember_guild]
    exact h.low

end

/-- Somebody who is not the leader is erased, whether that leaves nobody or not. -/
theorem delMember_guild (hq : q ≠ w.guild.leaderGuid) (next : Nat) :
    (w.delMember q next).guild = (w.eraseMember q).guild := by
  unfold delMember
  rw [if_neg hq.symm]
  dsimp only
  split_ifs <;> rfl

/-! ## Steps -/

/-- The rank of a sender whose field is right. -/
theorem FieldRight.rank {guid : Nat} (h : w.FieldRight guid) {pl : GuildPlayer}
    (hpl : w.sender guid = some pl) :
    ∃ t, w.guild.getMemberSlot guid = some t ∧ pl.rank = t.rankId := by
  obtain ⟨t, ht, hf⟩ := h
  exact ⟨t, ht, hf pl (w.sender_some hpl).1⟩

/-- A step of common members lifts nobody above the best of them. -/
theorem Governed.step (h : Governed leader best w) {i : GuildInput} (hc : w.Common i)
    (hi : w.Honest i) : Governed leader best (w.step i) := by
  have hl := h.led
  have hstep := w.step_outcome i
  generalize w.step i = w' at hstep ⊢
  cases hstep with
  | same => exact h
  | player => exact h.of_guild rfl
  | login guid guildExists =>
    refine h.of_guild ?_
    unfold login
    cases w.players guid <;> rfl
  | logout => exact h.of_guild rfl
  | elsewhere => exact h.of_guild (elsewhere_guild w _ _)
  | accept hacc => exact h.addMember (hi hacc) h.low
  | promote hs =>
    obtain ⟨pl, hpl, -, hslot, -, hrank⟩ := w.canPromote_some hs
    obtain ⟨t, ht, hf⟩ := FieldRight.rank (hi (isSome_iff_exists.mpr ⟨_, hs⟩)) hpl
    have := h.others _ t ht (hl ▸ hc)
    exact h.changeRank (h.ne hslot (by omega)) (by omega)
  | demote hs =>
    obtain ⟨pl, hpl, -, hslot, -, hrank, -⟩ := w.canDemote_some hs
    have hne := h.ne hslot (by omega)
    have := h.others _ _ hslot hne
    exact h.changeRank hne (by omega)
  | remove hs =>
    obtain ⟨pl, hpl, -, hslot, hrank⟩ := w.canRemove_some hs
    have hne := h.ne hslot (by omega)
    exact (h.eraseMember hne).of_guild (delMember_guild (hl.symm ▸ hne) _)
  | leave _ hne => exact (h.eraseMember (hl ▸ hne)).of_guild (delMember_guild hne _)
  | leaveLast => exact h.of_guild rfl
  | _ => exact absurd hc id

/-- A change of one member, who is the sender or below him. -/
theorem respects_of_slot {i : GuildInput} (hk : Keyed (·.guid) w.guild.members)
    (hslot : ∀ p, p ≠ q → (w.step i).guild.getMemberSlot p = w.guild.getMemberSlot p)
    (hq : ∀ s, w.guild.getMemberSlot q = some s → i.sender = some q ∨
      ∃ guid ∈ i.sender, ∃ t ∈ w.guild.getMemberSlot guid, t.rankId < s.rankId) : w.Respects i := by
  intro s hs hne
  have hmem : w.guild.getMemberSlot s.guid = some s := (Guild.slot_iff hk).mpr ⟨hs, rfl⟩
  by_cases he : s.guid = q
  · rw [he]
    exact hq s (he ▸ hmem)
  · exact absurd ((hslot _ he).trans hmem) hne

theorem respects_of_guild {i : GuildInput} (hk : Keyed (·.guid) w.guild.members)
    (he : (w.step i).guild = w.guild) : w.Respects i := by
  intro s hs hne
  rw [he] at hne
  exact absurd ((Guild.slot_iff hk).mpr ⟨hs, rfl⟩) hne

/-- A packet changes only ranks below its sender's. -/
theorem Governed.respects (h : Governed leader best w) {i : GuildInput} (hc : w.Common i)
    (hi : w.Honest i) : w.Respects i := by
  have hl := h.led
  have hstep := w.step_outcome i
  generalize hw : w.step i = w' at hstep
  cases hstep with
  | same => exact respects_of_guild h.keyed (by rw [hw])
  | player => exact respects_of_guild h.keyed (by rw [hw]; rfl)
  | login guid guildExists =>
    refine respects_of_guild h.keyed ?_
    rw [hw]
    unfold login
    cases w.players guid <;> rfl
  | logout => exact respects_of_guild h.keyed (by rw [hw])
  | elsewhere => exact respects_of_guild h.keyed (by rw [hw, elsewhere_guild])
  | @accept guid _ hacc =>
    refine respects_of_slot h.keyed (q := guid) (fun p hp => ?_) fun s hs => ?_
    · rw [hw]
      cases hr : w.refuses guid true with
      | true => rw [addMember_refused w hr]
      | false => rw [addMember_slot hr, if_neg hp]
    · exact absurd ((hi hacc).symm.trans hs) (by simp)
  | @promote guid _ s hs =>
    obtain ⟨pl, hpl, -, hslot, -, hrank⟩ := w.canPromote_some hs
    obtain ⟨t, ht, hf⟩ := FieldRight.rank (hi (isSome_iff_exists.mpr ⟨_, hs⟩)) hpl
    refine respects_of_slot h.keyed (q := s.guid) (fun p hp => ?_) fun u hu => .inr ?_
    · rw [hw, changeRank_slot, if_neg hp]
    · rw [← some.inj (hslot.symm.trans hu)]
      exact ⟨guid, rfl, t, ht, by omega⟩
  | @demote guid _ s hs =>
    obtain ⟨pl, hpl, -, hslot, -, hrank, -⟩ := w.canDemote_some hs
    obtain ⟨t, ht, hf⟩ := FieldRight.rank (hi (isSome_iff_exists.mpr ⟨_, hs⟩)) hpl
    refine respects_of_slot h.keyed (q := s.guid) (fun p hp => ?_) fun u hu => .inr ?_
    · rw [hw, changeRank_slot, if_neg hp]
    · rw [← some.inj (hslot.symm.trans hu)]
      exact ⟨guid, rfl, t, ht, by omega⟩
  | @remove guid _ _ s hs =>
    obtain ⟨pl, hpl, -, hslot, hrank⟩ := w.canRemove_some hs
    obtain ⟨t, ht, hf⟩ := FieldRight.rank (hi (isSome_iff_exists.mpr ⟨_, hs⟩)) hpl
    have hne := h.ne hslot (by omega)
    refine respects_of_slot h.keyed (q := s.guid) (fun p hp => ?_) fun u hu => .inr ?_
    · rw [hw, delMember_guild (hl.symm ▸ hne), eraseMember_slot, if_neg hp]
    · rw [← some.inj (hslot.symm.trans hu)]
      exact ⟨guid, rfl, t, ht, by omega⟩
  | @leave guid _ _ _ hne =>
    refine respects_of_slot h.keyed (q := guid) (fun p hp => ?_) fun u hu => .inl rfl
    rw [hw, delMember_guild hne, eraseMember_slot, if_neg hp]
  | leaveLast => exact respects_of_guild h.keyed (by rw [hw]; rfl)
  | _ => exact absurd hc id

/-! ## Runs -/

end GuildWorld

/-- The members besides the guild master. -/
def Guild.commons (g : Guild) : List GuildMember := g.members.filter (·.guid != g.leaderGuid)

theorem Guild.mem_commons {g : Guild} {s : GuildMember} :
    s ∈ g.commons ↔ s ∈ g.members ∧ s.guid ≠ g.leaderGuid := by
  unfold Guild.commons
  rw [List.mem_filter]
  simp

/-- One member is master, and if there are others, the best of their ranks exists. -/
structure Guild.Ranked (g : Guild) : Prop where
  keyed : Keyed (·.guid) g.members
  master : g.OneMaster
  ranks : guildRanksMinCount ≤ g.getRanksSize
  best : g.commons ≠ [] → ∃ t ∈ g.commons, t.rankId < g.getRanksSize

namespace GuildWorld

variable {w : GuildWorld}

/-- A ranked guild is governed by the best rank of its commons. -/
theorem Governed.of_ranked (h : w.guild.Ranked) : ∃ best, Governed w.guild.leaderGuid best w ∧
    (w.guild.commons ≠ [] → ∃ t ∈ w.guild.commons, t.rankId = best) := by
  obtain ⟨⟨m, hm, hguid, hrank⟩, hiff⟩ := h.master.iff h.keyed
  have hmaster : ∃ s, w.guild.getMemberSlot w.guild.leaderGuid = some s ∧
      s.rankId = grGuildMaster := ⟨m, (Guild.slot_iff h.keyed).mpr ⟨hm, hguid⟩, hrank⟩
  have hmem : ∀ {p s}, w.guild.getMemberSlot p = some s → p ≠ w.guild.leaderGuid →
      s ∈ w.guild.commons := by
    intro p s hs hp
    obtain ⟨hmem, rfl⟩ := (Guild.slot_iff h.keyed).mp hs
    exact Guild.mem_commons.mpr ⟨hmem, hp⟩
  have hsize : 5 ≤ w.guild.ranks.length := h.ranks
  by_cases hc : w.guild.commons = []
  · refine ⟨1, ⟨h.keyed, rfl, hmaster, fun p s hs hp => ?_, Nat.one_pos, ?_⟩, absurd hc⟩
    · exact absurd (hmem hs hp) (by rw [hc]; exact List.not_mem_nil)
    · show 1 ≤ w.guild.ranks.length - 1
      omega
  · obtain ⟨t, ht, hlow⟩ := h.best hc
    obtain ⟨b, hb, hmin⟩ := w.guild.commons.toFinset.exists_min_image (·.rankId)
      ⟨t, List.mem_toFinset.mpr ht⟩
    have hb := List.mem_toFinset.mp hb
    refine ⟨b.rankId, ⟨h.keyed, rfl, hmaster, fun p s hs hp => ?_, ?_, ?_⟩, fun _ => ⟨b, hb, rfl⟩⟩
    · exact hmin s (List.mem_toFinset.mpr (hmem hs hp))
    · obtain ⟨hb, hne⟩ := Guild.mem_commons.mp hb
      exact Nat.pos_of_ne_zero fun h0 => hne ((hiff b hb).mp h0)
    · have := hmin t (List.mem_toFinset.mpr ht)
      have hlow : t.rankId < w.guild.ranks.length := hlow
      show b.rankId ≤ w.guild.ranks.length - 1
      omega

end GuildWorld

/-- What members other than the master achieve with honest packets: nobody besides the master has a
rank above all that such members had at the start, the master stays, and nobody is touched by
another member unless he is below him. -/
theorem noEscalation_of_run {w : GuildWorld} {is : List GuildInput} (h : w.guild.Ranked)
    (his : AlongRun GuildWorld.step (fun w i => w.Common i ∧ w.Honest i) w is) :
    (∀ s ∈ (run GuildWorld.step w is).guild.commons, w.guild.commons ≠ [] →
      ∃ t ∈ w.guild.commons, t.rankId ≤ s.rankId) ∧
    ((run GuildWorld.step w is).guild.leaderGuid = w.guild.leaderGuid ∧
      ∃ s ∈ (run GuildWorld.step w is).guild.members,
        s.guid = w.guild.leaderGuid ∧ s.rankId = grGuildMaster) ∧
    AlongRun GuildWorld.step GuildWorld.Respects w is := by
  obtain ⟨best, hg, hbest⟩ := GuildWorld.Governed.of_ranked h
  have hrun := run_keeps (I := GuildWorld.Governed w.guild.leaderGuid best)
    (fun w i hw hi => hw.step hi.1 hi.2) hg his
  refine ⟨fun s hs hc => ?_, ⟨hrun.led, ?_⟩, ?_⟩
  · obtain ⟨t, ht, rfl⟩ := hbest hc
    obtain ⟨hs, hne⟩ := Guild.mem_commons.mp hs
    exact ⟨t, ht, hrun.others s.guid s ((Guild.slot_iff hrun.keyed).mpr ⟨hs, rfl⟩) (hrun.led ▸ hne)⟩
  · obtain ⟨s, hs, hrank⟩ := hrun.master
    obtain ⟨hs, hguid⟩ := (Guild.slot_iff hrun.keyed).mp hs
    exact ⟨s, hs, hguid, hrank⟩
  · exact his.imp (fun w i hw hi => ⟨hw.respects hi.1 hi.2, hw.step hi.1 hi.2⟩) hg

/-- A guild of five ranks with members besides the master, all online, and somebody in no guild. -/
def commonsGuild (rank : Nat) : GuildWorld where
  guild :=
    { id := 7, leaderGuid := 1, ranks := List.replicate 5 ⟨"", rightAll⟩
      members := [⟨1, 0, "", ""⟩, ⟨2, rank, "", ""⟩, ⟨3, 5, "", ""⟩] }
  tables := { guild := ⟨1, "", ""⟩ }
  players p := if p = 1 then some { guildId := 7, rank := 0 }
    else if p = 2 then some { guildId := 7, rank := rank }
    else if p = 3 then some { guildId := 7, rank := 5 } else some {}

theorem commonsGuild_ranked : (commonsGuild 1).guild.Ranked where
  keyed := by
    show ([1, 2, 3] : List Nat).Nodup
    decide
  master := by decide
  ranks := by decide
  best _ := ⟨⟨2, 1, "", ""⟩, by decide, by decide⟩

/-- An officer promotes a member, and somebody joins and is removed. -/
def officerPackets : List GuildInput :=
  [.promote 2 3, .invite 2 4 true, .accept 4 true, .remove 2 4 0]

/-- An officer invites, promotes and demotes, and nobody passes him. -/
theorem officerPackets_noEscalation :
    (∀ s ∈ (run GuildWorld.step (commonsGuild 1) officerPackets).guild.commons,
      (commonsGuild 1).guild.commons ≠ [] →
        ∃ t ∈ (commonsGuild 1).guild.commons, t.rankId ≤ s.rankId) ∧
    ((run GuildWorld.step (commonsGuild 1) officerPackets).guild.leaderGuid = 1 ∧
      ∃ s ∈ (run GuildWorld.step (commonsGuild 1) officerPackets).guild.members,
        s.guid = 1 ∧ s.rankId = 0) ∧
    AlongRun GuildWorld.step GuildWorld.Respects (commonsGuild 1) officerPackets :=
  noEscalation_of_run commonsGuild_ranked (by decide +kernel)

/-- Members whose rank has been deleted have every right: the one whom they invite is above them. -/
theorem deletedRank_escalates :
    ¬ ∀ (w : GuildWorld) (is : List GuildInput), Keyed (·.guid) w.guild.members →
      w.guild.OneMaster → guildRanksMinCount ≤ w.guild.getRanksSize →
      AlongRun GuildWorld.step GuildWorld.Common w is →
      ∀ s ∈ (run GuildWorld.step w is).guild.commons, w.guild.commons ≠ [] →
        ∃ t ∈ w.guild.commons, t.rankId ≤ s.rankId := by
  intro h
  have := h (commonsGuild 5) [.invite 2 4 true, .accept 4 true]
    (show ([1, 2, 3] : List Nat).Nodup by decide) (by decide) (by decide) (by decide +kernel)
    ⟨4, 4, "", ""⟩ (by decide +kernel)
  exact absurd this (by decide +kernel)

end Windrunner
