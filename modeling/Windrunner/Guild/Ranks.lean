import Windrunner.GuildBank.Effect
import Windrunner.Guild.Outcome

/-!
# Ranks and bank tabs

`DelRank` deletes the lowest rank. It lowers the `minrank` of the bank tabs that name it
(`updateMinranks`), and leaves the members who have it where they are, with a rank that no longer
exists. `UpdateTab` takes the tab as it comes, and a `minrank` up to the number of ranks. `Vacated` are
the steps that delete a rank nobody has, and set a tab there is to a rank there is: runs of them
keep ranks and tabs `Valid` (`valid_of_run`).
-/

namespace Windrunner

open Lib List

/-! ## The bank tabs -/

/-- One turn of the loop of `UpdateMinranks`. -/
def GuildBank.updateMinrank (b : GuildBank) (rank tab : Nat) : GuildBank :=
  let info := b.tabInfoAt tab
  if info.minrank.toNat = rank then
    { b with
      tabInfo := b.tabInfo.insert tab { info with minrank := info.minrank - 1 }
      tabsChanged := true }
  else b

def GuildBank.updateMinranks (b : GuildBank) (rank : Nat) : GuildBank :=
  (range' 1 maxTabs).foldl (fun b tab => b.updateMinrank rank tab) b

/-- The write to `b_tabInfo` of `UpdateTab`, if it comes to that. -/
def World.tabUpdate {db : ItemDb} (w : World db) (env : Env) (msg : Text) : Option (Nat × BankTab) :=
  if w.player.rank ≠ 0 then none
  else
    match tokenizer msg ':' with
    | [_, a, name, icon, d, e] =>
      let name := String.ofList name
      let icon := String.ofList icon
      let withdrawals := (atoi d).toUInt8
      let minrank := (atoi e).toUInt8
      if name = "" ∨ name.utf8ByteSize > 30 then none
      else if icon = "" ∨ icon.utf8ByteSize > 63 then none
      else if withdrawals.toNat > maxWeeklyWithdrawals then none
      else if minrank.toNat > env.ranksSize then none
      else some ((atoi a).toUInt8.toNat, { name, icon, withdrawals, minrank })
    | _ => none

theorem World.tabUpdate_wrong {db : ItemDb} {w : World db} {env : Env} {msg : Text}
    (hmsg : ∀ a b c d e f, tokenizer msg ':' ≠ [a, b, c, d, e, f]) :
    w.tabUpdate env msg = none := by
  unfold World.tabUpdate
  split
  case isTrue => rfl
  case isFalse =>
    split
    case h_1 heq => exact absurd heq (hmsg _ _ _ _ _ _)
    case h_2 => rfl

theorem World.updateTab_wrong {db : ItemDb} {w : World db} {env : Env} {msg : Text}
    (hr : ¬ w.player.rank ≠ 0) (hmsg : ∀ a b c d e f, tokenizer msg ':' ≠ [a, b, c, d, e, f]) :
    w.updateTab env msg = w.sendWrongSyntax "UpdateTab" msg := by
  unfold World.updateTab
  rw [if_neg hr]
  split
  case h_1 heq => exact absurd heq (hmsg _ _ _ _ _ _)
  case h_2 => rfl

/-- `UpdateTab` makes this write to `b_tabInfo` and no other. -/
theorem World.updateTab_tabInfo {db : ItemDb} (w : World db) (env : Env) (msg : Text) :
    (w.updateTab env msg).bank.tabInfo =
      (w.tabUpdate env msg).elim w.bank.tabInfo fun x => w.bank.tabInfo.insert x.1 x.2 := by
  have hsave : ∀ w' : World db, w'.saveToDB.bank.tabInfo = w'.bank.tabInfo := fun w' =>
    congrArg Frame.tabInfo w'.saveToDB_frame
  by_cases hr : w.player.rank ≠ 0
  · unfold World.updateTab World.tabUpdate
    rw [if_pos hr, if_pos hr]
    rfl
  by_cases hmsg : ∃ a b c d e f, tokenizer msg ':' = [a, b, c, d, e, f]
  · obtain ⟨_, _, _, _, _, _, heq⟩ := hmsg
    unfold World.updateTab World.tabUpdate
    rw [if_neg hr, if_neg hr, heq]
    dsimp only
    split_ifs
    · rfl
    · rfl
    · rfl
    · rfl
    · exact hsave _
  · have hwrong : ∀ a b c d e f, tokenizer msg ':' ≠ [a, b, c, d, e, f] :=
      fun a b c d e f heq => hmsg ⟨a, b, c, d, e, f, heq⟩
    rw [World.updateTab_wrong hr hwrong, World.tabUpdate_wrong hwrong]
    rfl

/-! ## Guilds with their banks -/

/-- The packet deletes a rank. -/
def GuildWorld.deletesRank (w : GuildWorld) : GuildInput → Bool
  | .delRank guid =>
    !w.disbanded && w.isMaster guid && w.guild.getRanksSize > guildRanksMinCount
  | _ => false

/-- A guild, its two banks and their tables. -/
structure RankWorld where
  world : GuildWorld
  bank : Bool → GuildBank
  tables : Tables := {}
  /-- The indices with which `b_tabInfo` has been accessed. -/
  accessed : List Nat := []

inductive RankInput (db : ItemDb) where
  | guild (i : GuildInput)
  /-- A message to the bank of the guild; `player` is what its sender has besides guid and rank. -/
  | updateTab (guid : Nat) (inferno : Bool) (env : Env) (player : Player db) (msg : Text)

namespace RankWorld

variable {db : ItemDb} (w : RankWorld)

/-- The bank world in which a message of `guid` is handled, if it is. -/
def bankWorld (guid : Nat) (inferno : Bool) (env : Env) (player : Player db) : Option (World db) :=
  (w.world.sender guid).bind fun pl =>
    if w.world.disbanded || !env.canUseGuildBank || (w.bank inferno).saveLock ||
        (w.bank inferno).tabs == 0 then none
    else some
      { bank := w.bank inferno, tables := w.tables, player := { player with guid, rank := pl.rank } }

/-- What a message reads of the guild. -/
def env (env : Env) : Env := { env with ranksSize := w.world.guild.getRanksSize }

def step (w : RankWorld) : RankInput db → RankWorld
  | .guild i =>
    let rank := w.world.guild.getLowestRank
    let w' := { w with world := w.world.step i }
    if w.world.deletesRank i then
      { w' with
        bank := fun inferno => (w.bank inferno).updateMinranks rank
        accessed := w.accessed ++ range' 1 maxTabs ++ range' 1 maxTabs }
    else w'
  | .updateTab guid inferno env player msg =>
    (w.bankWorld guid inferno env player).elim w fun b =>
      let b' := b.updateTab (w.env env) msg
      { w with
        bank := fun i => if i = inferno then b'.bank else w.bank i
        tables := b'.tables
        accessed := w.accessed ++ (b.tabUpdate (w.env env) msg).toList.map (·.1) }

/-- Ranks and tabs are what they should be. -/
structure Valid (w : RankWorld) : Prop where
  min : guildRanksMinCount ≤ w.world.guild.getRanksSize
  max : w.world.guild.getRanksSize ≤ guildRanksMaxCount
  member : ∀ s ∈ w.world.guild.members, s.rankId < w.world.guild.getRanksSize
  tab : ∀ inferno, ∀ tab ∈ range' 1 maxTabs,
    ((w.bank inferno).tabInfoAt tab).minrank.toNat < w.world.guild.getRanksSize
  access : ∀ tab ∈ w.accessed, tab ≤ maxTabs

/-- Nobody has the rank that is deleted; a tab that is set is one, with a rank that exists. -/
def Vacated (w : RankWorld) : RankInput db → Prop
  | .guild i => w.world.deletesRank i = true →
      ∀ s ∈ w.world.guild.members, s.rankId ≠ w.world.guild.getLowestRank
  | .updateTab guid inferno env player msg =>
    ∀ b ∈ w.bankWorld guid inferno env player, ∀ x ∈ b.tabUpdate (w.env env) msg,
      x.1 ≤ maxTabs ∧ (1 ≤ x.1 → x.2.minrank.toNat < w.world.guild.getRanksSize)

instance (i : RankInput db) : Decidable (w.Vacated i) := by
  unfold Vacated
  cases i <;> infer_instance

end RankWorld

/-! ## Tabs -/

section Tabs

variable {b : GuildBank} {n rank tab : Nat}

/-- A tab of the deleted rank gets the rank above, another one stays. -/
theorem GuildBank.updateMinrank_tabInfoAt (t : Nat) :
    (b.updateMinrank rank tab).tabInfoAt t =
      if t = tab ∧ (b.tabInfoAt tab).minrank.toNat = rank then
        { b.tabInfoAt tab with minrank := (b.tabInfoAt tab).minrank - 1 }
      else b.tabInfoAt t := by
  unfold GuildBank.updateMinrank
  dsimp only
  by_cases hr : (b.tabInfoAt tab).minrank.toNat = rank
  · rw [if_pos hr]
    by_cases ht : t = tab
    · rw [if_pos ⟨ht, hr⟩]
      subst ht
      simp [GuildBank.tabInfoAt]
    · rw [if_neg fun h => ht h.1]
      unfold GuildBank.tabInfoAt
      dsimp only
      rw [AList.lookup_insert_ne ht]
  · rw [if_neg hr, if_neg fun h => hr h.2]

/-- Of tabs up to the deleted rank none is left there. -/
theorem GuildBank.updateMinranks_lt (h : ∀ t ∈ range' 1 maxTabs,
      (b.tabInfoAt t).minrank.toNat < n + 1) (hn : 0 < n) :
    ∀ t ∈ range' 1 maxTabs, ((b.updateMinranks n).tabInfoAt t).minrank.toNat < n := by
  have hfold : ∀ (tabs : List Nat) (b : GuildBank) (t : Nat),
      (b.tabInfoAt t).minrank.toNat < n + 1 →
      ((tabs.foldl (fun b tab => b.updateMinrank n tab) b).tabInfoAt t).minrank.toNat < n + 1 ∧
      (t ∈ tabs ∨ (b.tabInfoAt t).minrank.toNat < n →
        ((tabs.foldl (fun b tab => b.updateMinrank n tab) b).tabInfoAt t).minrank.toNat < n) := by
    intro tabs
    induction tabs with
    | nil => exact fun b t ht => ⟨ht, fun hm => hm.resolve_left (by simp)⟩
    | cons tab tabs ih =>
      intro b t ht
      have hstep : ((b.updateMinrank n tab).tabInfoAt t).minrank.toNat < n + 1 ∧
          (t = tab ∨ (b.tabInfoAt t).minrank.toNat < n →
            ((b.updateMinrank n tab).tabInfoAt t).minrank.toNat < n) := by
        rw [GuildBank.updateMinrank_tabInfoAt]
        split_ifs with hc
        · have hle : (1 : UInt8) ≤ (b.tabInfoAt tab).minrank := by
            rw [UInt8.le_iff_toNat_le]
            show 1 ≤ _
            omega
          have hsub := UInt8.toNat_sub_of_le _ _ hle
          have hone : (1 : UInt8).toNat = 1 := rfl
          dsimp only
          constructor <;> omega
        · refine ⟨ht, ?_⟩
          rintro (rfl | hlt)
          · have : ¬ (b.tabInfoAt t).minrank.toNat = n := fun he => hc ⟨rfl, he⟩
            omega
          · exact hlt
      rw [foldl_cons]
      refine ⟨(ih _ t hstep.1).1, fun hm => (ih _ t hstep.1).2 ?_⟩
      rw [mem_cons] at hm
      rcases hm with (hm | hm) | hm
      · exact .inr (hstep.2 (.inl hm))
      · exact .inl hm
      · exact .inr (hstep.2 (.inr hm))
  intro t ht
  exact (hfold _ b t (h t ht)).2 (.inl ht)

end Tabs

/-! ## Members -/

/-- The ranks of the members are below `n`. -/
def Guild.Within (g : Guild) (n : Nat) : Prop := ∀ s ∈ g.members, s.rankId < n

namespace GuildWorld

variable {w : GuildWorld} {p q m n : Nat}

theorem within_mapMember {g : Guild} (h : g.Within n) {f : GuildMember → GuildMember}
    (hf : ∀ s, s.rankId < n → (f s).rankId < n) : (g.mapMember q f).Within n := by
  intro s hs
  obtain ⟨t, ht, rfl⟩ := mem_map.mp hs
  split_ifs
  · exact hf t (h t ht)
  · exact h t ht

theorem within_putMember {g : Guild} (h : g.Within n) {s : GuildMember} (hs : s.rankId < n) :
    (g.putMember s).Within n := by
  unfold Guild.putMember
  split_ifs
  · exact within_mapMember h fun _ _ => hs
  · intro t ht
    obtain ht | ht := mem_append.mp ht
    · exact h t ht
    · rw [mem_singleton.mp ht]
      exact hs

section

variable (h : w.guild.Within n)
include h

/-- A rank that exists is given. -/
theorem within_changeRank (hm : m < n) :
    (w.changeRank q m).guild.Within n := by
  rw [changeRank_guild]
  exact within_mapMember h fun _ _ => hm

theorem within_setNewLeader (hn : 5 ≤ n) (old : Option Nat) :
    (w.setNewLeader q old).guild.Within n := by
  have hl : (w.setLeader q).guild.Within n := by
    rw [setLeader_guild]
    exact within_mapMember h fun _ _ => by show 0 < n; omega
  cases old with
  | none => exact hl
  | some o => exact within_changeRank hl (by show 1 < n; omega)

theorem within_eraseMember : (w.eraseMember q).guild.Within n := by
  rw [eraseMember_guild]
  exact fun s hs => h s (mem_filter.mp hs).1

theorem within_delMember (hn : 5 ≤ n) (next : Nat) :
    (w.delMember q next).guild.Within n := by
  have hend : ∀ w' : GuildWorld, w'.guild.Within n →
      (if w'.guild.members = [] then w'.disband else w').guild.Within n := by
    intro w' h'
    split_ifs <;> exact h'
  unfold delMember
  split_ifs
  · cases w.guild.suitableNewLeader next with
    | none => exact h
    | some best => exact hend _ (within_eraseMember (within_setNewLeader h hn _))
  · exact hend _ (within_eraseMember h)

/-- A new member's rank exists. -/
theorem within_addMember (hm : m < n) (known : Bool) :
    (w.addMember q m known).guild.Within n := by
  cases hr : w.refuses q known with
  | true =>
    rw [addMember_refused w hr]
    exact h
  | false =>
    rw [addMember_guild hr]
    exact within_putMember h hm

end

/-- No step gives a member a rank that does not exist before it. -/
theorem within_step (h : w.guild.Within w.guild.getRanksSize) (hn : 5 ≤ w.guild.getRanksSize)
    (i : GuildInput) : (w.step i).guild.Within w.guild.getRanksSize := by
  have hlow : w.guild.getLowestRank < w.guild.getRanksSize := by
    show w.guild.ranks.length - 1 < w.guild.ranks.length
    have : 5 ≤ w.guild.ranks.length := hn
    omega
  have hstep := w.step_outcome i
  generalize w.step i = w' at hstep ⊢
  cases hstep with
  | same => exact h
  | player => exact h
  | login guid guildExists =>
    unfold login
    cases w.players guid <;> exact h
  | logout => exact h
  | elsewhere guid guildid rank =>
    rw [elsewhere_guild]
    exact h
  | accept => exact within_addMember h hlow true
  | promote hs =>
    obtain ⟨pl, -, -, hslot, -, hrank⟩ := w.canPromote_some hs
    have := h _ (mem_of_find?_eq_some hslot)
    exact within_changeRank h (by omega)
  | demote hs =>
    obtain ⟨pl, -, -, -, -, -, hrank⟩ := w.canDemote_some hs
    exact within_changeRank h (by omega)
  | remove => exact within_delMember h hn _
  | leave => exact within_delMember h hn _
  | leaveLast => exact h
  | leader => exact within_setNewLeader h hn _
  | addMember => exact within_addMember h hlow _
  | delMember => exact within_delMember h hn _
  | setNewLeader => exact within_setNewLeader h hn _
  | hardcoreDeath => exact within_setNewLeader h hn _
  | addRank => exact h
  | delRank => exact h
  | rank => exact h
  | publicNote => exact within_mapMember h fun _ h => h
  | officerNote => exact within_mapMember h fun _ h => h
  | motd => exact h
  | infoText => exact h

/-- When the lowest rank is deleted nobody moves. -/
theorem step_deletesRank {i : GuildInput} (h : w.deletesRank i = true) :
    guildRanksMinCount < w.guild.getRanksSize ∧
      (w.step i).guild.getRanksSize + 1 = w.guild.getRanksSize ∧
      (w.step i).guild.members = w.guild.members := by
  cases i with
  | delRank guid =>
    simp only [deletesRank, Bool.and_eq_true, Bool.not_eq_true', decide_eq_true_eq] at h
    obtain ⟨⟨hgone, hm⟩, hlen⟩ := h
    have hlen' : 5 < w.guild.ranks.length := hlen
    have hstep : w.step (.delRank guid) = w.delRank := by
      show (if w.disbanded then w else w.handleGuildDelRank guid) = _
      rw [if_neg (by simp [hgone]), handleGuildDelRank, if_neg (by simp [hm])]
    rw [hstep, delRank, if_neg (Nat.not_le.mpr hlen')]
    refine ⟨hlen, ?_, rfl⟩
    show w.guild.ranks.dropLast.length + 1 = w.guild.ranks.length
    rw [length_dropLast]
    omega
  | _ => exact absurd h Bool.noConfusion

/-- Another step leaves at least as many ranks. -/
theorem getRanksSize_step {i : GuildInput} (hd : w.deletesRank i = false)
    (h : w.guild.getRanksSize ≤ guildRanksMaxCount) :
    w.guild.getRanksSize ≤ (w.step i).guild.getRanksSize ∧
      (w.step i).guild.getRanksSize ≤ guildRanksMaxCount := by
  have hkeep : ∀ {w' : GuildWorld}, w'.guild.ranks.length = w.guild.ranks.length →
      w.guild.getRanksSize ≤ w'.guild.getRanksSize ∧
        w'.guild.getRanksSize ≤ guildRanksMaxCount := by
    intro w' he
    unfold Guild.getRanksSize at h ⊢
    rw [he]
    exact ⟨Nat.le_refl _, h⟩
  by_cases hgone : w.disbanded = true
  · rw [show w.step i = w from if_pos hgone]
    exact hkeep rfl
  have hstep := w.step_outcome i
  generalize w.step i = w' at hstep ⊢
  cases hstep with
  | delRank hm hlen =>
    have hlen' : 5 < w.guild.ranks.length := hlen
    exact absurd hd (by simp [deletesRank, hgone, hm, Guild.getRanksSize, hlen'])
  | addRank _ hlen =>
    unfold Guild.getRanksSize at hlen ⊢
    rw [length_append, length_singleton]
    exact ⟨Nat.le_succ _, hlen⟩
  | rank => exact hkeep length_set
  | login guid guildExists =>
    refine hkeep ?_
    unfold login
    cases w.players guid <;> rfl
  | elsewhere => exact hkeep (by rw [elsewhere_guild])
  | accept => exact hkeep (by rw [addMember_ranks])
  | addMember => exact hkeep (by rw [addMember_ranks])
  | promote => exact hkeep (by rw [changeRank_guild, Guild.mapMember_ranks])
  | demote => exact hkeep (by rw [changeRank_guild, Guild.mapMember_ranks])
  | remove => exact hkeep (by rw [delMember_ranks])
  | leave => exact hkeep (by rw [delMember_ranks])
  | delMember => exact hkeep (by rw [delMember_ranks])
  | leader => exact hkeep (by rw [setNewLeader_ranks])
  | setNewLeader => exact hkeep (by rw [setNewLeader_ranks])
  | hardcoreDeath => exact hkeep (by rw [setNewLeader_ranks])
  | same => exact hkeep rfl
  | player => exact hkeep rfl
  | logout => exact hkeep rfl
  | leaveLast => exact hkeep rfl
  | publicNote => exact hkeep rfl
  | officerNote => exact hkeep rfl
  | motd => exact hkeep rfl
  | infoText => exact hkeep rfl

end GuildWorld

/-! ## Runs -/

theorem mem_tabs {tab : Nat} (h : tab ∈ range' 1 maxTabs) : 1 ≤ tab ∧ tab ≤ maxTabs := by
  obtain ⟨h1, h2⟩ := mem_range'_1.mp h
  exact ⟨h1, by show tab ≤ 5; have : tab < 1 + 5 := h2; omega⟩

namespace RankWorld

variable {db : ItemDb} {w : RankWorld}

/-- The lowest rank may go when nobody has it. -/
theorem Valid.delRank (h : w.Valid) {i : GuildInput} (hdel : w.world.deletesRank i = true)
    (hi : ∀ s ∈ w.world.guild.members, s.rankId ≠ w.world.guild.getLowestRank) :
    (w.step (.guild i : RankInput db)).Valid := by
  obtain ⟨hlen, hsize, hm⟩ := GuildWorld.step_deletesRank hdel
  have hlen' : 5 < w.world.guild.ranks.length := hlen
  have hlow : w.world.guild.getLowestRank + 1 = w.world.guild.getRanksSize := by
    show w.world.guild.ranks.length - 1 + 1 = w.world.guild.ranks.length
    omega
  have hmax := h.max
  have hle : (w.world.step i).guild.getRanksSize = w.world.guild.getLowestRank := by omega
  have hstep : w.step (.guild i : RankInput db) =
      { w with
        world := w.world.step i
        bank := fun inferno => (w.bank inferno).updateMinranks w.world.guild.getLowestRank
        accessed := w.accessed ++ range' 1 maxTabs ++ range' 1 maxTabs } := if_pos hdel
  rw [hstep]
  refine ⟨?_, ?_, ?_, ?_, ?_⟩
  · show guildRanksMinCount ≤ (w.world.step i).guild.getRanksSize
    omega
  · show (w.world.step i).guild.getRanksSize ≤ guildRanksMaxCount
    omega
  · show ∀ s ∈ (w.world.step i).guild.members, s.rankId < (w.world.step i).guild.getRanksSize
    rw [hm, hle]
    intro s hs
    have hlt := h.member s hs
    have hne := hi s hs
    omega
  · intro inferno tab ht
    have htab : ∀ t ∈ range' 1 maxTabs,
        ((w.bank inferno).tabInfoAt t).minrank.toNat < w.world.guild.getLowestRank + 1 := by
      rw [hlow]
      exact h.tab inferno
    have hpos : 0 < w.world.guild.getLowestRank := by
      show 0 < w.world.guild.ranks.length - 1
      omega
    have hlt := @GuildBank.updateMinranks_lt (w.bank inferno) w.world.guild.getLowestRank htab hpos
      tab ht
    dsimp only
    rw [hle]
    exact hlt
  · intro tab ht
    rw [mem_append, mem_append] at ht
    rcases ht with (ht | ht) | ht
    · exact h.access tab ht
    · exact (mem_tabs ht).2
    · exact (mem_tabs ht).2

/-- A packet to the guild leaves members and tabs with ranks that exist. -/
theorem Valid.guild (h : w.Valid) {i : GuildInput} (hi : w.Vacated (.guild i : RankInput db)) :
    (w.step (.guild i : RankInput db)).Valid := by
  cases hdel : w.world.deletesRank i with
  | true => exact h.delRank hdel (hi hdel)
  | false =>
    have hmin : 5 ≤ w.world.guild.getRanksSize := h.min
    have hin := GuildWorld.within_step h.member hmin i
    obtain ⟨hle, hmax⟩ := GuildWorld.getRanksSize_step hdel h.max
    have hstep : w.step (.guild i : RankInput db) = { w with world := w.world.step i } :=
      if_neg (Bool.eq_false_iff.mp hdel)
    rw [hstep]
    exact
      { min := Nat.le_trans h.min hle
        max := hmax
        member := fun s hs => Nat.lt_of_lt_of_le (hin s hs) hle
        tab := fun inferno tab ht => Nat.lt_of_lt_of_le (h.tab inferno tab ht) hle
        access := h.access }

/-- `UpdateTab` does so when the minimal rank it names exists. -/
theorem Valid.updateTab (h : w.Valid) {guid : Nat} {inferno : Bool} {env : Env} {player : Player db}
    {msg : Text} (hi : w.Vacated (.updateTab guid inferno env player msg)) :
    (w.step (.updateTab guid inferno env player msg)).Valid := by
  show Valid ((w.bankWorld guid inferno env player).elim w _)
  cases hb : w.bankWorld guid inferno env player with
  | none => exact h
  | some b =>
    have hinfo : b.bank.tabInfo = (w.bank inferno).tabInfo := by
      obtain ⟨pl, -, hb⟩ := Option.bind_eq_some_iff.mp hb
      split_ifs at hb
      rw [← Option.some.inj hb]
    have htab := b.updateTab_tabInfo (w.env env) msg
    have hset : ∀ x ∈ b.tabUpdate (w.env env) msg,
        x.1 ≤ maxTabs ∧ (1 ≤ x.1 → x.2.minrank.toNat < w.world.guild.getRanksSize) := hi b hb
    exact
      { min := h.min
        max := h.max
        member := h.member
        tab := fun i tab ht => by
          show ((if i = inferno then _ else w.bank i : GuildBank).tabInfoAt tab).minrank.toNat < _
          split_ifs with hi
          · unfold GuildBank.tabInfoAt
            rw [htab]
            cases hx : b.tabUpdate (w.env env) msg with
            | none =>
              rw [Option.elim_none, hinfo]
              exact h.tab inferno tab ht
            | some x =>
              rw [Option.elim_some]
              by_cases he : tab = x.1
              · rw [he, AList.lookup_insert]
                exact (hset x hx).2 (he ▸ (mem_tabs ht).1)
              · rw [AList.lookup_insert_ne he, hinfo]
                exact h.tab inferno tab ht
          · exact h.tab i tab ht
        access := fun tab ht => by
          obtain ht | ht := mem_append.mp ht
          · exact h.access tab ht
          · obtain ⟨x, hx, rfl⟩ := mem_map.mp ht
            exact (hset x (Option.mem_toList.mp hx)).1 }

/-- Runs that delete empty ranks, and set tabs there are to ranks there are, keep ranks and tabs
what they should be. -/
theorem valid_of_run (h : w.Valid) {is : List (RankInput db)}
    (his : AlongRun step Vacated w is) : (run step w is).Valid := by
  refine run_keeps (fun w i hw hi => ?_) h his
  cases i with
  | guild i => exact hw.guild hi
  | updateTab => exact hw.updateTab hi

/-- The banks of a guild that has just been founded have no tabs. -/
theorem created_valid (id leader : Nat) (text : Nat → String) (rows : List GuildMemberRow)
    (players : Nat → Option GuildPlayer) {tables : Tables} :
    Valid { world := .create id leader text rows players, tables
            bank := fun infernoBank => { guildid := id, infernoBank } } := by
  have hranks : (GuildWorld.create id leader text rows players).guild.getRanksSize = 5 := by
    unfold Guild.getRanksSize GuildWorld.create
    dsimp only
    rw [GuildWorld.addMember_ranks, GuildWorld.createDefaultGuildRanks_eq _ rfl]
    rfl
  have hmember : (GuildWorld.create id leader text rows players).guild.Within 5 := by
    unfold GuildWorld.create
    refine GuildWorld.within_addMember ?_ (by decide) true
    rw [GuildWorld.createDefaultGuildRanks_eq _ rfl]
    exact fun s hs => absurd hs List.not_mem_nil
  exact
    { min := by rw [hranks]
      max := by rw [hranks]; decide
      member := by rw [hranks]; exact hmember
      tab := fun inferno tab _ => by rw [hranks]; exact Nat.succ_pos 4
      access := fun tab ht => absurd ht List.not_mem_nil }

end RankWorld

/-- A guild of two who are online, with a tab of the bank for the lowest of `ranks` ranks. -/
def rankedGuild (ranks : Nat) : RankWorld where
  world :=
    { guild := { id := 7, leaderGuid := 1, members := [⟨1, 0, "", ""⟩, ⟨2, 4, "", ""⟩]
                 ranks := (range ranks).map fun _ => ⟨"", rightAll⟩ }
      tables := { guild := ⟨1, "", ""⟩ }
      players := fun p => if p = 1 then some { guildId := 7, rank := 0 }
        else if p = 2 then some { guildId := 7, rank := 4 } else none }
  bank _ := { guildid := 7, tabs := 1, tabInfo := (∅ : FinMap Nat BankTab).insert 1 { minrank := 4 } }

theorem rankedGuild_valid {ranks : Nat} (h : 5 ≤ ranks) (h' : ranks ≤ 10) :
    (rankedGuild ranks).Valid := by
  have hsize : (rankedGuild ranks).world.guild.getRanksSize = ranks := by
    simp [rankedGuild, Guild.getRanksSize]
  have hmember : ∀ s ∈ (rankedGuild 0).world.guild.members, s.rankId < 5 := by decide
  have htab : ∀ tab ∈ range' 1 maxTabs,
      (((rankedGuild 0).bank false).tabInfoAt tab).minrank.toNat < 5 := by decide
  exact
    { min := by rw [hsize]; exact h
      max := by rw [hsize]; exact h'
      member := fun s hs => by rw [hsize]; exact Nat.lt_of_lt_of_le (hmember s hs) h
      tab := fun _ tab ht => by rw [hsize]; exact Nat.lt_of_lt_of_le (htab tab ht) h
      access := nofun }

/-- The leader opens a tab to the lowest rank, and deletes that rank. -/
def lowestRankDeleted : List (RankInput noItems) :=
  [.updateTab 1 false {} { guid := 1, rank := 0, inv := .empty 1 } "UpdateTab:2:Loot:Bag:3:5".toList,
    .guild (.delRank 1)]

theorem lowestRankDeleted_valid : (run RankWorld.step (rankedGuild 6) lowestRankDeleted).Valid :=
  RankWorld.valid_of_run (rankedGuild_valid (by decide) (by decide)) (by decide +kernel)

/-- The leader adds a rank, demotes a member to it and deletes it. -/
theorem demotedToDeletedRank_not_valid :
    ¬ ∀ (w : RankWorld) (is : List (RankInput noItems)), w.Valid → (run RankWorld.step w is).Valid := by
  intro h
  have := (h (rankedGuild 5) [.guild (.addRank 1 "Newcomer"), .guild (.demote 1 2), .guild (.delRank 1)]
    (rankedGuild_valid (by decide) (by decide))).member ⟨2, 5, "", ""⟩ (by decide +kernel)
  exact absurd this (by decide +kernel)

end Windrunner
