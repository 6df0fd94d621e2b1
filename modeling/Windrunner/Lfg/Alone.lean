import Windrunner.Lfg.Compat

/-!
# Who waits alone

A player of the queue is in no group. `FindRoleToGroup` and the forming of a new group take a player
out of the queue when he gets a group; the acceptance of an invitation and an offer of the other
finder do not.

* `GroupWorld.Free`: a player is in no group; `frees_step` says who keeps that in a step on the groups.
* `LfgWorld.Alone`: the players of the queue are free; `alone_step` keeps it.
* `matched`: what the rules of the queue come to, over runs.
-/

namespace Windrunner

open Lib SortedMap Option

namespace GroupWorld

variable {w w' : GroupWorld} {k guid p : Nat} {g : Group}

/-- The player is in no group, the raids of battlegrounds aside. -/
def Free (w : GroupWorld) (p : Nat) : Prop := ∀ j, w.bg j = false → w.slots p j = none

/-- Nobody who is free gets a group. -/
def Frees (w w' : GroupWorld) : Prop := ∀ p, w.Free p → w'.Free p

theorem Frees.of_groups (h : w'.groups = w.groups) : w.Frees w' := by
  intro p hp j hj
  unfold slots bg at *
  rw [h] at hj ⊢
  exact hp j hj

/-- One group changes, and the player is not new in it. -/
theorem Free.edit (hp : w.Free p) (k : Nat) (hne : ∀ j, j ≠ k → w'.groups j = w.groups j)
    (hk : w'.bg k = false → ((w'.groups k).slotOf p).isSome = true →
      w.bg k = false ∧ ((w.groups k).slotOf p).isSome = true) : w'.Free p := by
  intro j hj
  by_cases he : j = k
  · subst he
    by_contra hs
    obtain ⟨hb, hs⟩ := hk hj (ne_none_iff_isSome.mp hs)
    rw [show (w.groups j).slotOf p = none from hp j hb] at hs
    cases hs
  · unfold slots bg at *
    rw [hne j he] at hj ⊢
    exact hp j hj

theorem Frees.edit (k : Nat) (hne : ∀ j, j ≠ k → w'.groups j = w.groups j)
    (hk : w'.bg k = false → ∀ p, ((w'.groups k).slotOf p).isSome = true →
      w.bg k = false ∧ ((w.groups k).slotOf p).isSome = true) : w.Frees w' :=
  fun p hp => hp.edit k hne fun hb => hk hb p

/-- A group is written whose members are among those of the old one. -/
theorem Frees.setGroup (hb : g.bgGroup = (w.groups k).bgGroup)
    (hm : ∀ p, (g.slotOf p).isSome = true → ((w.groups k).slotOf p).isSome = true) :
    w.Frees (w.setGroup k g) := by
  refine .edit k (fun j hj => setGroup_groups_ne hj) fun hbg p hp => ?_
  unfold bg at hbg ⊢
  rw [setGroup_groups_self] at hbg hp
  exact ⟨hb ▸ hbg, hm p hp⟩

/-- A group without members is written. -/
theorem Frees.empty (hm : g.memberSlots = []) : w.Frees (w.setGroup k g) := by
  refine .edit k (fun j hj => setGroup_groups_ne hj) fun _ p hp => ?_
  rw [setGroup_groups_self, Group.slotOf_nil hm] at hp
  cases hp

theorem Frees.trans {u v : GroupWorld} (h : w.Frees u) (h' : u.Frees v) : w.Frees v :=
  fun p hp => h' p (h p hp)

theorem frees_disband : w.Frees (w.disband k) := by
  refine .trans (u := w.setGroup k {}) (.empty rfl) (.of_groups rfl)

theorem frees_setLeader (p : Nat) : w.Frees (w.setGroup k ((w.groups k).setLeader p)) := by
  refine .setGroup Group.setLeader_bgGroup fun q hq => ?_
  rwa [Group.slotOf_congr Group.setLeader_memberSlots] at hq

theorem frees_chooseLeader (offline : Bool) : w.Frees (w.chooseLeader k offline) := by
  rcases chooseLeader_cases w k offline with ⟨he, -⟩ | ⟨p, -, he⟩
  · rw [he]
    exact .of_groups rfl
  · rw [he]
    exact frees_setLeader p

theorem slotOf_isSome_removeSlot (h : Keyed MemberSlot.guid g.memberSlots)
    (hs : ((g.removeSlot guid).slotOf p).isSome = true) : (g.slotOf p).isSome = true := by
  cases hg : g.getMemberSlot guid with
  | none =>
    unfold Group.removeSlot at hs
    rwa [hg] at hs
  | some x =>
    rw [Group.slotOf_removeSlot h (i := x.1) (s := x.2) hg] at hs
    split_ifs at hs with he
    · cases hs
    · exact hs

theorem removeSlot_bgGroup : (g.removeSlot guid).bgGroup = g.bgGroup := by
  unfold Group.removeSlot
  cases g.getMemberSlot guid <;> rfl

theorem frees_removeMember (h : w.Linked) (hin : w.between guid = false) :
    w.Frees (w.removeMember k guid) := by
  unfold GroupWorld.removeMember
  dsimp only
  split_ifs
  · obtain ⟨w₁, he, hg, -⟩ := removeSlot_eq (k := k) hin
    have h₁ : w.Frees w₁ := by
      refine .trans (u := w.setGroup k ((w.groups k).removeSlot guid)) ?_ (.of_groups hg)
      exact .setGroup removeSlot_bgGroup fun p hp => slotOf_isSome_removeSlot (h.group k).keyed hp
    rw [he]
    split_ifs
    · exact h₁.trans (frees_chooseLeader false)
    · exact h₁
  · exact frees_disband

/-- A slot is written again with another subgroup. -/
theorem frees_setMembersGroup {group : UInt8} {c : Group → Group}
    (hc : ∀ g, (c g).memberSlots = g.memberSlots ∧ (c g).bgGroup = g.bgGroup)
    (h : w.Linked) (hg : (w.groups k).setMembersGroup guid group = some g) :
    w.Frees (w.setGroup k (c g)) := by
  obtain ⟨⟨i, s⟩, hs, rfl⟩ := map_eq_some_iff.mp hg
  refine .setGroup ((hc _).2.trans rfl) fun p hp => ?_
  rw [Group.slotOf_congr (hc _).1, Group.slotOf_set (h.group k).keyed hs rfl] at hp
  split_ifs at hp with he
  · rw [he, Group.slotOf_eq_of_slot hs]
    rfl
  · exact hp

theorem frees_changePlayersGroup {group : UInt8} (h : w.Linked) :
    w.Frees (w.changePlayersGroup k guid group) := by
  dsimp only [GroupWorld.changePlayersGroup]
  split
  · exact .of_groups rfl
  split
  · exact .of_groups rfl
  split
  · exact .of_groups rfl
  split
  · exact .of_groups rfl
  split
  · exact .of_groups rfl
  rename_i g hg
  exact .trans (frees_setMembersGroup (c := (·.subGroupCounterDecrease _)) (fun _ => ⟨rfl, rfl⟩) h hg)
    (.of_groups rfl)

theorem frees_changeMembersGroup {group : UInt8} (h : w.Linked) :
    w.Frees (w.changeMembersGroup k guid group) := by
  dsimp only [GroupWorld.changeMembersGroup]
  split
  · exact .of_groups rfl
  split
  · exact .of_groups rfl
  split
  · exact frees_changePlayersGroup h
  split
  · exact .of_groups rfl
  split
  · exact .of_groups rfl
  rename_i g hg
  exact frees_setMembersGroup (c := (·.subGroupCounterDecrease _)) (fun _ => ⟨rfl, rfl⟩) h hg

theorem groups_setSubGroup (group : UInt8) : (w.setSubGroup k guid group).groups = w.groups := by
  unfold GroupWorld.setSubGroup
  split <;> rfl

theorem frees_swapMembersGroup {swapGuid : Nat} (h : w.Linked) :
    w.Frees (w.swapMembersGroup k guid swapGuid) := by
  dsimp only [GroupWorld.swapMembersGroup]
  split
  · exact .of_groups rfl
  split
  · exact .of_groups rfl
  rename_i hne
  split
  · exact .of_groups rfl
  rename_i g hg
  refine .trans (u := w.setGroup k g) ?_
    (.of_groups ((groups_setSubGroup _).trans (groups_setSubGroup _)))
  have hswap := hg
  unfold Group.swapSlots at hg
  split at hg
  · rename_i i s j t hs ht
    have hguid : guid ≠ swapGuid := fun he => hne (.inl (by rw [he]))
    refine .setGroup (by rw [← some.inj hg]) fun p hp => ?_
    rw [Group.slotOf_swapSlots (h.group k).keyed hs ht hguid hswap] at hp
    split_ifs at hp with h1 h2
    · rw [h1, Group.slotOf_eq_of_slot hs]
      rfl
    · rw [h2, Group.slotOf_eq_of_slot ht]
      rfl
    · exact hp
  · cases hg

/-- The raid of a battleground is none of the groups that count. -/
theorem Frees.of_bg (hb : w'.bg k = true) (hne : ∀ j, j ≠ k → w'.groups j = w.groups j) :
    w.Frees w' := by
  refine .edit k hne fun h => ?_
  rw [hb] at h
  cases h

/-- An addition to a group, which keeps its kind. -/
theorem addMember_edit (ha : w.addMember k guid = some w') :
    (∀ j, j ≠ k → w'.groups j = w.groups j) ∧ w'.bg = w.bg := by
  obtain ⟨sub, hg, -⟩ := LfgWorld.addMember_groups ha
  have hne : ∀ j, j ≠ k → w'.groups j = w.groups j := fun j hj => by
    rw [hg, setGroup_groups_ne hj]
  refine ⟨hne, funext fun j => ?_⟩
  unfold bg
  by_cases hj : j = k
  · rw [hg, hj, setGroup_groups_self]
    rfl
  · rw [hne j hj]

/-- Only the one who is added is new. -/
theorem Free.addMember (hp : w.Free p) (ha : w.addMember k guid = some w') (hne : p ≠ guid) :
    w'.Free p := by
  obtain ⟨sub, hg, -⟩ := LfgWorld.addMember_groups ha
  obtain ⟨h1, h2⟩ := addMember_edit ha
  refine hp.edit k h1 fun hb hs => ⟨by rw [← h2]; exact hb, ?_⟩
  rw [hg, setGroup_groups_self, Group.slotOf_isSome_iff] at hs
  obtain ⟨s, hs, he⟩ := hs
  rcases List.mem_append.mp hs with hs | hs
  · exact Group.slotOf_isSome_iff.mpr ⟨s, hs, he⟩
  · rw [List.mem_singleton.mp hs] at he
    exact absurd he.symm hne

theorem create_edit (hc : w.create k guid = some w') :
    (∀ j, j ≠ k → w'.groups j = w.groups j) ∧ w'.bg = w.bg := by
  obtain ⟨g, hg, hc⟩ : ∃ g : Group, g.bgGroup = (w.groups k).bgGroup ∧
      (w.setGroup k g).addMember k guid = some w' := by
    refine ⟨_, ?_, hc⟩
    split <;> rfl
  obtain ⟨h1, h2⟩ := addMember_edit hc
  refine ⟨fun j hj => (h1 j hj).trans (setGroup_groups_ne hj), h2.trans (funext fun j => ?_)⟩
  unfold bg
  by_cases hj : j = k
  · rw [hj, setGroup_groups_self, hg]
  · rw [setGroup_groups_ne hj]

theorem create_isMember (hc : w.create k guid = some w') : (w'.groups k).isMember guid = true := by
  obtain ⟨g, hc⟩ : ∃ g, (w.setGroup k g).addMember k guid = some w' := ⟨_, hc⟩
  obtain ⟨sub, hg, -⟩ := LfgWorld.addMember_groups hc
  rw [hg, setGroup_groups_self, Group.isMember_iff, Group.slotOf_isSome_iff]
  exact ⟨_, List.mem_append_right _ (List.mem_singleton_self _), rfl⟩

theorem Free.create (hp : w.Free p) (hc : w.create k guid = some w') (hne : p ≠ guid) : w'.Free p := by
  obtain ⟨g, hb, hm, hc⟩ : ∃ g : Group, g.bgGroup = (w.groups k).bgGroup ∧
      g.memberSlots = (w.groups k).memberSlots ∧ (w.setGroup k g).addMember k guid = some w' := by
    refine ⟨_, ?_, ?_, hc⟩
    · split <;> rfl
    · split <;> rfl
  have hg : (w.setGroup k g).Free p :=
    Frees.setGroup hb (fun q hq => by rwa [Group.slotOf_congr hm] at hq) p hp
  exact hg.addMember hc hne

theorem frees_joinBattleGround : w.Frees (w.joinBattleGround k guid) := by
  dsimp only [GroupWorld.joinBattleGround]
  split
  · exact .of_groups rfl
  split
  · exact .of_groups rfl
  rename_i hb
  have hb : w.bg k = true := by simpa [bg] using hb
  split
  · cases hc : w.create k guid with
    | none => exact .of_groups rfl
    | some w' =>
      obtain ⟨h1, h2⟩ := create_edit hc
      exact .of_bg (by rw [getD_some, h2]; exact hb) h1
  split
  · exact .of_groups rfl
  split
  · exact .of_groups rfl
  rename_i w' ha
  obtain ⟨h1, h2⟩ := addMember_edit ha
  have h' : w.Frees w' := .of_bg (by rw [h2]; exact hb) h1
  split
  · exact h'.trans (frees_setLeader guid)
  · exact h'

theorem frees_uninviteFromGroup : w.Frees (w.uninviteFromGroup guid) := by
  dsimp only [GroupWorld.uninviteFromGroup]
  split
  · exact .of_groups rfl
  rename_i pl _
  split
  · exact .of_groups rfl
  split
  · exact .trans (u := w.setPlayer guid { pl with groupInvite := none }) (.of_groups rfl)
      frees_disband
  · exact .of_groups rfl

theorem frees_handleGroupInvite {invited : Nat} {allowed : Bool} :
    w.Frees (w.handleGroupInvite guid invited allowed) := by
  dsimp only [GroupWorld.handleGroupInvite]
  split
  · split
    · exact .of_groups rfl
    split
    · rename_i k _
      split
      · exact .of_groups rfl
      cases hi : w.addInvite k invited with
      | none => exact .of_groups rfl
      | some w' => exact .of_groups (addInvite_eq hi).1
    · -- a new group for the two of them
      cases hi : ({ w.setGroup w.nextGroup { leaderGuid := guid } with
          nextGroup := w.nextGroup + 1 } : GroupWorld).addInvite w.nextGroup guid with
      | none => exact .of_groups rfl
      | some w₂ =>
        have h₂ : w.Frees w₂ := .trans (.empty rfl) (.of_groups (addInvite_eq hi).1)
        rw [bind_some]
        cases hi' : w₂.addInvite w.nextGroup invited with
        | none => exact .of_groups rfl
        | some w₃ => exact h₂.trans (.of_groups (addInvite_eq hi').1)
  · exact .of_groups rfl

/-- Who gets a group by an acceptance: the player himself, and the leader when it forms the group. -/
def joins (w : GroupWorld) (guid : Nat) : List Nat :=
  guid :: (((w.getPlayer guid).bind (·.groupInvite)).filter fun k =>
    (w.groups k).memberSlots.isEmpty).toList.map fun k => (w.groups k).leaderGuid

/-- An acceptance only concerns those who join. -/
theorem free_handleGroupAccept {allowed : Bool} (hp : allowed = true → p ∉ w.joins guid)
    (hfree : w.Free p) : (w.handleGroupAccept guid allowed).Free p := by
  dsimp only [GroupWorld.handleGroupAccept]
  split
  · exact hfree
  rename_i pl hpl
  split
  · exact hfree
  rename_i k hk
  split
  · exact hfree
  have h₁ : (w.setPlayer guid { pl with groupInvite := none }).Free p :=
    Frees.of_groups rfl p hfree
  split
  · exact h₁
  rename_i hallowed
  rw [Bool.or_eq_true, not_or] at hallowed
  have hp := hp (by simpa using hallowed.2)
  have hguid : p ≠ guid := fun he => hp (he ▸ List.mem_cons_self)
  split
  · exact h₁
  rename_i w₂ hw₂
  have h₂ : w₂.Free p := by
    unfold GroupWorld.formGroup at hw₂
    dsimp only [setPlayer_groups] at hw₂
    split_ifs at hw₂ with hempty
    · refine h₁.create hw₂ fun he => hp (List.mem_cons_of_mem _ ?_)
      simp [hpl, hk, hempty, he]
    · obtain rfl := some.inj hw₂
      exact h₁
  cases ha : w₂.addMember k guid with
  | none => exact h₂
  | some w₃ => exact h₂.addMember ha hguid

/-- A step on the groups other than an acceptance leaves everybody free who was. -/
theorem frees_step {i : GroupInput} (h : w.Linked) (ho : w.Orderly i = true)
    (hi : ∀ guid allowed, i ≠ .accept guid allowed) : w.Frees (w.step i) := by
  cases i with
  | invite => exact frees_handleGroupInvite
  | accept guid allowed => exact absurd rfl (hi guid allowed)
  | uninvite => exact frees_uninviteFromGroup
  | convertToRaid k =>
    show w.Frees (w.convertToRaid k)
    unfold GroupWorld.convertToRaid
    split_ifs
    · exact .of_groups rfl
    · exact .setGroup rfl fun q hq => hq
  | removeMember k guid =>
    exact frees_removeMember h ((Bool.not_eq_true' _).mp ((Bool.and_eq_true _ _).mp ho).1)
  | changeLeader k guid => exact frees_setLeader guid
  | updateOfflineLeader k due =>
    show w.Frees (w.updateOfflineLeader k due)
    unfold GroupWorld.updateOfflineLeader
    split_ifs
    · exact .of_groups rfl
    · exact .of_groups rfl
    · exact .of_groups rfl
    · exact frees_chooseLeader true
  | changeMembersGroup => exact frees_changeMembersGroup h
  | changePlayersGroup => exact frees_changePlayersGroup h
  | swapMembersGroup => exact frees_swapMembersGroup h
  | swapPlayersGroup k guid swapGuid =>
    show w.Frees (w.swapPlayersGroup k guid swapGuid)
    unfold GroupWorld.swapPlayersGroup
    split
    · exact frees_swapMembersGroup h
    · exact .of_groups rfl
  | newBattleGround => exact .trans (.empty rfl) (.of_groups rfl)
  | joinBattleGround => exact frees_joinBattleGround
  | login guid =>
    refine .of_groups ?_
    show (w.login guid).groups = w.groups
    unfold GroupWorld.login
    split <;> rfl
  | logout => exact .trans frees_uninviteFromGroup (.of_groups rfl)
  | setInWorld guid inWorld =>
    refine .of_groups ?_
    show (w.setInWorld guid inWorld).groups = w.groups
    unfold GroupWorld.setInWorld
    split <;> rfl

end GroupWorld

namespace LfgWorld

open GroupWorld (Free)

variable {w w' : LfgWorld} {guid k id p : Nat} {role : ClassRole}

/-- No player of the queue is a member of a group of the queue. -/
def Separate (w : LfgWorld) : Prop :=
  ∀ p, w.queue.queuedPlayers.contains p = true → ∀ id, w.queue.queuedGroups.contains id = true →
    ∀ k, w.getGroupById id = some k → (w.groups.groups k).isMember p = false

/-- The players of the queue are in no group. -/
structure Alone (w : LfgWorld) : Prop where
  linked : w.groups.Linked
  free : ∀ p, w.queue.queuedPlayers.contains p = true → w.groups.Free p

/-- During an update they are in the world besides. -/
structure Ready (w : LfgWorld) : Prop extends Alone w where
  online : ∀ p, w.queue.queuedPlayers.contains p = true → (w.groups.getPlayer p).isSome = true

theorem getGroupById_eq_some (h : w.getGroupById id = some k) :
    w.groups.bg k = false ∧ (w.groups.groups k).memberSlots ≠ [] := by
  unfold getGroupById at h
  split_ifs at h with hid hb
  obtain rfl := some.inj h
  rw [Bool.or_eq_true, not_or, Bool.not_eq_true, List.isEmpty_iff] at hb
  exact hb

theorem Alone.separate (h : w.Alone) : w.Separate := by
  intro p hp id _ k hk
  have hnone := h.free p hp k (getGroupById_eq_some hk).1
  rw [← Bool.not_eq_true, Group.isMember_iff, show (w.groups.groups k).slotOf p = none from hnone]
  simp

/-- Only the groups and the players of the queue count. -/
theorem Alone.congr (h : w.Alone) (hg : w'.groups = w.groups)
    (hq : ∀ p, w'.queue.queuedPlayers.contains p = true → w.queue.queuedPlayers.contains p = true) :
    w'.Alone := by
  refine ⟨by rw [hg]; exact h.linked, fun p hp => ?_⟩
  rw [hg]
  exact h.free p (hq p hp)

theorem Ready.congr (h : w.Ready) (hg : w'.groups = w.groups)
    (hq : w'.queue.queuedPlayers = w.queue.queuedPlayers) : w'.Ready := by
  refine ⟨h.toAlone.congr hg (by rw [hq]; exact fun _ hp => hp), ?_⟩
  rw [hg, hq]
  exact h.online

theorem contains_erase {m : SortedMap Nat LfgPlayerQueueInfo} :
    (m.erase guid).contains p = true ↔ p ≠ guid ∧ m.contains p = true := by
  unfold contains
  rw [find_erase]
  split_ifs with h <;> simp [h]

theorem contains_insert {m : SortedMap Nat LfgPlayerQueueInfo} {info : LfgPlayerQueueInfo} :
    (m.insert guid info).contains p = true ↔ p = guid ∨ m.contains p = true := by
  unfold contains
  rw [find_insert]
  split_ifs with h <;> simp [h]

/-! ## Calls on the queue -/

theorem removeGroupFromQueue_keeps (w : LfgWorld) (id : Nat) :
    (w.removeGroupFromQueue id).groups = w.groups ∧
      (w.removeGroupFromQueue id).queue.queuedPlayers = w.queue.queuedPlayers := by
  unfold removeGroupFromQueue
  split_ifs
  · cases w.getGroupById id <;> exact ⟨rfl, rfl⟩
  · exact ⟨rfl, rfl⟩

theorem updateGroup_keeps (w : LfgWorld) (id : Nat) :
    (w.updateGroup id).groups = w.groups ∧
      (w.updateGroup id).queue.queuedPlayers = w.queue.queuedPlayers := by
  unfold updateGroup
  split
  · exact ⟨rfl, rfl⟩
  · split_ifs <;> exact ⟨rfl, rfl⟩

/-- A player without a reference to a group is in none. -/
theorem slots_of_getGroup (h : w.groups.Linked) (hin : (w.groups.getPlayer guid).isSome = true)
    (hg : w.getGroup guid = none) (j : Nat) : w.groups.slots guid j = none := by
  obtain ⟨pl, hpl⟩ := isSome_iff_exists.mp hin
  have hp := (GroupWorld.getPlayer_eq_some hpl).1
  have href := h.player guid pl hp
  have hnone : pl.group.target = none := by
    unfold getGroup at hg
    rwa [hpl] at hg
  by_contra hs
  rcases href.slot_isSome.mp (ne_none_iff_isSome.mp hs) with hj | hj
  · rw [hnone] at hj
    cases hj
  · obtain ⟨-, b, hb, -⟩ := href.original j hj
    rw [hnone] at hb
    cases hb

theorem addToQueue_cases (w : LfgWorld) (guid : Nat) (area : UInt32) :
    (w.addToQueue guid area).groups = w.groups ∧
      ∀ p, (w.addToQueue guid area).queue.queuedPlayers.contains p = true →
        w.queue.queuedPlayers.contains p = true ∨
          (p = guid ∧ (w.groups.getPlayer guid).isSome = true ∧ w.getGroup guid = none) := by
  unfold addToQueue
  dsimp only
  split_ifs with hin
  · exact ⟨rfl, fun p hp => .inl hp⟩
  · split
    · split_ifs
      · exact ⟨rfl, fun p hp => .inl hp⟩
      · exact ⟨rfl, fun p hp => .inl hp⟩
    · rename_i hg
      refine ⟨rfl, fun p hp => ?_⟩
      rcases contains_insert.mp hp with rfl | hp
      · rw [isNone_iff_eq_none] at hin
        exact .inr ⟨rfl, isSome_iff_ne_none.mpr hin, hg⟩
      · exact .inl hp

theorem Alone.addToQueue (h : w.Alone) (guid : Nat) (area : UInt32) :
    (w.addToQueue guid area).Alone := by
  obtain ⟨hg, hq⟩ := addToQueue_cases w guid area
  refine ⟨by rw [hg]; exact h.linked, fun p hp => ?_⟩
  rw [hg]
  rcases hq p hp with hp | ⟨rfl, hin, hnone⟩
  · exact h.free p hp
  · exact fun j _ => slots_of_getGroup h.linked hin hnone j

theorem Alone.removeGroupFromQueue (h : w.Alone) (id : Nat) : (w.removeGroupFromQueue id).Alone := by
  obtain ⟨hg, hq⟩ := removeGroupFromQueue_keeps w id
  exact h.congr hg (by rw [hq]; exact fun _ hp => hp)

theorem Alone.updateGroup (h : w.Alone) (id : Nat) : (w.updateGroup id).Alone := by
  obtain ⟨hg, hq⟩ := updateGroup_keeps w id
  exact h.congr hg (by rw [hq]; exact fun _ hp => hp)

theorem Alone.removePlayerFromQueue (h : w.Alone) (guid : Nat) :
    (w.removePlayerFromQueue guid).Alone :=
  h.congr rfl fun _ hp => (contains_erase.mp hp).2

/-! ## Updates -/

/-- A group gets a player who is in none of its kind. -/
theorem addMember_spec (h : w.groups.Linked) (hm : (w.groups.groups k).memberSlots ≠ [])
    (hin : (w.groups.getPlayer guid).isSome = true)
    (hnew : ∀ j, w.groups.bg j = w.groups.bg k → w.groups.slots guid j = none) :
    (w.addMember k guid).groups.Linked ∧
      (∀ q, q ≠ guid → w.groups.Free q → (w.addMember k guid).groups.Free q) ∧
      (∀ q, q ≠ guid → (w.addMember k guid).groups.getPlayer q = w.groups.getPlayer q) ∧
      (w.addMember k guid).groups.bg k = w.groups.bg k ∧
      ((w.addMember k guid).groups.groups k).memberSlots ≠ [] := by
  obtain ⟨pl, hpl⟩ := isSome_iff_exists.mp hin
  have hbetween := GroupWorld.not_between_of_getPlayer hpl
  unfold addMember
  cases ha : w.groups.addMember k guid with
  | none => exact ⟨h, fun _ _ hq => hq, fun _ _ => rfl, rfl, hm⟩
  | some w' =>
    obtain ⟨-, hbg⟩ := GroupWorld.addMember_edit ha
    obtain ⟨sub, hgroups, -⟩ := addMember_groups ha
    have hk : k < w.groups.nextGroup := by
      by_contra hle
      exact hm (h.ids k (Nat.not_lt.mp hle)).1
    refine ⟨?_, fun q hq hf => hf.addMember ha hq, fun q hq => ?_, by rw [getD_some, hbg], ?_⟩
    · refine h.addMember (g := w.groups.groups k) rfl rfl (h.group k).toSeated
        (.inr ((h.group k).leader hm)) hk hbetween hnew ?_
      rw [GroupWorld.setGroup_self]
      exact ha
    · obtain ⟨_, _, _, _, _, hplayers, _⟩ := GroupWorld.addMember_cases ha hbetween
      unfold GroupWorld.getPlayer
      rw [getD_some, hplayers q hq]
    · rw [getD_some, hgroups, GroupWorld.setGroup_groups_self]
      exact List.append_ne_nil_of_right_ne_nil _ (List.cons_ne_nil _ _)

/-- A group that `GetGroupById` gives. -/
def Known (w : LfgWorld) (k : Nat) : Prop :=
  w.groups.bg k = false ∧ (w.groups.groups k).memberSlots ≠ []

theorem findRoleToGroup_ready (h : w.Ready) (hk : w.Known k) (guid : Nat) (role : ClassRole) :
    (w.findRoleToGroup guid k role).2.Ready ∧ (w.findRoleToGroup guid k role).2.Known k := by
  unfold findRoleToGroup
  split
  · rename_i group info _ hp
    have hin : w.queue.queuedPlayers.contains guid = true := by
      unfold contains
      rw [hp]
      rfl
    dsimp only
    split_ifs
    · exact ⟨h.congr rfl rfl, hk⟩
    · generalize hw₁ : setQueuedGroups (addEvent w (.asked _ guid info group role true)) _ = w₁
      obtain ⟨hg, hq⟩ : w₁.groups = w.groups ∧ w₁.queue.queuedPlayers = w.queue.queuedPlayers := by
        rw [← hw₁]
        exact ⟨rfl, rfl⟩
      have h₁ : w₁.Ready := h.congr hg hq
      have hk₁ : w₁.Known k := by
        unfold Known
        rw [hg]
        exact hk
      rw [← hq] at hin
      obtain ⟨hl, hfree, hplayers, hb, hm⟩ := addMember_spec h₁.linked hk₁.2 (h₁.online guid hin)
        fun j hj => h₁.free guid hin j (hj.trans hk₁.1)
      refine ⟨⟨⟨hl, fun p hp => ?_⟩, fun p hp => ?_⟩, hb.trans hk₁.1, hm⟩
      · obtain ⟨hne, hp⟩ := contains_erase.mp hp
        exact hfree p hne (h₁.free p hp)
      · obtain ⟨hne, hp⟩ := contains_erase.mp hp
        show ((w₁.addMember k guid).groups.getPlayer p).isSome = true
        rw [hplayers p hne]
        exact h₁.online p hp
  · exact ⟨h, hk⟩

theorem tryRoles_ready (id guid : Nat) (roleMask : UInt32) (roles : List ClassRole)
    (h : w.Ready) (hk : w.Known k) :
    (tryRoles id k guid roleMask roles w).2.Ready ∧
      (tryRoles id k guid roleMask roles w).2.Known k := by
  induction roles generalizing w with
  | nil => exact ⟨h, hk⟩
  | cons role roles ih =>
    unfold tryRoles
    split_ifs
    · exact ih h hk
    · obtain ⟨h', hk'⟩ := findRoleToGroup_ready h hk guid role
      split
      · rename_i w' hw
        rw [hw] at h' hk'
        exact ⟨h', hk'⟩
      · rename_i w' hw
        rw [hw] at h' hk'
        exact ih h' hk'
    · exact ih h hk

theorem fillGroup_ready (id : Nat) (guids : List Nat) (h : w.Ready) (hk : w.Known k) :
    (fillGroup id k guids w).Ready := by
  induction guids generalizing w with
  | nil => exact h
  | cons guid guids ih =>
    unfold fillGroup
    split
    · rename_i info group _ _
      split_ifs
      · obtain ⟨h', hk'⟩ := tryRoles_ready id guid info.roleMask potentialRoles h hk
        dsimp only
        split_ifs
        · exact h'
        · exact ih h' hk'
      · exact ih h hk
    · exact ih h hk

theorem Ready.removeGroupFromQueue (h : w.Ready) (id : Nat) : (w.removeGroupFromQueue id).Ready := by
  obtain ⟨hg, hq⟩ := removeGroupFromQueue_keeps w id
  exact h.congr hg hq

theorem fillGroups_ready {diff : UInt32} {ids : List Nat} (h : w.Ready) :
    (fillGroups diff ids w).Ready := by
  induction ids generalizing w with
  | nil => exact h
  | cons id ids ih =>
    unfold fillGroups
    split
    · exact ih (h.congr rfl rfl)
    · rename_i k hk
      have h' := fillGroup_ready id w.queue.queuedPlayers.keys h
        (getGroupById_eq_some hk)
      dsimp only
      split_ifs
      · exact h.removeGroupFromQueue id
      · exact h'.removeGroupFromQueue id
      · exact ih (h'.congr rfl rfl)

/-- After the timers only players in the world are left. -/
theorem updatePlayers_ready (h : w.Alone) (diff : UInt32) : (w.updatePlayers diff).Ready := by
  have hmem : ∀ p, (w.updatePlayers diff).queue.queuedPlayers.contains p = true →
      w.queue.queuedPlayers.contains p = true ∧ (w.groups.getPlayer p).isSome = true := by
    intro p hp
    unfold updatePlayers contains at hp
    dsimp only at hp
    rw [find_mapVal, isSome_map, find_filter] at hp
    obtain ⟨info, hi⟩ := isSome_iff_exists.mp hp
    obtain ⟨hi, hf⟩ := filter_eq_some_iff.mp hi
    exact ⟨by unfold contains; rw [hi]; rfl, hf⟩
  exact ⟨h.congr rfl fun p hp => (hmem p hp).1, fun p hp => (hmem p hp).2⟩

theorem contains_of_mem {m : SortedMap Nat LfgPlayerQueueInfo} {x : Nat × LfgPlayerQueueInfo}
    (h : x ∈ m.entries) : m.contains x.1 = true :=
  mem_keys_iff.mp (List.mem_map_of_mem h)

/-- A new group is made for a player who is in none. -/
theorem createGroup_spec {w w' : GroupWorld} (h : w.Linked) (hin : w.between guid = false)
    (hfree : w.Free guid) (hc : createGroup w guid = some w') :
    w'.Linked ∧ (∀ q, q ≠ guid → w.Free q → w'.Free q) ∧
      (∀ q, q ≠ guid → w'.getPlayer q = w.getPlayer q) ∧ w'.bg w.nextGroup = false ∧
      (w'.groups w.nextGroup).memberSlots ≠ [] := by
  unfold createGroup at hc
  generalize hw₁ : ({ w.setGroup w.nextGroup {} with nextGroup := w.nextGroup + 1 } : GroupWorld) = w₁
    at hc
  have h₁ : w₁.Linked := by
    rw [← hw₁]
    exact h.newGroup rfl rfl rfl
  have hg : w₁.groups w.nextGroup = {} := by
    rw [← hw₁]
    exact if_pos rfl
  have hplayers : w₁.players = w.players := by
    rw [← hw₁]
    rfl
  have hf : w.Frees w₁ := by
    rw [← hw₁]
    exact .trans (.empty rfl) (.of_groups rfl)
  have hb : w₁.bg w.nextGroup = false := by
    unfold GroupWorld.bg
    rw [hg]
  have hempty : (w₁.groups w.nextGroup).memberSlots = [] := by rw [hg]
  have hin₁ : w₁.between guid = false := by
    unfold GroupWorld.between at hin ⊢
    rw [hplayers]
    exact hin
  have hlt : w.nextGroup < w₁.nextGroup := by
    rw [← hw₁]
    exact Nat.lt_succ_self _
  refine ⟨h₁.create hempty hlt hin₁ (fun j hj => hf guid hfree j (hj.trans hb)) hc,
    fun q hq hfq => (hf q hfq).create hc hq, fun q hq => ?_, ?_, ?_⟩
  · unfold GroupWorld.getPlayer
    rw [(GroupWorld.create_frame hc hin₁ hempty hq).1, hplayers]
  · rw [(GroupWorld.create_edit hc).2]
    exact hb
  · exact (GroupWorld.create_frame hc hin₁ hempty (Nat.succ_ne_self guid)).2.2.2.2

theorem formGroup_alone (h : w.Ready) : w.formGroup.Alone := by
  unfold formGroup
  split
  · exact h.toAlone
  rename_i leader member hpair
  obtain ⟨hleader, hmember, hne, -, -⟩ := firstPair_eq_some hpair
  have hleader := contains_of_mem hleader
  have hmember := contains_of_mem hmember
  dsimp only
  split_ifs
  · exact h.toAlone.congr rfl fun _ hp => hp
  split
  · exact h.toAlone.congr rfl fun _ hp => hp
  rename_i groups hc
  obtain ⟨pl, hpl⟩ := isSome_iff_exists.mp (h.online _ hleader)
  obtain ⟨hl, hfree, hplayers, hb, hm⟩ := createGroup_spec h.linked
    (GroupWorld.not_between_of_getPlayer hpl) (h.free _ hleader) hc
  generalize hw₁ : addEvent { w with groups } _ = w₁
  have hg : w₁.groups = groups := by rw [← hw₁]; rfl
  have hq : w₁.queue.queuedPlayers = w.queue.queuedPlayers := by rw [← hw₁]; rfl
  rw [← hg] at hl hfree hplayers hb hm
  obtain ⟨hl₂, hfree₂, -, -⟩ := addMember_spec hl hm
    (by rw [hplayers _ hne]; exact h.online _ hmember)
    fun j hj => hfree _ hne (h.free _ hmember) j (hj.trans hb)
  -- the two who have a group now are taken out of the queue
  obtain ⟨hg₃, hq₃⟩ := addToQueue_cases (w₁.addMember w.groups.nextGroup member.1) leader.1
    leader.2.areaId
  refine ⟨?_, fun p hp => ?_⟩
  · show (addToQueue _ _ _).groups.Linked
    rw [hg₃]
    exact hl₂
  · obtain ⟨hp1, hp⟩ := contains_erase.mp hp
    obtain ⟨hp2, hp⟩ := contains_erase.mp hp
    show (addToQueue _ _ _).groups.Free p
    rw [hg₃]
    rcases hq₃ p hp with hp | ⟨rfl, -⟩
    · refine hfree₂ p hp1 (hfree p hp2 (h.free p ?_))
      rw [← hq]
      exact hp
    · exact absurd rfl hp2

theorem Alone.update (h : w.Alone) (diff : UInt32) : (w.update diff).Alone := by
  unfold LfgWorld.update
  split_ifs
  · exact h
  · exact formGroup_alone (fillGroups_ready (updatePlayers_ready h diff))

/-! ## The other finder -/

section

variable {group : Option Nat} {leader member : Nat}

/-- The group of an offer has members. Only a leader who is free gets a new one. -/
theorem offerGroup_spec (h : w.groups.Linked)
    (hm : ∀ k, group = some k → (w.groups.groups k).memberSlots ≠ [])
    (heq : w.offerGroup leader group = some (k, w')) :
    w'.groups.Linked ∧ (w'.groups.groups k).memberSlots ≠ [] ∧ w'.queue = w.queue ∧
      (∀ q, q ≠ leader → w.groups.Free q → w'.groups.Free q) ∧
      ∀ q, (w'.groups.groups k).isMember q = true ∨
        w'.groups.getPlayer q = w.groups.getPlayer q := by
  unfold offerGroup at heq
  split at heq
  · obtain ⟨rfl, rfl⟩ := Prod.mk.inj (some.inj heq)
    exact ⟨h, hm _ rfl, rfl, fun _ _ hq => hq, fun _ => .inr rfl⟩
  split_ifs at heq with hin
  rw [Bool.not_eq_true, isNone_eq_false_iff] at hin
  obtain ⟨pl, hpl⟩ := isSome_iff_exists.mp hin
  split at heq
  · rename_i k' hk'
    obtain ⟨rfl, rfl⟩ := Prod.mk.inj (some.inj heq)
    refine ⟨h, fun hnil => ?_, rfl, fun _ _ hq => hq, fun _ => .inr rfl⟩
    have ht : pl.group.target = some k' := by rwa [getGroup, hpl] at hk'
    have hs := (h.player leader pl (GroupWorld.getPlayer_eq_some hpl).1).slot_isSome.mpr (.inl ht)
    rw [show w.groups.slots leader k' = none from Group.slotOf_nil hnil] at hs
    cases hs
  · rename_i hnone
    obtain ⟨groups, hc, he⟩ := map_eq_some_iff.mp heq
    obtain ⟨rfl, rfl⟩ := Prod.mk.inj he
    obtain ⟨hl, hfree, hplayers, -, hm⟩ := createGroup_spec h
      (GroupWorld.not_between_of_getPlayer hpl) (fun j _ => slots_of_getGroup h hin hnone j) hc
    refine ⟨hl, hm, rfl, hfree, fun q => ?_⟩
    by_cases hq : q = leader
    · rw [hq]
      exact .inl (GroupWorld.create_isMember hc)
    · exact .inr (hplayers q hq)

/-- A player who was found is in no group, when he is not in `k` and has no other one. -/
theorem slots_eq_none (h : w.groups.Linked) (hin : (w.groups.getPlayer member).isSome = true)
    (hmember : ¬ (w.groups.groups k).isMember member = true)
    (hother : (w.getGroup member).any (· != k) = false) (j : Nat) :
    w.groups.slots member j = none := by
  refine slots_of_getGroup h hin (eq_none_iff_forall_ne_some.mpr fun k' hk' => hmember ?_) j
  rw [hk', any_some, bne_eq_false_iff_eq] at hother
  obtain ⟨pl, hpl⟩ := isSome_iff_exists.mp hin
  have ht : pl.group.target = some k := by rwa [getGroup, hpl, hother] at hk'
  exact Group.isMember_iff.mpr
    ((h.player member pl (GroupWorld.getPlayer_eq_some hpl).1).slot_isSome.mpr (.inl ht))

/-- Only the leader and the player himself get a group. -/
theorem addPlayerToGroup_spec (canGroup : Bool) (h : w.groups.Linked)
    (hm : ∀ k, group = some k → (w.groups.groups k).memberSlots ≠ []) :
    let r := w.addPlayerToGroup group leader member canGroup
    r.2.2.groups.Linked ∧ (∀ k, r.2.1 = some k → (r.2.2.groups.groups k).memberSlots ≠ []) ∧
      r.2.2.queue = w.queue ∧
      ∀ q, q ≠ leader → q ≠ member → w.groups.Free q → r.2.2.groups.Free q := by
  dsimp only
  unfold addPlayerToGroup
  split_ifs with hin
  · exact ⟨h, hm, rfl, fun _ _ _ hq => hq⟩
  split
  · exact ⟨h, fun _ hk => (nomatch hk), rfl, fun _ _ _ hq => hq⟩
  rename_i k w₁ ho
  obtain ⟨h₁, hm₁, hq₁, hfree₁, hplayers₁⟩ := offerGroup_spec h hm ho
  have hsame : ∀ j, some k = some j → (w₁.groups.groups j).memberSlots ≠ [] := fun j hj => by
    rwa [← some.inj hj]
  split_ifs with hmember hno
  · exact ⟨h₁, hsame, hq₁, fun q hl _ => hfree₁ q hl⟩
  · exact ⟨h₁, hsame, hq₁, fun q hl _ => hfree₁ q hl⟩
  · rw [Bool.not_eq_true, isNone_eq_false_iff] at hin
    rw [Bool.or_eq_true, Bool.or_eq_true, not_or, not_or, Bool.not_eq_true] at hno
    have hin₁ : (w₁.groups.getPlayer member).isSome = true := by
      rw [(hplayers₁ member).resolve_left hmember]
      exact hin
    obtain ⟨hl, hfree, -, -, hm₂⟩ := addMember_spec h₁ hm₁ hin₁
      fun j _ => slots_eq_none h₁ hin₁ hmember hno.1.1 j
    exact ⟨hl, fun j hj => by rwa [← some.inj hj], hq₁,
      fun q hleader hne hq => hfree q hne (hfree₁ q hleader hq)⟩

theorem completeOffer_spec (leader : Nat) (canGroup : Nat → Bool) (members : List Nat)
    (h : w.groups.Linked) (hm : ∀ k, group = some k → (w.groups.groups k).memberSlots ≠ []) :
    let w' := completeOffer leader canGroup members group w
    w'.groups.Linked ∧ w'.queue = w.queue ∧
      ∀ q, q ∉ leader :: members → w.groups.Free q → w'.groups.Free q := by
  dsimp only
  induction members generalizing group w with
  | nil => exact ⟨h, rfl, fun _ _ hq => hq⟩
  | cons member members ih =>
    obtain ⟨h₁, hm₁, hq₁, hfree₁⟩ := addPlayerToGroup_spec (canGroup member) h hm
    have hfirst : ∀ q, q ∉ leader :: member :: members → q ≠ leader ∧ q ≠ member := fun q hq => by
      rw [List.mem_cons, List.mem_cons, not_or, not_or] at hq
      exact ⟨hq.1, hq.2.1⟩
    unfold completeOffer
    split
    · rename_i group' w' heq
      rw [heq] at h₁ hm₁ hq₁ hfree₁
      obtain ⟨h₂, hq₂, hfree₂⟩ := ih h₁ hm₁
      refine ⟨h₂, hq₂.trans hq₁, fun q hq hf => ?_⟩
      obtain ⟨hleader, hmember⟩ := hfirst q hq
      refine hfree₂ q (fun hm => hq ?_) (hfree₁ q hleader hmember hf)
      rcases List.mem_cons.mp hm with rfl | hm
      · exact List.mem_cons_self
      · exact List.mem_cons_of_mem _ (List.mem_cons_of_mem _ hm)
    · rename_i group' w' heq
      rw [heq] at h₁ hq₁ hfree₁
      exact ⟨h₁, hq₁, fun q hq => hfree₁ q (hfirst q hq).1 (hfirst q hq).2⟩

end

/-! ## Runs -/

/-- The step is in order for the groups, and nobody gets a group by an acceptance or by an offer of
the other finder while he waits in the queue. -/
def Orderly (w : LfgWorld) : LfgInput → Bool
  | .accept guid allowed | .group (.accept guid allowed) => w.groups.Orderly (.accept guid allowed) &&
      (!allowed || (w.groups.joins guid).all fun p => !w.queue.queuedPlayers.contains p)
  | .removeMember k guid _ => w.groups.Orderly (.removeMember k guid)
  | .completeOffer leader members _ =>
    (leader :: members).all fun p => !w.queue.queuedPlayers.contains p
  | .group i => w.groups.Orderly i
  | _ => true

theorem Alone.accept {allowed : Bool} (h : w.Alone) (ho : w.Orderly (.accept guid allowed) = true) :
    (w.accept guid allowed).Alone := by
  obtain ⟨ho, hj⟩ := (Bool.and_eq_true _ _).mp ho
  have h₁ : ({ w with groups := w.groups.step (.accept guid allowed) } : LfgWorld).Alone := by
    refine ⟨GroupWorld.linked_step h.linked ho, fun p hp => ?_⟩
    refine GroupWorld.free_handleGroupAccept (fun ha hm => ?_) (h.free p hp)
    rw [ha, Bool.not_true, Bool.false_or, List.all_eq_true] at hj
    have := hj p hm
    rw [show w.queue.queuedPlayers.contains p = true from hp] at this
    cases this
  unfold LfgWorld.accept
  dsimp only
  split
  · exact h₁
  · split_ifs
    · exact h₁.updateGroup _
    · exact h₁

theorem Alone.removeMember {kick : Bool} (h : w.Alone)
    (ho : w.groups.Orderly (.removeMember k guid) = true) : (w.removeMember k guid kick).Alone := by
  have h₁ : ({ w with groups := w.groups.removeMember k guid } : LfgWorld).Alone :=
    ⟨GroupWorld.linked_step h.linked ho, fun p hp =>
      GroupWorld.frees_removeMember h.linked ((Bool.not_eq_true' _).mp ((Bool.and_eq_true _ _).mp ho).1)
        p (h.free p hp)⟩
  unfold LfgWorld.removeMember
  dsimp only
  generalize ({ w with groups := w.groups.removeMember k guid } : LfgWorld) = w₁ at h₁
  split
  · generalize hw₂ : (if (kick && _ && _) = true then _ else w₁ : LfgWorld) = w₂
    have h₂ : w₂.Alone := by
      rw [← hw₂]
      split_ifs
      · exact (h₁.removeGroupFromQueue _).addToQueue _ _
      · exact h₁
    generalize hw₃ : (if _ = guid then _ else w₂ : LfgWorld) = w₃
    have h₃ : w₃.Alone := by
      rw [← hw₃]
      split_ifs
      · exact h₂.removeGroupFromQueue _
      · exact h₂
    split
    · exact h₃.updateGroup _
    · exact h₃
  split
  · exact h₁.congr rfl fun _ hp => hp
  · exact h₁

/-- A step on the groups that is no acceptance. -/
theorem Alone.group {i : GroupInput} (h : w.Alone) (ho : w.groups.Orderly i = true)
    (hi : ∀ guid allowed, i ≠ .accept guid allowed) :
    ({ w with groups := w.groups.step i } : LfgWorld).Alone :=
  ⟨GroupWorld.linked_step h.linked ho, fun p hp => GroupWorld.frees_step h.linked ho hi p (h.free p hp)⟩

theorem alone_step {i : LfgInput} (h : w.Alone) (ho : w.Orderly i = true) : (w.step i).Alone := by
  cases i with
  | update diff => exact h.update diff
  | join guid area => exact h.addToQueue guid area
  | leave guid =>
    unfold step
    dsimp only
    split
    · split_ifs
      · exact h.removeGroupFromQueue _
      · exact h
    · exact h.removePlayerFromQueue guid
  | info guid =>
    show Alone (if _ then w else w.restoreOfflinePlayer guid)
    split_ifs with hc
    · exact h
    · rw [Bool.or_eq_true, not_or, Bool.not_eq_true, isNone_eq_false_iff, Bool.not_eq_true,
        isSome_eq_false_iff, isNone_iff_eq_none] at hc
      unfold restoreOfflinePlayer
      split
      · exact h
      · refine ⟨h.linked, fun p hp => ?_⟩
        rcases contains_insert.mp hp with rfl | hp
        · exact fun j _ => slots_of_getGroup h.linked hc.1 hc.2 j
        · exact h.free p hp
  | accept guid allowed => exact h.accept ho
  | removeMember k guid kick => exact h.removeMember ho
  | completeOffer leader members canGroup =>
    have ho := List.all_eq_true.mp ho
    have hnone : ∀ k, (none : Option Nat) = some k → (w.groups.groups k).memberSlots ≠ [] := by
      rintro k ⟨⟩
    obtain ⟨hl, hq, hfree⟩ := completeOffer_spec leader canGroup members h.linked hnone
    refine ⟨hl, fun p hp => ?_⟩
    have hp : w.queue.queuedPlayers.contains p = true := by rwa [← hq]
    refine hfree p (fun hm => ?_) (h.free p hp)
    have := ho p hm
    rw [hp] at this
    cases this
  | group i =>
    cases i with
    | accept guid allowed => exact h.accept ho
    | removeMember k guid => exact h.removeMember ho
    | _ => exact h.group ho fun _ _ he => by cases he
  | setCharacter guid c => exact h.congr rfl fun _ hp => hp

/-- What a step puts down in the log. -/
def events (w : LfgWorld) (i : LfgInput) : List LfgEvent := ({ w with log := [] }.step i).log

/-- From every state, what an update does is as it should be exactly when nothing was lost by the way
it compares. In a run in which nobody gets a group otherwise while he waits, nobody who waits alone is a
member of a group that waits. -/
theorem matched (w : LfgWorld) :
    (∀ i, (∀ e ∈ w.events i, e.Sound) ↔ ∀ e ∈ w.events i, e.Clear) ∧
    (w.Alone → ∀ is, AlongRun step (fun w i => w.Orderly i = true) w is →
      AlongRun step (fun w i => w.Separate ∧ (w.step i).Separate) w is) := by
  refine ⟨fun i => ?_, fun h is hrun => ?_⟩
  · obtain ⟨l, hl, he⟩ := step_logs { w with log := [] } i
    unfold events
    rw [hl]
    exact forall₂_congr fun e hm => he e hm
  · refine AlongRun.imp (fun s i hs ho => ?_) h hrun
    have h' := alone_step hs ho
    exact ⟨⟨hs.separate, h'.separate⟩, h'⟩

theorem alone_empty : ({} : LfgWorld).Alone := ⟨GroupWorld.linked_empty, fun _ h => by cases h⟩

end LfgWorld

/-! ## Meeting stones in runs -/

/-- A mage and a priest wait as a group, with a warrior and another mage alone. Then the other finder
makes a group of two players who do not wait here. -/
def meetingStoneRun : List LfgInput :=
  [.group (.login 1), .group (.login 2), .group (.login 3), .group (.login 4),
    .setCharacter 1 { playerClass := .mage }, .setCharacter 2 { playerClass := .priest },
    .setCharacter 4 { playerClass := .mage }, .group (.invite 1 2 true), .accept 2 true, .join 1 15,
    .join 3 15, .join 4 15, .update 1000, .group (.login 5), .group (.login 6),
    .completeOffer 5 [5, 6] fun _ => true]

theorem meetingStoneRun_matched :
    (∀ e ∈ (run LfgWorld.step {} meetingStoneRun).log, e.Sound) ∧
    ((run LfgWorld.step {} meetingStoneRun).groups.groups 0).memberSlots.length = 4 ∧
    AlongRun LfgWorld.step (fun w i => w.Separate ∧ (w.step i).Separate) {} meetingStoneRun :=
  ⟨by decide +kernel, by decide +kernel,
    (LfgWorld.matched {}).2 LfgWorld.alone_empty meetingStoneRun (by decide +kernel)⟩

/-- Five warriors wait for one area, the first of them hardcore. -/
def hardcoreRun : List LfgInput :=
  [.setCharacter 1 { isHardcore := true }] ++ (List.range' 1 5).flatMap fun p =>
    [.group (.login p), .join p 15]

/-- A mage and a priest wait for a tank, with a druid and a warrior. -/
def tankRun : List LfgInput :=
  [.group (.login 1), .group (.login 2), .group (.login 3), .group (.login 4),
    .setCharacter 1 { playerClass := .mage }, .setCharacter 2 { playerClass := .priest },
    .setCharacter 3 { playerClass := .druid }, .group (.invite 1 2 true), .accept 2 true, .join 1 15,
    .join 3 15, .join 4 15]

/-- A player who waits alone accepts the invitation of a group that waits. -/
def invitedRun : List LfgInput :=
  [.group (.login 1), .group (.login 2), .group (.login 3), .group (.invite 1 2 true),
    .accept 2 true, .join 1 15, .join 3 15, .group (.invite 1 3 true), .accept 3 true]

/-- Instead the other finder completes an offer for him and the leader. -/
def offeredRun : List LfgInput :=
  invitedRun.take 7 ++ [.completeOffer 1 [1, 3] fun _ => true]

/-- The hardcore player is put together with another one; the druid is taken as a tank before the
warrior; the one who accepted, or was offered the group, is in the queue and in a group of the
queue. -/
theorem runs_not_matched :
    ¬ (∀ e ∈ (run LfgWorld.step {} hardcoreRun).events (.update 1000), e.Sound) ∧
    ¬ (∀ e ∈ (run LfgWorld.step {} tankRun).events (.update 1000), e.Sound) ∧
    ¬ (run LfgWorld.step {} invitedRun).Separate ∧ ¬ (run LfgWorld.step {} offeredRun).Separate := by
  refine ⟨by decide +kernel, by decide +kernel, fun h => ?_, fun h => ?_⟩
  · exact absurd (h 3 (by decide +kernel) 1 (by decide +kernel) 0 (by decide +kernel))
      (by decide +kernel)
  · exact absurd (h 3 (by decide +kernel) 1 (by decide +kernel) 0 (by decide +kernel))
      (by decide +kernel)

end Windrunner
