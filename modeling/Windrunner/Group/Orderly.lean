import Windrunner.Group.Linked

/-!
# Orderly runs of the groups

`sObjectMgr.GetPlayer` finds a player only while he is in the world. The calls that change a slot
take a member who is between two maps for one who is offline, and do not touch his reference, which
he still has when he arrives. An acceptance forms the group of a leader who may have joined another
one since. `Orderly` leaves these steps out, and what no caller does.

- **Steps**: one lemma for each function; all of them go through `Linked.edit`.
- **Runs** (`structured_of_run`): in every orderly run the groups and the references agree.
-/

namespace Windrunner

open Lib List Function Option

namespace GroupWorld

variable {w w' : GroupWorld} {k guid swapGuid q : Nat} {g : Group} {pl : GroupPlayer} {group : UInt8}

/-! ## Joining -/

/-- What `_addMember` does to a player who is not between two maps. -/
theorem addMember_cases (heq : w.addMember k guid = some w') (hin : w.between guid = false) :
    ∃ sub, (w.groups k).freeSubGroup = some sub ∧ (w.groups k).isFull = false ∧
      w'.groups = (w.setGroup k ((w.groups k).addSlot guid sub)).groups ∧
      w'.nextGroup = w.nextGroup ∧ (∀ q, q ≠ guid → w'.players q = w.players q) ∧
      w'.players guid = (w.players guid).map fun pl =>
        let pl := { pl with groupInvite := none }
        if pl.group.target.isSome && (w.groups k).bgGroup then pl.setBattleGroundRaid k sub
        else if pl.group.target.isSome then pl.setOriginalGroup (some k) sub
        else pl.setGroup (some k) sub := by
  obtain ⟨sub, hsub, heq⟩ := bind_eq_some_iff.mp heq
  dsimp only [addMemberTo] at heq
  rw [show (w.setGroup k ((w.groups k).addSlot guid sub)).getPlayer guid = w.players guid from
    getPlayer_of_not_between hin] at heq
  split_ifs at heq with hfull
  rw [Bool.or_eq_true, not_or, Bool.not_eq_true] at hfull
  refine ⟨sub, hsub, hfull.1, ?_⟩
  cases hp : w.players guid with
  | none =>
    rw [hp] at heq
    obtain rfl := some.inj heq
    exact ⟨rfl, rfl, fun q hq => rfl, hp⟩
  | some pl =>
    rw [hp] at heq
    obtain rfl := some.inj heq
    exact ⟨rfl, rfl, fun q hq => setPlayer_players_ne hq, setPlayer_players_self⟩

/-- A player who has no group of the kind is added to `g`, which stands for group `k`. -/
theorem Linked.addMember (h : w.Linked) (hm : g.memberSlots = (w.groups k).memberSlots)
    (hbg : g.bgGroup = (w.groups k).bgGroup) (hseat : g.Seated)
    (hleader : g.leaderGuid = guid ∨ g.isMember g.leaderGuid = true) (hk : k < w.nextGroup)
    (hin : w.between guid = false) (hnew : ∀ j, w.bg j = w.bg k → w.slots guid j = none)
    (heq : (w.setGroup k g).addMember k guid = some w') : w'.Linked := by
  obtain ⟨sub, hsub, hfull, hgroups, hnext, hplayers, hguid⟩ := addMember_cases heq hin
  rw [setGroup_groups_self] at hsub hfull hgroups hguid
  have hgk : w'.groups k = g.addSlot guid sub := by rw [hgroups, setGroup_groups_self]
  have hgj : ∀ j, j ≠ k → w'.groups j = w.groups j := fun j hj => by
    rw [hgroups, setGroup_groups_ne hj, setGroup_groups_ne hj]
  have hnone : g.slotOf guid = none := (Group.slotOf_congr hm).trans (hnew k rfl)
  have hslot : ∀ q, (w'.groups k).slotOf q = if q = guid then some sub else (w.groups k).slotOf q := by
    intro q
    rw [hgk, Group.slotOf_addSlot hnone, Group.slotOf_congr hm]
  have hmem : ∀ p, (g.isMember p = true ∨ p = guid) → (w'.groups k).isMember p = true := by
    intro p hp
    rw [Group.isMember_iff, hgk, Group.slotOf_addSlot hnone]
    split_ifs with he
    · rfl
    · exact Group.isMember_iff.mp (hp.resolve_right he)
  refine h.edit k hgj ?_ hnext ?_ ?_ (fun hle => absurd hk (Nat.not_lt.mpr hle)) fun q => ?_
  · rw [hgk]; exact hbg
  · refine ⟨by rw [hgk]; exact hseat.addSlot hfull hnone hsub, fun _ => hmem _ ?_⟩
    rw [hgk]
    exact hleader.symm
  · rw [hgk]
    intro he
    exact absurd he (append_ne_nil_of_right_ne_nil _ (cons_ne_nil _ _))
  · by_cases hq : q = guid
    · subst hq
      rw [hslot q, if_pos rfl]
      refine .inr ⟨fun pl hpl => ?_, fun _ j hj hb => hnew j hb⟩
      rw [hguid] at hpl
      obtain ⟨pl', hp, rfl⟩ := map_eq_some_iff.mp hpl
      have href := h.player q pl' hp
      rw [hbg]
      have hclear : Refers (w.slots q) w.bg w.nextGroup { pl' with groupInvite := none } :=
        ⟨href.ref, href.original, fun _ hj => by cases hj⟩
      exact hclear.join hnew rfl
    · rw [hslot q, if_neg hq]
      exact .inl ⟨hplayers q hq, rfl⟩

/-- What an addition leaves as it was. -/
theorem addMember_frame (heq : w.addMember k guid = some w') (hin : w.between guid = false)
    (hnone : (w.groups k).slotOf guid = none) (hq : q ≠ guid) :
    w'.players q = w.players q ∧ w'.slots q = w.slots q ∧ w'.bg = w.bg ∧
      w'.nextGroup = w.nextGroup ∧ (w'.groups k).memberSlots ≠ [] := by
  obtain ⟨sub, -, -, hgroups, hnext, hplayers, -⟩ := addMember_cases heq hin
  refine ⟨hplayers q hq, ?_, ?_, hnext, ?_⟩
  · funext j
    unfold slots
    rw [hgroups]
    by_cases hj : j = k
    · rw [hj, setGroup_groups_self, Group.slotOf_addSlot hnone, if_neg hq]
    · rw [setGroup_groups_ne hj]
  · funext j
    unfold bg
    rw [hgroups]
    by_cases hj : j = k
    · rw [hj, setGroup_groups_self]; rfl
    · rw [setGroup_groups_ne hj]
  · rw [hgroups, setGroup_groups_self]
    exact append_ne_nil_of_right_ne_nil _ (cons_ne_nil _ _)

/-- A group is formed. -/
theorem Linked.create (h : w.Linked) (hempty : (w.groups k).memberSlots = []) (hk : k < w.nextGroup)
    (hin : w.between guid = false) (hnew : ∀ j, w.bg j = w.bg k → w.slots guid j = none)
    (heq : w.create k guid = some w') : w'.Linked := by
  dsimp only [GroupWorld.create] at heq
  by_cases hbg : (w.groups k).bgGroup = true
  · rw [if_pos hbg] at heq
    refine h.addMember (g := Group.initRaidSubGroupsCounter
      { w.groups k with leaderGuid := guid, groupType := .raid }) rfl rfl ?_ (.inl rfl) hk hin hnew heq
    refine ⟨(h.group k).keyed, ?_, (h.group k).subgroup_lt, ?_, fun _ => rfl, fun hr => by cases hr⟩
    · show (w.groups k).memberSlots.length ≤ _
      rw [hempty]
      exact Nat.zero_le _
    · intro c hc
      obtain rfl := some.inj hc
      show Counted (foldl _ _ (w.groups k).memberSlots) (fun i => (w.groups k).sizeOf i) ∧
        ∀ i, (w.groups k).sizeOf i ≤ maxGroupSize
      have hz : ∀ i, (w.groups k).sizeOf i = 0 := fun i => by unfold Group.sizeOf; rw [hempty]; rfl
      rw [hempty]
      exact ⟨Counted.zero.congr hz, fun i => by rw [hz i]; exact Nat.zero_le _⟩
  · rw [if_neg hbg] at heq
    refine h.addMember (g := { w.groups k with leaderGuid := guid, groupType := .normal }) rfl rfl ?_ (.inl rfl) hk hin hnew heq
    exact (h.group k).toSeated.congr rfl (h.fresh k hempty).symm rfl

theorem create_frame (heq : w.create k guid = some w') (hin : w.between guid = false)
    (hempty : (w.groups k).memberSlots = []) (hq : q ≠ guid) :
    w'.players q = w.players q ∧ w'.slots q = w.slots q ∧ w'.bg = w.bg ∧
      w'.nextGroup = w.nextGroup ∧ (w'.groups k).memberSlots ≠ [] := by
  obtain ⟨g, hm, hbg, heq⟩ : ∃ g : Group, g.memberSlots = (w.groups k).memberSlots ∧
      g.bgGroup = (w.groups k).bgGroup ∧ (w.setGroup k g).addMember k guid = some w' := by
    refine ⟨_, ?_, ?_, heq⟩
    · split <;> rfl
    · split <;> rfl
  have hnone : ((w.setGroup k g).groups k).slotOf guid = none := by
    rw [setGroup_groups_self]
    exact Group.slotOf_nil (hm.trans hempty)
  obtain ⟨h1, h2, h3, h4, h5⟩ := addMember_frame heq hin hnone hq
  refine ⟨h1, h2.trans ?_, h3.trans ?_, h4, h5⟩
  · rw [slots_eq_update (k := k) fun j hj => setGroup_groups_ne hj, setGroup_groups_self,
      Group.slotOf_congr hm]
    exact update_eq_self k (w.slots q)
  · funext j
    unfold bg
    by_cases hj : j = k
    · rw [hj, setGroup_groups_self, hbg]
    · rw [setGroup_groups_ne hj]

/-! ## The leader -/

/-- A new leader is a member; without one everything stays. -/
theorem chooseLeader_cases (w : GroupWorld) (k : Nat) (offline : Bool) :
    (w.chooseLeader k offline = w ∧
      (offline = true ∨ (w.groups k).memberSlots.length < (w.groups k).getMembersMinCount ∨
        (w.groups k).memberSlots = [])) ∨
    ∃ p, (w.groups k).isMember p = true ∧
      w.chooseLeader k offline = w.setGroup k ((w.groups k).setLeader p) := by
  have hmem : ∀ s ∈ (w.groups k).memberSlots, (w.groups k).isMember s.guid = true := fun s hs =>
    any_eq_true.mpr ⟨s, hs, beq_self_eq_true _⟩
  -- the one chosen is among the members who are online
  have hchosen : ∀ {l : List MemberSlot} {s : MemberSlot}, (∀ t ∈ l, t ∈ (w.groups k).memberSlots) →
      (if (w.groups k).isRaidGroup = true then (l.find? (·.assistant)).or l.head? else l.head?) = some s →
      s ∈ (w.groups k).memberSlots := by
    intro l s hl hs
    refine hl s ?_
    split_ifs at hs
    · obtain hs | ⟨-, hs⟩ := or_eq_some_iff.mp hs
      · exact mem_of_find?_eq_some hs
      · exact mem_of_head? hs
    · exact mem_of_head? hs
  dsimp only [chooseLeader]
  split
  · rename_i hmin
    exact .inl ⟨rfl, .inr (.inl hmin)⟩
  split
  · rename_i s hs
    exact .inr ⟨s.guid, hmem s (hchosen (fun t ht => mem_of_mem_filter ht) hs), rfl⟩
  · cases offline with
    | true => exact .inl ⟨rfl, .inl rfl⟩
    | false =>
      cases hl : (w.groups k).memberSlots with
      | nil => exact .inl ⟨rfl, .inr (.inr rfl)⟩
      | cons s l => exact .inr ⟨s.guid, hmem s (hl ▸ mem_cons_self), rfl⟩

theorem Linked.changeLeader (h : w.Linked) : (w.changeLeader k guid).Linked := by
  refine h.setGroup Group.setLeader_memberSlots Group.setLeader_bgGroup (h.group k).setLeader ?_
  rw [Group.setLeader_memberSlots, Group.setLeader_groupType]
  exact h.fresh k

theorem Linked.updateOfflineLeader (h : w.Linked) {leaderDue : Bool} :
    (w.updateOfflineLeader k leaderDue).Linked := by
  unfold GroupWorld.updateOfflineLeader
  split_ifs
  · exact h
  · exact h
  · exact h
  · obtain ⟨he, -⟩ | ⟨p, -, he⟩ := chooseLeader_cases w k true
    · rw [he]; exact h
    · rw [he]; exact h.changeLeader

theorem Linked.convertToRaid (h : w.Linked) : (w.convertToRaid k).Linked := by
  unfold GroupWorld.convertToRaid
  split_ifs with hm
  · exact h
  · exact h.setGroup rfl rfl (h.group k).convertToRaid fun he => absurd he hm

/-! ## Leaving -/

/-- `_removeMember` before a new leader is chosen. -/
theorem removeSlot_eq (hin : w.between guid = false) :
    ∃ w₁, w.removeSlot k guid
        = (if (w.groups k).leaderGuid = guid then w₁.chooseLeader k false else w₁) ∧
      w₁.groups = (w.setGroup k ((w.groups k).removeSlot guid)).groups ∧
      w₁.nextGroup = w.nextGroup ∧ (∀ q, q ≠ guid → w₁.players q = w.players q) ∧
      w₁.players guid = (w.players guid).map (·.leave k (w.groups k).bgGroup) := by
  refine ⟨_, rfl, ?_⟩
  rw [getPlayer_of_not_between hin]
  cases hp : w.players guid with
  | none => exact ⟨rfl, rfl, fun q _ => rfl, hp⟩
  | some pl =>
    exact ⟨rfl, rfl, fun q hq => setPlayer_players_ne hq, setPlayer_players_self⟩

/-- A member who is not between two maps leaves, and `g` is what is left of the group. -/
theorem Linked.leave (h : w.Linked) (hmem : (w.groups k).isMember guid = true)
    (hgroups : w'.groups = (w.setGroup k g).groups) (hnext : w'.nextGroup = w.nextGroup)
    (hplayers : ∀ q, q ≠ guid → w'.players q = w.players q)
    (hguid : w'.players guid = (w.players guid).map (·.leave k (w.groups k).bgGroup))
    (hslot : ∀ q, g.slotOf q = if q = guid then none else (w.groups k).slotOf q)
    (hbg : g.bgGroup = (w.groups k).bgGroup) (hok : g.Ok) (hne : g.memberSlots ≠ []) :
    w'.Linked := by
  have hgk : w'.groups k = g := by rw [hgroups, setGroup_groups_self]
  have hin := Group.isMember_iff.mp hmem
  refine h.edit k (fun j hj => by rw [hgroups, setGroup_groups_ne hj]) (by rw [hgk, hbg]) hnext
    (by rw [hgk]; exact hok) (fun he => ?_) (fun hle => ?_) fun q => ?_
  · rw [hgk] at he
    exact absurd he hne
  · rw [Group.slotOf_nil (h.ids k hle).1] at hin
    cases hin
  · rw [hgk, hslot q]
    by_cases hq : q = guid
    · subst hq
      rw [if_pos rfl]
      refine .inr ⟨fun pl hpl => ?_, fun he => by cases he⟩
      rw [hguid] at hpl
      obtain ⟨pl', hp, rfl⟩ := map_eq_some_iff.mp hpl
      exact (h.player q pl' hp).leave hin
    · rw [if_neg hq]
      exact .inl ⟨hplayers q hq, rfl⟩

theorem Linked.removeSlot (h : w.Linked) (hin : w.between guid = false)
    (hmem : (w.groups k).isMember guid = true)
    (hmin : (w.groups k).getMembersMinCount < (w.groups k).memberSlots.length) :
    (w.removeSlot k guid).Linked := by
  obtain ⟨sub, hsub⟩ := isSome_iff_exists.mp (Group.isMember_iff.mp hmem)
  obtain ⟨i, s, hs, rfl⟩ := Group.getMemberSlot_of_slotOf hsub
  have hseat : ((w.groups k).removeSlot guid).Seated := (h.group k).toSeated.removeSlot
  have hslot : ∀ q, ((w.groups k).removeSlot guid).slotOf q =
      if q = guid then none else (w.groups k).slotOf q := fun q =>
    Group.slotOf_removeSlot (h.group k).keyed hs
  have hrest : (w.groups k).removeSlot guid = { (w.groups k).subGroupCounterDecrease s.group with
      memberSlots := (w.groups k).memberSlots.eraseIdx i } := by
    unfold Group.removeSlot
    rw [hs]
  have hlen : (w.groups k).getMembersMinCount ≤ ((w.groups k).removeSlot guid).memberSlots.length := by
    obtain ⟨hi, -⟩ := Group.getMemberSlot_eq_some hs
    obtain ⟨hlt, -⟩ := List.getElem?_eq_some_iff.mp hi
    rw [hrest]
    show _ ≤ ((w.groups k).memberSlots.eraseIdx i).length
    rw [length_eraseIdx_of_lt hlt]
    omega
  have hpos : 0 < (w.groups k).getMembersMinCount := by
    unfold Group.getMembersMinCount
    split_ifs <;> decide
  have hne : ((w.groups k).removeSlot guid).memberSlots ≠ [] := by
    intro he
    rw [he, length_nil] at hlen
    omega
  have hbg : ((w.groups k).removeSlot guid).bgGroup = (w.groups k).bgGroup := by rw [hrest]; rfl
  have hleader : ((w.groups k).removeSlot guid).leaderGuid = (w.groups k).leaderGuid := by
    rw [hrest]; rfl
  obtain ⟨w₁, he, hgroups, hnext, hplayers, hguid⟩ := removeSlot_eq (k := k) hin
  have hgk : w₁.groups k = (w.groups k).removeSlot guid := by rw [hgroups, setGroup_groups_self]
  rw [he]
  split_ifs with hl
  · -- the leader left
    obtain ⟨-, hf | hf | hf⟩ | ⟨p, hp, hc⟩ := chooseLeader_cases w₁ k false
    · cases hf
    · rw [hgk] at hf
      unfold Group.getMembersMinCount at hf hlen
      rw [hbg] at hf
      exact absurd hf (Nat.not_lt.mpr hlen)
    · rw [hgk] at hf
      exact absurd hf hne
    · rw [hc, hgk]
      rw [hgk] at hp
      refine h.leave hmem ?_ hnext hplayers hguid (fun q => ?_) (Group.setLeader_bgGroup.trans hbg)
        (hseat.setLeader hp) (by rw [Group.setLeader_memberSlots]; exact hne)
      · funext j
        by_cases hj : j = k
        · rw [hj, setGroup_groups_self, setGroup_groups_self]
        · rw [setGroup_groups_ne hj, setGroup_groups_ne hj, hgroups, setGroup_groups_ne hj]
      · rw [Group.slotOf_congr Group.setLeader_memberSlots]
        exact hslot q
  · refine h.leave hmem hgroups hnext hplayers hguid hslot hbg ⟨hseat, fun _ => ?_⟩ hne
    rw [Group.isMember_iff, hleader, hslot, if_neg hl, ← Group.isMember_iff]
    refine (h.group k).leader fun hnil => ?_
    rw [Group.slotOf_nil hnil] at hsub
    cases hsub

/-- The group is gone, with every reference and invitation to it. -/
theorem Linked.disband (h : w.Linked)
    (hin : w.bg k = true → ∀ p, (w.groups k).isMember p = true → w.between p = false) :
    (w.disband k).Linked := by
  have hgk : (w.disband k).groups k = {} := if_pos rfl
  have hgj : ∀ j, j ≠ k → (w.disband k).groups j = w.groups j := fun j hj => if_neg hj
  have hslots : ∀ q, (w.disband k).slots q = update (w.slots q) k none := fun q => by
    rw [slots_eq_update hgj, hgk]
    rfl
  have hbg : (w.disband k).bg = update w.bg k false := by
    funext j
    rw [update_apply]
    unfold bg
    split_ifs with hj
    · rw [hj, hgk]
    · rw [hgj j hj]
  have hsub : ∀ q j, ((w.disband k).slots q j).isSome = true → j ≠ k ∧ (w.slots q j).isSome = true := by
    intro q j hj
    rw [hslots q] at hj
    by_cases hjk : j = k
    · rw [hjk, update_self] at hj
      cases hj
    · rw [update_of_ne hjk] at hj
      exact ⟨hjk, hj⟩
  refine ⟨fun j => ?_, fun j hj => ?_, fun j hj => ?_, fun q i j hi hj hij => ?_, fun q pl hq => ?_⟩
  · by_cases hjk : j = k
    · rw [hjk, hgk]; exact .empty rfl rfl rfl
    · rw [hgj j hjk]; exact h.group j
  · by_cases hjk : j = k
    · rw [hjk, hgk]
    · rw [hgj j hjk] at hj ⊢; exact h.fresh j hj
  · rw [hbg]
    by_cases hjk : j = k
    · rw [hjk, hgk, update_self]; exact ⟨rfl, rfl⟩
    · rw [hgj j hjk, update_of_ne hjk]; exact h.ids j hj
  · obtain ⟨hik, hi⟩ := hsub q i hi
    obtain ⟨hjk, hj⟩ := hsub q j hj
    rw [hbg, update_of_ne hik, update_of_ne hjk] at hij
    exact h.unique q i j hi hj hij
  · obtain ⟨pl₀, hp, rfl⟩ := map_eq_some_iff.mp hq
    have href := h.player q pl₀ hp
    rw [hslots q, hbg]
    by_cases hm : (w.groups k).isMember q = true
    · have hk := Group.isMember_iff.mp hm
      obtain ⟨h1, h2⟩ := (href.leave hk).forget (k := k) (update_self ..)
      have he : (if (w.groups k).isMember q && pl₀.inWorld then pl₀.leave k (w.groups k).bgGroup
          else pl₀).forget k = (pl₀.leave k (w.bg k)).forget k := by
        rw [hm, Bool.true_and]
        split_ifs with hw
        · rfl
        · -- one who is between two maps loses the reference with the group
          have hb : w.bg k = false := by
            by_contra hb
            have := hin (by simpa using hb) q hm
            unfold between at this
            rw [hp] at this
            exact hw (by simpa using this)
          rw [hb]
          exact (href.forget_leave hk hb).symm
      rw [he]
      exact h1.retype (update_self ..) h2 false
    · have hk : w.slots q k = none := by
        rw [Group.isMember_iff, not_isSome_iff_eq_none] at hm
        exact hm
      rw [if_neg (by rw [Bool.and_eq_true]; exact fun hc => hm hc.1),
        show update (w.slots q) k none = w.slots q by
          rw [← hk]; exact update_eq_self k _]
      obtain ⟨h1, h2⟩ := href.forget hk
      exact h1.retype hk h2 false

/-- A member who is not between two maps is removed, and a group that gets too small with him. -/
theorem Linked.removeMember (h : w.Linked) (hin : w.between guid = false)
    (hmem : (w.groups k).isMember guid = true) : (w.removeMember k guid).Linked := by
  dsimp only [GroupWorld.removeMember]
  split_ifs with hmin
  · exact h.removeSlot hin hmem hmin
  · refine h.disband fun hb p hp => ?_
    -- the raid of a battleground is disbanded with its last member
    rw [show (w.groups k).getMembersMinCount = 1 from if_pos hb] at hmin
    obtain ⟨s, hs, he⟩ := any_eq_true.mp hmem
    obtain ⟨t, ht, he'⟩ := any_eq_true.mp hp
    have hst : s = t := by
      obtain ⟨a, ha⟩ : ∃ a, (w.groups k).memberSlots = [a] := length_eq_one_iff.mp (by
        have := length_pos_of_mem hs
        omega)
      rw [ha, mem_singleton] at hs ht
      rw [hs, ht]
    subst hst
    rw [beq_iff_eq] at he he'
    rw [← he', he]
    exact hin

/-! ## Subgroups -/

/-- A member who is in the group keeps it as his only one of its kind. -/
theorem Linked.other_none (h : w.Linked) (hin : (w.slots q k).isSome = true) {j : Nat} (hj : j ≠ k)
    (hb : w.bg j = w.bg k) : w.slots q j = none := by
  by_contra hsome
  exact hj (h.unique q j k (ne_none_iff_isSome.mp hsome) hin hb)

/-- The slot of a member gets another subgroup, and so does his reference if he is online. -/
theorem Linked.reseat (h : w.Linked) {i : Nat} {s : MemberSlot}
    (hs : (w.groups k).getMemberSlot guid = some (i, s))
    (hgroups : w'.groups = (w.setGroup k g).groups) (hnext : w'.nextGroup = w.nextGroup)
    (hplayers : ∀ q, q ≠ guid → w'.players q = w.players q)
    (hguid : w'.players guid = (w.players guid).map (·.setSubGroup k group))
    (hm : g.memberSlots = (w.groups k).memberSlots.set i { s with group := group })
    (hbg : g.bgGroup = (w.groups k).bgGroup) (hl : g.leaderGuid = (w.groups k).leaderGuid)
    (hseat : g.Seated) : w'.Linked := by
  have hgk : w'.groups k = g := by rw [hgroups, setGroup_groups_self]
  have hslot : ∀ q, g.slotOf q = if q = guid then some group else (w.groups k).slotOf q := fun q =>
    Group.slotOf_set (h.group k).keyed hs hm
  have hin : ((w.groups k).slotOf guid).isSome = true := by rw [Group.slotOf_eq_of_slot hs]; rfl
  have hne : (w.groups k).memberSlots ≠ [] := fun he => by
    rw [Group.slotOf_nil he] at hin
    cases hin
  have hne' : g.memberSlots ≠ [] := fun he => by
    have := hslot guid
    rw [Group.slotOf_nil he, if_pos rfl] at this
    cases this
  refine h.edit k (fun j hj => by rw [hgroups, setGroup_groups_ne hj]) (by rw [hgk, hbg]) hnext
    ?_ (fun he => ?_) (fun hle => absurd (h.ids k hle).1 hne) fun q => ?_
  · rw [hgk]
    refine ⟨hseat, fun _ => ?_⟩
    have := Group.isMember_iff.mp ((h.group k).leader hne)
    rw [Group.isMember_iff, hslot, hl]
    split_ifs
    · rfl
    · exact this
  · rw [hgk] at he
    exact absurd he hne'
  · rw [hgk, hslot q]
    by_cases hq : q = guid
    · subst hq
      rw [if_pos rfl]
      refine .inr ⟨fun pl hpl => ?_, fun _ j hj hb => ?_⟩
      · rw [hguid] at hpl
        obtain ⟨pl', hp, rfl⟩ := map_eq_some_iff.mp hpl
        exact (h.player q pl' hp).setSubGroup hin
      · exact h.other_none hin hj hb
    · rw [if_neg hq]
      exact .inl ⟨hplayers q hq, rfl⟩

/-- The counter that goes down is that of the slot: a reference to the group carries the same. -/
theorem Linked.prevSubGroup (h : w.Linked) (hp : w.players guid = some pl)
    (hs : (w.groups k).slotOf guid = some group) :
    (if pl.group.target = some k then group else pl.originalGroup.subGroup) = group := by
  have href := (h.player guid pl hp).ref k
  rw [show w.slots guid k = some group from hs] at href
  unfold GroupPlayer.refTo at href
  split_ifs at href ⊢
  · rfl
  · exact some.inj href

/-- `_setMembersGroup` and the counters, with the reference. -/
theorem Linked.setMembersGroup (h : w.Linked) {g : Group} {sub : UInt8}
    (hraid : ¬ (!(w.groups k).isRaidGroup || decide (group.toNat ≥ maxRaidSubgroups)) = true)
    (hroom : ¬ (!(w.groups k).hasRoom group) = true)
    (hsub : (w.groups k).slotOf guid = some sub) (hne : sub ≠ group)
    (hg : (w.groups k).setMembersGroup guid group = some g)
    (hgroups : w'.groups = (w.setGroup k (g.subGroupCounterDecrease sub)).groups)
    (hnext : w'.nextGroup = w.nextGroup) (hplayers : ∀ q, q ≠ guid → w'.players q = w.players q)
    (hguid : w'.players guid = (w.players guid).map (·.setSubGroup k group)) : w'.Linked := by
  obtain ⟨i, s, hs, rfl⟩ := Group.getMemberSlot_of_slotOf hsub
  rw [Bool.or_eq_true, not_or, Bool.not_eq_true', Bool.not_eq_false, decide_eq_true_eq, Nat.not_le]
    at hraid
  rw [Bool.not_eq_true', Bool.not_eq_false] at hroom
  have hseat := (h.group k).toSeated.setMembersGroup hraid.1 hraid.2 hroom hs hne hg
  unfold Group.setMembersGroup at hg
  rw [hs] at hg
  obtain rfl := some.inj hg
  exact h.reseat hs hgroups hnext hplayers hguid rfl rfl rfl hseat

/-- The slot that `_setMembersGroup` writes. -/
theorem slotOf_of_setMembersGroup {g g' : Group} (hg : g.setMembersGroup guid group = some g') :
    g.slotOf guid = some (g.getMemberGroup guid) := by
  obtain ⟨⟨i, s⟩, hs, -⟩ := map_eq_some_iff.mp hg
  unfold Group.getMemberGroup
  rw [Group.slotOf_eq_of_slot hs]
  rfl

theorem Linked.changePlayersGroup (h : w.Linked) : (w.changePlayersGroup k guid group).Linked := by
  dsimp only [GroupWorld.changePlayersGroup]
  split
  · exact h
  rename_i pl hpl
  obtain ⟨hp, -⟩ := getPlayer_eq_some hpl
  split
  · exact h
  rename_i hraid
  split
  · exact h
  rename_i hprev
  split
  · exact h
  rename_i hroom
  split
  · exact h
  rename_i g hg
  have hslot := slotOf_of_setMembersGroup hg
  rw [h.prevSubGroup hp hslot]
  refine h.setMembersGroup hraid hroom hslot (fun he => hprev (.inl he)) hg rfl rfl
    (fun q hq => setPlayer_players_ne hq) ?_
  rw [hp]
  exact setPlayer_players_self

theorem Linked.changeMembersGroup (h : w.Linked)
    (hin : (w.groups k).isMember guid = true → w.between guid = false) :
    (w.changeMembersGroup k guid group).Linked := by
  dsimp only [GroupWorld.changeMembersGroup]
  split
  · exact h
  rename_i hraid
  split
  · exact h
  rename_i hroom
  split
  · exact h.changePlayersGroup
  rename_i hp
  split
  · exact h
  rename_i hprev
  split
  · exact h
  rename_i g hg
  have hslot := slotOf_of_setMembersGroup hg
  rw [getPlayer_of_not_between (hin (Group.isMember_iff.mpr (by rw [hslot]; rfl)))] at hp
  refine h.setMembersGroup hraid hroom hslot hprev hg rfl rfl (fun q _ => rfl) ?_
  rw [hp]
  exact hp

theorem setSubGroup_eq (k : Nat) (group : UInt8) (hin : w.between q = false) :
    (w.setSubGroup k q group).groups = w.groups ∧
      (w.setSubGroup k q group).nextGroup = w.nextGroup ∧
      (∀ p, p ≠ q → (w.setSubGroup k q group).players p = w.players p) ∧
      (w.setSubGroup k q group).players q = (w.players q).map (·.setSubGroup k group) := by
  unfold setSubGroup
  rw [getPlayer_of_not_between hin]
  cases hp : w.players q with
  | none => exact ⟨rfl, rfl, fun _ _ => rfl, hp⟩
  | some pl => exact ⟨rfl, rfl, fun _ hq => setPlayer_players_ne hq, setPlayer_players_self⟩

theorem Linked.swapMembersGroup (h : w.Linked)
    (hboth : (w.groups k).isMember guid = true → (w.groups k).isMember swapGuid = true →
      w.between guid = false ∧ w.between swapGuid = false) :
    (w.swapMembersGroup k guid swapGuid).Linked := by
  dsimp only [GroupWorld.swapMembersGroup]
  split
  · exact h
  rename_i hraid
  split
  · exact h
  rename_i hprev
  split
  · exact h
  rename_i g hg
  rw [Bool.not_eq_true', Bool.not_eq_false] at hraid
  obtain ⟨⟨i, s⟩, hs⟩ : ∃ x, (w.groups k).getMemberSlot guid = some x := by
    unfold Group.swapSlots at hg
    split at hg
    · exact ⟨_, by assumption⟩
    · cases hg
  obtain ⟨⟨j, t⟩, ht⟩ : ∃ x, (w.groups k).getMemberSlot swapGuid = some x := by
    unfold Group.swapSlots at hg
    split at hg
    · exact ⟨_, by assumption⟩
    · cases hg
  have hsg := Group.slotOf_eq_of_slot hs
  have htg := Group.slotOf_eq_of_slot ht
  obtain ⟨hin, hin'⟩ := hboth (Group.isMember_iff.mpr (by rw [hsg]; rfl))
    (Group.isMember_iff.mpr (by rw [htg]; rfl))
  have hgs : (w.groups k).getMemberGroup guid = s.group := by
    unfold Group.getMemberGroup; rw [hsg]; rfl
  have hgt : (w.groups k).getMemberGroup swapGuid = t.group := by
    unfold Group.getMemberGroup; rw [htg]; rfl
  rw [hgs, hgt] at hprev ⊢
  have hne : guid ≠ swapGuid := by
    rintro rfl
    obtain ⟨-, rfl⟩ := Prod.mk.inj (some.inj (hs.symm.trans ht))
    exact hprev (.inl rfl)
  have hseat := (h.group k).toSeated.swapSlots hraid hs ht hg
  have hslot := fun p => Group.slotOf_swapSlots (p := p) (h.group k).keyed hs ht hne hg
  have hbg : g.bgGroup = (w.groups k).bgGroup ∧ g.leaderGuid = (w.groups k).leaderGuid := by
    unfold Group.swapSlots at hg
    rw [hs, ht] at hg
    obtain rfl := some.inj hg
    exact ⟨rfl, rfl⟩
  obtain ⟨hg1, hn1, hp1, hq1⟩ := setSubGroup_eq (w := w.setGroup k g) k t.group hin
  have hb1 : ((w.setGroup k g).setSubGroup k guid t.group).between swapGuid = false := by
    unfold between at hin' ⊢
    rw [hp1 swapGuid (Ne.symm hne)]
    exact hin'
  obtain ⟨hg2, hn2, hp2, hq2⟩ := setSubGroup_eq k s.group hb1
  generalize ((w.setGroup k g).setSubGroup k guid t.group).setSubGroup k swapGuid s.group = w' at *
  have hgk : w'.groups k = g := by rw [hg2, hg1, setGroup_groups_self]
  have hmem : (w.groups k).memberSlots ≠ [] := fun he => by
    rw [Group.slotOf_nil he] at hsg
    cases hsg
  refine h.edit k (fun j hj => by rw [hg2, hg1, setGroup_groups_ne hj]) (by rw [hgk, hbg.1])
    (hn2.trans hn1) ?_ (fun he => ?_) (fun hle => absurd (h.ids k hle).1 hmem) fun q => ?_
  · rw [hgk]
    refine ⟨hseat, fun _ => ?_⟩
    have := Group.isMember_iff.mp ((h.group k).leader hmem)
    rw [Group.isMember_iff, hslot, hbg.2]
    split_ifs
    · rfl
    · rfl
    · exact this
  · rw [hgk] at he
    have := hslot guid
    rw [Group.slotOf_nil he, if_pos rfl] at this
    cases this
  · rw [hgk, hslot q]
    split_ifs with h1 h2
    · subst h1
      have hsome : (w.slots q k).isSome = true := by unfold slots; rw [hsg]; rfl
      refine .inr ⟨fun pl hpl => ?_, fun _ j hj hb => h.other_none hsome hj hb⟩
      rw [hp2 q hne, hq1] at hpl
      obtain ⟨pl', hp, rfl⟩ := map_eq_some_iff.mp hpl
      exact (h.player q pl' hp).setSubGroup hsome
    · subst h2
      have hsome : (w.slots q k).isSome = true := by unfold slots; rw [htg]; rfl
      refine .inr ⟨fun pl hpl => ?_, fun _ j hj hb => h.other_none hsome hj hb⟩
      rw [hq2, hp1 q (Ne.symm hne)] at hpl
      obtain ⟨pl', hp, rfl⟩ := map_eq_some_iff.mp hpl
      exact (h.player q pl' hp).setSubGroup hsome
    · exact .inl ⟨(hp2 q h2).trans (hp1 q h1), rfl⟩

theorem not_between_of_getPlayer (hp : w.getPlayer q = some pl) : w.between q = false := by
  obtain ⟨h1, h2⟩ := getPlayer_eq_some hp
  unfold between
  rw [h1]
  simp [h2]

theorem Linked.swapPlayersGroup (h : w.Linked) : (w.swapPlayersGroup k guid swapGuid).Linked := by
  unfold GroupWorld.swapPlayersGroup
  split
  · rename_i h1 h2
    exact h.swapMembersGroup fun _ _ => ⟨not_between_of_getPlayer h1, not_between_of_getPlayer h2⟩
  · exact h

/-! ## Invitations -/

/-- A player without a group of his own has no slot in one. -/
theorem Linked.normalGroup_none (h : w.Linked) (hp : w.players q = some pl)
    (hn : w.normalGroup pl = none) {j : Nat} (hb : w.bg j = false) : w.slots q j = none := by
  have href := h.player q pl hp
  by_contra hsome
  have hin := href.slot_isSome.mp (ne_none_iff_isSome.mp hsome)
  unfold normalGroup at hn
  obtain hg | ho := hin
  · rw [hg, bind_some, if_neg (by rw [show (w.groups j).bgGroup = false from hb]; simp)] at hn
    cases hn
  · obtain ⟨-, b, hgb, hbb⟩ := href.original j ho
    rw [hgb, bind_some, if_pos (show (w.groups b).bgGroup = true from hbb), ho] at hn
    cases hn

theorem Linked.addInvite (h : w.Linked) (hk : k < w.nextGroup) (hb : w.bg k = false)
    (heq : w.addInvite k guid = some w') : w'.Linked := by
  obtain ⟨pl, hpl, heq⟩ := bind_eq_some_iff.mp heq
  obtain ⟨hp, -⟩ := getPlayer_eq_some hpl
  split_ifs at heq with hc
  obtain rfl := some.inj heq
  rw [Bool.or_eq_true, not_or, not_isSome_iff_eq_none, not_isSome_iff_eq_none] at hc
  refine h.setPlayers (q := guid) rfl rfl (fun p hne => setPlayer_players_ne hne) fun pl' hpl' => ?_
  rw [setPlayer_players_self] at hpl'
  obtain rfl := some.inj hpl'
  have href := h.player guid pl hp
  refine ⟨href.ref, href.original, fun j hj => ?_⟩
  obtain rfl := some.inj hj
  exact ⟨hb, hk, fun i hi => h.normalGroup_none hp hc.2 hi⟩

theorem addInvite_eq (heq : w.addInvite k guid = some w') :
    w'.groups = w.groups ∧ w'.nextGroup = w.nextGroup := by
  obtain ⟨pl, -, heq⟩ := bind_eq_some_iff.mp heq
  split_ifs at heq
  obtain rfl := some.inj heq
  exact ⟨rfl, rfl⟩

/-- A new group without members. -/
theorem Linked.newGroup (h : w.Linked) (hm : g.memberSlots = []) (hc : g.subGroupsCounts = none)
    (ht : g.groupType = .normal) :
    ({ w.setGroup w.nextGroup g with nextGroup := w.nextGroup + 1 } : GroupWorld).Linked := by
  obtain ⟨w', hw'⟩ : ∃ w' : GroupWorld,
      w' = { w.setGroup w.nextGroup g with nextGroup := w.nextGroup + 1 } := ⟨_, rfl⟩
  have hgk : w'.groups w.nextGroup = g := by rw [hw']; exact if_pos rfl
  have hgj : ∀ j, j ≠ w.nextGroup → w'.groups j = w.groups j := by
    rw [hw']; exact fun j hj => if_neg hj
  have hnext : w'.nextGroup = w.nextGroup + 1 := by rw [hw']
  have hplayers : w'.players = w.players := by rw [hw']; rfl
  rw [← hw']
  have hslots : ∀ q, w'.slots q = w.slots q := fun q => by
    have he : g.slotOf q = w.slots q w.nextGroup := by
      rw [Group.slotOf_nil hm]
      exact (Group.slotOf_nil (h.ids _ (Nat.le_refl _)).1).symm
    rw [slots_eq_update hgj, hgk, he]
    exact update_eq_self _ _
  have hbg : w'.bg = update w.bg w.nextGroup g.bgGroup := by
    funext j
    rw [update_apply]
    unfold bg
    split_ifs with hj
    · rw [hj, hgk]
    · rw [hgj j hj]
  have hne : ∀ q j, (w.slots q j).isSome = true → j ≠ w.nextGroup := by
    rintro q j hj rfl
    unfold slots at hj
    rw [Group.slotOf_nil (h.ids _ (Nat.le_refl _)).1] at hj
    cases hj
  refine ⟨fun j => ?_, fun j hj => ?_, fun j hj => ?_, fun q i j hi hj hij => ?_, fun q pl hq => ?_⟩
  · by_cases hj : j = w.nextGroup
    · rw [hj, hgk]; exact .empty hm hc ht
    · rw [hgj j hj]; exact h.group j
  · by_cases hjn : j = w.nextGroup
    · rw [hjn, hgk]; exact ht
    · rw [hgj j hjn] at hj ⊢; exact h.fresh j hj
  · rw [hnext] at hj
    have hjn : j ≠ w.nextGroup := by omega
    rw [hgj j hjn, hbg, update_of_ne hjn]
    exact h.ids j (by omega)
  · rw [hslots q] at hi hj
    rw [hbg, update_of_ne (hne q i hi), update_of_ne (hne q j hj)] at hij
    exact h.unique q i j hi hj hij
  · rw [hplayers] at hq
    have href := h.player q pl hq
    rw [hslots q, hbg, hnext]
    have hr := href.retype (k := w.nextGroup) (Group.slotOf_nil (h.ids _ (Nat.le_refl _)).1)
      (fun hi => absurd (href.invited _ hi).2.1 (Nat.lt_irrefl _)) g.bgGroup
    refine ⟨hr.ref, hr.original, fun j hj => ?_⟩
    obtain ⟨h1, h2, h3⟩ := hr.invited j hj
    exact ⟨h1, by omega, h3⟩

/-- The group of a player is one that exists. -/
theorem Linked.normalGroup_some (h : w.Linked) (hp : w.players q = some pl)
    (hn : w.normalGroup pl = some k) : k < w.nextGroup ∧ w.bg k = false := by
  have href := h.player q pl hp
  have hlt : ∀ j, pl.group.target = some j ∨ pl.originalGroup.target = some j → j < w.nextGroup := by
    intro j hj
    by_contra hle
    have hs := href.slot_isSome.mpr hj
    unfold slots at hs
    rw [Group.slotOf_nil (h.ids j (Nat.not_lt.mp hle)).1] at hs
    cases hs
  obtain ⟨a, ha, hk⟩ := bind_eq_some_iff.mp hn
  split_ifs at hk with hb
  · exact ⟨hlt k (.inr hk), (href.original k hk).1⟩
  · obtain rfl := some.inj hk
    exact ⟨hlt a (.inl ha), (Bool.not_eq_true _).mp hb⟩

theorem Linked.handleGroupInvite (h : w.Linked) {invited : Nat} {allowed : Bool} :
    (w.handleGroupInvite guid invited allowed).Linked := by
  dsimp only [GroupWorld.handleGroupInvite]
  split
  · rename_i pl player hpl hplayer
    obtain ⟨hp, -⟩ := getPlayer_eq_some hpl
    split
    · exact h
    split
    · rename_i k hk
      obtain ⟨hlt, hb⟩ := h.normalGroup_some hp hk
      split
      · exact h
      cases hi : w.addInvite k invited with
      | none => exact h
      | some w' => exact h.addInvite hlt hb hi
    · -- a new group for the two of them
      obtain ⟨w₁, hw₁⟩ : ∃ w₁ : GroupWorld, w₁ = { w.setGroup w.nextGroup { leaderGuid := guid } with
        nextGroup := w.nextGroup + 1 } := ⟨_, rfl⟩
      have h₁ : w₁.Linked := by rw [hw₁]; exact h.newGroup rfl rfl rfl
      have hlt : w.nextGroup < w₁.nextGroup := by rw [hw₁]; exact Nat.lt_succ_self _
      have hb : w₁.bg w.nextGroup = false := by
        rw [hw₁]
        unfold bg
        rw [show (({ w.setGroup w.nextGroup { leaderGuid := guid } with
          nextGroup := w.nextGroup + 1 } : GroupWorld).groups w.nextGroup)
            = ({ leaderGuid := guid } : Group) from if_pos rfl]
      rw [← hw₁]
      cases hi : (w₁.addInvite w.nextGroup guid).bind fun w' => w'.addInvite w.nextGroup invited with
      | none => exact h
      | some w₃ =>
        obtain ⟨w₂, h2, h3⟩ := bind_eq_some_iff.mp hi
        obtain ⟨hg2, hn2⟩ := addInvite_eq h2
        refine (h₁.addInvite hlt hb h2).addInvite (by rw [hn2]; exact hlt) ?_ h3
        unfold bg at hb ⊢
        rw [hg2]
        exact hb
  · exact h

/-- An invitation is dropped. -/
theorem Linked.uninvite (h : w.Linked) (hp : w.players q = some pl) :
    (w.setPlayer q { pl with groupInvite := none }).Linked := by
  refine h.setPlayers (q := q) rfl rfl (fun p hne => setPlayer_players_ne hne) fun pl' hpl' => ?_
  rw [setPlayer_players_self] at hpl'
  obtain rfl := some.inj hpl'
  have href := h.player q pl hp
  exact ⟨href.ref, href.original, fun j hj => by cases hj⟩

theorem Linked.uninviteFromGroup (h : w.Linked) : (w.uninviteFromGroup guid).Linked := by
  dsimp only [GroupWorld.uninviteFromGroup]
  split
  · exact h
  rename_i pl hp
  split
  · exact h
  rename_i k hk
  have h₁ := h.uninvite hp
  obtain ⟨hb, -, -⟩ := (h.player guid pl hp).invited k hk
  split_ifs
  · refine h₁.disband fun hb' => ?_
    rw [show (w.setPlayer guid { pl with groupInvite := none }).bg k = false from hb] at hb'
    cases hb'
  · exact h₁

/-- What forms a group for an acceptance: its leader is not between two maps, and is in no other
group of his own. -/
def canForm (w : GroupWorld) (k : Nat) : Bool :=
  !(w.groups k).memberSlots.isEmpty ||
    (!w.between (w.groups k).leaderGuid && (w.groupOf (w.groups k).leaderGuid false).isNone)

/-- The table names the group that the slots are in. -/
theorem Linked.groupOf_spec (h : w.Linked) (b : Bool) :
    (∃ k, w.groupOf q b = some k ∧ w.bg k = b ∧ (w.slots q k).isSome = true ∧
      ∀ j, w.bg j = b → j ≠ k → w.slots q j = none) ∨
    (w.groupOf q b = none ∧ ∀ j, w.bg j = b → w.slots q j = none) := by
  cases hf : w.groupOf q b with
  | some k =>
    have hk := find?_some hf
    rw [Bool.and_eq_true, beq_iff_eq, Group.isMember_iff] at hk
    exact .inl ⟨k, rfl, hk.1, hk.2, fun j hj hne => h.other_none hk.2 hne (hj.trans hk.1.symm)⟩
  | none =>
    refine .inr ⟨rfl, fun j hj => ?_⟩
    by_contra hsome
    have hs := ne_none_iff_isSome.mp hsome
    have hlt : j < w.nextGroup := by
      by_contra hle
      exact hsome (Group.slotOf_nil (h.ids j (Nat.not_lt.mp hle)).1)
    have := find?_eq_none.mp hf j (mem_range.mpr hlt)
    rw [Bool.and_eq_true, beq_iff_eq, Group.isMember_iff] at this
    exact this ⟨hj, hs⟩

theorem Linked.canForm_spec (h : w.Linked) (hc : w.canForm k = true)
    (hempty : (w.groups k).memberSlots = []) : w.between (w.groups k).leaderGuid = false ∧
      ∀ j, w.bg j = false → w.slots (w.groups k).leaderGuid j = none := by
  unfold canForm at hc
  rw [hempty, isEmpty_nil, Bool.not_true, Bool.false_or, Bool.and_eq_true, Bool.not_eq_true',
    isNone_iff_eq_none] at hc
  refine ⟨hc.1, ?_⟩
  obtain ⟨j, hj, -⟩ | ⟨-, hnone⟩ := h.groupOf_spec (q := (w.groups k).leaderGuid) false
  · rw [hc.2] at hj
    cases hj
  · exact hnone

theorem Linked.handleGroupAccept (h : w.Linked) {allowed : Bool}
    (hform : ∀ pl k, w.players guid = some pl → pl.groupInvite = some k → w.canForm k = true) :
    (w.handleGroupAccept guid allowed).Linked := by
  dsimp only [GroupWorld.handleGroupAccept]
  split
  · exact h
  rename_i pl hpl
  obtain ⟨hp, hw⟩ := getPlayer_eq_some hpl
  split
  · exact h
  rename_i k hk
  split
  · exact h
  rename_i hleader
  obtain ⟨hb, hlt, hnone⟩ := (h.player guid pl hp).invited k hk
  have hcan := hform pl k hp hk
  have h₁ := h.uninvite hp
  have hin₁ : (w.setPlayer guid { pl with groupInvite := none }).between guid = false := by
    unfold between
    rw [setPlayer_players_self]
    simpa using hw
  have hbetween : ∀ q, q ≠ guid →
      (w.setPlayer guid { pl with groupInvite := none }).between q = w.between q := fun q hq => by
    unfold between
    rw [setPlayer_players_ne hq]
  generalize hw₁ : w.setPlayer guid { pl with groupInvite := none } = w₁ at *
  have hgroups : w₁.groups = w.groups := by rw [← hw₁]; rfl
  have hnext : w₁.nextGroup = w.nextGroup := by rw [← hw₁]; rfl
  have hbg : w₁.bg = w.bg := by unfold bg; rw [hgroups]
  have hslots : ∀ q, w₁.slots q = w.slots q := fun q => by unfold slots; rw [hgroups]
  have hnew : ∀ j, w₁.bg j = w₁.bg k → w₁.slots guid j = none := by
    intro j hj
    rw [hbg, hb] at hj
    rw [hslots]
    exact hnone j hj
  split
  · exact h₁
  split
  · exact h₁
  rename_i w₂ hw₂
  -- the group has members now, and the one who accepts is in none of his own
  obtain ⟨h₂, hin₂, hnew₂, hlt₂, hmem₂⟩ : w₂.Linked ∧ w₂.between guid = false ∧
      (∀ j, w₂.bg j = w₂.bg k → w₂.slots guid j = none) ∧ k < w₂.nextGroup ∧
      (w₂.groups k).memberSlots ≠ [] := by
    unfold formGroup at hw₂
    dsimp only at hw₂
    split_ifs at hw₂ with hempty
    · rw [hgroups] at hempty
      obtain ⟨hlin, hlnone⟩ := h.canForm_spec hcan hempty
      rw [hgroups] at hw₂
      have hlin₁ : w₁.between (w.groups k).leaderGuid = false := by rw [hbetween _ hleader]; exact hlin
      have hlnew : ∀ j, w₁.bg j = w₁.bg k → w₁.slots (w.groups k).leaderGuid j = none := by
        intro j hj
        rw [hbg, hb] at hj
        rw [hslots]
        exact hlnone j hj
      have h₂ := h₁.create (by rw [hgroups]; exact hempty) (by rw [hnext]; exact hlt) hlin₁ hlnew hw₂
      obtain ⟨hp₂, hs₂, hb₂, hn₂, hm₂⟩ := create_frame hw₂ hlin₁ (by rw [hgroups]; exact hempty)
        (Ne.symm hleader)
      refine ⟨h₂, ?_, ?_, by rw [hn₂, hnext]; exact hlt, hm₂⟩
      · unfold between at hin₁ ⊢
        rw [hp₂]
        exact hin₁
      · rw [hb₂, hs₂]
        exact hnew
    · obtain rfl := some.inj hw₂
      exact ⟨h₁, hin₁, hnew, by rw [hnext]; exact hlt, hempty⟩
  cases ha : w₂.addMember k guid with
  | none => exact h₂
  | some w₃ =>
    refine h₂.addMember (g := w₂.groups k) rfl rfl (h₂.group k).toSeated
      (.inr ((h₂.group k).leader hmem₂)) hlt₂ hin₂ hnew₂ ?_
    rw [setGroup_self]
    exact ha

/-! ## What players do besides -/

/-- A player who is in no raid of a battleground enters one. -/
theorem Linked.joinBattleGround (h : w.Linked)
    (hno : ∀ pl b, w.players guid = some pl → pl.group.target = some b → w.bg b = false) :
    (w.joinBattleGround k guid).Linked := by
  dsimp only [GroupWorld.joinBattleGround]
  split
  · exact h
  rename_i pl hpl
  obtain ⟨hp, -⟩ := getPlayer_eq_some hpl
  have hin := not_between_of_getPlayer hpl
  split
  · exact h
  rename_i hb
  have hb : w.bg k = true := by unfold bg; simpa using hb
  have href := h.player guid pl hp
  have ho := href.original_none fun b hgb => hno pl b hp hgb
  have hnew : ∀ j, w.bg j = w.bg k → w.slots guid j = none := by
    intro j hj
    by_contra hsome
    obtain hg | ho' := href.slot_isSome.mp (ne_none_iff_isSome.mp hsome)
    · rw [hno pl j hp hg, hb] at hj
      cases hj
    · rw [ho] at ho'
      cases ho'
  have hlt : k < w.nextGroup := by
    by_contra hle
    rw [(h.ids k (Nat.not_lt.mp hle)).2] at hb
    cases hb
  split
  · rename_i hempty
    cases hc : w.create k guid with
    | none => exact h
    | some w' => exact h.create hempty hlt hin hnew hc
  rename_i hmem
  split
  · rename_i hm
    rw [Group.isMember_iff, show (w.groups k).slotOf guid = none from hnew k rfl] at hm
    cases hm
  split
  · exact h
  rename_i w' ha
  have h' : w'.Linked := by
    refine h.addMember (g := w.groups k) rfl rfl (h.group k).toSeated
      (.inr ((h.group k).leader hmem)) hlt hin hnew ?_
    rw [setGroup_self]
    exact ha
  split
  · exact h'.changeLeader
  · exact h'

/-- The references that a character gets when he comes online. -/
theorem Linked.login_refers (h : w.Linked) :
    Refers (w.slots q) w.bg w.nextGroup
      ((w.groupOf q true).elim
        ((w.groupOf q false).elim {} fun k =>
          GroupPlayer.setGroup {} (some k) ((w.groups k).getMemberGroup q))
        fun k => GroupPlayer.setBattleGroundRaid
          ((w.groupOf q false).elim {} fun k =>
            GroupPlayer.setGroup {} (some k) ((w.groups k).getMemberGroup q)) k
          ((w.groups k).getMemberGroup q)) := by
  have hget : ∀ k, (w.slots q k).isSome = true → w.slots q k = some ((w.groups k).getMemberGroup q) := by
    intro k hk
    obtain ⟨x, hx⟩ := isSome_iff_exists.mp hk
    unfold Group.getMemberGroup
    rw [show (w.groups k).slotOf q = some x from hx]
    exact hx
  -- first his own group, whose slots are those that are not of a battleground
  obtain ⟨pl, slot, hpl, href, hinv, hslot⟩ : ∃ (pl : GroupPlayer) (slot : Nat → Option UInt8),
      ((w.groupOf q false).elim {} fun k =>
        GroupPlayer.setGroup {} (some k) ((w.groups k).getMemberGroup q)) = pl ∧
      Refers slot w.bg w.nextGroup pl ∧ pl.groupInvite = none ∧
      ∀ j, slot j = if w.bg j = false then w.slots q j else none := by
    have hstart : Refers (fun _ => none) w.bg w.nextGroup {} :=
      ⟨fun _ => rfl, fun _ hr => (by cases hr), fun _ hj => (by cases hj)⟩
    obtain ⟨k, hk, hb, hsome, hother⟩ | ⟨hk, hnone⟩ := h.groupOf_spec (q := q) false
    · rw [hk]
      refine ⟨_, _, rfl, hstart.join (k := k) (fun _ _ => rfl) rfl, rfl, fun j => ?_⟩
      rw [update_apply]
      split_ifs with h1 h2 h2
      · rw [h1, hget k hsome]
      · rw [h1] at h2
        exact absurd hb h2
      · rw [hother j h2 h1]
      · rfl
    · rw [hk]
      refine ⟨_, _, rfl, hstart, rfl, fun j => ?_⟩
      split_ifs with hj
      · rw [hnone j hj]
      · rfl
  rw [hpl]
  obtain ⟨k, hk, hb, hsome, hother⟩ | ⟨hk, hnone⟩ := h.groupOf_spec (q := q) true
  · rw [hk]
    have hfree : ∀ j, w.bg j = w.bg k → slot j = none := fun j hj => by
      rw [hslot, if_neg (by rw [hj, hb]; simp)]
    have hjoin := @Refers.join _ _ _ _ _ ((w.groups k).getMemberGroup q) href hfree hinv
    have he : update slot k (some ((w.groups k).getMemberGroup q)) = w.slots q := by
      funext j
      rw [update_apply, hslot]
      split_ifs with h1 h2
      · rw [h1, hget k hsome]
      · rfl
      · rw [hother j ((Bool.not_eq_false _).mp h2) h1]
    rw [he, hb] at hjoin
    have hset : pl.setBattleGroundRaid k ((w.groups k).getMemberGroup q) =
        if pl.group.target.isSome && true then
          pl.setBattleGroundRaid k ((w.groups k).getMemberGroup q)
        else if pl.group.target.isSome then
          pl.setOriginalGroup (some k) ((w.groups k).getMemberGroup q)
        else pl.setGroup (some k) ((w.groups k).getMemberGroup q) := by
      cases hg : pl.group.target with
      | some a => rfl
      | none =>
        have ho := href.original_none fun b hgb => by rw [hg] at hgb; cases hgb
        obtain ⟨_, ⟨_, _⟩, ⟨_, _⟩, _⟩ := pl
        obtain rfl : _ = none := hg
        obtain rfl : _ = none := ho
        rfl
    show Refers _ _ _ (pl.setBattleGroundRaid k ((w.groups k).getMemberGroup q))
    rw [hset]
    exact hjoin
  · rw [hk]
    have he : slot = w.slots q := by
      funext j
      rw [hslot]
      split_ifs with hj
      · rfl
      · rw [hnone j ((Bool.not_eq_false _).mp hj)]
    exact he ▸ href

theorem Linked.login (h : w.Linked) : (w.login guid).Linked := by
  dsimp only [GroupWorld.login]
  split
  · exact h
  · refine h.setPlayers (q := guid) rfl rfl (fun p hne => setPlayer_players_ne hne) fun pl hpl => ?_
    rw [setPlayer_players_self] at hpl
    obtain rfl := some.inj hpl
    exact h.login_refers

theorem Linked.logout (h : w.Linked) : (w.logout guid).Linked := by
  refine h.uninviteFromGroup.setPlayers (q := guid) rfl rfl (fun p hne => if_neg hne) fun pl hpl => ?_
  rw [show (w.logout guid).players guid = none from if_pos rfl] at hpl
  cases hpl

theorem Linked.setInWorld (h : w.Linked) {inWorld : Bool} : (w.setInWorld guid inWorld).Linked := by
  unfold GroupWorld.setInWorld
  split
  · exact h
  rename_i pl hp
  refine h.setPlayers (q := guid) rfl rfl (fun p hne => setPlayer_players_ne hne) fun pl' hpl' => ?_
  rw [setPlayer_players_self] at hpl'
  obtain rfl := some.inj hpl'
  have href := h.player guid pl hp
  exact ⟨href.ref, href.original, href.invited⟩

/-! ## Runs -/

/-- The step concerns nobody who is between two maps where he would be taken for offline, and forms
no group for a leader who has one. Only members are removed, and only who is in no raid of a
battleground enters one. -/
def Orderly (w : GroupWorld) : GroupInput → Bool
  | .accept guid _ => (w.players guid).all fun pl => pl.groupInvite.all fun k => w.canForm k
  | .removeMember k guid => !w.between guid && (w.groups k).isMember guid
  | .changeMembersGroup k guid _ => !(w.groups k).isMember guid || !w.between guid
  | .swapMembersGroup k guid swapGuid =>
    !((w.groups k).isMember guid && (w.groups k).isMember swapGuid) ||
      !w.between guid && !w.between swapGuid
  | .joinBattleGround _ guid => (w.players guid).all fun pl => pl.group.target.all fun b => !w.bg b
  | _ => true

theorem linked_step {i : GroupInput} (h : w.Linked) (ho : w.Orderly i = true) :
    (w.step i).Linked := by
  cases i with
  | invite => exact h.handleGroupInvite
  | accept guid allowed =>
    refine h.handleGroupAccept fun pl k hp hk => ?_
    simp only [Orderly, hp, all_some, hk] at ho
    exact ho
  | uninvite => exact h.uninviteFromGroup
  | convertToRaid => exact h.convertToRaid
  | removeMember k guid =>
    obtain ⟨h1, h2⟩ := (Bool.and_eq_true _ _).mp ho
    exact h.removeMember ((Bool.not_eq_true' _).mp h1) h2
  | changeLeader => exact h.changeLeader
  | updateOfflineLeader => exact h.updateOfflineLeader
  | changeMembersGroup =>
    refine h.changeMembersGroup fun hm => ?_
    simpa [Orderly, hm] using ho
  | changePlayersGroup => exact h.changePlayersGroup
  | swapMembersGroup =>
    refine h.swapMembersGroup fun hm hm' => ?_
    simpa [Orderly, hm, hm'] using ho
  | swapPlayersGroup => exact h.swapPlayersGroup
  | newBattleGround => exact h.newGroup rfl rfl rfl
  | joinBattleGround k guid =>
    refine h.joinBattleGround fun pl b hp hb => ?_
    simp only [Orderly, hp, all_some, hb, Bool.not_eq_true'] at ho
    exact ho
  | login => exact h.login
  | logout => exact h.logout
  | setInWorld => exact h.setInWorld

/-- Every group is in order, and each online member's reference carries the subgroup of his slot. -/
def Structured (w : GroupWorld) : Prop :=
  ∀ k, (w.groups k).Ok ∧ ∀ p pl, w.players p = some pl → (w.groups k).isMember p = true →
    pl.refTo k = (w.groups k).slotOf p

theorem Linked.structured (h : w.Linked) : w.Structured := fun k =>
  ⟨h.group k, fun p pl hp _ => (h.player p pl hp).ref k⟩

theorem linked_empty : ({} : GroupWorld).Linked :=
  ⟨fun _ => .empty rfl rfl rfl, fun _ _ => rfl, fun _ _ => ⟨rfl, rfl⟩, fun _ _ _ h => (by cases h),
    fun _ _ h => (by cases h)⟩

/-- In every orderly run the groups are in order, in every state that it reaches. -/
theorem structured_of_run {is : List GroupInput} (h : w.Linked)
    (hrun : AlongRun step (fun w i => w.Orderly i = true) w is) : (run step w is).Structured :=
  Linked.structured (run_keeps (fun _ _ hl ho => linked_step hl ho) h hrun)

end GroupWorld

/-! ## A raid in a run -/

/-- A raid of three with a battleground: subgroups are changed and swapped, also while a member is
offline or in the battleground, and the leader leaves. -/
def raidRun : List GroupInput :=
  [.login 1, .login 2, .login 3, .invite 1 2 true, .accept 2 true, .invite 1 3 true, .accept 3 true,
    .convertToRaid 0, .newBattleGround, .joinBattleGround 1 2, .changeMembersGroup 0 2 1, .logout 3,
    .swapMembersGroup 0 2 3, .login 3, .changeLeader 0 2, .updateOfflineLeader 0 true,
    .removeMember 0 1, .removeMember 1 2]

theorem raidRun_structured : (run GroupWorld.step {} raidRun).Structured ∧
    ((run GroupWorld.step {} raidRun).groups 0).memberSlots.length = 2 :=
  ⟨GroupWorld.structured_of_run GroupWorld.linked_empty (by decide +kernel), by decide +kernel⟩

/-- Member `2` is moved to another subgroup while he goes from one map to another. -/
def teleportRun : List GroupInput :=
  [.login 1, .login 2, .invite 1 2 true, .accept 2 true, .convertToRaid 0, .setInWorld 2 false,
    .changeMembersGroup 0 2 1, .setInWorld 2 true]

/-- He keeps the old subgroup in his reference. In a battleground it is the one that is counted
down when he is moved again. -/
theorem teleportRun_not_structured :
    ¬ (run GroupWorld.step {} teleportRun).Structured ∧
    ¬ (run GroupWorld.step {} (teleportRun ++ [.newBattleGround, .joinBattleGround 1 2,
        .changeMembersGroup 0 2 2])).Structured := by
  constructor
  · intro h
    have href := (h 0).2 2 { group := ⟨some 0, 0⟩ } (by decide +kernel) (by decide +kernel)
    exact absurd href (by decide +kernel)
  · intro h
    -- the leader's subgroup counts nobody
    obtain ⟨hcount, -⟩ := (h 0).1.counted [0, 1, 1, 0, 0, 0, 0, 0] (by decide +kernel)
    exact absurd (hcount.2 0 0 rfl) (by decide +kernel)

end Windrunner
