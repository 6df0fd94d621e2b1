import Windrunner.Group.Orderly
import Windrunner.Loot.Award

/-!
# The offices of a group

Beside the slots a group keeps the guids of its main tank, its main assistant and its looter, who is
the master looter under `masterLoot`. `_setMainTank` and `_setMainAssistant` take members only and
never let one hold both; `HandleLootMethodOpcode` stores any guid, and `_removeMember` leaves the
offices as they are.

- **Members** (`step_members`): who was in a group stays there, unless he is removed or the group is
  gone.
- **Offices** (`Held`): each office is empty or a member's; one lemma for each setter.
- **Runs** (`held_of_run`): as long as no one in office is removed and no stranger is named.
-/

namespace Windrunner

open Lib Option

abbrev itemQualityNormal : Nat := 1
abbrev itemQualityUncommon : Nat := 2
abbrev itemQualityLegendary : Nat := 5

structure Offices where
  mainTankGuid : Nat := 0
  mainAssistantGuid : Nat := 0
  lootMethod : LootMethod := .freeForAll
  looterGuid : Nat := 0
  lootThreshold : Nat := itemQualityUncommon
  deriving DecidableEq, Repr

/-- The groups with their offices. -/
structure OfficeWorld where
  world : GroupWorld := {}
  offices : Nat → Offices := fun _ => {}

/-- The loot methods by their numbers in a packet. -/
def lootMethods : List LootMethod :=
  [.freeForAll, .roundRobin, .masterLoot, .groupLoot, .needBeforeGreed]

namespace Offices

variable (g : Group) (o : Offices)

def setMainTank (guid : Nat) : Offices :=
  if o.mainTankGuid = guid then o
  else if guid ≠ 0 ∧ g.isMember guid = false then o
  else
    { o with
      mainTankGuid := guid
      mainAssistantGuid := if guid ≠ 0 ∧ o.mainAssistantGuid = guid then 0 else o.mainAssistantGuid }

def setMainAssistant (guid : Nat) : Offices :=
  if o.mainAssistantGuid = guid then o
  else if guid ≠ 0 ∧ g.isMember guid = false then o
  else
    { o with
      mainAssistantGuid := guid
      mainTankGuid := if guid ≠ 0 ∧ o.mainTankGuid = guid then 0 else o.mainTankGuid }

/-- `UpdateLooterGuid`: the next member after the looter who is near takes over, in the end the
looter again. With `ifneed` he keeps his turn while he is near. -/
def updateLooterGuid (near : Nat → Bool) (ifneed : Bool) : Offices :=
  if o.lootMethod = .masterLoot ∨ o.lootMethod = .freeForAll then o
  else
    let guidItr := g.memberSlots.findIdx? (·.guid == o.looterGuid)
    if ifneed && (guidItr.bind (g.memberSlots[·]?)).any (near ·.guid) then o
    else
      let next := guidItr.elim g.memberSlots.length (· + 1)
      let newLooter := ((g.memberSlots.drop next).find? (near ·.guid)).or
        ((g.memberSlots.take next).find? (near ·.guid))
      { o with looterGuid := newLooter.elim 0 (·.guid) }

/-- A master looter who is not `inWorld` at a kill: the leader or an assistant takes over, or the
group changes to group loot. -/
def replaceMasterLooter (inWorld near : Nat → Bool) : Offices :=
  if o.looterGuid = 0 ∨ inWorld o.looterGuid = true ∨ o.lootMethod ≠ .masterLoot then o
  else
    match g.memberSlots.find? fun s => s.guid != o.looterGuid &&
        (s.guid == g.leaderGuid || s.assistant) && inWorld s.guid with
    | some s => { o with looterGuid := s.guid }
    | none =>
      updateLooterGuid g { o with lootMethod := .groupLoot, lootThreshold := itemQualityUncommon }
        near false

end Offices

def Group.setAssistantFlag (g : Group) (guid : Nat) (state : Bool) : Group :=
  match g.getMemberSlot guid with
  | none => g
  | some (i, s) => { g with memberSlots := g.memberSlots.set i { s with assistant := state } }

namespace OfficeWorld

variable (w : OfficeWorld)

def setOffices (k : Nat) (o : Offices) : OfficeWorld :=
  { w with offices := fun j => if j = k then o else w.offices j }

/-- Only `Create` writes the offices of a group; those of a group that is gone are of no use. -/
def stepGroup (i : GroupInput) : OfficeWorld :=
  let world := w.world.step i
  { world
    offices := fun k =>
      if (world.groups k).memberSlots = [] then {}
      else if (w.world.groups k).memberSlots = [] then
        { lootMethod := .groupLoot, looterGuid := (world.groups k).leaderGuid }
      else w.offices k }

/-- The group of which the player may set the loot method. -/
def leadGroup (guid : Nat) : Option Nat :=
  (w.world.getPlayer guid).bind fun pl =>
    ((pl.group.target.filter fun k => !(w.world.groups k).bgGroup).or
      pl.originalGroup.target).filter fun k => (w.world.groups k).leaderGuid == guid

def handleLootMethod (guid lootMethod lootMaster lootThreshold : Nat) :
    OfficeWorld :=
  match lootMethods[lootMethod]? with
  | none => w
  | some lootMethod =>
    if lootThreshold < itemQualityNormal ∨ lootThreshold > itemQualityLegendary then w
    else
      match w.leadGroup guid with
      | none => w
      | some k =>
        w.setOffices k { w.offices k with lootMethod, looterGuid := lootMaster, lootThreshold }

def setAssistant (k guid : Nat) (state : Bool) : OfficeWorld :=
  let g := w.world.groups k
  if !g.isRaidGroup then w
  else { w with world := w.world.setGroup k (g.setAssistantFlag guid state) }

def setMainTank (k guid : Nat) : OfficeWorld :=
  let g := w.world.groups k
  if !g.isRaidGroup then w else w.setOffices k ((w.offices k).setMainTank g guid)

def setMainAssistant (k guid : Nat) : OfficeWorld :=
  let g := w.world.groups k
  if !g.isRaidGroup then w else w.setOffices k ((w.offices k).setMainAssistant g guid)

/-- `near`: within the distance in which a player has a share of the loot. -/
def updateLooterGuid (k : Nat) (near : Nat → Bool) (ifneed : Bool) :
    OfficeWorld :=
  let found guid := (w.world.getPlayer guid).isSome && near guid
  w.setOffices k ((w.offices k).updateLooterGuid (w.world.groups k) found ifneed)

/-- What `Unit::Kill` does with the group that has the right to the loot. -/
def kill (k : Nat) (near : Nat → Bool) : OfficeWorld :=
  let w := w.updateLooterGuid k near true
  let inWorld guid := (w.world.getPlayer guid).isSome
  let w := w.setOffices k ((w.offices k).replaceMasterLooter (w.world.groups k) inWorld
    fun guid => inWorld guid && near guid)
  w.updateLooterGuid k near false

end OfficeWorld

inductive OfficeInput where
  | group (i : GroupInput)
  | lootMethod (guid lootMethod lootMaster lootThreshold : Nat)
  | setAssistant (k guid : Nat) (state : Bool)
  | setMainTank (k guid : Nat)
  | setMainAssistant (k guid : Nat)
  | updateLooterGuid (k : Nat) (near : Nat → Bool) (ifneed : Bool)
  | kill (k : Nat) (near : Nat → Bool)

namespace OfficeWorld

def step (w : OfficeWorld) : OfficeInput → OfficeWorld
  | .group i => w.stepGroup i
  | .lootMethod guid lootMethod lootMaster lootThreshold =>
    w.handleLootMethod guid lootMethod lootMaster lootThreshold
  | .setAssistant k guid state => w.setAssistant k guid state
  | .setMainTank k guid => w.setMainTank k guid
  | .setMainAssistant k guid => w.setMainAssistant k guid
  | .updateLooterGuid k near ifneed => w.updateLooterGuid k near ifneed
  | .kill k near => w.kill k near

end OfficeWorld

/-! ## Members -/

namespace Group

variable {g g' : Group} {guid swapGuid p : Nat} {group : UInt8}

theorem isMember_of_guids (h : g'.memberSlots.map (·.guid) = g.memberSlots.map (·.guid)) :
    g'.isMember p = g.isMember p := by
  have hmap : ∀ l : List MemberSlot, l.any (·.guid == p) = (l.map (·.guid)).any (· == p) := by
    intro l
    rw [List.any_map]
    rfl
  unfold isMember
  rw [hmap, hmap, h]

theorem isMember_addSlot (h : g.isMember p = true) : (g.addSlot guid group).isMember p = true := by
  unfold isMember at *
  show (g.memberSlots ++ _).any _ = true
  rw [List.any_append, h, Bool.true_or]

theorem isMember_removeSlot (h : g.isMember p = true) (hne : p ≠ guid) :
    (g.removeSlot guid).isMember p = true := by
  unfold removeSlot
  split
  · exact h
  rename_i i s hs
  obtain ⟨hi, rfl⟩ := getMemberSlot_eq_some hs
  obtain ⟨t, ht, hp⟩ := List.any_eq_true.mp h
  obtain ⟨j, hj⟩ := List.mem_iff_getElem?.mp ht
  have hji : j ≠ i := by
    rintro rfl
    obtain rfl := some.inj (hi.symm.trans hj)
    exact hne (beq_iff_eq.mp hp).symm
  exact List.any_eq_true.mpr ⟨t, List.mem_eraseIdx_iff_getElem?.mpr ⟨j, hji, hj⟩, hp⟩

theorem guids_setMembersGroup (h : g.setMembersGroup guid group = some g') :
    g'.memberSlots.map (·.guid) = g.memberSlots.map (·.guid) := by
  obtain ⟨⟨i, s⟩, hs, rfl⟩ := map_eq_some_iff.mp h
  obtain ⟨hi, -⟩ := getMemberSlot_eq_some hs
  exact map_set_key hi rfl

theorem guids_swapSlots (h : g.swapSlots guid swapGuid = some g') :
    g'.memberSlots.map (·.guid) = g.memberSlots.map (·.guid) := by
  unfold swapSlots at h
  split at h
  · rename_i i s j t hs ht
    obtain rfl := some.inj h
    obtain ⟨hi, -⟩ := getMemberSlot_eq_some hs
    obtain ⟨hj, -⟩ := getMemberSlot_eq_some ht
    have hmid : (g.memberSlots.set j { t with group := s.group }).map (·.guid) =
        g.memberSlots.map (·.guid) := map_set_key hj rfl
    show ((g.memberSlots.set j { t with group := s.group }).set i
      { s with group := t.group }).map (·.guid) = _
    rw [List.map_set, hmid, ← List.map_set]
    exact map_set_key hi rfl
  · cases h

theorem guids_setAssistantFlag {state : Bool} :
    (g.setAssistantFlag guid state).memberSlots.map (·.guid) = g.memberSlots.map (·.guid) := by
  unfold setAssistantFlag
  split
  · rfl
  · rename_i i s hs
    exact map_set_key (getMemberSlot_eq_some hs).1 rfl

/-- Nobody leaves. -/
def Keeps (g g' : Group) : Prop := ∀ p, g.isMember p = true → g'.isMember p = true

theorem Keeps.refl : Keeps g g := fun _ h => h

theorem Keeps.of_slots (h : g'.memberSlots = g.memberSlots) : Keeps g g' := fun _ hp =>
  (isMember_congr h).trans hp

theorem Keeps.of_guids (h : g'.memberSlots.map (·.guid) = g.memberSlots.map (·.guid)) :
    Keeps g g' := fun _ hp => (isMember_of_guids h).trans hp

theorem Keeps.trans {g'' : Group} (h : Keeps g g') (h' : Keeps g' g'') : Keeps g g'' :=
  fun p hp => h' p (h p hp)

end Group

namespace GroupWorld

variable {w w' : GroupWorld} {k guid swapGuid : Nat} {g : Group}

/-- Nobody leaves a group. -/
def Keeps (w w' : GroupWorld) : Prop := ∀ k, (w.groups k).Keeps (w'.groups k)

theorem Keeps.of_groups (h : w'.groups = w.groups) : Keeps w w' := fun k => by
  rw [h]
  exact .refl

theorem Keeps.trans {w'' : GroupWorld} (h : Keeps w w') (h' : Keeps w' w'') : Keeps w w'' :=
  fun k => (h k).trans (h' k)

/-- One group is written. -/
theorem Keeps.setGroup (h : (w.groups k).Keeps g) : Keeps w (w.setGroup k g) := by
  intro j
  by_cases hj : j = k
  · subst hj
    rw [setGroup_groups_self]
    exact h
  · rw [setGroup_groups_ne hj]
    exact .refl

theorem keeps_chooseLeader {offline : Bool} : Keeps w (w.chooseLeader k offline) := by
  obtain ⟨he, -⟩ | ⟨p, -, he⟩ := chooseLeader_cases w k offline
  · rw [he]
    exact .of_groups rfl
  · rw [he]
    exact .setGroup (.of_slots Group.setLeader_memberSlots)

theorem keeps_addMember (h : w.addMember k guid = some w') : Keeps w w' := by
  obtain ⟨group, -, h⟩ := bind_eq_some_iff.mp h
  dsimp only [addMemberTo] at h
  split_ifs at h
  have hk : Keeps w (w.setGroup k ((w.groups k).addSlot guid group)) :=
    .setGroup fun _ => Group.isMember_addSlot
  split at h
  · obtain rfl := some.inj h
    exact hk
  · obtain rfl := some.inj h
    exact hk.trans (.of_groups rfl)

theorem keeps_create (h : w.create k guid = some w') : Keeps w w' := by
  refine Keeps.trans (.setGroup ?_) (keeps_addMember h)
  split
  · exact .of_slots rfl
  · exact .of_slots rfl

theorem keeps_setMembersGroup {group sub : UInt8}
    (h : (w.groups k).setMembersGroup guid group = some g) :
    Keeps w (w.setGroup k (g.subGroupCounterDecrease sub)) := by
  have hguids := Group.guids_setMembersGroup h
  exact .setGroup fun p hp => (Group.isMember_of_guids hguids).trans hp

theorem keeps_changePlayersGroup {group : UInt8} : Keeps w (w.changePlayersGroup k guid group) := by
  dsimp only [changePlayersGroup]
  split
  · exact .of_groups rfl
  split
  · exact .of_groups rfl
  split
  · exact .of_groups rfl
  split
  · exact .of_groups rfl
  split
  · exact .of_groups rfl
  · rename_i hg
    exact (Keeps.of_groups rfl).trans (keeps_setMembersGroup hg)

theorem keeps_changeMembersGroup {group : UInt8} : Keeps w (w.changeMembersGroup k guid group) := by
  dsimp only [changeMembersGroup]
  split
  · exact .of_groups rfl
  split
  · exact .of_groups rfl
  split
  · exact keeps_changePlayersGroup
  split
  · exact .of_groups rfl
  split
  · exact .of_groups rfl
  · rename_i hg
    exact keeps_setMembersGroup hg

theorem keeps_setSubGroup {group : UInt8} : Keeps w (w.setSubGroup k guid group) := by
  unfold setSubGroup
  split
  · exact .of_groups rfl
  · exact .of_groups rfl

theorem keeps_swapMembersGroup : Keeps w (w.swapMembersGroup k guid swapGuid) := by
  dsimp only [swapMembersGroup]
  split_ifs
  · exact .of_groups rfl
  · exact .of_groups rfl
  split
  · exact .of_groups rfl
  · rename_i hg
    have hset : Keeps w (w.setGroup k _) := .setGroup (.of_guids (Group.guids_swapSlots hg))
    exact (hset.trans keeps_setSubGroup).trans keeps_setSubGroup

theorem keeps_handleGroupAccept {allowed : Bool} : Keeps w (w.handleGroupAccept guid allowed) := by
  dsimp only [handleGroupAccept]
  split
  · exact .of_groups rfl
  split
  · exact .of_groups rfl
  split_ifs
  · exact .of_groups rfl
  · exact .of_groups rfl
  split
  · exact .of_groups rfl
  rename_i pl _ _ k _ _ _ _ w₁ hform
  have h₁ : Keeps w w₁ := by
    unfold formGroup at hform
    dsimp only at hform
    split_ifs at hform
    · have hset : Keeps w (w.setPlayer guid { pl with groupInvite := none }) := .of_groups rfl
      exact hset.trans (keeps_create hform)
    · obtain rfl := some.inj hform
      exact .of_groups rfl
  cases ha : w₁.addMember k guid with
  | none => exact h₁
  | some w₂ => exact h₁.trans (keeps_addMember ha)

theorem keeps_joinBattleGround : Keeps w (w.joinBattleGround k guid) := by
  dsimp only [joinBattleGround]
  split
  · exact .of_groups rfl
  split_ifs
  · exact .of_groups rfl
  · cases hc : w.create k guid with
    | none => exact .of_groups rfl
    | some w' => exact keeps_create hc
  · exact .of_groups rfl
  split
  · exact .of_groups rfl
  rename_i w₁ ha
  split_ifs
  · exact (keeps_addMember ha).trans (.setGroup (.of_slots Group.setLeader_memberSlots))
  · exact keeps_addMember ha

/-- Only who is removed by `i` leaves group `k`, unless it is gone. -/
def Stays (w : GroupWorld) (i : GroupInput) (k : Nat) (w' : GroupWorld) : Prop :=
  (w'.groups k).memberSlots = [] ∨ ∀ p, i ≠ .removeMember k p →
    (w.groups k).isMember p = true → (w'.groups k).isMember p = true

namespace Stays

variable {i : GroupInput} {j : Nat}

theorem of_keeps (h : Keeps w w') : Stays w i k w' := .inr fun p _ hp => h k p hp

/-- A group without members takes an id. -/
theorem empty (hg : g.memberSlots = []) (hw : w'.groups = (w.setGroup j g).groups) :
    Stays w i k w' := by
  unfold Stays
  rw [hw]
  by_cases hk : k = j
  · subst hk
    rw [setGroup_groups_self]
    exact .inl hg
  · rw [setGroup_groups_ne hk]
    exact .inr fun p _ hp => hp

theorem uninviteFromGroup : Stays w i k (w.uninviteFromGroup guid) := by
  dsimp only [GroupWorld.uninviteFromGroup]
  split
  · exact of_keeps (.of_groups rfl)
  split
  · exact of_keeps (.of_groups rfl)
  split
  · exact empty (g := {}) rfl rfl
  · exact of_keeps (.of_groups rfl)

theorem removeMember : Stays w (.removeMember j guid) k (w.removeMember j guid) := by
  dsimp only [GroupWorld.removeMember]
  split
  · obtain ⟨w₁, hw₁, he⟩ : ∃ w₁ : GroupWorld,
        w₁.groups = (w.setGroup j ((w.groups j).removeSlot guid)).groups ∧
        w.removeSlot j guid =
          if (w.groups j).leaderGuid = guid then w₁.chooseLeader j false else w₁ := by
      refine ⟨_, ?_, rfl⟩
      cases w.getPlayer guid <;> rfl
    have hkeeps : Keeps w₁ (w.removeSlot j guid) := by
      rw [he]
      split
      · exact keeps_chooseLeader
      · exact .of_groups rfl
    refine .inr fun p hp hm => hkeeps k p ?_
    rw [hw₁]
    by_cases hk : k = j
    · subst hk
      rw [setGroup_groups_self]
      refine Group.isMember_removeSlot hm ?_
      rintro rfl
      exact hp rfl
    · rw [setGroup_groups_ne hk]
      exact hm
  · exact empty (g := {}) rfl rfl

theorem handleGroupInvite {invited : Nat} {allowed : Bool} :
    Stays w i k (w.handleGroupInvite guid invited allowed) := by
  have hinvite : ∀ {w₁ : GroupWorld} {j q}, ((w₁.addInvite j q).getD w₁).groups = w₁.groups := by
    intro w₁ j q
    cases ha : w₁.addInvite j q with
    | none => rfl
    | some w₂ => exact (addInvite_eq ha).1
  dsimp only [GroupWorld.handleGroupInvite]
  split
  · split
    · exact of_keeps (.of_groups rfl)
    split
    · split
      · exact of_keeps (.of_groups rfl)
      · exact of_keeps (.of_groups hinvite)
    · -- a new group, or none when one of the two cannot be invited
      rename_i pl _ _ _ _ _
      obtain ⟨w₁, hw₁⟩ : ∃ w₁ : GroupWorld,
        w₁ = { w.setGroup w.nextGroup { leaderGuid := guid } with nextGroup := w.nextGroup + 1 } :=
        ⟨_, rfl⟩
      rw [← hw₁]
      have hnew : ∀ {w' : GroupWorld}, w'.groups = w₁.groups → Stays w i k w' := fun h =>
        empty (g := { leaderGuid := guid }) (j := w.nextGroup) rfl (by rw [h, hw₁])
      cases ha : w₁.addInvite w.nextGroup guid with
      | none => exact of_keeps (.of_groups rfl)
      | some w₂ =>
        cases hb : w₂.addInvite w.nextGroup invited with
        | none => rw [bind_some, hb]; exact of_keeps (.of_groups rfl)
        | some w₃ =>
          rw [bind_some, hb]
          exact hnew ((addInvite_eq hb).1.trans (addInvite_eq ha).1)
  · exact of_keeps (.of_groups rfl)

end Stays

/-- A member who is not removed stays in the group, unless it is gone. -/
theorem step_members (w : GroupWorld) (i : GroupInput) (k : Nat) : Stays w i k (w.step i) := by
  cases i with
  | invite => exact .handleGroupInvite
  | accept => exact .of_keeps keeps_handleGroupAccept
  | uninvite => exact .uninviteFromGroup
  | convertToRaid j =>
    dsimp only [step, convertToRaid]
    split
    · exact .of_keeps (.of_groups rfl)
    · exact .of_keeps (.setGroup (.of_slots rfl))
  | removeMember => exact .removeMember
  | changeLeader => exact .of_keeps (.setGroup (.of_slots Group.setLeader_memberSlots))
  | updateOfflineLeader =>
    dsimp only [step, updateOfflineLeader]
    split_ifs
    · exact .of_keeps (.of_groups rfl)
    · exact .of_keeps (.of_groups rfl)
    · exact .of_keeps (.of_groups rfl)
    · exact .of_keeps keeps_chooseLeader
  | changeMembersGroup => exact .of_keeps keeps_changeMembersGroup
  | changePlayersGroup => exact .of_keeps keeps_changePlayersGroup
  | swapMembersGroup => exact .of_keeps keeps_swapMembersGroup
  | swapPlayersGroup =>
    dsimp only [step, swapPlayersGroup]
    split
    · exact .of_keeps keeps_swapMembersGroup
    · exact .of_keeps (.of_groups rfl)
  | newBattleGround => exact .empty (g := { bgGroup := true }) rfl rfl
  | joinBattleGround => exact .of_keeps keeps_joinBattleGround
  | login =>
    dsimp only [step, login]
    split
    · exact .of_keeps (.of_groups rfl)
    · exact .of_keeps (.of_groups rfl)
  | logout => exact Stays.uninviteFromGroup
  | setInWorld =>
    dsimp only [step, setInWorld]
    split
    · exact .of_keeps (.of_groups rfl)
    · exact .of_keeps (.of_groups rfl)

end GroupWorld

/-! ## Offices -/

namespace Offices

variable {o : Offices} {g : Group} {member member' : Nat → Bool} {guid : Nat}

/-- Each office is empty or held by a member, and no one is main tank and main assistant. -/
structure Held (o : Offices) (member : Nat → Bool) : Prop where
  mainTank : o.mainTankGuid ≠ 0 → member o.mainTankGuid = true
  mainAssistant : o.mainAssistantGuid ≠ 0 → member o.mainAssistantGuid = true
  distinct : o.mainTankGuid = o.mainAssistantGuid → o.mainTankGuid = 0
  looter : o.lootMethod = .masterLoot → member o.looterGuid = true

/-- A player is in office. -/
def holds (o : Offices) (guid : Nat) : Bool :=
  (o.mainTankGuid == guid && guid != 0) || (o.mainAssistantGuid == guid && guid != 0) ||
    (o.lootMethod == .masterLoot && o.looterGuid == guid)

theorem Held.none : Held {} member :=
  ⟨fun h => absurd rfl h, fun h => absurd rfl h, fun _ => rfl, fun h => (by cases h)⟩

theorem Held.created {looterGuid : Nat} :
    Held { lootMethod := .groupLoot, looterGuid } member :=
  ⟨fun h => absurd rfl h, fun h => absurd rfl h, fun _ => rfl, fun h => (by cases h)⟩

/-- Those in office stay members. -/
theorem Held.mono (h : Held o member)
    (hkeep : ∀ p, o.holds p = true → member p = true → member' p = true) : Held o member' := by
  refine ⟨fun h0 => hkeep _ ?_ (h.mainTank h0), fun h0 => hkeep _ ?_ (h.mainAssistant h0),
    h.distinct, fun hm => hkeep _ ?_ (h.looter hm)⟩
  · simp [holds, h0]
  · simp [holds, h0]
  · simp [holds, hm]

theorem Held.setMainTank (h : Held o g.isMember) : Held (o.setMainTank g guid) g.isMember := by
  unfold Offices.setMainTank
  split_ifs with h1 h2 h3
  · exact h
  · exact h
  · -- he gives up the other office
    have hm : g.isMember guid = true := by simpa [h3.1] using h2
    exact ⟨fun _ => hm, fun h0 => absurd rfl h0, id, h.looter⟩
  · have hm : guid ≠ 0 → g.isMember guid = true := fun h0 => by simpa [h0] using h2
    refine ⟨hm, h.mainAssistant, fun he => ?_, h.looter⟩
    by_contra h0
    exact h3 ⟨h0, he.symm⟩

theorem Held.setMainAssistant (h : Held o g.isMember) :
    Held (o.setMainAssistant g guid) g.isMember := by
  unfold Offices.setMainAssistant
  split_ifs with h1 h2 h3
  · exact h
  · exact h
  · have hm : g.isMember guid = true := by simpa [h3.1] using h2
    exact ⟨fun h0 => absurd rfl h0, fun _ => hm, fun _ => rfl, h.looter⟩
  · have hm : guid ≠ 0 → g.isMember guid = true := fun h0 => by simpa [h0] using h2
    refine ⟨h.mainTank, hm, fun he => ?_, h.looter⟩
    by_contra h0
    exact h3 ⟨fun hg => h0 (he.trans hg), he⟩

theorem Held.updateLooterGuid {near : Nat → Bool} {ifneed : Bool} (h : Held o member) :
    Held (o.updateLooterGuid g near ifneed) member := by
  dsimp only [Offices.updateLooterGuid]
  split_ifs with h1 h2
  · exact h
  · exact h
  · exact { h with looter := fun hm => absurd (.inl hm) h1 }

theorem Held.replaceMasterLooter {inWorld near : Nat → Bool} (h : Held o g.isMember) :
    Held (o.replaceMasterLooter g inWorld near) g.isMember := by
  unfold Offices.replaceMasterLooter
  split_ifs
  · exact h
  split
  · rename_i s hs
    have hm : g.isMember s.guid = true :=
      List.any_eq_true.mpr ⟨s, List.mem_of_find?_eq_some hs, beq_self_eq_true _⟩
    exact { h with looter := fun _ => hm }
  · refine Held.updateLooterGuid { h with looter := fun hm => ?_ }
    cases hm

end Offices

namespace OfficeWorld

variable {w : OfficeWorld} {k : Nat} {o : Offices}

/-- The offices of every group. -/
def Held (w : OfficeWorld) : Prop := ∀ k, (w.offices k).Held (w.world.groups k).isMember

theorem Held.setOffices (h : w.Held) (ho : o.Held (w.world.groups k).isMember) :
    (w.setOffices k o).Held := by
  intro j
  by_cases hj : j = k
  · subst hj
    rw [show (w.setOffices j o).offices j = o from if_pos rfl]
    exact ho
  · rw [show (w.setOffices k o).offices j = w.offices j from if_neg hj]
    exact h j

/-- Nobody in office is removed from a group that goes on, and the master looter whom an accepted packet
names is a member. -/
def Careful (w : OfficeWorld) : OfficeInput → Bool
  | .group (.removeMember k guid) =>
    let g := w.world.groups k
    !(w.offices k).holds guid || !g.isMember guid || g.memberSlots.length ≤ g.getMembersMinCount
  | .lootMethod guid lootMethod lootMaster lootThreshold =>
    lootMethods[lootMethod]? != some .masterLoot ||
      lootThreshold < itemQualityNormal || lootThreshold > itemQualityLegendary ||
      (w.leadGroup guid).all fun k => (w.world.groups k).isMember lootMaster
  | _ => true

theorem Held.stepGroup {i : GroupInput} (h : w.Held) (hc : w.Careful (.group i) = true) :
    (w.stepGroup i).Held := by
  intro k
  dsimp only [OfficeWorld.stepGroup]
  split_ifs with h1 h2
  · exact .none
  · exact .created
  have hk := h k
  obtain hgone | hstay := GroupWorld.step_members w.world i k
  · exact absurd hgone h1
  refine hk.mono fun p hp hm => hstay p ?_ hm
  rintro rfl
  -- the group goes on, so that he is in no office
  rw [Careful, hp, hm] at hc
  have hlen : (w.world.groups k).memberSlots.length ≤ (w.world.groups k).getMembersMinCount := by
    simpa using hc
  refine h1 ?_
  show ((w.world.removeMember k p).groups k).memberSlots = []
  dsimp only [GroupWorld.removeMember]
  rw [if_neg (Nat.not_lt.mpr hlen)]
  exact congrArg Group.memberSlots (if_pos rfl)

theorem Held.handleLootMethod {guid lootMethod lootMaster lootThreshold : Nat} (h : w.Held)
    (hc : w.Careful (.lootMethod guid lootMethod lootMaster lootThreshold) = true) :
    (w.handleLootMethod guid lootMethod lootMaster lootThreshold).Held := by
  unfold OfficeWorld.handleLootMethod
  split
  · exact h
  rename_i method hmethod
  split_ifs with hthreshold
  · exact h
  split
  · exact h
  rename_i k hk
  have ho := h k
  refine h.setOffices { ho with looter := fun hm => ?_ }
  obtain rfl : method = .masterLoot := hm
  obtain ⟨hlow, hhigh⟩ := not_or.mp hthreshold
  simpa [Careful, hmethod, hlow, hhigh, hk] using hc

theorem Held.setAssistant {guid : Nat} {state : Bool} (h : w.Held) :
    (w.setAssistant k guid state).Held := by
  dsimp only [OfficeWorld.setAssistant]
  split
  · exact h
  · have hkeeps : GroupWorld.Keeps w.world
        (w.world.setGroup k ((w.world.groups k).setAssistantFlag guid state)) :=
      .setGroup (.of_guids Group.guids_setAssistantFlag)
    exact fun j => (h j).mono fun p _ hp => hkeeps j p hp

theorem Held.updateLooterGuid {near : Nat → Bool} {ifneed : Bool} (h : w.Held) :
    (w.updateLooterGuid k near ifneed).Held := h.setOffices (h k).updateLooterGuid

theorem Held.kill {near : Nat → Bool} (h : w.Held) : (w.kill k near).Held := by
  have h₁ : (w.updateLooterGuid k near true).Held := h.updateLooterGuid
  exact (h₁.setOffices (h₁ k).replaceMasterLooter).updateLooterGuid

theorem held_step {i : OfficeInput} (h : w.Held) (hc : w.Careful i = true) : (w.step i).Held := by
  cases i with
  | group => exact h.stepGroup hc
  | lootMethod => exact h.handleLootMethod hc
  | setAssistant => exact h.setAssistant
  | setMainTank k guid =>
    dsimp only [step, OfficeWorld.setMainTank]
    split
    · exact h
    · exact h.setOffices (h k).setMainTank
  | setMainAssistant k guid =>
    dsimp only [step, OfficeWorld.setMainAssistant]
    split
    · exact h
    · exact h.setOffices (h k).setMainAssistant
  | updateLooterGuid => exact h.updateLooterGuid
  | kill => exact h.kill

theorem held_empty : ({} : OfficeWorld).Held := fun _ => .none

/-- In every careful run each office is empty or a member's, in every state that it reaches. -/
theorem held_of_run {is : List OfficeInput} (h : w.Held)
    (hrun : AlongRun step (fun w i => w.Careful i = true) w is) : (run step w is).Held :=
  run_keeps (fun _ _ h hc => held_step h hc) h hrun

end OfficeWorld

/-! ## A raid in a run -/

/-- Four players form a raid. -/
def raidOfFour : List OfficeInput :=
  [.login 1, .login 2, .login 3, .login 4, .invite 1 2 true, .accept 2 true, .invite 1 3 true,
    .accept 3 true, .invite 1 4 true, .accept 4 true, .convertToRaid 0].map .group

/-- The offices go round, the master looter goes to another map and loses his office at a kill, and
is removed then. -/
def officeRun : List OfficeInput :=
  raidOfFour ++ [.setMainTank 0 2, .setMainAssistant 0 3, .setMainAssistant 0 2, .setMainTank 0 4,
    .updateLooterGuid 0 (fun _ => true) false, .lootMethod 1 2 3 2, .setAssistant 0 2 true,
    .group (.setInWorld 3 false), .kill 0 fun _ => true, .group (.removeMember 0 3),
    .group (.changeLeader 0 2)]

theorem officeRun_held : (run OfficeWorld.step {} officeRun).Held ∧
    (run OfficeWorld.step {} officeRun).offices 0 = ⟨4, 2, .masterLoot, 1, 2⟩ :=
  ⟨OfficeWorld.held_of_run OfficeWorld.held_empty (by decide +kernel), by decide +kernel⟩

/-- A master looter or a main tank who is removed stays in office, and the leader can name a master
looter who is in no group. -/
theorem raidOfFour_not_held :
    ¬ (run OfficeWorld.step {} (raidOfFour ++ [.lootMethod 1 2 3 2, .group (.removeMember 0 3)])).Held ∧
    ¬ (run OfficeWorld.step {} (raidOfFour ++ [.setMainTank 0 3, .group (.removeMember 0 3)])).Held ∧
    ¬ (run OfficeWorld.step {} (raidOfFour ++ [.lootMethod 1 2 9 2])).Held := by
  refine ⟨fun h => ?_, fun h => ?_, fun h => ?_⟩
  · exact absurd ((h 0).looter (by decide +kernel)) (by decide +kernel)
  · exact absurd ((h 0).mainTank (by decide +kernel)) (by decide +kernel)
  · exact absurd ((h 0).looter (by decide +kernel)) (by decide +kernel)

end Windrunner
