import Windrunner.Group.Office
import Windrunner.Lib.Table

/-!
# Groups in the database

The tables `groups` and `group_member` hold the groups that are not raids of battlegrounds. Each
call writes its own statements, some by group and some by `memberGuid` alone.

- **Tables**: the statements, with the keys of the tables. `StoredWorld` is the groups in memory
  with the tables; what else players do (`players`) writes neither.
- **Rows** (`Mirrored`): the rows of every group are its slots in their order. A row is found by its
  `memberGuid` alone because a player is in one such group at most.
- **Loading** (`Mirrored.load`): the rows rebuild the group, with counters counted anew, which
  are those in memory as long as these are the sizes of the subgroups.
-/

namespace Windrunner

open Lib List
open Option hiding any_eq_true filter_map map_id map_map

/-! ## Tables -/

structure GroupRow where
  groupId : Nat
  leaderGuid : Nat
  isRaid : Bool
  deriving DecidableEq, Repr

structure MemberRow where
  groupId : Nat
  memberGuid : Nat
  assistant : Bool
  subgroup : UInt8
  deriving DecidableEq, Repr

/-- `INSERT INTO groups`; `groupId` is the primary key and `leaderGuid` is unique. -/
def insertGroup (rows : List GroupRow) (row : GroupRow) : List GroupRow :=
  if rows.any fun r => r.groupId == row.groupId || r.leaderGuid == row.leaderGuid then rows
  else rows ++ [row]

/-- `UPDATE groups SET leaderGuid` -/
def updateLeader (rows : List GroupRow) (k guid : Nat) : List GroupRow :=
  if rows.any fun r => r.groupId != k && r.leaderGuid == guid then rows
  else rows.map fun r => if r.groupId = k then { r with leaderGuid := guid } else r

/-- `INSERT INTO group_member`; the primary key is `groupId` and `memberGuid`. -/
def insertMember (rows : List MemberRow) (row : MemberRow) : List MemberRow :=
  if rows.any fun r => r.groupId == row.groupId && r.memberGuid == row.memberGuid then rows
  else rows ++ [row]

/-- `UPDATE group_member ... WHERE memberGuid` -/
def updateMember (rows : List MemberRow) (guid : Nat) (f : MemberRow → MemberRow) :
    List MemberRow := rows.map fun r => if r.memberGuid = guid then f r else r

/-- The groups and the tables. -/
structure StoredWorld where
  world : GroupWorld := {}
  groups : List GroupRow := []
  groupMember : List MemberRow := []

/-- The group before `Create` adds the leader. -/
def Group.created (g : Group) (guid : Nat) : Group :=
  let g := { g with leaderGuid := guid }
  if g.bgGroup then ({ g with groupType := .raid } : Group).initRaidSubGroupsCounter
  else { g with groupType := .normal }

namespace StoredWorld

variable (s : StoredWorld) (k guid : Nat)

/-- The statement of `_setLeader`, when `world` has another leader than before. -/
def saveLeader (k : Nat) (world : GroupWorld) : List GroupRow :=
  let g := s.world.groups k
  if g.bgGroup || (world.groups k).leaderGuid == g.leaderGuid then s.groups
  else updateLeader s.groups k (world.groups k).leaderGuid

/-- The statement of `_setMembersGroup` and `_swapMembersGroup`, when the subgroup of the slot in
`world` is another one than before. -/
def saveSubGroup (world : GroupWorld) : List MemberRow :=
  let g := s.world.groups k
  match (world.groups k).slotOf guid with
  | none => s.groupMember
  | some subgroup =>
    if g.bgGroup || g.slotOf guid == some subgroup then s.groupMember
    else updateMember s.groupMember guid fun r => { r with subgroup }

def addMember : Option StoredWorld :=
  let g := s.world.groups k
  g.freeSubGroup.bind fun subgroup =>
    (s.world.addMemberTo k guid subgroup).map fun world =>
      { s with
        world
        groupMember := if g.bgGroup then s.groupMember
          else insertMember s.groupMember ⟨k, guid, false, subgroup⟩ }

def create : Option StoredWorld :=
  let g := (s.world.groups k).created guid
  let s := { s with world := s.world.setGroup k g }
  let s := if g.bgGroup then s
    else
      { s with
        groups := insertGroup (s.groups.filter (·.groupId ≠ k)) ⟨k, guid, g.isRaidGroup⟩
        groupMember := s.groupMember.filter (·.groupId ≠ k) }
  s.addMember k guid

/-- A group is allocated, and created. -/
def newGroup (guid : Nat) (bg : Bool) : StoredWorld :=
  let k := s.world.nextGroup
  let world := { s.world.setGroup k { bgGroup := bg } with nextGroup := k + 1 }
  ({ s with world }.create k guid).getD s

/-- `_removeMember` -/
def removeSlot : StoredWorld :=
  let world := s.world.removeSlot k guid
  { world
    groups := s.saveLeader k world
    groupMember := if (s.world.groups k).bgGroup then s.groupMember
      else s.groupMember.filter (·.memberGuid ≠ guid) }

def disband (k : Nat) : StoredWorld :=
  let bg := (s.world.groups k).bgGroup
  { world := s.world.disband k
    groups := if bg then s.groups else s.groups.filter (·.groupId ≠ k)
    groupMember := if bg then s.groupMember else s.groupMember.filter (·.groupId ≠ k) }

def removeMember : StoredWorld :=
  let g := s.world.groups k
  if g.memberSlots.length > g.getMembersMinCount then s.removeSlot k guid else s.disband k

/-- A call that may change the leader, and nothing else. -/
def withLeader (k : Nat) (world : GroupWorld) : StoredWorld :=
  { s with world, groups := s.saveLeader k world }

def convertToRaid (k : Nat) : StoredWorld :=
  { s with
    world := s.world.convertToRaid k
    groups := if (s.world.groups k).bgGroup then s.groups
      else s.groups.map fun r => if r.groupId = k then { r with isRaid := true } else r }

/-- A call that may change the subgroup of `guid`, and nothing else. -/
def withSubGroup (world : GroupWorld) : StoredWorld :=
  { s with world, groupMember := s.saveSubGroup k guid world }

/-- A call that may exchange the subgroups of two members. -/
def withSwap (k guid swapGuid : Nat) (world : GroupWorld) : StoredWorld :=
  let s' := { s with groupMember := s.saveSubGroup k guid world }
  { s' with world, groupMember := s'.saveSubGroup k swapGuid world }

def setAssistant (state : Bool) : StoredWorld :=
  let g := s.world.groups k
  if !g.isRaidGroup || !g.isMember guid then s
  else
    { s with
      world := s.world.setGroup k (g.setAssistantFlag guid state)
      groupMember := if g.bgGroup then s.groupMember
        else updateMember s.groupMember guid fun r => { r with assistant := state } }

end StoredWorld

inductive StoredInput where
  /-- Players come, go, change maps, and enter or leave raids of battlegrounds. -/
  | players (players : Nat → Option GroupPlayer)
  | create (guid : Nat) (bg : Bool)
  | addMember (k guid : Nat)
  | removeMember (k guid : Nat)
  | disband (k : Nat)
  | changeLeader (k guid : Nat)
  | updateOfflineLeader (k : Nat) (leaderDue : Bool)
  | convertToRaid (k : Nat)
  | changeMembersGroup (k guid : Nat) (group : UInt8)
  | changePlayersGroup (k guid : Nat) (group : UInt8)
  | swapMembersGroup (k guid swapGuid : Nat)
  | swapPlayersGroup (k guid swapGuid : Nat)
  | setAssistant (k guid : Nat) (state : Bool)

namespace StoredWorld

/-- The group that an input concerns. -/
def target (s : StoredWorld) : StoredInput → Option Nat
  | .players _ => none
  | .create _ _ => some s.world.nextGroup
  | .addMember k _ | .removeMember k _ | .disband k | .changeLeader k _ | .updateOfflineLeader k _
  | .convertToRaid k | .changeMembersGroup k _ _ | .changePlayersGroup k _ _
  | .swapMembersGroup k _ _ | .swapPlayersGroup k _ _ | .setAssistant k _ _ => some k

/-- A call on a group that exists. -/
def call (s : StoredWorld) : StoredInput → StoredWorld
  | .players players => { s with world := { s.world with players } }
  | .create guid bg => s.newGroup guid bg
  | .addMember k guid => (s.addMember k guid).getD s
  | .removeMember k guid => s.removeMember k guid
  | .disband k => s.disband k
  | .changeLeader k guid => s.withLeader k (s.world.changeLeader k guid)
  | .updateOfflineLeader k leaderDue =>
    s.withLeader k (s.world.updateOfflineLeader k leaderDue)
  | .convertToRaid k => s.convertToRaid k
  | .changeMembersGroup k guid group =>
    s.withSubGroup k guid (s.world.changeMembersGroup k guid group)
  | .changePlayersGroup k guid group =>
    s.withSubGroup k guid (s.world.changePlayersGroup k guid group)
  | .swapMembersGroup k guid swapGuid =>
    s.withSwap k guid swapGuid (s.world.swapMembersGroup k guid swapGuid)
  | .swapPlayersGroup k guid swapGuid =>
    s.withSwap k guid swapGuid (s.world.swapPlayersGroup k guid swapGuid)
  | .setAssistant k guid state => s.setAssistant k guid state

/-- A group has members from `Create` to its end. -/
def live (s : StoredWorld) : StoredInput → Bool
  | .players _ | .create _ _ => true
  | i => (s.target i).any fun k => !(s.world.groups k).memberSlots.isEmpty

def step (s : StoredWorld) (i : StoredInput) : StoredWorld := if s.live i then s.call i else s

/-! ## Loading -/

/-- `LoadGroupFromDB`; only a leader who is `known` has a name. -/
def loadGroup (known : Nat → Bool) (row : GroupRow) : Option Group :=
  if !known row.leaderGuid then none
  else
    let g : Group :=
      { leaderGuid := row.leaderGuid, groupType := if row.isRaid then .raid else .normal }
    some (if g.isRaidGroup then g.initRaidSubGroupsCounter else g)

/-- `LoadMemberFromDB` -/
def loadMember (known : Nat → Bool) (g : Group) (row : MemberRow) : Group :=
  if !known row.memberGuid then g
  else
    Group.subGroupCounterIncrease
      { g with memberSlots := g.memberSlots ++ [⟨row.memberGuid, row.subgroup, row.assistant⟩] }
      row.subgroup

/-- What `LoadGroups` makes of the rows of a group. -/
def load (known : Nat → Bool) (groups : List GroupRow) (groupMember : List MemberRow) (k : Nat) :
    Option Group :=
  ((groups.find? (·.groupId = k)).bind (loadGroup known)).map fun g =>
    (groupMember.filter (·.groupId = k)).foldl (loadMember known) g

end StoredWorld

theorem Group.isMember_of_removeSlot {g : Group} {guid p : Nat}
    (h : (g.removeSlot guid).isMember p = true) : g.isMember p = true := by
  unfold Group.removeSlot at h
  split at h
  · exact h
  · obtain ⟨t, ht, hp⟩ := any_eq_true.mp h
    exact any_eq_true.mpr ⟨t, mem_of_mem_eraseIdx ht, hp⟩

/-! ## Rows -/

def MemberSlot.row (s : MemberSlot) (k : Nat) : MemberRow := ⟨k, s.guid, s.assistant, s.group⟩

namespace Group

/-- The rows that a group should have in `group_member`. -/
def memberRows (g : Group) (k : Nat) : List MemberRow :=
  if g.bgGroup then [] else g.memberSlots.map (·.row k)

def groupRows (g : Group) (k : Nat) : List GroupRow :=
  if g.bgGroup || g.memberSlots.isEmpty then [] else [⟨k, g.leaderGuid, g.isRaidGroup⟩]

variable {g g' : Group} {k : Nat}

theorem memberRows_normal (h : g.bgGroup = false) :
    g.memberRows k = g.memberSlots.map (·.row k) := by
  unfold memberRows
  rw [h]
  rfl

theorem rows_bg (h : g.bgGroup = true) : g.memberRows k = [] ∧ g.groupRows k = [] := by
  unfold memberRows groupRows
  rw [h]
  exact ⟨rfl, rfl⟩

theorem rows_nil (h : g.memberSlots = []) : g.memberRows k = [] ∧ g.groupRows k = [] := by
  unfold memberRows groupRows
  rw [h]
  cases g.bgGroup <;> exact ⟨rfl, rfl⟩

theorem groupRows_normal (h : g.bgGroup = false) (hne : g.memberSlots ≠ []) :
    g.groupRows k = [⟨k, g.leaderGuid, g.isRaidGroup⟩] := by
  unfold groupRows
  rw [h, isEmpty_eq_false_iff.mpr hne]
  rfl

theorem isMember_setLeader {p : Nat} (hp : g.isMember p = true) :
    g.isMember (g.setLeader p).leaderGuid = true := by
  unfold setLeader
  rw [if_pos hp]
  exact hp

/-- Another leader, who is a member, or none. -/
theorem kept_of_setLeader (h : g' = g ∨ ∃ p, g.isMember p = true ∧ g' = g.setLeader p) :
    g'.memberSlots = g.memberSlots ∧ g'.bgGroup = g.bgGroup ∧ g'.groupType = g.groupType ∧
      (g'.leaderGuid = g.leaderGuid ∨ g.isMember g'.leaderGuid = true) := by
  obtain rfl | ⟨p, hp, rfl⟩ := h
  · exact ⟨rfl, rfl, rfl, .inl rfl⟩
  · exact ⟨setLeader_memberSlots, setLeader_bgGroup, setLeader_groupType,
      .inr (isMember_setLeader hp)⟩

end Group

section Tables

variable {rows : List MemberRow} {slots : List MemberSlot} {groups : List GroupRow} {s t : MemberSlot}
  {guid i j k : Nat} {f : MemberRow → MemberRow}

theorem updateMember_of_not (h : ∀ r ∈ rows, r.memberGuid ≠ guid) :
    updateMember rows guid f = rows := by
  unfold updateMember
  conv_rhs => rw [← map_id rows]
  refine map_congr_left fun r hr => ?_
  rw [if_neg (h r hr)]
  rfl

/-- An update by `memberGuid` writes one slot. -/
theorem updateMember_slots (h : Keyed MemberSlot.guid slots) (hi : slots[i]? = some s)
    (hrow : f (s.row k) = t.row k) :
    updateMember (slots.map (·.row k)) s.guid f = (slots.set i t).map (·.row k) := by
  rw [← h.map_replace hi, updateMember, map_map]
  refine map_congr_left fun y hy => ?_
  show (if y.guid = s.guid then f (y.row k) else y.row k) = _
  split_ifs with hk
  · rw [h.inj hy (mem_of_getElem? hi) hk, hrow]
  · rfl

theorem filter_slots (h : Keyed MemberSlot.guid slots) (hi : slots[i]? = some s) :
    (slots.map (·.row k)).filter (·.memberGuid ≠ s.guid) = (slots.eraseIdx i).map (·.row k) := by
  rw [← h.filter_ne hi, filter_map]
  refine congrArg _ (filter_congr fun y _ => ?_)
  show decide (y.guid ≠ s.guid) = !decide (y.guid = s.guid)
  exact decide_not

theorem keyed_updateMember (h : Keyed MemberRow.memberGuid rows)
    (hf : ∀ r, (f r).memberGuid = r.memberGuid) :
    Keyed MemberRow.memberGuid (updateMember rows guid f) := by
  refine Keyed.map h fun r _ => ?_
  show MemberRow.memberGuid (if r.memberGuid = guid then f r else r) = r.memberGuid
  split_ifs
  · exact hf r
  · rfl

theorem rowsOf_updateMember (hf : ∀ r, (f r).groupId = r.groupId) :
    rowsOf MemberRow.groupId (updateMember rows guid f) j =
      updateMember (rowsOf MemberRow.groupId rows j) guid f := by
  refine rowsOf_map fun r => ?_
  split_ifs
  · exact hf r
  · rfl

end Tables

namespace StoredWorld

variable {s s' : StoredWorld} {k j guid : Nat} {g : Group}

/-- The rows of each group are those of its slots, and no two rows are of one member. -/
structure Mirrored (s : StoredWorld) : Prop where
  fresh : ∀ k, s.world.nextGroup ≤ k → (s.world.groups k).memberSlots = []
  leader : ∀ k, (s.world.groups k).bgGroup = false → (s.world.groups k).memberSlots ≠ [] →
    (s.world.groups k).isMember (s.world.groups k).leaderGuid = true
  keyed : Keyed MemberRow.memberGuid s.groupMember
  members : ∀ k, rowsOf MemberRow.groupId s.groupMember k = (s.world.groups k).memberRows k
  group : ∀ k, rowsOf GroupRow.groupId s.groups k = (s.world.groups k).groupRows k

theorem mirrored_empty : ({} : StoredWorld).Mirrored :=
  ⟨fun _ _ => rfl, fun _ _ h => absurd rfl h, .nil, fun _ => rfl, fun _ => rfl⟩

namespace Mirrored

variable (h : s.Mirrored)
include h

theorem keyed_slots (hb : (s.world.groups k).bgGroup = false) :
    Keyed MemberSlot.guid (s.world.groups k).memberSlots := by
  have hk : Keyed MemberRow.memberGuid (rowsOf MemberRow.groupId s.groupMember k) := h.keyed.rowsOf k
  rw [h.members k, Group.memberRows_normal hb] at hk
  unfold Keyed at hk ⊢
  rwa [map_map] at hk

theorem row_mem (hb : (s.world.groups k).bgGroup = false)
    (hm : (s.world.groups k).isMember guid = true) :
    ∃ r ∈ rowsOf MemberRow.groupId s.groupMember k, r.memberGuid = guid := by
  obtain ⟨slot, hs, hg⟩ := any_eq_true.mp hm
  rw [h.members k, Group.memberRows_normal hb]
  exact ⟨slot.row k, mem_map_of_mem hs, beq_iff_eq.mp hg⟩

theorem member_of_row {r : MemberRow} (hr : r ∈ rowsOf MemberRow.groupId s.groupMember k) :
    (s.world.groups k).bgGroup = false ∧ (s.world.groups k).isMember r.memberGuid = true := by
  rw [h.members k] at hr
  cases hb : (s.world.groups k).bgGroup with
  | true =>
    rw [(Group.rows_bg hb).1] at hr
    cases hr
  | false =>
    rw [Group.memberRows_normal hb] at hr
    obtain ⟨slot, hs, rfl⟩ := mem_map.mp hr
    exact ⟨rfl, any_eq_true.mpr ⟨slot, hs, beq_self_eq_true _⟩⟩

/-- A member has no row in another group. -/
theorem row_ne (hb : (s.world.groups k).bgGroup = false)
    (hm : (s.world.groups k).isMember guid = true) (hj : j ≠ k) :
    ∀ r ∈ rowsOf MemberRow.groupId s.groupMember j, r.memberGuid ≠ guid := by
  intro r hr he
  obtain ⟨r', hr', he'⟩ := h.row_mem hb hm
  exact hj (h.keyed.owner_eq hr hr' (he.trans he'.symm))

/-- A step that writes one group in memory and its rows. -/
theorem edit (k : Nat) (hgroups : ∀ j, j ≠ k → s'.world.groups j = s.world.groups j)
    (hnext : s.world.nextGroup ≤ s'.world.nextGroup)
    (hk : s'.world.nextGroup ≤ k → (s'.world.groups k).memberSlots = [])
    (hleader : (s'.world.groups k).bgGroup = false → (s'.world.groups k).memberSlots ≠ [] →
      (s'.world.groups k).isMember (s'.world.groups k).leaderGuid = true)
    (hkeyed : Keyed MemberRow.memberGuid s'.groupMember)
    (hm : ∀ j, rowsOf MemberRow.groupId s'.groupMember j = if j = k then
      (s'.world.groups k).memberRows k else rowsOf MemberRow.groupId s.groupMember j)
    (hg : ∀ j, rowsOf GroupRow.groupId s'.groups j = if j = k then
      (s'.world.groups k).groupRows k else rowsOf GroupRow.groupId s.groups j) : s'.Mirrored := by
  refine ⟨fun j hj => ?_, fun j => ?_, hkeyed, fun j => ?_, fun j => ?_⟩
  · by_cases hjk : j = k
    · subst hjk
      exact hk hj
    · rw [hgroups j hjk]
      exact h.fresh j (Nat.le_trans hnext hj)
  · by_cases hjk : j = k
    · subst hjk
      exact hleader
    · rw [hgroups j hjk]
      exact h.leader j
  · rw [hm]
    split_ifs with hjk
    · rw [hjk]
    · rw [hgroups j hjk, h.members]
  · rw [hg]
    split_ifs with hjk
    · rw [hjk]
    · rw [hgroups j hjk, h.group]

end Mirrored

end StoredWorld

/-! ## What a call writes in memory -/

namespace GroupWorld

variable {w w' : GroupWorld} {k guid swapGuid : Nat} {g : Group} {group : UInt8}

/-- One group is `g` afterwards. -/
def Writes (w : GroupWorld) (k : Nat) (g : Group) (w' : GroupWorld) : Prop :=
  w'.groups = (w.setGroup k g).groups ∧ w'.nextGroup = w.nextGroup

theorem Writes.self (h : w.Writes k g w') : w'.groups k = g := by rw [h.1, setGroup_groups_self]

theorem Writes.ne (h : w.Writes k g w') {j : Nat} (hj : j ≠ k) : w'.groups j = w.groups j := by
  rw [h.1, setGroup_groups_ne hj]

theorem Writes.none (hg : w'.groups = w.groups) (hn : w'.nextGroup = w.nextGroup) :
    w.Writes k (w.groups k) w' := ⟨by rw [setGroup_self, hg], hn⟩

theorem addMemberTo_writes (h : w.addMemberTo k guid group = some w') :
    (w.groups k).isFull = false ∧ w.Writes k ((w.groups k).addSlot guid group) w' := by
  dsimp only [addMemberTo] at h
  split_ifs at h with hfull
  rw [Bool.or_eq_true, not_or, Bool.not_eq_true] at hfull
  refine ⟨hfull.1, ?_⟩
  split at h
  · obtain rfl := some.inj h
    exact ⟨rfl, rfl⟩
  · obtain rfl := some.inj h
    exact ⟨rfl, rfl⟩

/-- One group has another leader afterwards, who is a member, or is as it was. -/
def Leads (w : GroupWorld) (k : Nat) (w' : GroupWorld) : Prop := ∃ g, w.Writes k g w' ∧
  (g = w.groups k ∨ ∃ p, (w.groups k).isMember p = true ∧ g = (w.groups k).setLeader p)

theorem chooseLeader_leads {offline : Bool} : w.Leads k (w.chooseLeader k offline) := by
  obtain ⟨he, -⟩ | ⟨p, hp, he⟩ := chooseLeader_cases w k offline
  · rw [he]
    exact ⟨_, .none rfl rfl, .inl rfl⟩
  · rw [he]
    exact ⟨_, ⟨rfl, rfl⟩, .inr ⟨p, hp, rfl⟩⟩

/-- `_removeMember` erases the slot; a leader who is removed has a successor among those who stay. -/
theorem removeSlot_writes (hlen : (w.groups k).getMembersMinCount < (w.groups k).memberSlots.length) :
    ∃ g, w.Writes k g (w.removeSlot k guid) ∧ g.memberSlots ≠ [] ∧
      ((w.groups k).leaderGuid ≠ guid ∧ g = (w.groups k).removeSlot guid ∨
        (w.groups k).leaderGuid = guid ∧ ∃ p, ((w.groups k).removeSlot guid).isMember p = true ∧
          g = ((w.groups k).removeSlot guid).setLeader p) := by
  obtain ⟨w₁, hw₁, he⟩ : ∃ w₁ : GroupWorld, w.Writes k ((w.groups k).removeSlot guid) w₁ ∧
      w.removeSlot k guid =
        if (w.groups k).leaderGuid = guid then w₁.chooseLeader k false else w₁ := by
    refine ⟨_, ?_, rfl⟩
    cases w.getPlayer guid <;> exact ⟨rfl, rfl⟩
  have hbg : ((w.groups k).removeSlot guid).getMembersMinCount = (w.groups k).getMembersMinCount := by
    unfold Group.removeSlot
    split <;> rfl
  -- one slot less at most
  have hrest : (w.groups k).getMembersMinCount ≤ ((w.groups k).removeSlot guid).memberSlots.length := by
    unfold Group.removeSlot
    split
    · exact Nat.le_of_lt hlen
    · rename_i i s hs
      show _ ≤ ((w.groups k).memberSlots.eraseIdx i).length
      have := @length_eraseIdx _ (w.groups k).memberSlots i
      split_ifs at this <;> omega
  have hpos : 0 < (w.groups k).getMembersMinCount := by
    unfold Group.getMembersMinCount
    split_ifs <;> decide
  have hne : ((w.groups k).removeSlot guid).memberSlots ≠ [] := by
    intro hnil
    rw [hnil, length_nil] at hrest
    omega
  rw [he]
  split_ifs with hl
  · obtain ⟨-, hf | hf | hf⟩ | ⟨p, hp, hc⟩ := chooseLeader_cases w₁ k false
    · cases hf
    · rw [hw₁.self, hbg] at hf
      exact absurd hrest (Nat.not_le.mpr hf)
    · rw [hw₁.self] at hf
      exact absurd hf hne
    · rw [hw₁.self] at hp hc
      refine ⟨_, ?_, by rw [Group.setLeader_memberSlots]; exact hne, .inr ⟨hl, p, hp, rfl⟩⟩
      rw [hc]
      refine ⟨funext fun j => ?_, hw₁.2⟩
      by_cases hj : j = k
      · rw [hj, setGroup_groups_self, setGroup_groups_self]
      · rw [setGroup_groups_ne hj, setGroup_groups_ne hj, hw₁.ne hj]
  · exact ⟨_, hw₁, hne, .inl ⟨hl, rfl⟩⟩

/-- The subgroup of a member changes, and `prev` is counted down. -/
def Moves (w : GroupWorld) (k guid : Nat) (group prev : UInt8) (w' : GroupWorld) : Prop :=
  ∃ i s, (w.groups k).getMemberSlot guid = some (i, s) ∧ s.group ≠ group ∧
    (w.groups k).isRaidGroup = true ∧ group.toNat < maxRaidSubgroups ∧
    (w.groups k).hasRoom group = true ∧
    ∃ g, (w.groups k).setMembersGroup guid group = some g ∧
      w.Writes k (g.subGroupCounterDecrease prev) w'

/-- The subgroup that is counted down: that of the slot, unless the player's first reference is to
another group. -/
def prevSubGroup (w : GroupWorld) (k guid : Nat) : UInt8 :=
  match w.getPlayer guid with
  | none => (w.groups k).getMemberGroup guid
  | some pl => if pl.group.target = some k then (w.groups k).getMemberGroup guid
    else pl.originalGroup.subGroup

theorem moves_of_set (hset : (w.groups k).setMembersGroup guid group = some g)
    (hne : ¬ (w.groups k).getMemberGroup guid = group) (hr : (w.groups k).isRaidGroup = true)
    (hlt : group.toNat < maxRaidSubgroups) (hroom : (w.groups k).hasRoom group = true)
    {prev : UInt8} (hw : w.Writes k (g.subGroupCounterDecrease prev) w') :
    w.Moves k guid group prev w' := by
  obtain ⟨⟨i, s⟩, hs, -⟩ := map_eq_some_iff.mp hset
  refine ⟨i, s, hs, fun he => hne ?_, hr, hlt, hroom, g, hset, hw⟩
  unfold Group.getMemberGroup
  rw [Group.slotOf_eq_of_slot hs]
  exact he

theorem changePlayersGroup_cases (w : GroupWorld) (k guid : Nat) (group : UInt8) :
    w.Writes k (w.groups k) (w.changePlayersGroup k guid group) ∨
      w.Moves k guid group (w.prevSubGroup k guid) (w.changePlayersGroup k guid group) := by
  dsimp only [changePlayersGroup]
  split
  · exact .inl (.none rfl rfl)
  rename_i pl hpl
  split
  · exact .inl (.none rfl rfl)
  rename_i hraid
  split
  · exact .inl (.none rfl rfl)
  rename_i hne
  split
  · exact .inl (.none rfl rfl)
  rename_i hroom
  split
  · exact .inl (.none rfl rfl)
  rename_i g hset
  simp only [Bool.or_eq_true, not_or, Bool.not_eq_true', Bool.not_eq_false,
    decide_eq_true_eq, Nat.not_le] at hraid hroom
  refine .inr (moves_of_set hset (not_or.mp hne).1 hraid.1 hraid.2 hroom ?_)
  unfold prevSubGroup
  rw [hpl]
  exact ⟨rfl, rfl⟩

theorem changeMembersGroup_cases (w : GroupWorld) (k guid : Nat) (group : UInt8) :
    w.Writes k (w.groups k) (w.changeMembersGroup k guid group) ∨
      w.Moves k guid group (w.prevSubGroup k guid) (w.changeMembersGroup k guid group) := by
  have hplayers := changePlayersGroup_cases w k guid group
  dsimp only [changeMembersGroup]
  split
  · exact .inl (.none rfl rfl)
  rename_i hraid
  split
  · exact .inl (.none rfl rfl)
  rename_i hroom
  split
  · exact hplayers
  rename_i hpl
  split
  · exact .inl (.none rfl rfl)
  rename_i hne
  split
  · exact .inl (.none rfl rfl)
  rename_i g hset
  simp only [Bool.or_eq_true, not_or, Bool.not_eq_true', Bool.not_eq_false,
    decide_eq_true_eq, Nat.not_le] at hraid hroom
  refine .inr (moves_of_set hset hne hraid.1 hraid.2 hroom ?_)
  unfold prevSubGroup
  rw [hpl]
  exact ⟨rfl, rfl⟩

theorem setSubGroup_groups : (w.setSubGroup k guid group).groups = w.groups ∧
    (w.setSubGroup k guid group).nextGroup = w.nextGroup := by
  unfold setSubGroup
  split <;> exact ⟨rfl, rfl⟩

/-- The subgroups of two members are exchanged. -/
def Swaps (w : GroupWorld) (k guid swapGuid : Nat) (w' : GroupWorld) : Prop :=
  ∃ i s j t, (w.groups k).getMemberSlot guid = some (i, s) ∧
    (w.groups k).getMemberSlot swapGuid = some (j, t) ∧ s.group ≠ t.group ∧
    (w.groups k).isRaidGroup = true ∧
    ∃ g, (w.groups k).swapSlots guid swapGuid = some g ∧ w.Writes k g w'

theorem swapMembersGroup_cases (w : GroupWorld) (k guid swapGuid : Nat) :
    w.Writes k (w.groups k) (w.swapMembersGroup k guid swapGuid) ∨
      w.Swaps k guid swapGuid (w.swapMembersGroup k guid swapGuid) := by
  dsimp only [swapMembersGroup]
  split
  · exact .inl (.none rfl rfl)
  rename_i hraid
  split
  · exact .inl (.none rfl rfl)
  rename_i hne
  split
  · exact .inl (.none rfl rfl)
  rename_i g hswap
  right
  obtain ⟨hg1, hn1⟩ := @setSubGroup_groups (w.setGroup k g) k guid
    ((w.groups k).getMemberGroup swapGuid)
  obtain ⟨hg2, hn2⟩ := @setSubGroup_groups
    ((w.setGroup k g).setSubGroup k guid ((w.groups k).getMemberGroup swapGuid)) k swapGuid
    ((w.groups k).getMemberGroup guid)
  have hw : w.Writes k g (((w.setGroup k g).setSubGroup k guid
      ((w.groups k).getMemberGroup swapGuid)).setSubGroup k swapGuid
      ((w.groups k).getMemberGroup guid)) := ⟨hg2.trans hg1, hn2.trans hn1⟩
  have hswap' := hswap
  unfold Group.swapSlots at hswap'
  split at hswap'
  · rename_i i s j t hs ht
    refine ⟨i, s, j, t, hs, ht, fun he => (not_or.mp hne).1 ?_, by simpa using hraid, g, hswap, hw⟩
    unfold Group.getMemberGroup
    rw [Group.slotOf_eq_of_slot hs, Group.slotOf_eq_of_slot ht]
    exact he
  · cases hswap'

theorem swapPlayersGroup_cases (w : GroupWorld) (k guid swapGuid : Nat) :
    w.Writes k (w.groups k) (w.swapPlayersGroup k guid swapGuid) ∨
      w.Swaps k guid swapGuid (w.swapPlayersGroup k guid swapGuid) := by
  unfold swapPlayersGroup
  split
  · exact swapMembersGroup_cases w k guid swapGuid
  · exact .inl (.none rfl rfl)

end GroupWorld

/-! ## Calls keep the rows -/

namespace StoredWorld

variable {s s' : StoredWorld} {j k guid swapGuid : Nat} {g : Group} {w' : GroupWorld}

theorem addMember_eq (heq : s.addMember k guid = some s') : ∃ sub,
    (s.world.groups k).freeSubGroup = some sub ∧ (s.world.groups k).isFull = false ∧
    s.world.Writes k ((s.world.groups k).addSlot guid sub) s'.world ∧ s'.groups = s.groups ∧
    s'.groupMember = if (s.world.groups k).bgGroup then s.groupMember
      else insertMember s.groupMember ⟨k, guid, false, sub⟩ := by
  obtain ⟨sub, hsub, heq⟩ := bind_eq_some_iff.mp heq
  obtain ⟨world, hw, rfl⟩ := map_eq_some_iff.mp heq
  obtain ⟨hfull, hwrites⟩ := GroupWorld.addMemberTo_writes hw
  exact ⟨sub, hsub, hfull, hwrites, rfl, rfl⟩

/-- What is in the world and the tables when a group has been created. -/
theorem newGroup_cases (s : StoredWorld) (guid : Nat) (bg : Bool) : s.newGroup guid bg = s ∨
    ∃ (g : Group) (sub : UInt8), g.memberSlots = [] ∧ g.leaderGuid = guid ∧ g.bgGroup = bg ∧
      (bg = false → g.Ok ∧ g.isRaidGroup = false ∧ g.isFull = false ∧ g.freeSubGroup = some sub) ∧
      (s.newGroup guid bg).world.groups s.world.nextGroup = g.addSlot guid sub ∧
      (∀ j, j ≠ s.world.nextGroup → (s.newGroup guid bg).world.groups j = s.world.groups j) ∧
      (s.newGroup guid bg).world.nextGroup = s.world.nextGroup + 1 ∧
      (s.newGroup guid bg).groups = (if bg then s.groups else
        insertGroup (s.groups.filter (·.groupId ≠ s.world.nextGroup))
          ⟨s.world.nextGroup, guid, false⟩) ∧
      (s.newGroup guid bg).groupMember = if bg then s.groupMember else
        insertMember (s.groupMember.filter (·.groupId ≠ s.world.nextGroup))
          ⟨s.world.nextGroup, guid, false, sub⟩ := by
  generalize hk : s.world.nextGroup = k
  obtain ⟨s₁, hs₁⟩ : ∃ s₁ : StoredWorld, s₁ = { s with
    world := { s.world.setGroup k { bgGroup := bg } with nextGroup := k + 1 } } := ⟨_, rfl⟩
  have heq : s.newGroup guid bg = (s₁.create k guid).getD s := by
    rw [hs₁, ← hk]
    rfl
  have hself : s₁.world.groups k = { bgGroup := bg } := by
    rw [hs₁]
    exact if_pos rfl
  have hother : ∀ j, j ≠ k → s₁.world.groups j = s.world.groups j := by
    rw [hs₁]
    exact fun j hj => if_neg hj
  have hnext : s₁.world.nextGroup = k + 1 := by rw [hs₁]
  have hgroups : s₁.groups = s.groups := by rw [hs₁]
  have hrows : s₁.groupMember = s.groupMember := by rw [hs₁]
  rw [heq]
  cases hc : s₁.create k guid with
  | none => exact .inl rfl
  | some s' =>
    refine .inr ?_
    rw [getD_some]
    dsimp only [create] at hc
    rw [hself, hgroups, hrows] at hc
    obtain ⟨g, hcreated⟩ : ∃ g, Group.created { bgGroup := bg } guid = g := ⟨_, rfl⟩
    rw [hcreated] at hc
    have hslots : g.memberSlots = [] := by
      rw [← hcreated]
      cases bg <;> rfl
    have hleader : g.leaderGuid = guid := by
      rw [← hcreated]
      cases bg <;> rfl
    have hb : g.bgGroup = bg := by
      rw [← hcreated]
      cases bg <;> rfl
    have hok : bg = false → g.Ok ∧ g.isRaidGroup = false ∧ g.isFull = false := by
      rintro rfl
      rw [← hcreated]
      exact ⟨.empty rfl rfl rfl, rfl, rfl⟩
    rw [hb] at hc
    refine ⟨g, ?_⟩
    cases bg with
    | true =>
      rw [if_pos rfl] at hc
      obtain ⟨sub, -, -, hw, hg, hm⟩ := addMember_eq hc
      rw [show (s₁.world.setGroup k g).groups k = g from if_pos rfl] at hw hm
      rw [hb, if_pos rfl] at hm
      refine ⟨sub, hslots, hleader, hb, fun hf => (by cases hf), hw.self, fun j hj => ?_, ?_, hg, hm⟩
      · rw [hw.ne hj, GroupWorld.setGroup_groups_ne hj, hother j hj]
      · rw [hw.2, ← hnext]
        rfl
    | false =>
      obtain ⟨hgok, hraid, hfull⟩ := hok rfl
      rw [if_neg Bool.false_ne_true, hraid] at hc
      obtain ⟨sub, hsub, -, hw, hg, hm⟩ := addMember_eq hc
      rw [show (s₁.world.setGroup k g).groups k = g from if_pos rfl] at hsub hw hm
      rw [hb, if_neg Bool.false_ne_true] at hm
      refine ⟨sub, hslots, hleader, hb, fun _ => ⟨hgok, hraid, hfull, hsub⟩, hw.self,
        fun j hj => ?_, ?_, hg, hm⟩
      · rw [hw.ne hj, GroupWorld.setGroup_groups_ne hj, hother j hj]
      · rw [hw.2, ← hnext]
        rfl

/-- A row of a player who has none. -/
theorem insertMember_eq {rows : List MemberRow} {row : MemberRow}
    (h : ∀ r ∈ rows, r.memberGuid ≠ row.memberGuid) : insertMember rows row = rows ++ [row] := by
  unfold insertMember
  rw [if_neg]
  rw [any_eq_true]
  rintro ⟨r, hr, he⟩
  rw [Bool.and_eq_true, beq_iff_eq, beq_iff_eq] at he
  exact h r hr he.2

theorem saveSubGroup_bg (hb : (s.world.groups k).bgGroup = true) :
    s.saveSubGroup k guid w' = s.groupMember := by
  dsimp only [saveSubGroup]
  split
  · rfl
  · rw [hb, Bool.true_or, if_pos rfl]

theorem saveSubGroup_same (h : (w'.groups k).slotOf guid = (s.world.groups k).slotOf guid) :
    s.saveSubGroup k guid w' = s.groupMember := by
  dsimp only [saveSubGroup]
  split
  · rfl
  · rename_i subgroup hs
    rw [← h, hs, beq_self_eq_true, Bool.or_true, if_pos rfl]

theorem saveSubGroup_new {group : UInt8} (hb : (s.world.groups k).bgGroup = false)
    (h : (w'.groups k).slotOf guid = some group) (hne : (s.world.groups k).slotOf guid ≠ some group) :
    s.saveSubGroup k guid w' =
      updateMember s.groupMember guid fun r => { r with subgroup := group } := by
  dsimp only [saveSubGroup]
  rw [h, hb]
  dsimp only
  rw [Bool.false_or, if_neg fun he => hne (beq_iff_eq.mp he)]

/-- Rows that are only looked at by group. -/
theorem rowsOf_same {ρ : Type} {owner : ρ → Nat} {rows l : List ρ} (h : rowsOf owner rows k = l) :
    rowsOf owner rows j = if j = k then l else rowsOf owner rows j := by
  split_ifs with hj
  · rw [hj, h]
  · rfl

/-- A change of the rows of one group does not change those of another one. -/
theorem map_other {rows : List GroupRow} {f : GroupRow → GroupRow} (hj : j ≠ k) :
    (rowsOf GroupRow.groupId rows j).map (fun r => if r.groupId = k then f r else r) =
      rowsOf GroupRow.groupId rows j := by
  conv_rhs => rw [← map_id (rowsOf GroupRow.groupId rows j)]
  refine map_congr_left fun r hr => ?_
  rw [(mem_rowsOf.mp hr).2, if_neg hj]
  rfl

namespace Mirrored

section

variable (h : s.Mirrored)
include h

theorem row_leader {r : GroupRow} (hr : r ∈ s.groups) :
    (s.world.groups r.groupId).bgGroup = false ∧
      (s.world.groups r.groupId).isMember r.leaderGuid = true := by
  have hrow : r ∈ rowsOf GroupRow.groupId s.groups r.groupId := mem_rowsOf.mpr ⟨hr, rfl⟩
  rw [h.group] at hrow
  unfold Group.groupRows at hrow
  split_ifs at hrow with hc
  · cases hrow
  rw [Bool.or_eq_true, not_or, Bool.not_eq_true, Bool.not_eq_true, isEmpty_eq_false_iff] at hc
  have hlead := h.leader r.groupId hc.1 hc.2
  have he : r.leaderGuid = (s.world.groups r.groupId).leaderGuid :=
    congrArg GroupRow.leaderGuid (mem_singleton.mp hrow)
  rw [← he] at hlead
  exact ⟨hc.1, hlead⟩

/-- The leader of a group is not the leader of another one. -/
theorem leader_ne (hb : (s.world.groups k).bgGroup = false)
    (hm : (s.world.groups k).isMember guid = true) :
    ∀ r ∈ s.groups, r.groupId ≠ k → r.leaderGuid ≠ guid := by
  rintro r hr hj rfl
  obtain ⟨hbr, hlead⟩ := h.row_leader hr
  obtain ⟨r', hr', he⟩ := h.row_mem hbr hlead
  exact h.row_ne hb hm hj r' hr' he

/-- A call that writes one group and its rows. -/
theorem write (hne : (s.world.groups k).memberSlots ≠ [])
    (hw : s.world.Writes k g w') (hleader : g.bgGroup = false → g.isMember g.leaderGuid = true)
    {groups : List GroupRow} {rows : List MemberRow} (hkeyed : Keyed MemberRow.memberGuid rows)
    (hm : ∀ j, rowsOf MemberRow.groupId rows j =
      if j = k then g.memberRows k else rowsOf MemberRow.groupId s.groupMember j)
    (hg : ∀ j, rowsOf GroupRow.groupId groups j =
      if j = k then g.groupRows k else rowsOf GroupRow.groupId s.groups j) :
    Mirrored ⟨w', groups, rows⟩ := by
  obtain rfl : w'.groups k = g := hw.self
  exact h.edit k (fun j hj => hw.ne hj) (Nat.le_of_eq hw.2.symm)
    (fun hle => absurd (h.fresh k (hw.2 ▸ hle)) hne) (fun hb _ => hleader hb) hkeyed hm hg

theorem addMember (hne : (s.world.groups k).memberSlots ≠ [])
    (hnew : (s.world.groups k).bgGroup = true ∨ ∀ r ∈ s.groupMember, r.memberGuid ≠ guid)
    (heq : s.addMember k guid = some s') : s'.Mirrored := by
  obtain ⟨sub, -, -, hw, hgroups, hrows⟩ := addMember_eq heq
  have hg : rowsOf GroupRow.groupId s.groups k =
      ((s.world.groups k).addSlot guid sub).groupRows k := by
    have hsome : ((s.world.groups k).addSlot guid sub).memberSlots.isEmpty = false :=
      isEmpty_eq_false_iff.mpr (append_ne_nil_of_right_ne_nil _ (cons_ne_nil _ _))
    rw [h.group]
    unfold Group.groupRows
    rw [hsome, isEmpty_eq_false_iff.mpr hne]
    rfl
  refine h.write hne hw (fun hb => Group.isMember_addSlot (h.leader k hb hne)) ?_ (fun j => ?_)
    fun j => by rw [hgroups]; exact rowsOf_same hg
  · rw [hrows]
    split_ifs with hb
    · exact h.keyed
    · have hnew := hnew.resolve_left hb
      rw [insertMember_eq hnew]
      exact h.keyed.concat hnew
  · rw [hrows]
    split_ifs with hb hj hj
    · rw [(Group.rows_bg (g := (s.world.groups k).addSlot guid sub) hb).1, hj, h.members,
        (Group.rows_bg hb).1]
    · rfl
    · have hb' : (s.world.groups k).bgGroup = false := by simpa using hb
      have hslots : ((s.world.groups k).addSlot guid sub).memberRows k =
          (s.world.groups k).memberRows k ++ [⟨k, guid, false, sub⟩] := by
        rw [Group.memberRows_normal hb', Group.memberRows_normal (by exact hb')]
        exact map_append
      rw [insertMember_eq (hnew.resolve_left hb), rowsOf_insert, hj, h.members, if_pos rfl, hslots]
    · rw [insertMember_eq (hnew.resolve_left hb), rowsOf_insert, if_neg (Ne.symm hj), append_nil]

theorem disband : (s.disband k).Mirrored := by
  have hself : (s.disband k).world.groups k = {} := if_pos rfl
  refine h.edit k (fun j hj => if_neg hj) (Nat.le_refl _) (fun _ => by rw [hself])
    (fun _ hne => absurd (by rw [hself]) hne) ?_ (fun j => ?_) fun j => ?_
  · show Keyed _ (if _ then _ else _)
    split_ifs
    · exact h.keyed
    · exact List.Nodup.sublist ((filter_sublist).map _) h.keyed
  · show rowsOf _ (if _ then _ else _) j = _
    rw [hself, (Group.rows_nil rfl).1]
    split_ifs with hb hj hj
    · rw [hj, h.members, (Group.rows_bg hb).1]
    · rfl
    · rw [rowsOf_delete, if_pos hj]
    · rw [rowsOf_delete, if_neg hj]
  · show rowsOf _ (if _ then _ else _) j = _
    rw [hself, (Group.rows_nil rfl).2]
    split_ifs with hb hj hj
    · rw [hj, h.group, (Group.rows_bg hb).2]
    · rfl
    · rw [rowsOf_delete, if_pos hj]
    · rw [rowsOf_delete, if_neg hj]

/-- The row in `groups` follows the leader. -/
theorem saveLeader (hw : s.world.Writes k g w')
    (hne : (s.world.groups k).memberSlots ≠ []) (hne' : g.memberSlots ≠ [])
    (hbg : g.bgGroup = (s.world.groups k).bgGroup)
    (hraid : g.groupType = (s.world.groups k).groupType)
    (hl : g.leaderGuid = (s.world.groups k).leaderGuid ∨
      (s.world.groups k).isMember g.leaderGuid = true) :
    rowsOf GroupRow.groupId (s.saveLeader k w') j =
      if j = k then g.groupRows k else rowsOf GroupRow.groupId s.groups j := by
  have hr : g.isRaidGroup = (s.world.groups k).isRaidGroup := by
    unfold Group.isRaidGroup
    rw [hraid]
  dsimp only [StoredWorld.saveLeader]
  rw [hw.self]
  by_cases hb : (s.world.groups k).bgGroup = true
  · rw [hb, Bool.true_or, if_pos rfl]
    refine rowsOf_same ?_
    rw [h.group, (Group.rows_bg hb).2, (Group.rows_bg (hbg.trans hb)).2]
  have hb : (s.world.groups k).bgGroup = false := by simpa using hb
  rw [hb, Bool.false_or, Group.groupRows_normal (hbg.trans hb) hne']
  have hrow := h.group k
  rw [Group.groupRows_normal hb hne] at hrow
  split_ifs with hsame hj hj
  · rw [hj, hrow, ← hr, ← beq_iff_eq.mp hsame]
  · rfl
  all_goals
    have hm := hl.resolve_left fun he => hsame (beq_iff_eq.mpr he)
    have hany : ¬ (s.groups.any fun r => r.groupId != k && r.leaderGuid == g.leaderGuid) = true := by
      rw [any_eq_true]
      rintro ⟨r, hr, he⟩
      rw [Bool.and_eq_true, bne_iff_ne, beq_iff_eq] at he
      exact h.leader_ne hb hm r hr he.1 he.2
    unfold updateLeader
    rw [if_neg hany, rowsOf_map (by intro r; split_ifs <;> rfl)]
  · rw [hj, hrow, map_singleton, if_pos rfl, hr]
  · exact map_other hj

/-- A group is created for a player who has no row. -/
theorem newGroup {bg : Bool} (hnew : bg = true ∨ ∀ r ∈ s.groupMember, r.memberGuid ≠ guid) :
    (s.newGroup guid bg).Mirrored := by
  have hnil : (s.world.groups s.world.nextGroup).memberSlots = [] := h.fresh _ (Nat.le_refl _)
  obtain he | ⟨g, sub, hm, hl, hb, hr, hk, hj, hn, hgroups, hrows⟩ := newGroup_cases s guid bg
  · rw [he]
    exact h
  generalize s.newGroup guid bg = s' at *
  generalize hnext : s.world.nextGroup = k at *
  have hself : (g.addSlot guid sub).memberSlots = [⟨guid, sub, false⟩] := by
    show g.memberSlots ++ _ = _
    rw [hm, nil_append]
  have hins : bg = false → insertMember (s.groupMember.filter (·.groupId ≠ k)) ⟨k, guid, false, sub⟩
      = s.groupMember.filter (·.groupId ≠ k) ++ [⟨k, guid, false, sub⟩] := fun hbg =>
    insertMember_eq fun r hr => hnew.resolve_left (by rw [hbg]; exact Bool.false_ne_true) r
      (mem_of_mem_filter hr)
  refine h.edit k hj (by omega) (fun hle => by omega) (fun _ _ => ?_) ?_ (fun j => ?_) fun j => ?_
  · rw [hk]
    exact any_eq_true.mpr ⟨_, hself ▸ mem_cons_self, beq_iff_eq.mpr hl.symm⟩
  · rw [hrows]
    split_ifs with hbg
    · exact h.keyed
    · rw [hins ((Bool.not_eq_true _).mp hbg)]
      exact Keyed.concat (List.Nodup.sublist ((filter_sublist).map _) h.keyed)
        fun r hr => hnew.resolve_left hbg r (mem_of_mem_filter hr)
  · rw [hrows, hk]
    cases hbg : bg with
    | true =>
      rw [if_pos rfl]
      refine rowsOf_same ?_
      rw [h.members, (Group.rows_nil hnil).1]
      exact (Group.rows_bg (g := g.addSlot guid sub) (hb.trans hbg)).1.symm
    | false =>
      rw [if_neg Bool.false_ne_true, hins hbg, rowsOf_insert, rowsOf_delete,
        Group.memberRows_normal (by exact hb.trans hbg), hself]
      by_cases hjk : j = k
      · rw [if_pos hjk, if_pos hjk, if_pos hjk.symm]
        rfl
      · rw [if_neg hjk, if_neg hjk, if_neg (Ne.symm hjk), append_nil]
  · rw [hgroups, hk]
    cases hbg : bg with
    | true =>
      rw [if_pos rfl]
      refine rowsOf_same ?_
      rw [h.group, (Group.rows_nil hnil).2]
      exact (Group.rows_bg (g := g.addSlot guid sub) (hb.trans hbg)).2.symm
    | false =>
      have hnew := hnew.resolve_left (by rw [hbg]; exact Bool.false_ne_true)
      have hany : ¬ ((s.groups.filter (·.groupId ≠ k)).any fun r =>
          r.groupId == k || r.leaderGuid == guid) = true := by
        rw [any_eq_true]
        rintro ⟨r, hr, he⟩
        obtain ⟨hr, hrk⟩ := mem_filter.mp hr
        rw [Bool.or_eq_true, beq_iff_eq, beq_iff_eq] at he
        obtain ⟨hbr, hm⟩ := h.row_leader hr
        obtain ⟨r', hr', he'⟩ := h.row_mem hbr hm
        exact hnew r' (mem_rowsOf.mp hr').1 (he'.trans (he.resolve_left (of_decide_eq_true hrk)))
      have hraid : (g.addSlot guid sub).isRaidGroup = false := (hr hbg).2.1
      rw [if_neg Bool.false_ne_true]
      unfold insertGroup
      rw [if_neg hany, rowsOf_insert, rowsOf_delete,
        Group.groupRows_normal (by exact hb.trans hbg) (by rw [hself]; exact cons_ne_nil _ _),
        hraid]
      by_cases hjk : j = k
      · rw [if_pos hjk, if_pos hjk, if_pos hjk.symm, nil_append]
        show [(⟨k, guid, false⟩ : GroupRow)] = [⟨k, g.leaderGuid, false⟩]
        rw [hl]
      · rw [if_neg hjk, if_neg hjk, if_neg (Ne.symm hjk), append_nil]

/-- A call that writes the leader only. -/
theorem withLeader (hne : (s.world.groups k).memberSlots ≠ [])
    (hw : s.world.Leads k w') : (s.withLeader k w').Mirrored := by
  obtain ⟨g, hw, hg⟩ := hw
  obtain ⟨hslots, hbg, hraid, hl⟩ := Group.kept_of_setLeader hg
  refine h.write hne hw (fun hb => ?_) h.keyed (fun j => rowsOf_same ((h.members k).trans ?_))
    fun j => h.saveLeader hw hne (hslots ▸ hne) hbg hraid hl
  · rw [Group.isMember_congr hslots]
    obtain he | hm := hl
    · rw [he]
      exact h.leader k (hbg ▸ hb) hne
    · exact hm
  · unfold Group.memberRows
    rw [hbg, hslots]

/-- Only a player who is in no other group that is stored is removed. -/
theorem removeSlot
    (hlen : (s.world.groups k).getMembersMinCount < (s.world.groups k).memberSlots.length)
    (honly : (s.world.groups k).bgGroup = true ∨ ∀ j, j ≠ k →
      ∀ r ∈ rowsOf MemberRow.groupId s.groupMember j, r.memberGuid ≠ guid) :
    (s.removeSlot k guid).Mirrored := by
  obtain ⟨g, hw, hne', hg⟩ := @GroupWorld.removeSlot_writes s.world k guid hlen
  have hne : (s.world.groups k).memberSlots ≠ [] := by
    intro he
    rw [he] at hlen
    exact absurd hlen (Nat.not_lt_zero _)
  have hrest : ((s.world.groups k).removeSlot guid).bgGroup = (s.world.groups k).bgGroup ∧
      ((s.world.groups k).removeSlot guid).groupType = (s.world.groups k).groupType ∧
      ((s.world.groups k).removeSlot guid).leaderGuid = (s.world.groups k).leaderGuid := by
    unfold Group.removeSlot
    split <;> exact ⟨rfl, rfl, rfl⟩
  obtain ⟨hslots, hbg, hraid, hlead⟩ := Group.kept_of_setLeader (hg.imp And.right And.right)
  rw [hrest.1] at hbg
  rw [hrest.2.1] at hraid
  -- the leader stays, or one who stays takes over
  have hl : (g.leaderGuid = (s.world.groups k).leaderGuid ∧ (s.world.groups k).leaderGuid ≠ guid) ∨
      ((s.world.groups k).removeSlot guid).isMember g.leaderGuid = true := by
    obtain hl | ⟨-, p, hp, rfl⟩ := hg
    · exact hlead.imp_left fun he => ⟨he.trans hrest.2.2, hl.1⟩
    · exact .inr (Group.isMember_setLeader hp)
  refine h.write hne hw (fun hb => ?_) ?_ (fun j => ?_) fun j => ?_
  · rw [Group.isMember_congr hslots]
    obtain ⟨he, hlne⟩ | hm := hl
    · rw [he]
      exact Group.isMember_removeSlot (h.leader k (hbg ▸ hb) hne) hlne
    · exact hm
  · show Keyed _ (if _ then _ else _)
    split_ifs
    · exact h.keyed
    · exact List.Nodup.sublist ((filter_sublist).map _) h.keyed
  · show rowsOf _ (if _ then _ else _) j = _
    split_ifs with hb hj hj
    · rw [hj, h.members, (Group.rows_bg hb).1, (Group.rows_bg (hbg.trans hb)).1]
    · rfl
    · have hb : (s.world.groups k).bgGroup = false := (Bool.not_eq_true _).mp hb
      rw [rowsOf_filter, hj, h.members, Group.memberRows_normal hb,
        Group.memberRows_normal (hbg.trans hb), hslots]
      unfold Group.removeSlot
      split
      · rename_i hnone
        refine filter_eq_self.mpr fun r hr => ?_
        obtain ⟨slot, hs, rfl⟩ := mem_map.mp hr
        refine decide_eq_true fun he => ?_
        have := Group.slotOf_isSome_iff.mpr ⟨slot, hs, he⟩
        unfold Group.slotOf at this
        rw [hnone] at this
        cases this
      · rename_i i slot hs
        obtain ⟨hi, rfl⟩ := Group.getMemberSlot_eq_some hs
        exact filter_slots (h.keyed_slots hb) hi
    · rw [rowsOf_filter]
      exact filter_eq_self.mpr fun r hr =>
        decide_eq_true (honly.resolve_left hb j hj r hr)
  · refine h.saveLeader hw hne hne' hbg hraid (hl.imp And.left fun hm => ?_)
    exact Group.isMember_of_removeSlot hm

theorem removeMember (honly : (s.world.groups k).bgGroup = true ∨ ∀ j, j ≠ k →
      ∀ r ∈ rowsOf MemberRow.groupId s.groupMember j, r.memberGuid ≠ guid) :
    (s.removeMember k guid).Mirrored := by
  unfold StoredWorld.removeMember
  dsimp only
  split_ifs with hlen
  · exact h.removeSlot hlen honly
  · exact h.disband

theorem convertToRaid (hne : (s.world.groups k).memberSlots ≠ []) :
    (s.convertToRaid k).Mirrored := by
  have hw : s.world.Writes k (s.world.groups k).convertToRaid (s.world.convertToRaid k) := by
    unfold GroupWorld.convertToRaid
    rw [if_neg hne]
    exact ⟨rfl, rfl⟩
  refine h.write hne hw (fun hb => h.leader k hb hne) h.keyed (fun j => rowsOf_same (h.members k))
    fun j => ?_
  by_cases hb : (s.world.groups k).bgGroup = true
  · rw [if_pos hb]
    refine rowsOf_same ?_
    rw [h.group, (Group.rows_bg hb).2, (Group.rows_bg (by exact hb)).2]
  · have hb : (s.world.groups k).bgGroup = false := (Bool.not_eq_true _).mp hb
    rw [hb, if_neg Bool.false_ne_true, rowsOf_map (by intro r; split_ifs <;> rfl)]
    split_ifs with hj
    · rw [hj, h.group, Group.groupRows_normal hb hne, map_singleton, if_pos rfl,
        Group.groupRows_normal (by exact hb) (by exact hne)]
      rfl
    · exact map_other hj

/-- A call that writes slots of members, and their rows by `memberGuid`. -/
theorem slots (hne : (s.world.groups k).memberSlots ≠ []) (hw : s.world.Writes k g w')
    (hguids : g.memberSlots.map (·.guid) = (s.world.groups k).memberSlots.map (·.guid))
    (hbg : g.bgGroup = (s.world.groups k).bgGroup)
    (hraid : g.groupType = (s.world.groups k).groupType)
    (hl : g.leaderGuid = (s.world.groups k).leaderGuid) {rows : List MemberRow}
    (hrows : Keyed MemberRow.memberGuid rows ∧ ∀ j, rowsOf MemberRow.groupId rows j =
      if j = k then g.memberRows k else rowsOf MemberRow.groupId s.groupMember j) :
    Mirrored ⟨w', s.groups, rows⟩ := by
  have hempty : g.memberSlots.isEmpty = (s.world.groups k).memberSlots.isEmpty := by
    have := congrArg isEmpty hguids
    rwa [isEmpty_map, isEmpty_map] at this
  refine h.write hne hw (fun hb => ?_) hrows.1 hrows.2 fun j => rowsOf_same ((h.group k).trans ?_)
  · rw [hl, Group.isMember_of_guids hguids]
    exact h.leader k (hbg ▸ hb) hne
  · unfold Group.groupRows Group.isRaidGroup
    rw [hbg, hempty, hl, hraid]

/-- The rows after an update of a member's row, for the slots that a list of slots has then. -/
theorem update_rows (hb : (s.world.groups k).bgGroup = false)
    (hm : (s.world.groups k).isMember guid = true) {f : MemberRow → MemberRow}
    {rows : List MemberRow} {slots slots' : List MemberSlot}
    (hrows : Keyed MemberRow.memberGuid rows ∧ ∀ j, rowsOf MemberRow.groupId rows j =
      if j = k then slots.map (·.row k) else rowsOf MemberRow.groupId s.groupMember j)
    (hf : ∀ r, (f r).memberGuid = r.memberGuid) (hfk : ∀ r, (f r).groupId = r.groupId)
    (hslots : updateMember (slots.map (·.row k)) guid f = slots'.map (·.row k)) :
    Keyed MemberRow.memberGuid (updateMember rows guid f) ∧
      ∀ j, rowsOf MemberRow.groupId (updateMember rows guid f) j =
        if j = k then slots'.map (·.row k) else rowsOf MemberRow.groupId s.groupMember j := by
  refine ⟨keyed_updateMember hrows.1 hf, fun j => ?_⟩
  rw [rowsOf_updateMember hfk, hrows.2]
  split_ifs with hj
  · exact hslots
  · exact updateMember_of_not (h.row_ne hb hm hj)

theorem rows_now (hb : (s.world.groups k).bgGroup = false) :
    Keyed MemberRow.memberGuid s.groupMember ∧ ∀ j, rowsOf MemberRow.groupId s.groupMember j =
      if j = k then (s.world.groups k).memberSlots.map (·.row k)
      else rowsOf MemberRow.groupId s.groupMember j :=
  ⟨h.keyed, fun _ => rowsOf_same ((h.members k).trans (Group.memberRows_normal hb))⟩

/-- The rows of a raid of a battleground. -/
theorem rows_bg (hb : (s.world.groups k).bgGroup = true)
    (hbg : g.bgGroup = (s.world.groups k).bgGroup) :
    Keyed MemberRow.memberGuid s.groupMember ∧ ∀ j, rowsOf MemberRow.groupId s.groupMember j =
      if j = k then g.memberRows k else rowsOf MemberRow.groupId s.groupMember j := by
  refine ⟨h.keyed, fun _ => rowsOf_same ?_⟩
  rw [h.members, (Group.rows_bg hb).1, (Group.rows_bg (hbg.trans hb)).1]

theorem setAssistant {state : Bool} : (s.setAssistant k guid state).Mirrored := by
  dsimp only [StoredWorld.setAssistant]
  split_ifs with hcond hb
  · exact h
  all_goals
    rw [Bool.or_eq_true, not_or, Bool.not_eq_true', Bool.not_eq_true', Bool.not_eq_false,
      Bool.not_eq_false] at hcond
    have hm := hcond.2
    have hne : (s.world.groups k).memberSlots ≠ [] := by
      intro he
      rw [Group.isMember_iff, Group.slotOf_nil he] at hm
      cases hm
    have hkeep : ((s.world.groups k).setAssistantFlag guid state).bgGroup =
          (s.world.groups k).bgGroup ∧
        ((s.world.groups k).setAssistantFlag guid state).groupType =
          (s.world.groups k).groupType ∧
        ((s.world.groups k).setAssistantFlag guid state).leaderGuid =
          (s.world.groups k).leaderGuid := by
      unfold Group.setAssistantFlag
      split <;> exact ⟨rfl, rfl, rfl⟩
    refine h.slots hne ⟨rfl, rfl⟩ Group.guids_setAssistantFlag hkeep.1 hkeep.2.1 hkeep.2.2 ?_
  · exact h.rows_bg hb hkeep.1
  · have hb : (s.world.groups k).bgGroup = false := (Bool.not_eq_true _).mp hb
    obtain ⟨x, hx⟩ := isSome_iff_exists.mp (Group.isMember_iff.mp hm)
    obtain ⟨i, slot, hs, -⟩ := Group.getMemberSlot_of_slotOf hx
    obtain ⟨hi, rfl⟩ := Group.getMemberSlot_eq_some hs
    rw [Group.memberRows_normal (hkeep.1.trans hb)]
    refine h.update_rows hb hm (h.rows_now hb) (fun _ => rfl) (fun _ => rfl) ?_
    unfold Group.setAssistantFlag
    rw [hs]
    exact updateMember_slots (h.keyed_slots hb) hi rfl

section

variable (hne : (s.world.groups k).memberSlots ≠ [])
include hne

/-- A call that writes no group. -/
theorem unwritten
    (hw : s.world.Writes k (s.world.groups k) w') : Mirrored ⟨w', s.groups, s.groupMember⟩ :=
  h.slots hne hw rfl rfl rfl rfl ⟨h.keyed, fun _ => rowsOf_same (h.members k)⟩

theorem withSubGroup {group prev : UInt8}
    (hw : s.world.Writes k (s.world.groups k) w' ∨ s.world.Moves k guid group prev w') :
    (s.withSubGroup k guid w').Mirrored := by
  obtain hw | ⟨i, slot, hs, hsub, -, -, -, g, hg, hw⟩ := hw
  · have hsame : s.saveSubGroup k guid w' = s.groupMember :=
      saveSubGroup_same (by rw [hw.self])
    unfold StoredWorld.withSubGroup
    rw [hsame]
    exact h.unwritten hne hw
  · have hguids := Group.guids_setMembersGroup hg
    unfold Group.setMembersGroup at hg
    rw [hs] at hg
    obtain rfl := some.inj hg
    refine h.slots hne hw hguids rfl rfl rfl ?_
    by_cases hb : (s.world.groups k).bgGroup = true
    · rw [saveSubGroup_bg hb]
      exact h.rows_bg hb rfl
    have hb : (s.world.groups k).bgGroup = false := (Bool.not_eq_true _).mp hb
    obtain ⟨hi, rfl⟩ := Group.getMemberSlot_eq_some hs
    have hm : (s.world.groups k).isMember slot.guid = true :=
      any_eq_true.mpr ⟨slot, mem_of_getElem? hi, beq_self_eq_true _⟩
    have hnew : (w'.groups k).slotOf slot.guid = some group := by
      rw [hw.self, Group.slotOf_set (h.keyed_slots hb) hs rfl, if_pos rfl]
    rw [saveSubGroup_new hb hnew (by rw [Group.slotOf_eq_of_slot hs]; simpa using hsub),
      Group.memberRows_normal (by exact hb)]
    refine h.update_rows hb hm (h.rows_now hb) (fun _ => rfl) (fun _ => rfl) ?_
    exact updateMember_slots (h.keyed_slots hb) hi rfl

theorem withSwap (hw : s.world.Writes k (s.world.groups k) w' ∨ s.world.Swaps k guid swapGuid w') :
    (s.withSwap k guid swapGuid w').Mirrored := by
  obtain hw | ⟨i, a, j, b, ha, hb', hsub, -, g, hg, hw⟩ := hw
  · have hsame : ∀ (s' : StoredWorld) (q : Nat), s'.world = s.world →
        s'.saveSubGroup k q w' = s'.groupMember := fun s' q he =>
      saveSubGroup_same (by rw [hw.self, he])
    dsimp only [StoredWorld.withSwap]
    rw [hsame s guid rfl, hsame ⟨s.world, s.groups, s.groupMember⟩ swapGuid rfl]
    exact h.unwritten hne hw
  · have hguids := Group.guids_swapSlots hg
    have hswap := hg
    unfold Group.swapSlots at hg
    rw [ha, hb'] at hg
    obtain rfl := some.inj hg
    refine h.slots hne hw hguids rfl rfl rfl ?_
    by_cases hb : (s.world.groups k).bgGroup = true
    · rw [saveSubGroup_bg (by exact hb), saveSubGroup_bg hb]
      exact h.rows_bg hb rfl
    have hb : (s.world.groups k).bgGroup = false := (Bool.not_eq_true _).mp hb
    have hk := h.keyed_slots hb
    obtain ⟨hi, rfl⟩ := Group.getMemberSlot_eq_some ha
    obtain ⟨hj, rfl⟩ := Group.getMemberSlot_eq_some hb'
    have hij : i ≠ j := by
      rintro rfl
      obtain rfl := some.inj (hi.symm.trans hj)
      exact hsub rfl
    have hguid : a.guid ≠ b.guid := fun he =>
      hsub (congrArg _ (hk.inj (mem_of_getElem? hi) (mem_of_getElem? hj) he))
    have hma : (s.world.groups k).isMember a.guid = true :=
      any_eq_true.mpr ⟨a, mem_of_getElem? hi, beq_self_eq_true _⟩
    have hmb : (s.world.groups k).isMember b.guid = true :=
      any_eq_true.mpr ⟨b, mem_of_getElem? hj, beq_self_eq_true _⟩
    have hslot := fun q => @Group.slotOf_swapSlots _ _ _ _ q _ _ _ _ hk ha hb' hguid hswap
    have hnewa : (w'.groups k).slotOf a.guid = some b.group := by
      rw [hw.self, hslot, if_pos rfl]
    have hnewb : (w'.groups k).slotOf b.guid = some a.group := by
      rw [hw.self, hslot, if_neg hguid.symm, if_pos rfl]
    rw [saveSubGroup_new (by exact hb) hnewb
        (by rw [show (s.world.groups k).slotOf b.guid = _ from Group.slotOf_eq_of_slot hb']
            simpa using Ne.symm hsub),
      saveSubGroup_new hb hnewa (by rw [Group.slotOf_eq_of_slot ha]; simpa using hsub),
      Group.memberRows_normal (by exact hb)]
    -- first one row, then the other one
    have h₁ := h.update_rows hb hma (f := fun r => { r with subgroup := b.group }) (h.rows_now hb)
      (fun _ => rfl) (fun _ => rfl)
      (updateMember_slots (t := { a with group := b.group }) hk hi rfl)
    refine h.update_rows hb hmb h₁ (fun _ => rfl) (fun _ => rfl) ?_
    have hj' : ((s.world.groups k).memberSlots.set i { a with group := b.group })[j]? = some b := by
      rw [getElem?_set_ne hij, hj]
    have hk' : Keyed MemberSlot.guid
        ((s.world.groups k).memberSlots.set i { a with group := b.group }) := hk.set_key hi rfl
    have h₂ := updateMember_slots (t := { b with group := a.group }) (k := k)
      (f := fun r => { r with subgroup := a.group }) hk' hj' rfl
    rw [h₂, set_comm _ _ hij]

end

end

end Mirrored

/-! ## Runs -/

/-- A player is in at most one group that is stored: who is added is in none, and who is removed
from a group is in no other one. -/
def Single (w : GroupWorld) : StoredInput → Bool
  | .create guid bg => bg || (w.groupOf guid false).isNone
  | .addMember k guid => (w.groups k).bgGroup || (w.groupOf guid false).isNone
  | .removeMember k guid => (w.groups k).bgGroup || (w.groupOf guid false).all (· == k)
  | _ => true

namespace Mirrored

variable (h : s.Mirrored)
include h

theorem groupOf_isSome (hb : (s.world.groups k).bgGroup = false)
    (hm : (s.world.groups k).isMember guid = true) : (s.world.groupOf guid false).isSome = true := by
  have hk : k < s.world.nextGroup := by
    by_contra hle
    rw [Group.isMember_iff, Group.slotOf_nil (h.fresh k (Nat.not_lt.mp hle))] at hm
    cases hm
  refine find?_isSome.mpr ⟨k, mem_range.mpr hk, ?_⟩
  rw [hb, hm]
  rfl

theorem no_row (hnone : (s.world.groupOf guid false).isNone = true) :
    ∀ r ∈ s.groupMember, r.memberGuid ≠ guid := by
  rintro r hr rfl
  obtain ⟨hb, hm⟩ := h.member_of_row (mem_rowsOf.mpr ⟨hr, rfl⟩)
  have := h.groupOf_isSome hb hm
  rw [isNone_iff_eq_none.mp hnone] at this
  cases this

theorem no_other_row (hall : (s.world.groupOf guid false).all (· == k) = true) :
    ∀ j, j ≠ k → ∀ r ∈ rowsOf MemberRow.groupId s.groupMember j, r.memberGuid ≠ guid := by
  rintro j hj r hr rfl
  obtain ⟨hb, hm⟩ := h.member_of_row hr
  obtain ⟨q, hq⟩ := isSome_iff_exists.mp (h.groupOf_isSome hb hm)
  rw [hq, all_some] at hall
  obtain rfl : q = k := beq_iff_eq.mp hall
  have hk := find?_some hq
  rw [Bool.and_eq_true, beq_iff_eq] at hk
  exact h.row_ne hk.1 hk.2 hj r hr rfl

end Mirrored

theorem changeLeader_leads (w : GroupWorld) (k guid : Nat) : w.Leads k (w.changeLeader k guid) := by
  refine ⟨_, ⟨rfl, rfl⟩, ?_⟩
  by_cases hm : (w.groups k).isMember guid = true
  · exact .inr ⟨guid, hm, rfl⟩
  · unfold Group.setLeader
    rw [if_neg hm]
    exact .inl rfl

theorem updateOfflineLeader_leads (w : GroupWorld) (k : Nat) (leaderDue : Bool) :
    w.Leads k (w.updateOfflineLeader k leaderDue) := by
  have hnone : w.Leads k w := ⟨_, .none rfl rfl, .inl rfl⟩
  unfold GroupWorld.updateOfflineLeader
  split_ifs
  · exact hnone
  · exact hnone
  · exact hnone
  · exact GroupWorld.chooseLeader_leads

theorem live_target {i : StoredInput} (hlive : s.live i = true) (ht : s.target i = some k)
    (hc : ∀ guid bg, i ≠ .create guid bg) : (s.world.groups k).memberSlots ≠ [] := by
  cases i with
  | players => cases ht
  | create guid bg => exact absurd rfl (hc guid bg)
  | _ =>
    obtain rfl := some.inj ht
    simpa [live, target] using hlive

theorem mirrored_step {i : StoredInput} (h : s.Mirrored) (hs : Single s.world i = true) :
    (s.step i).Mirrored := by
  unfold step
  split_ifs with hlive
  swap
  · exact h
  have hne : ∀ {k}, s.target i = some k → (∀ guid bg, i ≠ .create guid bg) →
      (s.world.groups k).memberSlots ≠ [] := fun ht => live_target hlive ht
  cases i with
  | players => exact { h with }
  | create guid bg =>
    refine h.newGroup ?_
    exact ((Bool.or_eq_true _ _).mp hs).imp id h.no_row
  | addMember k guid =>
    show ((s.addMember k guid).getD s).Mirrored
    cases ha : s.addMember k guid with
    | none => exact h
    | some s' =>
      exact h.addMember (hne rfl (by simp)) (((Bool.or_eq_true _ _).mp hs).imp id h.no_row) ha
  | removeMember k guid =>
    exact h.removeMember (((Bool.or_eq_true _ _).mp hs).imp id h.no_other_row)
  | disband => exact h.disband
  | changeLeader => exact h.withLeader (hne rfl (by simp)) (changeLeader_leads ..)
  | updateOfflineLeader =>
    exact h.withLeader (hne rfl (by simp)) (updateOfflineLeader_leads ..)
  | convertToRaid => exact h.convertToRaid (hne rfl (by simp))
  | changeMembersGroup =>
    exact h.withSubGroup (hne rfl (by simp)) (GroupWorld.changeMembersGroup_cases ..)
  | changePlayersGroup =>
    exact h.withSubGroup (hne rfl (by simp)) (GroupWorld.changePlayersGroup_cases ..)
  | swapMembersGroup => exact h.withSwap (hne rfl (by simp)) (GroupWorld.swapMembersGroup_cases ..)
  | swapPlayersGroup => exact h.withSwap (hne rfl (by simp)) (GroupWorld.swapPlayersGroup_cases ..)
  | setAssistant => exact h.setAssistant

/-! ## Counters -/

/-- The counters of the groups that are stored are the sizes of their subgroups. -/
def Seats (s : StoredWorld) : Prop :=
  ∀ k, (s.world.groups k).bgGroup = false → (s.world.groups k).Seated

/-- A change of subgroup counts down the subgroup that the member leaves. -/
def Tracked (w : GroupWorld) : StoredInput → Bool
  | .changeMembersGroup k guid group | .changePlayersGroup k guid group =>
    let g := w.groups k
    g.bgGroup || w.prevSubGroup k guid == g.getMemberGroup guid ||
      !(g.isRaidGroup && g.isMember guid && g.getMemberGroup guid != group &&
        group.toNat < maxRaidSubgroups && g.hasRoom group)
  | _ => true

theorem seats_empty : ({} : StoredWorld).Seats := fun _ _ => (Group.Ok.empty rfl rfl rfl).toSeated

theorem Seats.writes (h : s.Seats) (hw : s.world.Writes k g w')
    (hg : g.bgGroup = false → g.Seated) (j : Nat) (hb : (w'.groups j).bgGroup = false) :
    (w'.groups j).Seated := by
  by_cases hj : j = k
  · subst hj
    rw [hw.self] at hb ⊢
    exact hg hb
  · rw [hw.ne hj] at hb ⊢
    exact h j hb

theorem Seats.setLeader (h : s.Seats) (hw : s.world.Leads k w') (j : Nat)
    (hb : (w'.groups j).bgGroup = false) : (w'.groups j).Seated := by
  obtain ⟨g, hw, rfl | ⟨p, hp, rfl⟩⟩ := hw
  · exact h.writes hw (h k) j hb
  · refine h.writes hw (fun hb => ?_) j hb
    rw [Group.setLeader_bgGroup] at hb
    exact ((h k hb).setLeader hp).toSeated

theorem Seats.moves (h : s.Seats) {group prev : UInt8}
    (hprev : ((s.world.groups k).bgGroup || prev == (s.world.groups k).getMemberGroup guid ||
      !((s.world.groups k).isRaidGroup && (s.world.groups k).isMember guid &&
        (s.world.groups k).getMemberGroup guid != group &&
        group.toNat < maxRaidSubgroups && (s.world.groups k).hasRoom group)) = true)
    (hw : s.world.Writes k (s.world.groups k) w' ∨ s.world.Moves k guid group prev w') (j : Nat)
    (hb : (w'.groups j).bgGroup = false) : (w'.groups j).Seated := by
  obtain hw | ⟨i, slot, hs, hne, hraid, hlt, hroom, g, hg, hw⟩ := hw
  · exact h.writes hw (h k) j hb
  refine h.writes hw (fun hb => ?_) j hb
  have hbk : (s.world.groups k).bgGroup = false := by
    obtain ⟨x, -, rfl⟩ := map_eq_some_iff.mp hg
    exact hb
  have hsub : (s.world.groups k).slotOf guid = some slot.group := Group.slotOf_eq_of_slot hs
  have hget : (s.world.groups k).getMemberGroup guid = slot.group := by
    unfold Group.getMemberGroup
    rw [hsub]
    rfl
  have hm : (s.world.groups k).isMember guid = true := by
    rw [Group.isMember_iff, hsub]
    rfl
  rw [hbk, hraid, hm, hget, bne_iff_ne.mpr hne, decide_eq_true hlt, hroom] at hprev
  obtain rfl : prev = slot.group := by simpa using hprev
  exact (h k hbk).setMembersGroup hraid hlt hroom hs hne hg

theorem Seats.swaps (h : s.Seats)
    (hw : s.world.Writes k (s.world.groups k) w' ∨ s.world.Swaps k guid swapGuid w') (j : Nat)
    (hb : (w'.groups j).bgGroup = false) : (w'.groups j).Seated := by
  obtain hw | ⟨i, a, i', b, ha, hb', -, hraid, g, hg, hw⟩ := hw
  · exact h.writes hw (h k) j hb
  refine h.writes hw (fun hb => ?_) j hb
  have hbk : (s.world.groups k).bgGroup = false := by
    have hg' := hg
    unfold Group.swapSlots at hg'
    rw [ha, hb'] at hg'
    obtain rfl := some.inj hg'
    exact hb
  exact (h k hbk).swapSlots hraid ha hb' hg

theorem Seats.disband (h : s.Seats) : (s.disband k).Seats :=
  h.writes (k := k) ⟨rfl, rfl⟩ fun _ => (Group.Ok.empty rfl rfl rfl).toSeated

theorem seated_setAssistantFlag {state : Bool} (h : g.Seated) :
    (g.setAssistantFlag guid state).Seated := by
  unfold Group.setAssistantFlag
  split
  · exact h
  rename_i i slot hs
  obtain ⟨hi, rfl⟩ := Group.getMemberSlot_eq_some hs
  have hmem : ∀ t ∈ g.memberSlots.set i { slot with assistant := state },
      ∃ t' ∈ g.memberSlots, t.group = t'.group := by
    intro t ht
    obtain ht | rfl := mem_or_eq_of_mem_set ht
    · exact ⟨t, ht, rfl⟩
    · exact ⟨slot, mem_of_getElem? hi, rfl⟩
  have hsize : ∀ j, Group.sizeOf { g with
      memberSlots := g.memberSlots.set i { slot with assistant := state } } j = g.sizeOf j := by
    intro j
    have hgroups : (g.memberSlots.set i { slot with assistant := state }).map MemberSlot.group =
        g.memberSlots.map MemberSlot.group := map_set_key hi rfl
    rw [Group.sizeOf_eq, Group.sizeOf_eq]
    exact congrArg _ hgroups
  refine h.write (f := id) rfl map_id'.symm (h.keyed.set_key hi rfl) ?_ (fun t ht => ?_)
    (fun c hc hcount => ?_) fun _ hall t ht => ?_
  · rw [length_set]
    exact h.size_le
  · obtain ⟨t', ht', he⟩ := hmem t ht
    rw [he]
    exact h.subgroup_lt t' ht'
  · exact ⟨hcount.congr hsize, fun j => Nat.le_trans (Nat.le_of_eq (hsize j)) ((h.counted c hc).2 j)⟩
  · obtain ⟨t', ht', he⟩ := hmem t ht
    rw [he]
    exact hall t' ht'

theorem seats_step {i : StoredInput} (hseats : s.Seats) (h : s.Mirrored)
    (hs : Single s.world i = true) (ht : Tracked s.world i = true) : (s.step i).Seats := by
  unfold step
  split_ifs with hlive
  swap
  · exact hseats
  have hne : ∀ {k}, s.target i = some k → (∀ guid bg, i ≠ .create guid bg) →
      (s.world.groups k).memberSlots ≠ [] := fun ht => live_target hlive ht
  cases i with
  | players => exact hseats
  | create guid bg =>
    show (s.newGroup guid bg).Seats
    obtain he | ⟨g, sub, hm, -, hb, hr, hk, hj, -⟩ := newGroup_cases s guid bg
    · rw [he]
      exact hseats
    intro j hbj
    by_cases hjk : j = s.world.nextGroup
    · rw [hjk, hk] at hbj ⊢
      obtain ⟨hok, -, hfull, hsub⟩ := hr (hb.symm.trans hbj)
      exact hok.toSeated.addSlot hfull (Group.slotOf_nil hm) hsub
    · rw [hj j hjk] at hbj ⊢
      exact hseats j hbj
  | addMember k guid =>
    show ((s.addMember k guid).getD s).Seats
    cases ha : s.addMember k guid with
    | none => exact hseats
    | some s' =>
      obtain ⟨sub, hsub, hfull, hw, -⟩ := addMember_eq ha
      refine hseats.writes hw fun hb => ?_
      have hb : (s.world.groups k).bgGroup = false := hb
      refine (hseats k hb).addSlot hfull ?_ hsub
      by_contra hsome
      obtain ⟨r, hr, he⟩ := h.row_mem hb
        (Group.isMember_iff.mpr (ne_none_iff_isSome.mp hsome))
      refine h.no_row ?_ r (mem_rowsOf.mp hr).1 he
      simpa [Single, hb] using hs
  | removeMember k guid =>
    show (s.removeMember k guid).Seats
    unfold removeMember
    dsimp only
    split_ifs with hlen
    · obtain ⟨g, hw, -, hg⟩ := @GroupWorld.removeSlot_writes s.world k guid hlen
      refine hseats.writes hw fun hb => ?_
      have hbg : ((s.world.groups k).removeSlot guid).bgGroup = (s.world.groups k).bgGroup := by
        unfold Group.removeSlot
        split <;> rfl
      obtain ⟨-, rfl⟩ | ⟨-, p, hp, rfl⟩ := hg
      · exact (hseats k (hbg ▸ hb)).removeSlot
      · rw [Group.setLeader_bgGroup] at hb
        exact ((hseats k (hbg ▸ hb)).removeSlot.setLeader hp).toSeated
    · exact hseats.disband
  | disband => exact hseats.disband
  | changeLeader => exact hseats.setLeader (changeLeader_leads ..)
  | updateOfflineLeader => exact hseats.setLeader (updateOfflineLeader_leads ..)
  | convertToRaid k =>
    have hnek := hne (k := k) rfl (by simp)
    have hw : s.world.Writes k (s.world.groups k).convertToRaid (s.world.convertToRaid k) := by
      unfold GroupWorld.convertToRaid
      rw [if_neg hnek]
      exact ⟨rfl, rfl⟩
    refine hseats.writes hw fun hb => ?_
    exact (Group.Ok.convertToRaid ⟨hseats k hb, h.leader k hb⟩).toSeated
  | changeMembersGroup =>
    exact hseats.moves ht (GroupWorld.changeMembersGroup_cases ..)
  | changePlayersGroup =>
    exact hseats.moves ht (GroupWorld.changePlayersGroup_cases ..)
  | swapMembersGroup => exact hseats.swaps (GroupWorld.swapMembersGroup_cases ..)
  | swapPlayersGroup => exact hseats.swaps (GroupWorld.swapPlayersGroup_cases ..)
  | setAssistant k guid state =>
    show (s.setAssistant k guid state).Seats
    dsimp only [setAssistant]
    split
    · exact hseats
    · refine hseats.writes (k := k) ⟨rfl, rfl⟩ fun hb => seated_setAssistantFlag (hseats k ?_)
      unfold Group.setAssistantFlag at hb
      split at hb <;> exact hb

/-! ## What loading rebuilds -/

def MemberRow.slot (r : MemberRow) : MemberSlot := ⟨r.memberGuid, r.subgroup, r.assistant⟩

theorem foldl_loadMember {known : Nat → Bool} {rows : List MemberRow}
    (hk : ∀ r ∈ rows, known r.memberGuid = true) : rows.foldl (loadMember known) g =
      { g with
        memberSlots := g.memberSlots ++ rows.map MemberRow.slot
        subGroupsCounts := g.subGroupsCounts.map fun c =>
          (rows.map MemberRow.slot).foldl (fun c s => c.modify s.group.toNat (· + 1)) c } := by
  induction rows generalizing g with
  | nil =>
    obtain ⟨slots, _, _, _, counts⟩ := g
    rw [map_nil, append_nil]
    cases counts <;> rfl
  | cons r rows ih =>
    rw [foldl_cons, ih fun x hx => hk x (mem_cons_of_mem _ hx)]
    unfold loadMember Group.subGroupCounterIncrease
    rw [hk r mem_cons_self, Bool.not_true, if_neg Bool.false_ne_true]
    simp only [map_cons, append_assoc, singleton_append, Option.map_map,
      foldl_cons]
    rfl

theorem Counted.unique {c c' : List UInt8} {n : Nat → Nat} (h : Counted c n) (h' : Counted c' n) :
    c = c' := by
  refine ext_getElem (h.1.trans h'.1.symm) fun i hi hi' => UInt8.toNat_inj.mp ?_
  rw [h.2 i _ (getElem?_eq_getElem hi), h'.2 i _ (getElem?_eq_getElem hi')]

/-- A restart finds the group: the members of its rows, in their order, and the counters. -/
def Rebuilds (g : Group) (slots : List MemberSlot) (loaded : Group) : Prop :=
  loaded.memberSlots = slots ∧ slots.Perm g.memberSlots ∧ loaded.leaderGuid = g.leaderGuid ∧
    loaded.groupType = g.groupType ∧ loaded.subGroupsCounts = g.subGroupsCounts

/-- What the tables say of the groups. -/
structure Persisted (s : StoredWorld) : Prop where
  group : ∀ k, rowsOf GroupRow.groupId s.groups k = (s.world.groups k).groupRows k
  members : ∀ k, rowsOf MemberRow.groupId s.groupMember k = (s.world.groups k).memberRows k
  /-- The rows may be read in any order; every member is a character that exists. -/
  loaded : ∀ known : Nat → Bool, (∀ k p, (s.world.groups k).isMember p = true → known p = true) →
    ∀ k, (s.world.groups k).bgGroup = false → (s.world.groups k).memberSlots ≠ [] →
      ∀ rows : List MemberRow, rows.Perm s.groupMember → ∃ g, load known s.groups rows k = some g ∧
        Rebuilds (s.world.groups k) ((rowsOf MemberRow.groupId rows k).map MemberRow.slot) g

theorem Mirrored.load (h : s.Mirrored) (hseats : s.Seats) {known : Nat → Bool}
    (hknown : ∀ k p, (s.world.groups k).isMember p = true → known p = true)
    (hb : (s.world.groups k).bgGroup = false) (hne : (s.world.groups k).memberSlots ≠ [])
    {rows : List MemberRow} (hperm : rows.Perm s.groupMember) :
    ∃ g, StoredWorld.load known s.groups rows k = some g ∧
      Rebuilds (s.world.groups k) ((rowsOf MemberRow.groupId rows k).map MemberRow.slot) g := by
  have hrows : (rowsOf MemberRow.groupId rows k).Perm
      ((s.world.groups k).memberSlots.map (·.row k)) := by
    rw [← Group.memberRows_normal hb, ← h.members k]
    exact rowsOf_perm hperm
  have hslots : ((rowsOf MemberRow.groupId rows k).map MemberRow.slot).Perm
      (s.world.groups k).memberSlots := by
    have := hrows.map MemberRow.slot
    rwa [map_map, show (MemberRow.slot ∘ fun x : MemberSlot => x.row k) = id from rfl,
      map_id] at this
  have hall : ∀ r ∈ rowsOf MemberRow.groupId rows k, known r.memberGuid = true := fun r hr =>
    hknown k _ (h.member_of_row ((rowsOf_perm hperm).mem_iff.mp hr)).2
  have hfind : s.groups.find? (·.groupId = k) =
      some ⟨k, (s.world.groups k).leaderGuid, (s.world.groups k).isRaidGroup⟩ := by
    rw [← head?_filter]
    show (rowsOf GroupRow.groupId s.groups k).head? = _
    rw [h.group k, Group.groupRows_normal hb hne]
    rfl
  have hseat := hseats k hb
  unfold StoredWorld.load
  rw [hfind, bind_some]
  unfold loadGroup
  rw [hknown k _ (h.leader k hb hne), Bool.not_true, if_neg Bool.false_ne_true]
  refine ⟨_, rfl, ?_⟩
  show Rebuilds _ _ ((rowsOf MemberRow.groupId rows k).foldl (loadMember known) _)
  rw [foldl_loadMember hall]
  cases hr : (s.world.groups k).isRaidGroup with
  | false =>
    have hnormal : (s.world.groups k).groupType = .normal := by
      cases ht : (s.world.groups k).groupType with
      | normal => rfl
      | raid =>
        unfold Group.isRaidGroup at hr
        rw [ht] at hr
        cases hr
    exact ⟨rfl, hslots, rfl, hnormal.symm, (hseat.party hr).1.symm⟩
  | true =>
    refine ⟨rfl, hslots, rfl, (beq_iff_eq.mp hr).symm, ?_⟩
    obtain ⟨c, hc⟩ := isSome_iff_exists.mp (hseat.raid hr)
    have hlen : ((rowsOf MemberRow.groupId rows k).map MemberRow.slot).length ≤ 40 := by
      have hmax : (s.world.groups k).maxSize = 40 := by
        unfold Group.maxSize
        rw [if_pos hr]
      rw [hslots.length_eq]
      exact hmax ▸ hseat.size_le
    have hcount := Group.counted_slots (l := (rowsOf MemberRow.groupId rows k).map MemberRow.slot)
      Counted.zero (fun i => by omega)
    rw [hc]
    refine congrArg some (Counted.unique (hcount.congr fun i => ?_) (hseat.counted c hc).1)
    rw [Nat.zero_add]
    exact (hslots.countP_eq _).symm

theorem Mirrored.persisted (h : s.Mirrored) (hseats : s.Seats) : s.Persisted :=
  ⟨h.group, h.members, fun _ hknown _ hb hne _ hperm => h.load hseats hknown hb hne hperm⟩

theorem moved_ne {w : GroupWorld} {group prev : UInt8}
    (hw : w.Writes k (w.groups k) w' ∨ w.Moves k guid group prev w') (hj : j ≠ k) :
    w'.groups j = w.groups j := by
  obtain hw | ⟨_, _, -, -, -, -, -, _, -, hw⟩ := hw
  · exact hw.ne hj
  · exact hw.ne hj

theorem swapped_ne {w : GroupWorld}
    (hw : w.Writes k (w.groups k) w' ∨ w.Swaps k guid swapGuid w') (hj : j ≠ k) :
    w'.groups j = w.groups j := by
  obtain hw | ⟨_, _, _, _, -, -, -, -, _, -, hw⟩ := hw
  · exact hw.ne hj
  · exact hw.ne hj

/-- A group that a call does not concern stays as it is. -/
theorem step_groups_ne {i : StoredInput} (ht : s.target i ≠ some j) :
    (s.step i).world.groups j = s.world.groups j := by
  have hjk : ∀ {k}, s.target i = some k → j ≠ k := by
    rintro k hk rfl
    exact ht hk
  unfold step
  split_ifs
  swap
  · rfl
  cases i with
  | players => rfl
  | create guid bg =>
    obtain he | ⟨_, _, -, -, -, -, -, hj, -⟩ := newGroup_cases s guid bg
    · exact congrArg (fun s : StoredWorld => s.world.groups j) he
    · exact hj j (hjk rfl)
  | addMember k guid =>
    show (((s.addMember k guid).getD s).world.groups j) = _
    cases ha : s.addMember k guid with
    | none => rfl
    | some s' =>
      obtain ⟨_, -, -, hw, -⟩ := addMember_eq ha
      exact hw.ne (hjk rfl)
  | removeMember k guid =>
    show (s.removeMember k guid).world.groups j = _
    unfold removeMember
    dsimp only
    split_ifs with hlen
    · obtain ⟨_, hw, -⟩ := @GroupWorld.removeSlot_writes s.world k guid hlen
      exact hw.ne (hjk rfl)
    · exact if_neg (hjk rfl)
  | disband => exact if_neg (hjk rfl)
  | changeLeader k guid =>
    obtain ⟨_, hw, -⟩ := changeLeader_leads s.world k guid
    exact hw.ne (hjk rfl)
  | updateOfflineLeader k due =>
    obtain ⟨_, hw, -⟩ := updateOfflineLeader_leads s.world k due
    exact hw.ne (hjk rfl)
  | convertToRaid k =>
    show (s.world.convertToRaid k).groups j = _
    unfold GroupWorld.convertToRaid
    split_ifs
    · rfl
    · exact GroupWorld.setGroup_groups_ne (hjk rfl)
  | changeMembersGroup => exact moved_ne (GroupWorld.changeMembersGroup_cases ..) (hjk rfl)
  | changePlayersGroup => exact moved_ne (GroupWorld.changePlayersGroup_cases ..) (hjk rfl)
  | swapMembersGroup => exact swapped_ne (GroupWorld.swapMembersGroup_cases ..) (hjk rfl)
  | swapPlayersGroup => exact swapped_ne (GroupWorld.swapPlayersGroup_cases ..) (hjk rfl)
  | setAssistant k guid state =>
    show (s.setAssistant k guid state).world.groups j = _
    dsimp only [setAssistant]
    split_ifs
    · rfl
    · exact GroupWorld.setGroup_groups_ne (hjk rfl)
    · exact GroupWorld.setGroup_groups_ne (hjk rfl)

/-- The rows of the other groups stay. -/
theorem step_rows_ne {i : StoredInput} (h : s.Mirrored) (hs : Single s.world i = true)
    (ht : s.target i ≠ some j) :
    rowsOf GroupRow.groupId (s.step i).groups j = rowsOf GroupRow.groupId s.groups j ∧
      rowsOf MemberRow.groupId (s.step i).groupMember j =
        rowsOf MemberRow.groupId s.groupMember j := by
  have h' := mirrored_step h hs
  rw [h'.group, h'.members, h.group, h.members, step_groups_ne ht]
  exact ⟨rfl, rfl⟩

/-- In every run with players in one group each, and whose changes of subgroup are counted right,
the tables describe the groups and a restart rebuilds them; a further call writes no row of another
group. -/
theorem persisted_of_run {is : List StoredInput} (h : s.Mirrored) (hseats : s.Seats)
    (hrun : AlongRun step (fun s i => Single s.world i = true ∧ Tracked s.world i = true) s is) :
    (run step s is).Persisted ∧
      ∀ i j, Single (run step s is).world i = true → (run step s is).target i ≠ some j →
        rowsOf GroupRow.groupId ((run step s is).step i).groups j =
          rowsOf GroupRow.groupId (run step s is).groups j ∧
        rowsOf MemberRow.groupId ((run step s is).step i).groupMember j =
          rowsOf MemberRow.groupId (run step s is).groupMember j := by
  obtain ⟨hm, hc⟩ := @run_keeps _ _ step _ (fun s => s.Mirrored ∧ s.Seats)
    (fun s i hi hp => ⟨mirrored_step hi.1 hp.1, seats_step hi.2 hi.1 hp.1 hp.2⟩) s is ⟨h, hseats⟩ hrun
  exact ⟨hm.persisted hc, fun i j hs ht => step_rows_ne hm hs ht⟩

end StoredWorld

/-- Players `1` and `2` online, each with what he refers to. -/
def onlinePlayers (one two : GroupPlayer) : Nat → Option GroupPlayer
  | 1 => some one
  | 2 => some two
  | _ => none

/-- A raid of four, one of whom moves and becomes an assistant; two change their places, and the
leader leaves. Then a second group is formed. -/
def storedRun : List StoredInput :=
  [.players (onlinePlayers {} {}), .create 1 false, .addMember 0 2, .addMember 0 3, .addMember 0 4,
    .convertToRaid 0, .changeMembersGroup 0 3 1, .setAssistant 0 4 true, .swapMembersGroup 0 2 3,
    .removeMember 0 1, .changeLeader 0 3, .create 1 false, .addMember 1 5]

theorem storedRun_persisted : (run StoredWorld.step {} storedRun).Persisted ∧
    (run StoredWorld.step {} storedRun).groups = [⟨0, 3, true⟩, ⟨1, 1, false⟩] ∧
    (run StoredWorld.step {} storedRun).groupMember =
      [⟨0, 2, false, 1⟩, ⟨0, 3, false, 0⟩, ⟨0, 4, true, 0⟩, ⟨1, 1, false, 0⟩, ⟨1, 5, false, 0⟩] :=
  ⟨(StoredWorld.persisted_of_run StoredWorld.mirrored_empty StoredWorld.seats_empty
    (by decide +kernel)).1, by decide +kernel⟩

/-- Member `2` is moved while he goes to another map, and again while he is in a battleground. -/
def battleGroundRun : List StoredInput :=
  [.players (onlinePlayers {} {}), .create 1 false, .addMember 0 2, .convertToRaid 0,
    .players (onlinePlayers { group := ⟨some 0, 0⟩ } { inWorld := false, group := ⟨some 0, 0⟩ }),
    .changeMembersGroup 0 2 1,
    .players (onlinePlayers { group := ⟨some 0, 0⟩ } { group := ⟨some 0, 0⟩ }), .create 2 true,
    .changeMembersGroup 0 2 2]

/-- The counters in memory are no longer those that a restart counts. -/
theorem battleGroundRun_not_persisted :
    ¬ (run StoredWorld.step {} battleGroundRun).Persisted := by
  intro h
  obtain ⟨g, hg, -, -, -, -, hcounts⟩ := h.loaded (fun _ => true) (fun _ _ _ => rfl) 0
    (by decide +kernel) (by decide +kernel) _ (List.Perm.refl _)
  have hloaded : StoredWorld.load (fun _ => true) (run StoredWorld.step {} battleGroundRun).groups
      (run StoredWorld.step {} battleGroundRun).groupMember 0 =
      some ⟨[⟨1, 0, false⟩, ⟨2, 2, false⟩], 1, .raid, false, some [1, 0, 1, 0, 0, 0, 0, 0]⟩ := by
    decide +kernel
  obtain rfl := some.inj (hg.symm.trans hloaded)
  exact absurd hcounts (by decide +kernel)

end Windrunner
