import Mathlib.Data.Finset.Max
import Mathlib.Data.Nat.Bitwise
import Windrunner.Lfg.Alone

/-!
# A waiting group gets somebody

A pass of an update over a group asks the players of its area, team and kind one after another. One
who is asked is turned away while another player for the role is ahead of him, and those who are
compared with him are not only those of his kind. Being ahead in time is transitive, so among those
who are alike the one who waits longest is not turned away; a player of the other kind who is ahead
of all of them stops the group for as long as he waits.

* `Takes`: a player who is asked for a role, and whom nobody is ahead of.
* `fillGroup_grows_iff`: a pass adds somebody to the group exactly when it takes somebody.
* `fillGroup_admits_iff`: it does exactly when somebody has no rival of another kind ahead of him.
-/

namespace Windrunner

open Lib

variable {info other third : LfgPlayerQueueInfo} {role : ClassRole}

def AheadInTime (info other : LfgPlayerQueueInfo) : Prop :=
  info.timeInLFG < other.timeInLFG ∧
    (other.hasQueuePriority = true ∨ info.hasQueuePriority = false)

theorem AheadInTime.trans (h : AheadInTime info other) (h' : AheadInTime other third) :
    AheadInTime info third := by
  obtain ⟨hlt, hprio⟩ := h
  obtain ⟨hlt', hprio'⟩ := h'
  refine ⟨UInt32.lt_trans hlt hlt', ?_⟩
  rcases hprio' with h | h
  · exact .inl h
  · exact .inr (hprio.resolve_left (by simp [h]))

/-- The class priority for the role, as the search compares it. -/
def classPriority (info : LfgPlayerQueueInfo) (role : ClassRole) : Bool :=
  (info.getRolePriority role).toBool

theorem comesFirst_iff : LfgWorld.comesFirst info other role = true ↔
    (classPriority other role = true ∧ classPriority info role = false) ∨
      AheadInTime info other := by
  unfold LfgWorld.comesFirst classPriority AheadInTime
  cases (other.getRolePriority role).toBool <;> cases (info.getRolePriority role).toBool <;>
    cases other.hasQueuePriority <;> cases info.hasQueuePriority <;> simp

/-- A player for the same role whom the group itself would not treat as it treats this one: he is
of the other kind, or only one of them is good at the role. -/
def Rival (role : ClassRole) (info other : LfgPlayerQueueInfo) : Prop :=
  other.isHardcore ≠ info.isHardcore ∨ classPriority other role ≠ classPriority info role

/-- Who is ahead of somebody who is ahead of a third, is ahead of the third. -/
theorem comesFirst_trans (hlike : ¬ Rival role info other)
    (h : LfgWorld.comesFirst info other role = true)
    (h' : LfgWorld.comesFirst other third role = true) :
    LfgWorld.comesFirst info third role = true := by
  unfold Rival at hlike
  rw [not_or, not_not, not_not] at hlike
  rw [comesFirst_iff] at h h' ⊢
  rw [hlike.2] at h h'
  have htime : AheadInTime info other := h.resolve_left fun hc => by simp [hc.1] at hc
  exact h'.imp_right htime.trans

namespace LfgWorld

variable {w w' : LfgWorld} {guid k id : Nat} {group : LfgGroupQueueInfo}

/-! ## Asking one player -/

/-- A player whom the group takes for a role when he is asked. -/
def Takes (w : LfgWorld) (group : LfgGroupQueueInfo) (guid : Nat) (role : ClassRole) : Prop :=
  ∃ info, w.queue.queuedPlayers.find guid = some info ∧ compatible info group = true ∧
    info.canPlay role = true ∧ role.bit &&& group.availableRoles = role.bit ∧
    hasBetter w.queue.queuedPlayers guid info role = false

/-- The bit of a role is in a mask, or nothing of it is. -/
theorem and_bit_eq (mask : UInt32) (role : ClassRole) :
    mask &&& role.bit = role.bit ∨ mask &&& role.bit = 0 := by
  have hpow : ∃ i, role.bit.toNat = 2 ^ i := by
    cases role
    · exact ⟨0, rfl⟩
    · exact ⟨1, rfl⟩
    · exact ⟨2, rfl⟩
  obtain ⟨i, hi⟩ := hpow
  have hand : (mask &&& role.bit).toNat = (mask.toNat.testBit i).toNat * 2 ^ i := by
    rw [UInt32.toNat_and, hi, Nat.and_two_pow]
  simp only [← UInt32.toNat_inj, hand, hi]
  cases mask.toNat.testBit i <;> simp

theorem canPlay_iff (info : LfgPlayerQueueInfo) (role : ClassRole) :
    info.canPlay role = true ↔ info.roleMask &&& role.bit ≠ 0 := by
  have hbit : role.bit ≠ 0 := by cases role <;> decide
  unfold LfgPlayerQueueInfo.canPlay
  rw [beq_iff_eq]
  constructor
  · intro h h0
    exact hbit (h.symm.trans h0)
  · intro h
    exact (and_bit_eq _ _).resolve_right h

/-- The same queue and the same groups: only the log differs. -/
def SameQueue (w w' : LfgWorld) : Prop := w'.queue = w.queue ∧ w'.groups = w.groups

theorem length_addMember (hok : (w.groups.groups k).Ok)
    (hroom : (w.groups.groups k).isFull = false) (hguid : guid ≠ 0) :
    ((w.addMember k guid).groups.groups k).memberSlots.length =
      (w.groups.groups k).memberSlots.length + 1 := by
  obtain ⟨sub, hsub⟩ := Option.isSome_iff_exists.1 (hok.freeSubGroup_isSome hroom)
  have hsome : ∃ gw, w.groups.addMember k guid = some gw := by
    unfold GroupWorld.addMember GroupWorld.addMemberTo
    rw [hsub, Option.bind_some]
    simp only [hroom, beq_eq_false_iff_ne.2 hguid, Bool.or_self, Bool.false_eq_true, if_false]
    split <;> exact ⟨_, rfl⟩
  obtain ⟨gw, hgw⟩ := hsome
  obtain ⟨sub', hgroups, -⟩ := addMember_groups hgw
  unfold addMember
  rw [hgw, Option.getD_some, hgroups, GroupWorld.setGroup_groups_self]
  unfold Group.addSlot Group.subGroupCounterIncrease
  simp

/-- Additions do not make a group smaller. -/
theorem length_le_addMember (w : LfgWorld) (k guid : Nat) :
    (w.groups.groups k).memberSlots.length ≤
      ((w.addMember k guid).groups.groups k).memberSlots.length := by
  unfold addMember
  cases h : w.groups.addMember k guid with
  | none => exact Nat.le_refl _
  | some gw =>
    obtain ⟨sub, hgroups, -⟩ := addMember_groups h
    rw [Option.getD_some, hgroups, GroupWorld.setGroup_groups_self]
    unfold Group.addSlot Group.subGroupCounterIncrease
    simp

theorem SameQueue.takes (h : SameQueue w w') :
    w'.Takes group guid role ↔ w.Takes group guid role := by
  unfold Takes
  rw [h.1]

theorem SameQueue.trans {w'' : LfgWorld} (h : SameQueue w w') (h' : SameQueue w' w'') :
    SameQueue w w'' := ⟨h'.1.trans h.1, h'.2.trans h.2⟩

theorem SameQueue.groupId (h : SameQueue w w') (k : Nat) : w'.groupId k = w.groupId k := by
  unfold LfgWorld.groupId
  rw [h.2]

/-- A player who is asked for a role joins the group, unless somebody is ahead of him. -/
theorem findRoleToGroup_eq (hg : w.queue.queuedGroups.find (w.groupId k) = some group)
    (hp : w.queue.queuedPlayers.find guid = some info) (role : ClassRole) :
    (hasBetter w.queue.queuedPlayers guid info role = true →
      (w.findRoleToGroup guid k role).1 = false ∧
        SameQueue w (w.findRoleToGroup guid k role).2) ∧
    (hasBetter w.queue.queuedPlayers guid info role = false →
      (w.findRoleToGroup guid k role).1 = true ∧
        (w.findRoleToGroup guid k role).2.groups = (w.addMember k guid).groups) := by
  unfold findRoleToGroup
  rw [hg, hp]
  dsimp only
  constructor
  · intro hb
    rw [if_pos hb]
    exact ⟨rfl, rfl, rfl⟩
  · intro hb
    rw [if_neg (by simp [hb])]
    exact ⟨rfl, rfl⟩

/-- What asking a player leads to: he joins for one of the roles, or nothing changes. -/
theorem tryRoles_eq (roles : List ClassRole) (hid : w.groupId k = id)
    (hg : w.queue.queuedGroups.find id = some group)
    (hp : w.queue.queuedPlayers.find guid = some info) (hc : compatible info group = true) :
    ((∃ role ∈ roles, w.Takes group guid role) →
      (tryRoles id k guid info.roleMask roles w).1 = true ∧
        (tryRoles id k guid info.roleMask roles w).2.groups = (w.addMember k guid).groups) ∧
    ((¬ ∃ role ∈ roles, w.Takes group guid role) →
      (tryRoles id k guid info.roleMask roles w).1 = false ∧
        SameQueue w (tryRoles id k guid info.roleMask roles w).2) := by
  induction roles generalizing w with
  | nil =>
    refine ⟨fun h => ?_, fun _ => ⟨rfl, rfl, rfl⟩⟩
    obtain ⟨role, hrole, -⟩ := h
    cases hrole
  | cons role roles ih =>
    have htakes : w.Takes group guid role ↔ info.roleMask &&& role.bit ≠ 0 ∧
        role.bit &&& group.availableRoles = role.bit ∧
        hasBetter w.queue.queuedPlayers guid info role = false := by
      unfold Takes
      rw [hp]
      simp [hc, canPlay_iff]
    simp only [List.mem_cons, exists_eq_or_imp]
    unfold tryRoles
    by_cases hplay : info.roleMask &&& role.bit = 0
    · rw [if_pos (beq_iff_eq.2 hplay)]
      simpa [htakes, hplay] using ih hid hg hp
    rw [if_neg (by simpa using hplay), hg]
    by_cases hopen : role.bit &&& group.availableRoles = role.bit
    · rw [if_pos (by simpa using hopen)]
      rw [← hid] at hg
      obtain ⟨hbehind, hjoin⟩ := findRoleToGroup_eq hg hp role
      rw [hid] at hg
      rcases hres : w.findRoleToGroup guid k role with ⟨found, w'⟩
      rw [hres] at hbehind hjoin
      cases hb : hasBetter w.queue.queuedPlayers guid info role with
      | false =>
        obtain ⟨rfl, hgroups⟩ := hjoin hb
        have htake : w.Takes group guid role := htakes.2 ⟨hplay, hopen, hb⟩
        exact ⟨fun _ => ⟨rfl, hgroups⟩, fun h => absurd (.inl htake) h⟩
      | true =>
        obtain ⟨rfl, hsame⟩ := hbehind hb
        have hno : ¬ w.Takes group guid role := by simp [htakes, hb]
        have hrest := ih ((hsame.groupId k).trans hid) (by rw [hsame.1]; exact hg)
          (by rw [hsame.1]; exact hp)
        simp only [hsame.takes] at hrest
        simp only [hno, false_or]
        refine ⟨fun h => ?_, fun h => ?_⟩
        · obtain ⟨h1, h2⟩ := hrest.1 h
          refine ⟨h1, h2.trans ?_⟩
          unfold addMember
          rw [hsame.2]
        · obtain ⟨h1, h2⟩ := hrest.2 h
          exact ⟨h1, hsame.trans h2⟩
    · rw [if_neg (by simpa using hopen)]
      simpa [htakes, hopen] using ih hid hg hp

/-! ## Asking all of them -/

/-- The members of a group, while the queue works on it. -/
def membersCount (w : LfgWorld) (k : Nat) : Nat := (w.groups.groups k).memberSlots.length

theorem membersCount_findRoleToGroup (w : LfgWorld) (guid k : Nat) (role : ClassRole) :
    w.membersCount k ≤ (w.findRoleToGroup guid k role).2.membersCount k := by
  unfold findRoleToGroup
  split
  · dsimp only
    split_ifs
    · exact Nat.le_refl _
    · exact length_le_addMember _ k guid
  · exact Nat.le_refl _

theorem membersCount_tryRoles (id k guid : Nat) (roleMask : UInt32) (roles : List ClassRole)
    (w : LfgWorld) : w.membersCount k ≤ (tryRoles id k guid roleMask roles w).2.membersCount k := by
  induction roles generalizing w with
  | nil => exact Nat.le_refl _
  | cons role roles ih =>
    unfold tryRoles
    split_ifs
    · exact ih w
    · have hle := membersCount_findRoleToGroup w guid k role
      split
      · rename_i w' hw
        rwa [hw] at hle
      · rename_i w' hw
        rw [hw] at hle
        exact Nat.le_trans hle (ih w')
    · exact ih w

theorem membersCount_fillGroup (id k : Nat) (guids : List Nat) (w : LfgWorld) :
    w.membersCount k ≤ (fillGroup id k guids w).membersCount k := by
  induction guids generalizing w with
  | nil => exact Nat.le_refl _
  | cons guid guids ih =>
    unfold fillGroup
    split
    · rename_i info group _ _
      split_ifs
      · have hle := membersCount_tryRoles id k guid info.roleMask potentialRoles w
        dsimp only
        split_ifs
        · exact hle
        · exact Nat.le_trans hle (ih _)
      · exact ih w
    · exact ih w

/-- A state at the beginning of a pass over the group `id`, which is the group `k` and not full. -/
structure Pass (w : LfgWorld) (id k : Nat) (group : LfgGroupQueueInfo) : Prop where
  groupId : w.groupId k = id
  queued : w.queue.queuedGroups.find id = some group
  ok : (w.groups.groups k).Ok
  room : (w.groups.groups k).isFull = false
  /-- a player has a guid -/
  guid : w.queue.queuedPlayers.contains 0 = false

theorem SameQueue.pass (h : SameQueue w w') (hw : w.Pass id k group) : w'.Pass id k group where
  groupId := (h.groupId k).trans hw.groupId
  queued := by rw [h.1]; exact hw.queued
  ok := by rw [h.2]; exact hw.ok
  room := by rw [h.2]; exact hw.room
  guid := by rw [h.1]; exact hw.guid

theorem mem_potentialRoles (role : ClassRole) : role ∈ potentialRoles := by
  cases role <;> decide

/-- The pass adds somebody exactly when it takes somebody. -/
theorem fillGroup_grows_iff (guids : List Nat) (hw : w.Pass id k group) :
    w.membersCount k < (fillGroup id k guids w).membersCount k ↔
      ∃ guid ∈ guids, ∃ role, w.Takes group guid role := by
  induction guids generalizing w with
  | nil => simp [fillGroup]
  | cons guid guids ih =>
    simp only [List.mem_cons, exists_eq_or_imp]
    unfold fillGroup
    rw [hw.queued]
    cases hp : w.queue.queuedPlayers.find guid with
    | none =>
      have hno : ¬ ∃ role, w.Takes group guid role := by
        rintro ⟨role, info, hinfo, -⟩
        rw [hp] at hinfo
        cases hinfo
      rw [or_iff_right hno]
      exact ih hw
    | some info =>
      dsimp only
      by_cases hc : compatible info group = true
      · rw [if_pos hc]
        obtain ⟨htake, hnone⟩ := tryRoles_eq potentialRoles hw.groupId hw.queued hp hc
        by_cases ht : ∃ role, w.Takes group guid role
        · obtain ⟨role, hrole⟩ := ht
          obtain ⟨-, hgroups⟩ := htake ⟨role, mem_potentialRoles role, hrole⟩
          have hguid : guid ≠ 0 := by
            rintro rfl
            have := hw.guid
            unfold SortedMap.contains at this
            rw [hp] at this
            cases this
          have hmore : w.membersCount k <
              (tryRoles id k guid info.roleMask potentialRoles w).2.membersCount k := by
            unfold membersCount
            rw [hgroups, length_addMember hw.ok hw.room hguid]
            exact Nat.lt_succ_self _
          refine iff_of_true ?_ (.inl ⟨role, hrole⟩)
          split_ifs
          · exact hmore
          · exact Nat.lt_of_lt_of_le hmore (membersCount_fillGroup id k guids _)
        · obtain ⟨hfound, hsame⟩ := hnone fun ⟨role, _, hrole⟩ => ht ⟨role, hrole⟩
          rw [hfound, Bool.false_and, if_neg (by simp), or_iff_right ht]
          have hrest := ih (hsame.pass hw)
          simp only [hsame.takes] at hrest
          rw [← hrest]
          unfold membersCount
          rw [hsame.2]
      · rw [if_neg hc]
        have hno : ¬ ∃ role, w.Takes group guid role := by
          rintro ⟨role, info', hinfo, hc', -⟩
          rw [hp] at hinfo
          obtain rfl := Option.some.inj hinfo
          exact hc hc'
        rw [or_iff_right hno]
        exact ih hw

/-- Of the groups that an update goes through after its timers (`updatePlayers_ready`), each that is
known and not full has its pass. -/
theorem Ready.pass (h : w.Ready) (hk : w.getGroupById id = some k)
    (hg : w.queue.queuedGroups.find id = some group) (hroom : (w.groups.groups k).isFull = false)
    (hguid : w.queue.queuedPlayers.contains 0 = false) : w.Pass id k group where
  groupId := groupId_of_getGroupById hk
  queued := hg
  ok := h.linked.group k
  room := hroom
  guid := hguid

/-! ## Who is not turned away -/

/-- No rival for the role is ahead of the player. -/
def Unrivalled (w : LfgWorld) (role : ClassRole) (info : LfgPlayerQueueInfo) : Prop :=
  ∀ x ∈ w.queue.queuedPlayers.entries, x.2.areaId = info.areaId → x.2.team = info.team →
    x.2.canPlay role = true → Rival role info x.2 → comesFirst info x.2 role = false

/-- A player whom the group could have for the role. -/
def Candidate (w : LfgWorld) (group : LfgGroupQueueInfo) (role : ClassRole)
    (x : Nat × LfgPlayerQueueInfo) : Prop :=
  x ∈ w.queue.queuedPlayers.entries ∧ compatible x.2 group = true ∧ x.2.canPlay role = true

theorem hasBetter_eq_false_iff {x : Nat × LfgPlayerQueueInfo} :
    hasBetter w.queue.queuedPlayers x.1 x.2 role = false ↔
      ∀ y ∈ w.queue.queuedPlayers.entries, y.1 ≠ x.1 → y.2.areaId = x.2.areaId →
        y.2.team = x.2.team → y.2.canPlay role = true → comesFirst x.2 y.2 role = false := by
  unfold hasBetter
  simp only [List.any_eq_false, Bool.and_eq_true, bne_iff_ne, beq_iff_eq, not_and,
    Bool.not_eq_true]
  exact forall₂_congr fun y _ => by
    constructor
    · intro h hne harea hteam hplay
      exact h ⟨⟨⟨hne, harea.symm⟩, hteam.symm⟩, hplay⟩
    · rintro h ⟨⟨⟨hne, harea⟩, hteam⟩, hplay⟩
      exact h hne harea.symm hteam.symm hplay

/-- Among the candidates without a rival ahead of them, nobody is ahead of the one who waits
longest. -/
theorem exists_not_behind {x : Nat × LfgPlayerQueueInfo} (hx : w.Candidate group role x)
    (hun : w.Unrivalled role x.2) :
    ∃ y, w.Candidate group role y ∧ hasBetter w.queue.queuedPlayers y.1 y.2 role = false := by
  classical
  obtain ⟨y, hy, hmax⟩ := (w.queue.queuedPlayers.entries.toFinset.filter fun y =>
    w.Candidate group role y ∧ w.Unrivalled role y.2).exists_max_image (·.2.timeInLFG.toNat)
      ⟨x, by simp [hx, hun, hx.1]⟩
  simp only [Finset.mem_filter, List.mem_toFinset] at hy hmax
  obtain ⟨hmem, hcand, hyun⟩ := hy
  refine ⟨y, hcand, hasBetter_eq_false_iff.2 fun z hz _ harea hteam hplay => ?_⟩
  by_cases hrival : Rival role y.2 z.2
  · exact hyun z hz harea hteam hplay hrival
  -- one like him who is ahead has no rival ahead of him either, and waits longer
  rw [Bool.eq_false_iff]
  intro hfirst
  have hlike := hrival
  unfold Rival at hlike
  rw [not_or, not_not, not_not] at hlike
  have hzcand : w.Candidate group role z := by
    refine ⟨hz, ?_, hplay⟩
    have hc := hcand.2.1
    unfold compatible at hc ⊢
    rwa [harea, hteam, hlike.1]
  have hzun : w.Unrivalled role z.2 := by
    intro u hu huarea huteam huplay hurival
    rw [Bool.eq_false_iff]
    intro hufirst
    have hurival' : Rival role y.2 u.2 := by
      unfold Rival at hurival ⊢
      rwa [hlike.1, hlike.2] at hurival
    have hno := hyun u hu (huarea.trans harea) (huteam.trans hteam) huplay hurival'
    rw [comesFirst_trans hrival hfirst hufirst] at hno
    cases hno
  have hle := hmax z ⟨hz, hzcand, hzun⟩
  rw [comesFirst_iff, hlike.2] at hfirst
  have htime : AheadInTime y.2 z.2 := hfirst.resolve_left fun hc => by simp [hc.1] at hc
  exact absurd (UInt32.lt_iff_toNat_lt.1 htime.1) (Nat.not_lt_of_le hle)

/-- A pass over a group that is not full adds somebody to it exactly when, for some role that is
open, one of the players of its area, team and kind has no rival ahead of him. -/
theorem fillGroup_admits_iff (w : LfgWorld) (id k : Nat) (group : LfgGroupQueueInfo)
    (hw : w.Pass id k group) :
    w.membersCount k < (fillGroup id k w.queue.queuedPlayers.keys w).membersCount k ↔
      ∃ role, role.bit &&& group.availableRoles = role.bit ∧
        ∃ x, w.Candidate group role x ∧ w.Unrivalled role x.2 := by
  rw [fillGroup_grows_iff _ hw]
  constructor
  · rintro ⟨guid, -, role, info, hinfo, hc, hplay, hopen, hbetter⟩
    have hmem : (guid, info) ∈ w.queue.queuedPlayers.entries := SortedMap.mem_entries_iff.2 hinfo
    refine ⟨role, hopen, (guid, info), ⟨hmem, hc, hplay⟩, fun y hy harea hteam hyplay hrival => ?_⟩
    refine (@hasBetter_eq_false_iff role w (guid, info)).1 hbetter y hy ?_ harea hteam hyplay
    intro (heq : y.1 = guid)
    -- he is no rival of himself
    have hy' : w.queue.queuedPlayers.find guid = some y.2 :=
      SortedMap.mem_entries_iff.1 (by rw [← heq]; exact hy)
    rw [hinfo] at hy'
    obtain rfl := Option.some.inj hy'
    simp [Rival] at hrival
  · rintro ⟨role, hopen, x, hx, hun⟩
    obtain ⟨y, ⟨hmem, hc, hplay⟩, hbetter⟩ := exists_not_behind hx hun
    exact ⟨y.1, List.mem_map_of_mem hmem, role, y.2, SortedMap.mem_entries_iff.1 hmem, hc, hplay,
      hopen, hbetter⟩

/-- A warrior who has waited for some time. -/
def waitingWarrior (timeInLFG : UInt32) (isHardcore : Bool) : LfgPlayerQueueInfo :=
  ({ areaId := 15, timeInLFG, isHardcore } : LfgPlayerQueueInfo).calculateRoles .warrior

/-- A mage and a priest wait for a tank and for two who deal damage. -/
def waitingGroup : LfgGroupQueueInfo :=
  { availableRoles := ClassRole.tank.bit ||| ClassRole.dps.bit, dpsCount := 1, areaId := 15 }

def waitingParty : Group where
  memberSlots := [{ guid := 1 }, { guid := 2 }]
  leaderGuid := 1

theorem waitingParty_ok : waitingParty.Ok where
  keyed := by simp [Keyed, waitingParty]
  size_le := by decide
  subgroup_lt := by decide
  counted := fun _ h => by cases h
  raid := fun h => by cases h
  party := fun _ => ⟨rfl, by decide⟩
  leader := fun _ => rfl

/-- The two of them, and two warriors of whom the second waits longer. -/
def warriorsWorld (isHardcore : Bool) : LfgWorld where
  groups :=
    { groups := fun k => if k = 0 then waitingParty else {}
      players := fun p =>
        if waitingParty.isMember p then some { group.target := some 0 }
        else if p = 3 ∨ p = 4 then some {}
        else none
      nextGroup := 1 }
  lfgAreaId := fun k => if k = 0 then 15 else 0
  queue :=
    { queuedPlayers := ⟨[(3, waitingWarrior 1000 false), (4, waitingWarrior 2000 isHardcore)],
        by simp⟩
      queuedGroups := ⟨[(1, waitingGroup)], by simp⟩ }

theorem warriorsWorld_pass (isHardcore : Bool) :
    (warriorsWorld isHardcore).Pass 1 0 waitingGroup where
  groupId := rfl
  queued := rfl
  ok := waitingParty_ok
  room := rfl
  guid := rfl

theorem fillGroup_admits_iff_warriors :
    ∃ role, role.bit &&& waitingGroup.availableRoles = role.bit ∧
      ∃ x, (warriorsWorld false).Candidate waitingGroup role x ∧
        (warriorsWorld false).Unrivalled role x.2 :=
  (fillGroup_admits_iff _ 1 0 _ (warriorsWorld_pass false)).1 (by decide)

/-- The warrior of the group's kind is not taken while the hardcore warrior, whom the group cannot
have, waits longer. -/
theorem warriorsWorld_not_filled : ¬ ∀ (w : LfgWorld) (id k : Nat) (group : LfgGroupQueueInfo),
    w.Pass id k group →
    (∃ role, role.bit &&& group.availableRoles = role.bit ∧
      ∃ x, (w.groups.getPlayer x.1).isSome = true ∧ w.Candidate group role x) →
    w.membersCount k < (fillGroup id k w.queue.queuedPlayers.keys w).membersCount k := by
  intro h
  have hgrows := h (warriorsWorld true) 1 0 waitingGroup (warriorsWorld_pass true)
    ⟨.tank, by decide, (3, waitingWarrior 1000 false), rfl, .head _, by decide, by decide⟩
  exact absurd hgrows (by decide)

end LfgWorld

end Windrunner
