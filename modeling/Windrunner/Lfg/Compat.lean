import Windrunner.Lfg.State

/-!
# Who is put together

An update writes down each call of `FindRoleToGroup` and each pair that makes a new group
(`LfgEvent`). A group only gets players of its own area, team and kind. The other two rules fail
where the code drops something: a pair is not compared by the hardcore flags, and the priorities of
the classes are compared as truth values.

* `LfgEvent.Sound`: what was done is as it should be; `LfgEvent.Clear`: the queue was such that
  nothing was lost.
* `update_logs`: every event of an update is sound exactly when the queue was clear.
-/

namespace Windrunner

open Lib Option

/-- Another player of the same area, team and kind is better at a role. -/
def HasHigher (players : SortedMap Nat LfgPlayerQueueInfo) (guid : Nat) (info : LfgPlayerQueueInfo)
    (role : ClassRole) : Prop :=
  ∃ x ∈ players.entries, x.1 ≠ guid ∧ info.areaId = x.2.areaId ∧ info.team = x.2.team ∧
    info.isHardcore = x.2.isHardcore ∧ x.2.canPlay role = true ∧
    (info.getRolePriority role).toNat < (x.2.getRolePriority role).toNat

/-- Another player for the role is ahead in time, or is good at it at all where this one is not. -/
def IsBehind (players : SortedMap Nat LfgPlayerQueueInfo) (guid : Nat) (info : LfgPlayerQueueInfo)
    (role : ClassRole) : Prop :=
  ∃ x ∈ players.entries, x.1 ≠ guid ∧ info.areaId = x.2.areaId ∧ info.team = x.2.team ∧
    x.2.canPlay role = true ∧
    ((info.timeInLFG < x.2.timeInLFG ∧ (x.2.hasQueuePriority = true ∨ info.hasQueuePriority = false)) ∨
      (info.getRolePriority role = .none ∧ x.2.getRolePriority role ≠ .none))

instance {players guid info role} : Decidable (HasHigher players guid info role) :=
  inferInstanceAs (Decidable (∃ _ ∈ _, _))

namespace LfgEvent

/-- A player who was taken fits to the group, and nobody else of his kind has a higher priority for
the role. A pair is of one kind. -/
def Sound : LfgEvent → Prop
  | asked players guid info group role found => found = true →
      (info.areaId = group.areaId ∧ info.team = group.team ∧ info.isHardcore = group.isHardcore) ∧
        ¬ HasHigher players guid info role
  | formed _ _ pair => ∀ p ∈ pair,
      p.1.areaId = p.2.areaId ∧ p.1.team = p.2.team ∧ p.1.isHardcore = p.2.isHardcore

/-- A player who is asked has nobody of higher priority beside him, unless somebody is ahead of him
anyway. The two who are first for a new group are both hardcore or not. -/
def Clear : LfgEvent → Prop
  | asked players guid info _ role _ =>
      HasHigher players guid info role → IsBehind players guid info role
  | formed players online _ => online = true →
      ∀ p ∈ LfgWorld.firstPair players, p.1.2.isHardcore = p.2.2.isHardcore

instance : DecidablePred Sound
  | asked _ _ _ _ _ _ => inferInstanceAs (Decidable (_ → _ ∧ ¬ _))
  | formed _ _ _ => inferInstanceAs (Decidable (∀ _ ∈ _, _))

def Exact (e : LfgEvent) : Prop := e.Sound ↔ e.Clear

end LfgEvent

namespace LfgWorld

variable {w w' w'' : LfgWorld} {guid k id : Nat} {info : LfgPlayerQueueInfo}
  {group : LfgGroupQueueInfo} {role : ClassRole}

/-! ## Events that are added -/

/-- The log grows by exact events. -/
def Logs (w w' : LfgWorld) : Prop := ∃ l, w'.log = w.log ++ l ∧ ∀ e ∈ l, e.Exact

theorem Logs.of_eq (h : w'.log = w.log) : Logs w w' := ⟨[], by simp [h], by simp⟩

theorem Logs.trans {u v : LfgWorld} (h : Logs w u) (h' : Logs u v) : Logs w v := by
  obtain ⟨l, hl, he⟩ := h
  obtain ⟨l', hl', he'⟩ := h'
  refine ⟨l ++ l', by rw [hl', hl, List.append_assoc], fun e hm => ?_⟩
  exact (List.mem_append.mp hm).elim (he e) (he' e)

theorem Logs.addEvent {e : LfgEvent} (he : e.Exact) : Logs w (w.addEvent e) :=
  ⟨[e], rfl, fun _ hm => by rw [List.mem_singleton.mp hm]; exact he⟩

theorem addToQueue_log (w : LfgWorld) (guid : Nat) (area : UInt32) :
    (w.addToQueue guid area).log = w.log := by
  unfold addToQueue
  dsimp only
  split_ifs
  · rfl
  · split
    · split_ifs <;> rfl
    · rfl

theorem removeGroupFromQueue_log (w : LfgWorld) (id : Nat) :
    (w.removeGroupFromQueue id).log = w.log := by
  unfold removeGroupFromQueue
  split_ifs
  · cases w.getGroupById id <;> rfl
  · rfl

/-! ## The groups of the queue -/

theorem addMember_groups {w w' : GroupWorld} (h : w.addMember k guid = some w') :
    ∃ sub, w'.groups = (w.setGroup k ((w.groups k).addSlot guid sub)).groups ∧
      w'.nextGroup = w.nextGroup := by
  obtain ⟨sub, -, h⟩ := bind_eq_some_iff.mp h
  dsimp only [GroupWorld.addMemberTo] at h
  split_ifs at h
  refine ⟨sub, ?_⟩
  split at h
  · obtain rfl := some.inj h
    exact ⟨rfl, rfl⟩
  · obtain rfl := some.inj h
    exact ⟨rfl, rfl⟩

/-- An addition leaves the ids of the groups as they are. -/
theorem groupId_addMember (w : LfgWorld) (k guid j : Nat) :
    (w.addMember k guid).groupId j = w.groupId j := by
  unfold groupId addMember
  cases h : w.groups.addMember k guid with
  | none => rfl
  | some w' =>
    obtain ⟨sub, hg, -⟩ := addMember_groups h
    have hb : (w'.groups j).bgGroup = (w.groups.groups j).bgGroup := by
      rw [hg]
      by_cases hj : j = k
      · rw [hj, GroupWorld.setGroup_groups_self]
        rfl
      · rw [GroupWorld.setGroup_groups_ne hj]
    simp only [getD_some, hb]

theorem groupId_of_getGroupById (h : w.getGroupById id = some k) : w.groupId k = id := by
  unfold getGroupById at h
  split_ifs at h with hid hb
  obtain rfl := some.inj h
  rw [Bool.or_eq_true, not_or, Bool.not_eq_true] at hb
  unfold groupId
  rw [hb.1, if_neg (by simp)]
  omega

/-! ## One player for one role -/

/-- Nobody comes first exactly when nobody is ahead in time, or is good at the role at all. -/
theorem hasBetter_iff (players : SortedMap Nat LfgPlayerQueueInfo) :
    hasBetter players guid info role = true ↔ IsBehind players guid info role := by
  unfold hasBetter IsBehind
  rw [List.any_eq_true]
  refine exists_congr fun x => and_congr_right fun _ => ?_
  have hbool : ∀ r : RolesPriority, r.toBool = true ↔ r ≠ .none := by
    intro r
    cases r <;> simp [RolesPriority.toBool, RolesPriority.toNat]
  have hfirst : comesFirst info x.2 role = true ↔
      (info.timeInLFG < x.2.timeInLFG ∧
        (x.2.hasQueuePriority = true ∨ info.hasQueuePriority = false)) ∨
      (info.getRolePriority role = .none ∧ x.2.getRolePriority role ≠ .none) := by
    have h1 := hbool (info.getRolePriority role)
    have h2 := hbool (x.2.getRolePriority role)
    simp only [comesFirst, Bool.or_eq_true, Bool.and_eq_true, Bool.not_eq_true', decide_eq_true_eq,
      ← Bool.not_eq_true, gt_iff_lt, h1, h2, not_not]
    grind
  simp only [Bool.and_eq_true, hfirst, bne_iff_ne, beq_iff_eq]
  grind

/-- `FindRoleToGroup` of a player who fits to the group. -/
theorem findRoleToGroup_logs (role : ClassRole)
    (hg : w.queue.queuedGroups.find (w.groupId k) = some group)
    (hp : w.queue.queuedPlayers.find guid = some info) (hc : compatible info group = true) :
    Logs w (w.findRoleToGroup guid k role).2 := by
  have hfit : info.areaId = group.areaId ∧ info.team = group.team ∧
      info.isHardcore = group.isHardcore := by
    simp only [compatible, Bool.and_eq_true, beq_iff_eq] at hc
    exact ⟨hc.1.2, hc.1.1, hc.2⟩
  unfold findRoleToGroup
  rw [hg, hp]
  dsimp only
  split_ifs with hb
  · refine .addEvent ⟨fun _ _ => (hasBetter_iff _).mp hb, fun _ => ?_⟩
    intro h
    cases h
  · refine .trans (u := w.addEvent (.asked w.queue.queuedPlayers guid info group role true))
      (.addEvent ⟨fun h hh => absurd hh (h rfl).2, fun h _ => ⟨hfit, fun hh => ?_⟩⟩) (.of_eq rfl)
    exact hb ((hasBetter_iff _).mpr (h hh))

/-- A player who is not taken leaves the queue and the groups as they are. -/
theorem findRoleToGroup_false (h : (w.findRoleToGroup guid k role).1 = false) :
    (w.findRoleToGroup guid k role).2.queue = w.queue ∧
      (w.findRoleToGroup guid k role).2.groups = w.groups := by
  unfold findRoleToGroup at h ⊢
  split
  · rename_i group info hg hp
    rw [hg, hp] at h
    dsimp only at h ⊢
    split_ifs at h ⊢
    exact ⟨rfl, rfl⟩
  · exact ⟨rfl, rfl⟩

/-- The ids of the groups stay. -/
theorem findRoleToGroup_groupId (w : LfgWorld) (guid k : Nat) (role : ClassRole) (j : Nat) :
    (w.findRoleToGroup guid k role).2.groupId j = w.groupId j := by
  unfold findRoleToGroup
  split
  · dsimp only
    split_ifs
    · rfl
    · exact groupId_addMember _ k guid j
  · rfl

/-! ## The loops -/

theorem tryRoles_logs (roleMask : UInt32) (roles : List ClassRole) (hid : w.groupId k = id)
    (hg : w.queue.queuedGroups.find id = some group)
    (hp : w.queue.queuedPlayers.find guid = some info) (hc : compatible info group = true) :
    Logs w (tryRoles id k guid roleMask roles w).2 ∧
      (tryRoles id k guid roleMask roles w).2.groupId k = id := by
  induction roles generalizing w with
  | nil => exact ⟨.of_eq rfl, hid⟩
  | cons role roles ih =>
    unfold tryRoles
    split_ifs
    · exact ih hid hg hp
    · have hl := findRoleToGroup_logs role (by rw [hid]; exact hg) hp hc
      have hk := (findRoleToGroup_groupId w guid k role k).trans hid
      split
      · rename_i w' hw
        rw [hw] at hl hk
        exact ⟨hl, hk⟩
      · rename_i w' hw
        obtain ⟨hq, -⟩ := findRoleToGroup_false (by rw [hw])
        rw [hw] at hl hk hq
        obtain ⟨h1, h2⟩ := ih hk (by rw [hq]; exact hg) (by rw [hq]; exact hp)
        exact ⟨hl.trans h1, h2⟩
    · exact ih hid hg hp

theorem fillGroup_logs (guids : List Nat) (hid : w.groupId k = id) :
    Logs w (fillGroup id k guids w) := by
  induction guids generalizing w with
  | nil => exact .of_eq rfl
  | cons guid guids ih =>
    unfold fillGroup
    split
    · rename_i info group hp hg
      split_ifs with hc
      · obtain ⟨hl, hk⟩ := tryRoles_logs info.roleMask potentialRoles hid hg hp hc
        dsimp only
        split_ifs
        · exact hl
        · exact hl.trans (ih hk)
      · exact ih hid
    · exact ih hid

theorem fillGroups_logs {diff : UInt32} {ids : List Nat} : Logs w (fillGroups diff ids w) := by
  induction ids generalizing w with
  | nil => exact .of_eq rfl
  | cons id ids ih =>
    unfold fillGroups
    split
    · exact ih
    · rename_i k hk
      have hl := fillGroup_logs w.queue.queuedPlayers.keys (groupId_of_getGroupById hk)
      dsimp only
      split_ifs
      · exact .of_eq (removeGroupFromQueue_log w id)
      · exact hl.trans (.of_eq (removeGroupFromQueue_log _ id))
      · exact hl.trans ih

/-! ## A new group -/

/-- A new group can be made for every leader. -/
theorem createGroup_isSome {w : GroupWorld} (h : guid ≠ 0) : (createGroup w guid).isSome = true := by
  unfold createGroup GroupWorld.create
  dsimp only
  rw [show ({ w.setGroup w.nextGroup {} with nextGroup := w.nextGroup + 1 } : GroupWorld).groups
    w.nextGroup = {} from GroupWorld.setGroup_groups_self]
  unfold GroupWorld.addMember
  rw [GroupWorld.setGroup_groups_self]
  show (GroupWorld.addMemberTo _ _ _ 0).isSome = true
  unfold GroupWorld.addMemberTo
  rw [GroupWorld.setGroup_groups_self]
  dsimp only
  rw [if_neg (by simpa [Group.isFull, Group.maxSize, Group.isRaidGroup] using h)]
  split <;> rfl

/-- The pair is of one area and team. -/
theorem firstPair_eq_some {players : SortedMap Nat LfgPlayerQueueInfo}
    {a b : Nat × LfgPlayerQueueInfo} (h : firstPair players = some (a, b)) :
    a ∈ players.entries ∧ b ∈ players.entries ∧ b.1 ≠ a.1 ∧ a.2.areaId = b.2.areaId ∧
      a.2.team = b.2.team := by
  unfold firstPair at h
  split at h
  · cases h
  · rename_i leader rest hl
    dsimp only at h
    split_ifs at h
    obtain ⟨c, hc, he⟩ := map_eq_some_iff.mp h
    obtain ⟨rfl, rfl⟩ := Prod.mk.inj he
    have hm := List.mem_of_head? hc
    unfold findInArea at hm
    obtain ⟨hm, hp⟩ := List.mem_filter.mp hm
    simp only [Bool.and_eq_true, bne_iff_ne, beq_iff_eq] at hp
    exact ⟨by rw [hl]; exact List.mem_cons_self, hm, hp.1.1, hp.1.2.symm, hp.2.symm⟩

theorem formGroup_logs : Logs w w.formGroup := by
  unfold formGroup
  split
  · exact .of_eq rfl
  rename_i leader member hpair
  obtain ⟨-, -, -, harea, hteam⟩ := firstPair_eq_some hpair
  dsimp only
  split_ifs with ho
  · exact .addEvent ⟨fun _ h => (by cases h), fun _ p hp => (by cases hp)⟩
  · split
    · rename_i hc
      rw [Bool.not_eq_true', Bool.not_eq_false, Bool.and_eq_true, bne_iff_ne] at ho
      have := createGroup_isSome (w := w.groups) ho.2
      rw [hc] at this
      cases this
    · rename_i groups hc
      refine .trans (u := { w with groups }.addEvent
        (.formed w.queue.queuedPlayers true (some (leader.2, member.2)))) ?_ (.of_eq ?_)
      · refine .addEvent ⟨fun h _ p hp => ?_, fun h p hp => ?_⟩
        · obtain rfl := some.inj (hpair.symm.trans hp)
          exact (h _ rfl).2.2
        · obtain rfl := some.inj hp
          exact ⟨harea, hteam, h rfl _ hpair⟩
      · exact addToQueue_log _ _ _

/-- Every event of an update is sound exactly when the queue was clear then. -/
theorem update_logs (w : LfgWorld) (diff : UInt32) : Logs w (w.update diff) := by
  unfold update
  split_ifs
  · exact .of_eq rfl
  · have h1 : Logs w (w.updatePlayers diff) := .of_eq rfl
    exact (h1.trans fillGroups_logs).trans formGroup_logs

theorem updateGroup_log (w : LfgWorld) (id : Nat) : (w.updateGroup id).log = w.log := by
  unfold updateGroup
  split
  · rfl
  · split_ifs <;> rfl

theorem accept_log (w : LfgWorld) (guid : Nat) (allowed : Bool) :
    (w.accept guid allowed).log = w.log := by
  unfold accept
  dsimp only
  split
  · rfl
  · split_ifs
    · exact updateGroup_log _ _
    · rfl

theorem removeMember_log (w : LfgWorld) (k guid : Nat) (kick : Bool) :
    (w.removeMember k guid kick).log = w.log := by
  obtain ⟨w₁, hw₁⟩ : ∃ w₁ : LfgWorld, w₁ = { w with groups := w.groups.removeMember k guid } := ⟨_, rfl⟩
  have h₁ : w₁.log = w.log := by rw [hw₁]
  unfold removeMember
  dsimp only
  rw [← hw₁]
  split
  · generalize hw₂ : (if (kick && _ && _) = true then _ else w₁ : LfgWorld) = w₂
    have h₂ : w₂.log = w.log := by
      rw [← hw₂]
      split_ifs
      · rw [addToQueue_log, removeGroupFromQueue_log, h₁]
      · exact h₁
    generalize hw₃ : (if _ = guid then _ else w₂ : LfgWorld) = w₃
    have h₃ : w₃.log = w.log := by
      rw [← hw₃]
      split_ifs
      · rw [removeGroupFromQueue_log, h₂]
      · exact h₂
    split
    · rw [updateGroup_log, h₃]
    · exact h₃
  split
  · exact h₁
  · exact h₁

theorem addPlayerToGroup_log (w : LfgWorld) (group : Option Nat) (leader member : Nat)
    (canGroup : Bool) : (w.addPlayerToGroup group leader member canGroup).2.2.log = w.log := by
  unfold addPlayerToGroup
  split_ifs
  · rfl
  split
  · rfl
  rename_i k w' ho
  have hw : w'.log = w.log := by
    unfold offerGroup at ho
    split at ho
    · cases ho
      rfl
    split_ifs at ho
    split at ho
    · cases ho
      rfl
    · obtain ⟨groups, -, he⟩ := Option.map_eq_some_iff.mp ho
      cases he
      rfl
  split_ifs
  · exact hw
  · exact hw
  · exact hw

theorem completeOffer_log (leader : Nat) (canGroup : Nat → Bool) (members : List Nat)
    (group : Option Nat) (w : LfgWorld) :
    (completeOffer leader canGroup members group w).log = w.log := by
  induction members generalizing group w with
  | nil => rfl
  | cons member members ih =>
    have h := addPlayerToGroup_log w group leader member (canGroup member)
    unfold completeOffer
    split
    · rename_i heq
      rw [heq] at h
      exact (ih _ _).trans h
    · rename_i heq
      rw [heq] at h
      exact h

/-- Only an update does anything that is put down. -/
theorem step_logs (w : LfgWorld) (i : LfgInput) : Logs w (w.step i) := by
  cases i with
  | update diff => exact update_logs w diff
  | join guid area => exact .of_eq (addToQueue_log w guid area)
  | leave guid =>
    refine .of_eq ?_
    unfold step
    dsimp only
    split
    · split_ifs
      · exact removeGroupFromQueue_log _ _
      · rfl
    · rfl
  | info guid =>
    refine .of_eq ?_
    show LfgWorld.log (if _ then w else w.restoreOfflinePlayer guid) = w.log
    split_ifs
    · rfl
    · unfold restoreOfflinePlayer
      split <;> rfl
  | accept guid allowed => exact .of_eq (accept_log w guid allowed)
  | removeMember k guid kick => exact .of_eq (removeMember_log w k guid kick)
  | completeOffer leader members canGroup => exact .of_eq (completeOffer_log leader canGroup _ _ w)
  | group i =>
    cases i with
    | accept guid allowed => exact .of_eq (accept_log w guid allowed)
    | removeMember k guid => exact .of_eq (removeMember_log w k guid false)
    | _ => exact .of_eq rfl
  | setCharacter guid c => exact .of_eq rfl

end LfgWorld

end Windrunner
