import Windrunner.Group.Looter
import Windrunner.Lfg.State

/-!
# The roles of a party

`CalculateLFGRoles` goes through the members in their order. A member gets the first role that he
can play, that is not taken and that nobody else is better at who has no role yet; a member who gets
none is not looked at again.

* `Group.choose`: the role that a member gets, from the roles that the others have. It says the same
  as `fillMember` (`fillMember_represents`), which only keeps masks and counts.
* `Group.roleOf`: who is the tank and who the healer of a party; all others deal damage.
* `Group.calculateLFGRoles_iff`: all members are accounted for exactly when none of those others
  stands before somebody who is better at dealing damage.
-/

namespace Windrunner

open List
open Option hiding all_eq_true map_map

/-- The places of a party for a role. -/
def ClassRole.slots : ClassRole → Nat
  | .tank => 1
  | .healer => 1
  | .dps => 3

def PlayerClass.canPlay (c : PlayerClass) (role : ClassRole) : Bool :=
  c.calculateRoles &&& role.bit != 0

/-! ## What is marked as taken -/

namespace LfgGroupQueueInfo

/-- The places that are marked as taken. -/
def marked (info : LfgGroupQueueInfo) : ClassRole → Nat
  | .tank => if info.availableRoles &&& ClassRole.tank.bit = 0 then 1 else 0
  | .healer => if info.availableRoles &&& ClassRole.healer.bit = 0 then 1 else 0
  | .dps => info.dpsCount.toNat

/-- The roles left open: the two flags, and the places for damage that are not counted. -/
def openRoles (info : LfgGroupQueueInfo) : Nat :=
  (if info.availableRoles &&& ClassRole.tank.bit = 0 then 0 else 1) +
    (if info.availableRoles &&& ClassRole.healer.bit = 0 then 0 else 1) + (3 - info.dpsCount.toNat)

end LfgGroupQueueInfo

/-- The members that have been given the role. -/
def countRole (taken : List (Nat × ClassRole)) (role : ClassRole) : Nat :=
  taken.countP (·.2 = role)

def roleMask (f : ClassRole → Bool) : UInt32 :=
  (if f .tank then ClassRole.tank.bit else 0) ||| (if f .healer then ClassRole.healer.bit else 0) |||
    (if f .dps then ClassRole.dps.bit else 0)

theorem bit_and_roleMask (f : ClassRole → Bool) (role : ClassRole) :
    (role.bit &&& roleMask f == role.bit) = f role := by
  unfold roleMask
  cases role <;> cases f .tank <;> cases f .healer <;> cases f .dps <;> decide

theorem roleMask_and_bit (f : ClassRole → Bool) (role : ClassRole) :
    roleMask f &&& role.bit = 0 ↔ f role = false := by
  unfold roleMask
  cases role <;> cases f .tank <;> cases f .healer <;> cases f .dps <;> decide

theorem roleMask_erase (f : ClassRole → Bool) (role : ClassRole) :
    roleMask f &&& ~~~role.bit = roleMask fun role' => f role' && role' != role := by
  unfold roleMask
  cases role <;> cases ht : f .tank <;> cases hh : f .healer <;> cases hd : f .dps <;>
    simp only [ht, hh, hd] <;> decide

/-- The state of the loop stands for the roles `taken`. -/
structure LfgRoles.Represents (r : LfgRoles) (taken : List (Nat × ClassRole)) : Prop where
  processed : r.processed = taken.map Prod.fst
  initRoles : r.initRoles = roleMask fun role => countRole taken role < role.slots
  dpsCount : r.dpsCount = UInt32.ofNat (countRole taken .dps)
  fits : ∀ role, countRole taken role ≤ role.slots

theorem countRole_append (taken : List (Nat × ClassRole)) (guid : Nat) (role role' : ClassRole) :
    countRole (taken ++ [(guid, role)]) role' =
      countRole taken role' + if role = role' then 1 else 0 := by
  unfold countRole
  rw [countP_append, countP_singleton]
  simp

theorem LfgRoles.Represents.init : LfgRoles.Represents {} [] where
  processed := rfl
  initRoles := by decide
  dpsCount := rfl
  fits _ := Nat.zero_le _

/-- The role of a mask that is gone when one more has it. -/
theorem roleMask_take {taken : List (Nat × ClassRole)} {role : ClassRole} (guid : Nat)
    (hlast : countRole taken role + 1 = role.slots) :
    (roleMask fun role' => countRole taken role' < role'.slots) &&& ~~~role.bit =
      roleMask fun role' => countRole (taken ++ [(guid, role)]) role' < role'.slots := by
  rw [roleMask_erase]
  congr 1
  funext role'
  rw [countRole_append]
  by_cases h : role = role'
  · subst h
    simp [← hlast]
  · simp [h, Ne.symm h]

theorem roleMask_keep {taken : List (Nat × ClassRole)} {role : ClassRole} (guid : Nat)
    (h : countRole taken role + 1 < role.slots) :
    (roleMask fun role' => countRole taken role' < role'.slots) =
      roleMask fun role' => countRole (taken ++ [(guid, role)]) role' < role'.slots := by
  congr 1
  funext role'
  rw [countRole_append]
  by_cases heq : role = role'
  · subst heq
    simp [h, Nat.lt_of_succ_lt h]
  · simp [heq]

theorem takeRole_dps (availableRoles : UInt32) {n : Nat} (hn : n < 3) :
    takeRole availableRoles (UInt32.ofNat n) .dps =
      (if n + 1 = 3 then availableRoles &&& ~~~ClassRole.dps.bit else availableRoles,
        UInt32.ofNat (n + 1)) := by
  rcases n with _ | _ | _ | n
  · rfl
  · rfl
  · rfl
  · omega

theorem LfgRoles.Represents.take {r : LfgRoles} {taken : List (Nat × ClassRole)}
    (h : r.Represents taken) (guid : Nat) {role : ClassRole}
    (hopen : countRole taken role < role.slots) :
    LfgRoles.Represents ⟨(takeRole r.initRoles r.dpsCount role).1,
      (takeRole r.initRoles r.dpsCount role).2, r.processed ++ [guid]⟩ (taken ++ [(guid, role)]) where
  processed := by rw [h.processed, map_append]; rfl
  initRoles := by
    rw [h.initRoles, h.dpsCount]
    cases role with
    | tank => exact roleMask_take guid (Nat.le_antisymm hopen (Nat.le_add_left 1 _))
    | healer => exact roleMask_take guid (Nat.le_antisymm hopen (Nat.le_add_left 1 _))
    | dps =>
      rw [takeRole_dps _ hopen]
      by_cases hlast : countRole taken .dps + 1 = 3
      · rw [if_pos hlast]
        exact roleMask_take guid hlast
      · rw [if_neg hlast]
        have hlt : countRole taken .dps + 1 < 3 := Nat.lt_of_le_of_ne hopen hlast
        exact roleMask_keep guid hlt
  dpsCount := by
    rw [h.dpsCount, countRole_append]
    cases role with
    | tank => rfl
    | healer => rfl
    | dps => rw [takeRole_dps _ hopen]; rfl
  fits role' := by
    have := h.fits role'
    rw [countRole_append]
    split
    next heq => subst heq; omega
    next => omega

/-! ## A member is given a role -/

namespace Group

variable (g : Group) (classOf : Nat → PlayerClass)

/-- Somebody else who has no role is better at it. -/
def Yields (taken : List (Nat × ClassRole)) (guid : Nat) (role : ClassRole) : Prop :=
  ∃ other ∈ g.guids, other ≠ guid ∧ other ∉ taken.map Prod.fst ∧
    ((classOf guid).getPriority role).toNat < ((classOf other).getPriority role).toNat

instance {taken : List (Nat × ClassRole)} {guid : Nat} {role : ClassRole} :
    Decidable (g.Yields classOf taken guid role) :=
  inferInstanceAs (Decidable (∃ _ ∈ _, _))

/-- The member gets the role, if he is asked for it. -/
def Gets (taken : List (Nat × ClassRole)) (guid : Nat) (role : ClassRole) : Prop :=
  (classOf guid).canPlay role = true ∧ countRole taken role < role.slots ∧
    ¬ g.Yields classOf taken guid role

instance {taken : List (Nat × ClassRole)} {guid : Nat} :
    DecidablePred (g.Gets classOf taken guid) := fun _ => inferInstanceAs (Decidable (_ ∧ _))

def choose (taken : List (Nat × ClassRole)) (guid : Nat) : Option ClassRole :=
  potentialRoles.find? (g.Gets classOf taken guid)

def assign (taken : List (Nat × ClassRole)) (guid : Nat) : List (Nat × ClassRole) :=
  taken ++ ((g.choose classOf taken guid).map (guid, ·)).toList

variable {g classOf}

variable {r : LfgRoles} {taken : List (Nat × ClassRole)}

theorem fillPremadeLFG_eq (h : r.Represents taken) (guid : Nat) (role : ClassRole) :
    g.fillPremadeLFG classOf guid role r = if g.Yields classOf taken guid role then none else
      some ⟨(takeRole r.initRoles r.dpsCount role).1, (takeRole r.initRoles r.dpsCount role).2,
        r.processed ++ [guid]⟩ := by
  unfold fillPremadeLFG
  refine if_congr ?_ rfl rfl
  simp [Yields, guids, h.processed, and_assoc]

/-- A member is asked for a role that he can play and that is open, and gets it unless he yields. -/
theorem ask_eq (h : r.Represents taken) (guid : Nat) (role : ClassRole) :
    (if (classOf guid).calculateRoles &&& role.bit == 0 then none
      else if role.bit &&& r.initRoles == role.bit then g.fillPremadeLFG classOf guid role r
      else none) =
    if g.Gets classOf taken guid role then
      some ⟨(takeRole r.initRoles r.dpsCount role).1, (takeRole r.initRoles r.dpsCount role).2,
        r.processed ++ [guid]⟩ else none := by
  rw [fillPremadeLFG_eq h, h.initRoles, bit_and_roleMask]
  unfold Gets PlayerClass.canPlay
  by_cases hcan : (classOf guid).calculateRoles &&& role.bit = 0
  · simp [hcan]
  · by_cases hopen : countRole taken role < role.slots <;>
      by_cases hy : g.Yields classOf taken guid role <;> simp [hcan, hopen, hy]

theorem findSome?_ite {β : Type} (p : ClassRole → Prop) [DecidablePred p] (f : ClassRole → β)
    (l : List ClassRole) :
    l.findSome? (fun role => if p role then some (f role) else none) = (l.find? p).map f := by
  induction l with
  | nil => rfl
  | cons role l ih =>
    by_cases h : p role
    · simp [h]
    · simp [h, ih]

/-- The masks and counts of the loop say the same. -/
theorem fillMember_represents (h : r.Represents taken) (guid : Nat) :
    (g.fillMember classOf r guid).Represents (g.assign classOf taken guid) := by
  unfold fillMember assign choose
  simp only [ask_eq h]
  rw [findSome?_ite]
  cases hfind : potentialRoles.find? (g.Gets classOf taken guid) with
  | none => simpa using h
  | some role =>
    have hgets : g.Gets classOf taken guid role := by simpa using find?_some hfind
    simpa using h.take guid hgets.2.1

theorem foldl_represents (guids : List Nat)
    (h : r.Represents taken) : (guids.foldl (g.fillMember classOf) r).Represents
      (guids.foldl (g.assign classOf) taken) := by
  induction guids generalizing r taken with
  | nil => exact h
  | cons guid guids ih => exact ih (fillMember_represents h guid)

/-! ## Who is what -/

variable (g classOf)

/-- The first who can be the tank, among those who are best at it. -/
def tankOf : Option Nat := g.guids.find? fun guid =>
  (classOf guid).canPlay .tank && g.guids.all fun other =>
    ((classOf other).getPriority .tank).toNat ≤ ((classOf guid).getPriority .tank).toNat

/-- The first besides who can be the healer. -/
def healerOf : Option Nat := g.guids.find? fun guid =>
  (classOf guid).canPlay .healer && g.tankOf classOf != some guid

def roleOf (guid : Nat) : ClassRole :=
  if g.tankOf classOf = some guid then .tank
  else if g.healerOf classOf = some guid then .healer
  else .dps

variable {g classOf}

/-- Going through a list to the first element with `p`: it is `x`, when none before `x` was it. -/
theorem find?_eq_some_at {p : Nat → Bool} {before after : List Nat} {x : Nat}
    (hx : x ∉ before) : (before ++ x :: after).find? p = some x ↔
      p x = true ∧ ∀ z ∈ before, (before ++ x :: after).find? p ≠ some z := by
  constructor
  · intro h
    refine ⟨find?_some h, fun z hz hsome => ?_⟩
    have : x = z := some.inj (h.symm.trans hsome)
    exact hx (this ▸ hz)
  · rintro ⟨hp, hbefore⟩
    cases hfind : before.find? p with
    | none => rw [find?_append, hfind, none_or, find?_cons_of_pos hp]
    | some z =>
      have hz := hbefore z (mem_of_find?_eq_some hfind)
      rw [find?_append, hfind] at hz
      exact absurd rfl hz

theorem roleOf_tank_iff {guid : Nat} : g.roleOf classOf guid = .tank ↔
    g.tankOf classOf = some guid := by
  unfold roleOf
  split
  next h => simp [h]
  next h => split <;> simp [h]

theorem roleOf_healer_iff {guid : Nat} : g.roleOf classOf guid = .healer ↔
    g.healerOf classOf = some guid := by
  unfold roleOf
  split
  next h =>
    refine ⟨nofun, fun hh => ?_⟩
    have := find?_some hh
    simp [h] at this
  next h => split <;> simp_all

/-! ## One turn -/

/-- The roles of those who come before, as they are when each of them has his. -/
def given (g : Group) (classOf : Nat → PlayerClass) (guids : List Nat) : List (Nat × ClassRole) :=
  guids.map fun guid => (guid, g.roleOf classOf guid)

theorem countRole_given (guids : List Nat) (role : ClassRole) :
    countRole (given g classOf guids) role = guids.countP (g.roleOf classOf · = role) := by
  unfold countRole given
  rw [countP_map]
  rfl

theorem map_fst_given (guids : List Nat) : (given g classOf guids).map Prod.fst = guids := by
  unfold given
  rw [map_map]
  exact map_id' guids

section Turn

variable {before after : List Nat} {guid : Nat}

theorem not_mem_before (hg : g.guids = before ++ guid :: after) (hnodup : g.guids.Nodup) :
    guid ∉ before ∧ guid ∉ after ∧ ∀ other ∈ after, other ∉ before := by
  rw [hg, nodup_append', nodup_cons] at hnodup
  obtain ⟨-, ⟨hafter, -⟩, hdisj⟩ := hnodup
  exact ⟨fun h => hdisj h mem_cons_self, hafter,
    fun other h h' => hdisj h' (mem_cons_of_mem _ h)⟩

/-- Those who have no role yet come later. -/
theorem yields_given (hg : g.guids = before ++ guid :: after) (hnodup : g.guids.Nodup)
    (role : ClassRole) : g.Yields classOf (given g classOf before) guid role ↔ ∃ other ∈ after,
      ((classOf guid).getPriority role).toNat < ((classOf other).getPriority role).toNat := by
  obtain ⟨-, hafter, hdisj⟩ := not_mem_before hg hnodup
  unfold Yields
  rw [map_fst_given]
  constructor
  · rintro ⟨other, hmem, hne, hout, hlt⟩
    rw [hg, mem_append, mem_cons] at hmem
    obtain h | rfl | h := hmem
    · exact absurd h hout
    · exact absurd rfl hne
    · exact ⟨other, h, hlt⟩
  · rintro ⟨other, hmem, hlt⟩
    refine ⟨other, ?_, fun h => hafter (h ▸ hmem), hdisj other hmem, hlt⟩
    rw [hg]
    exact mem_append_right _ (mem_cons_of_mem _ hmem)

/-- A role with one place is open when none of those before has it. -/
theorem countRole_given_eq_zero {role : ClassRole} : countRole (given g classOf before) role < 1 ↔
    ∀ z ∈ before, g.roleOf classOf z ≠ role := by
  rw [countRole_given, Nat.lt_one_iff, countP_eq_zero]
  simp

theorem canPlay_tank (c : PlayerClass) :
    c.canPlay .tank = true → 2 ≤ (c.getPriority .tank).toNat := by
  cases c <;> decide

theorem getPriority_le (c : PlayerClass) (role : ClassRole) : (c.getPriority role).toNat ≤ 3 := by
  cases c <;> cases role <;> decide

theorem canPlay_of_priority {c : PlayerClass} {role : ClassRole}
    (h : 0 < (c.getPriority role).toNat) : c.canPlay role = true := by
  cases c <;> cases role <;> revert h <;> decide

theorem canPlay_healer {c : PlayerClass} (h : c.canPlay .healer = true) :
    (c.getPriority .healer).toNat = 3 := by
  cases c <;> revert h <;> decide

section

variable (hg : g.guids = before ++ guid :: after) (hnodup : g.guids.Nodup)
include hg hnodup

theorem gets_tank_iff :
    g.Gets classOf (given g classOf before) guid .tank ↔ g.roleOf classOf guid = .tank := by
  obtain ⟨hbefore, -, -⟩ := not_mem_before hg hnodup
  unfold Gets
  rw [yields_given hg hnodup, roleOf_tank_iff, show ClassRole.slots .tank = 1 from rfl,
    countRole_given_eq_zero]
  simp only [ne_eq, roleOf_tank_iff]
  constructor
  · rintro ⟨hcan, hfree, hno⟩
    unfold tankOf at hfree ⊢
    rw [hg] at hfree ⊢
    refine (find?_eq_some_at hbefore).2 ⟨?_, hfree⟩
    rw [hcan, Bool.true_and, all_eq_true]
    intro other hother
    rw [decide_eq_true_eq]
    rw [mem_append, mem_cons] at hother
    obtain h | rfl | h := hother
    · -- one before who is better is best, and he or one before him would be the tank
      refine Nat.le_of_not_lt fun hlt => ?_
      have hpos := canPlay_tank _ hcan
      have hbest := getPriority_le (classOf other) .tank
      have hall : ∀ x ∈ before ++ guid :: after, ((classOf x).getPriority .tank).toNat ≤
          ((classOf other).getPriority .tank).toNat := fun x _ =>
        (getPriority_le (classOf x) .tank).trans (by omega)
      have hother : (classOf other).canPlay .tank = true := canPlay_of_priority (by omega)
      have hsome : (before.find? fun guid' => (classOf guid').canPlay .tank &&
          (before ++ guid :: after).all fun other => ((classOf other).getPriority .tank).toNat ≤
            ((classOf guid').getPriority .tank).toNat).isSome = true :=
        find?_isSome.2 ⟨other, h, by
          rw [hother, Bool.true_and, all_eq_true]
          exact fun x hx => decide_eq_true (hall x hx)⟩
      obtain ⟨z, hz⟩ := isSome_iff_exists.1 hsome
      exact hfree z (mem_of_find?_eq_some hz) (by rw [find?_append, hz]; rfl)
    · exact Nat.le_refl _
    · exact Nat.le_of_not_lt fun hlt => hno ⟨other, h, hlt⟩
  · intro h
    have htank := h
    unfold tankOf at h
    rw [hg] at h
    obtain ⟨hbest, hfree⟩ := (find?_eq_some_at hbefore).1 h
    rw [Bool.and_eq_true, all_eq_true] at hbest
    refine ⟨hbest.1, ?_, ?_⟩
    · intro z hz hsome
      have : guid = z := some.inj (htank.symm.trans hsome)
      exact hbefore (this ▸ hz)
    · rintro ⟨other, hmem, hlt⟩
      have := hbest.2 other (mem_append_right _ (mem_cons_of_mem _ hmem))
      rw [decide_eq_true_eq] at this
      omega

theorem gets_healer_iff (htank : g.roleOf classOf guid ≠ .tank) :
    g.Gets classOf (given g classOf before) guid .healer ↔ g.roleOf classOf guid = .healer := by
  obtain ⟨hbefore, -, -⟩ := not_mem_before hg hnodup
  rw [ne_eq, roleOf_tank_iff] at htank
  unfold Gets
  rw [yields_given hg hnodup, roleOf_healer_iff, show ClassRole.slots .healer = 1 from rfl,
    countRole_given_eq_zero]
  simp only [ne_eq, roleOf_healer_iff]
  constructor
  · rintro ⟨hcan, hfree, -⟩
    unfold healerOf at hfree ⊢
    rw [hg] at hfree ⊢
    exact (find?_eq_some_at hbefore).2 ⟨by simp [hcan, htank], hfree⟩
  · intro h
    have hhealer := h
    unfold healerOf at h
    rw [hg] at h
    obtain ⟨hbest, -⟩ := (find?_eq_some_at hbefore).1 h
    rw [Bool.and_eq_true] at hbest
    refine ⟨hbest.1, ?_, ?_⟩
    · intro z hz hsome
      have : guid = z := some.inj (hhealer.symm.trans hsome)
      exact hbefore (this ▸ hz)
    · rintro ⟨other, -, hlt⟩
      have h3 := canPlay_healer hbest.1
      have := getPriority_le (classOf other) .healer
      omega

/-- The turn of a member, when all before him have their roles. -/
theorem choose_given :
    g.choose classOf (given g classOf before) guid =
      if g.roleOf classOf guid = .dps ∧ ¬ g.Gets classOf (given g classOf before) guid .dps then
        none else some (g.roleOf classOf guid) := by
  have htank : g.Gets classOf _ guid .tank ↔ _ := gets_tank_iff hg hnodup
  have hhealer : _ → (g.Gets classOf _ guid .healer ↔ _) := gets_healer_iff hg hnodup
  unfold choose potentialRoles
  cases hrole : g.roleOf classOf guid with
  | tank => simp [htank.2 hrole]
  | healer =>
    have h1 : ¬ g.Gets classOf (given g classOf before) guid .tank := by simp [htank, hrole]
    simp [h1, (hhealer (by simp [hrole])).2 hrole]
  | dps =>
    have h1 : ¬ g.Gets classOf (given g classOf before) guid .tank := by simp [htank, hrole]
    have h2 : ¬ g.Gets classOf (given g classOf before) guid .healer := by
      simp [hhealer (by simp [hrole]), hrole]
    by_cases h3 : g.Gets classOf (given g classOf before) guid .dps <;> simp [h1, h2, h3]

theorem assign_given :
    g.assign classOf (given g classOf before) guid =
      if g.roleOf classOf guid = .dps ∧ ¬ g.Gets classOf (given g classOf before) guid .dps then
        given g classOf before else given g classOf (before ++ [guid]) := by
  unfold assign
  rw [choose_given hg hnodup]
  split
  next => exact append_nil _
  next => unfold given; rw [map_append]; rfl

/-- The turn of one who deals damage, while there are places. -/
theorem gets_dps_iff (hcan : (classOf guid).canPlay .dps = true)
    (hdps : g.guids.countP (g.roleOf classOf · = .dps) ≤ 3) (hrole : g.roleOf classOf guid = .dps) :
    g.Gets classOf (given g classOf before) guid .dps ↔ ∀ other ∈ after,
      ((classOf other).getPriority .dps).toNat ≤ ((classOf guid).getPriority .dps).toNat := by
  have hopen : countRole (given g classOf before) .dps < ClassRole.slots .dps := by
    rw [hg, countP_append, countP_cons_of_pos (by simpa using hrole)] at hdps
    rw [countRole_given]
    exact Nat.lt_of_lt_of_le (by omega) hdps
  unfold Gets
  rw [yields_given hg hnodup]
  simp [hcan, hopen]

end

end Turn

/-! ## All turns -/

/-- One who deals damage does not stand before somebody who is better at it. -/
def InTurn (g : Group) (classOf : Nat → PlayerClass) (guid other : Nat) : Prop :=
  g.roleOf classOf guid = .dps →
    ((classOf other).getPriority .dps).toNat ≤ ((classOf guid).getPriority .dps).toNat

theorem length_assign_le (taken : List (Nat × ClassRole)) (guids : List Nat) :
    (guids.foldl (g.assign classOf) taken).length ≤ taken.length + guids.length := by
  induction guids generalizing taken with
  | nil => exact Nat.le_refl _
  | cons guid guids ih =>
    have hone : (g.assign classOf taken guid).length ≤ taken.length + 1 := by
      unfold assign
      cases g.choose classOf taken guid <;> simp
    have := ih (g.assign classOf taken guid)
    rw [foldl_cons, length_cons]
    omega

/-- With enough places for damage, all get a role exactly when they stand in turn. -/
theorem length_assign_iff (hnodup : g.guids.Nodup)
    (hcan : ∀ guid ∈ g.guids, (classOf guid).canPlay .dps = true)
    (hdps : g.guids.countP (g.roleOf classOf · = .dps) ≤ 3) (before after : List Nat)
    (hg : g.guids = before ++ after) :
    (after.foldl (g.assign classOf) (given g classOf before)).length = g.guids.length ↔
      after.Pairwise (InTurn g classOf) := by
  induction after generalizing before with
  | nil => simp [hg, given]
  | cons guid after ih =>
    have hlen : g.guids.length = before.length + (after.length + 1) := by
      rw [hg, length_append, length_cons]
    have hgets : g.roleOf classOf guid = .dps → _ :=
      gets_dps_iff hg hnodup (hcan guid (by simp [hg])) hdps
    rw [foldl_cons, pairwise_cons, assign_given hg hnodup]
    by_cases hturn : ∀ other ∈ after, InTurn g classOf guid other
    · have hsome : ¬ (g.roleOf classOf guid = .dps ∧
          ¬ g.Gets classOf (given g classOf before) guid .dps) := by
        rintro ⟨hrole, hnot⟩
        exact hnot ((hgets hrole).2 fun other hother => hturn other hother hrole)
      rw [if_neg hsome, ih (before ++ [guid]) (by rw [hg, append_assoc]; rfl)]
      exact (and_iff_right hturn).symm
    · have hnone : g.roleOf classOf guid = .dps ∧
          ¬ g.Gets classOf (given g classOf before) guid .dps := by
        unfold InTurn at hturn
        push Not at hturn
        obtain ⟨other, hother, hrole, hlt⟩ := hturn
        exact ⟨hrole, fun h => absurd ((hgets hrole).1 h other hother) (Nat.not_le_of_lt hlt)⟩
      rw [if_pos hnone]
      -- one member is left out, and nobody gets two roles
      have hle : (after.foldl (g.assign classOf) (given g classOf before)).length ≤
          (given g classOf before).length + after.length := length_assign_le _ _
      have hgiven : (given g classOf before).length = before.length := length_map _
      exact iff_of_false (by omega) fun h => hturn h.1

/-! ## Every assignment -/

/-- Some assignment gives every member a role that he can play, with a place for each. -/
def Assignable (g : Group) (classOf : Nat → PlayerClass) : Prop :=
  ∃ role : Nat → ClassRole, (∀ guid ∈ g.guids, (classOf guid).canPlay (role guid) = true) ∧
    ∀ r : ClassRole, g.guids.countP (role · = r) ≤ r.slots

theorem length_eq_countP (role : Nat → ClassRole) (guids : List Nat) :
    guids.length = guids.countP (role · = .tank) + guids.countP (role · = .healer) +
      guids.countP (role · = .dps) := by
  induction guids with
  | nil => rfl
  | cons guid guids ih =>
    simp only [countP_cons, length_cons, ih]
    cases role guid <;> simp <;> omega

theorem canPlay_dps {c : PlayerClass} {role : ClassRole} (h : c.canPlay role = true) :
    c.canPlay .dps = true := by
  cases c <;> cases role <;> revert h <;> decide

theorem exists_of_countP_pos {role : Nat → ClassRole} {r : ClassRole} {guids : List Nat}
    (h : 0 < guids.countP (role · = r)) : ∃ guid ∈ guids, role guid = r := by
  obtain ⟨guid, hmem, hr⟩ := countP_pos_iff.1 h
  exact ⟨guid, hmem, by simpa using hr⟩

/-- Where somebody can be the tank, somebody is. -/
theorem tankOf_isSome {guid : Nat} (hmem : guid ∈ g.guids)
    (hcan : (classOf guid).canPlay .tank = true) : (g.tankOf classOf).isSome = true := by
  unfold tankOf
  rw [find?_isSome]
  by_cases hbest : ∃ other ∈ g.guids, ((classOf other).getPriority .tank).toNat = 3
  · obtain ⟨other, hother, h3⟩ := hbest
    refine ⟨other, hother, ?_⟩
    rw [canPlay_of_priority (by omega), Bool.true_and, all_eq_true]
    exact fun x _ => decide_eq_true (h3 ▸ getPriority_le (classOf x) .tank)
  · refine ⟨guid, hmem, ?_⟩
    rw [hcan, Bool.true_and, all_eq_true]
    intro x hx
    have hle := getPriority_le (classOf x) .tank
    have hne : ((classOf x).getPriority .tank).toNat ≠ 3 := fun h => hbest ⟨x, hx, h⟩
    have hpos := canPlay_tank _ hcan
    exact decide_eq_true (by omega)

theorem healerOf_isSome {guid : Nat} (hmem : guid ∈ g.guids)
    (hcan : (classOf guid).canPlay .healer = true) (htank : g.tankOf classOf ≠ some guid) :
    (g.healerOf classOf).isSome = true := by
  unfold healerOf
  rw [find?_isSome]
  exact ⟨guid, hmem, by simp [hcan, htank]⟩

/-- A tank who can heal is no better at it than anybody who can be the tank, who can then heal. -/
theorem canPlay_healer_of_tank {c c' : PlayerClass} (hheal : c.canPlay .healer = true)
    (hbest : (c'.getPriority .tank).toNat ≤ (c.getPriority .tank).toNat)
    (htank : c'.canPlay .tank = true) : c'.canPlay .healer = true := by
  cases c <;> cases c' <;> revert hheal hbest htank <;> decide

theorem countP_roleOf_tank (h : (g.tankOf classOf).isSome = true) :
    1 ≤ g.guids.countP (g.roleOf classOf · = .tank) := by
  obtain ⟨guid, hguid⟩ := isSome_iff_exists.1 h
  exact countP_pos_iff.2 ⟨guid, mem_of_find?_eq_some hguid,
    by simpa using roleOf_tank_iff.2 hguid⟩

theorem countP_roleOf_healer (h : (g.healerOf classOf).isSome = true) :
    1 ≤ g.guids.countP (g.roleOf classOf · = .healer) := by
  obtain ⟨guid, hguid⟩ := isSome_iff_exists.1 h
  exact countP_pos_iff.2 ⟨guid, mem_of_find?_eq_some hguid,
    by simpa using roleOf_healer_iff.2 hguid⟩

/-- The tank and the healer of the party fill as many of the two places as any assignment. -/
theorem countP_dps_le (h : g.Assignable classOf) :
    g.guids.countP (g.roleOf classOf · = .dps) ≤ 3 := by
  obtain ⟨role, hcan, hslots⟩ := h
  have htank : g.guids.countP (role · = .tank) ≤ 1 := hslots .tank
  have hhealer : g.guids.countP (role · = .healer) ≤ 1 := hslots .healer
  have hdps : g.guids.countP (role · = .dps) ≤ 3 := hslots .dps
  have hlen := length_eq_countP role g.guids
  have hlen' := length_eq_countP (g.roleOf classOf) g.guids
  have hfilled : g.guids.countP (role · = .tank) + g.guids.countP (role · = .healer) ≤
      g.guids.countP (g.roleOf classOf · = .tank) +
        g.guids.countP (g.roleOf classOf · = .healer) := by
    by_cases ht : 0 < g.guids.countP (role · = .tank)
    · obtain ⟨t, htmem, htrole⟩ := exists_of_countP_pos ht
      have htcan : (classOf t).canPlay .tank = true := htrole ▸ hcan t htmem
      have h1 := countP_roleOf_tank (tankOf_isSome htmem htcan)
      by_cases hh : 0 < g.guids.countP (role · = .healer)
      · obtain ⟨u, humem, hurole⟩ := exists_of_countP_pos hh
        have hucan : (classOf u).canPlay .healer = true := hurole ▸ hcan u humem
        have h2 : 1 ≤ g.guids.countP (g.roleOf classOf · = .healer) := by
          by_cases hu : g.tankOf classOf = some u
          · -- the healer of the assignment is the tank here, so the other one heals
            have hne : g.tankOf classOf ≠ some t := by
              rw [hu]
              rintro heq
              rw [some.inj heq, htrole] at hurole
              cases hurole
            have hbest := find?_some hu
            rw [Bool.and_eq_true, all_eq_true] at hbest
            have hle := of_decide_eq_true (hbest.2 t htmem)
            exact countP_roleOf_healer
              (healerOf_isSome htmem (canPlay_healer_of_tank hucan hle htcan) hne)
          · exact countP_roleOf_healer (healerOf_isSome humem hucan hu)
        omega
      · omega
    · by_cases hh : 0 < g.guids.countP (role · = .healer)
      · obtain ⟨u, humem, hurole⟩ := exists_of_countP_pos hh
        have hucan : (classOf u).canPlay .healer = true := hurole ▸ hcan u humem
        by_cases hu : g.tankOf classOf = some u
        · have h1 := countP_roleOf_tank (isSome_iff_exists.2 ⟨u, hu⟩)
          omega
        · have h2 := countP_roleOf_healer (healerOf_isSome humem hucan hu)
          omega
      · omega
  omega

/-! ## The party -/

/-- The roles that are marked as taken can be played at the same time by distinct members. -/
def Playable (g : Group) (classOf : Nat → PlayerClass) (info : LfgGroupQueueInfo) : Prop :=
  (∃ taken : List (Nat × ClassRole), (taken.map Prod.fst).Nodup ∧
    (∀ x ∈ taken, x.1 ∈ g.guids ∧ (classOf x.1).canPlay x.2 = true) ∧
    ∀ role, countRole taken role = info.marked role) ∧
  (info.availableRoles &&& ClassRole.dps.bit = 0 ↔ info.dpsCount = maximumDpsSlots)

/-- The roles left open are as many as the members that the party lacks. -/
def Accounts (g : Group) (info : LfgGroupQueueInfo) : Prop :=
  info.openRoles = 5 - g.guids.length

theorem toNat_dpsCount (h : r.Represents taken) :
    r.dpsCount.toNat = countRole taken .dps := by
  have hfits : countRole taken .dps ≤ 3 := h.fits .dps
  rw [h.dpsCount, UInt32.toNat_ofNat']
  omega

theorem initRoles_and_bit (h : r.Represents taken)
    (role : ClassRole) : r.initRoles &&& role.bit = 0 ↔ countRole taken role = role.slots := by
  have hfits := h.fits role
  rw [h.initRoles, roleMask_and_bit, decide_eq_false_iff_not]
  omega

theorem marked_eq (h : r.Represents taken) (info : LfgGroupQueueInfo) (role : ClassRole) :
    ({ info with availableRoles := r.initRoles, dpsCount := r.dpsCount } : LfgGroupQueueInfo).marked
      role = countRole taken role := by
  have hone : role.slots = 1 → (if r.initRoles &&& role.bit = 0 then 1 else 0) =
      countRole taken role := by
    intro hslots
    have hfits := h.fits role
    have hbit := initRoles_and_bit h role
    rw [hslots] at hfits hbit
    split
    next hzero => exact (hbit.1 hzero).symm
    next hne =>
      have hopen : countRole taken role ≠ 1 := fun h => hne (hbit.2 h)
      omega
  cases role with
  | tank => exact hone rfl
  | healer => exact hone rfl
  | dps => exact toNat_dpsCount h

theorem openRoles_eq (info : LfgGroupQueueInfo) :
    info.openRoles = (1 - info.marked .tank) + (1 - info.marked .healer) + (3 - info.marked .dps) := by
  unfold LfgGroupQueueInfo.openRoles LfgGroupQueueInfo.marked
  split <;> split <;> rfl

theorem length_eq_countRole (taken : List (Nat × ClassRole)) :
    taken.length = countRole taken .tank + countRole taken .healer + countRole taken .dps := by
  induction taken with
  | nil => rfl
  | cons x taken ih =>
    simp only [countRole, countP_cons, length_cons] at ih ⊢
    rw [ih]
    cases x.2 <;> simp <;> omega

/-- Nobody is given two roles, or one that he cannot play. -/
theorem foldl_assign_spec (taken : List (Nat × ClassRole)) (guids : List Nat)
    (hmem : ∀ guid ∈ guids, guid ∈ g.guids)
    (htaken : ∀ x ∈ taken, x.1 ∈ g.guids ∧ (classOf x.1).canPlay x.2 = true) :
    (∃ more, more.Sublist guids ∧
      (guids.foldl (g.assign classOf) taken).map Prod.fst = taken.map Prod.fst ++ more) ∧
    ∀ x ∈ guids.foldl (g.assign classOf) taken,
      x.1 ∈ g.guids ∧ (classOf x.1).canPlay x.2 = true := by
  induction guids generalizing taken with
  | nil => exact ⟨⟨[], .slnil, (append_nil _).symm⟩, htaken⟩
  | cons guid guids ih =>
    rw [foldl_cons]
    have hrest : ∀ x ∈ guids, x ∈ g.guids := fun x hx => hmem x (mem_cons_of_mem _ hx)
    unfold assign at ih ⊢
    cases hc : g.choose classOf taken guid with
    | none =>
      obtain ⟨⟨more, hsub, heq⟩, hplay⟩ := ih taken hrest htaken
      rw [map_none, toList_none, append_nil]
      exact ⟨⟨more, hsub.cons _, heq⟩, hplay⟩
    | some role =>
      have hgets : g.Gets classOf taken guid role := by simpa using find?_some hc
      obtain ⟨⟨more, hsub, heq⟩, hplay⟩ := ih (taken ++ [(guid, role)]) hrest (by
        intro x hx
        rcases mem_append.1 hx with hx | hx
        · exact htaken x hx
        · rw [mem_singleton.1 hx]
          exact ⟨hmem guid mem_cons_self, hgets.1⟩)
      rw [map_some, toList_some]
      exact ⟨⟨guid :: more, hsub.cons_cons _, by rw [heq, map_append, append_assoc]; rfl⟩,
        hplay⟩

/-- Whatever the party: what is marked as taken can be played. -/
theorem playable_calculateLFGRoles (hnodup : g.guids.Nodup) (info : LfgGroupQueueInfo) :
    g.Playable classOf (g.calculateLFGRoles classOf info) := by
  have hr : (g.guids.foldl (g.fillMember classOf) {}).Represents
      (g.guids.foldl (g.assign classOf) []) := foldl_represents g.guids .init
  obtain ⟨⟨more, hsub, heq⟩, hplay⟩ := @foldl_assign_spec g classOf [] g.guids
    (fun _ h => h) nofun
  refine ⟨⟨_, ?_, hplay, fun role => (marked_eq hr info role).symm⟩, ?_⟩
  · rw [heq]
    exact hnodup.sublist hsub
  · show (g.guids.foldl (g.fillMember classOf) {}).initRoles &&& _ = 0 ↔
      (g.guids.foldl (g.fillMember classOf) {}).dpsCount = 3
    rw [initRoles_and_bit hr, ← UInt32.toNat_inj, toNat_dpsCount hr]
    rfl

/-- Where an assignment of all members exists: all are accounted for, and what is marked can be
played, exactly when everybody but the tank and the healer stands after those who are better at
dealing damage. -/
theorem calculateLFGRoles_iff (g : Group) (classOf : Nat → PlayerClass) (info : LfgGroupQueueInfo)
    (hnodup : g.guids.Nodup) (hassign : g.Assignable classOf) :
    (g.Accounts (g.calculateLFGRoles classOf info) ∧
      g.Playable classOf (g.calculateLFGRoles classOf info)) ↔
      g.guids.Pairwise (InTurn g classOf) := by
  have hr : (g.guids.foldl (g.fillMember classOf) {}).Represents
      (g.guids.foldl (g.assign classOf) []) := foldl_represents g.guids .init
  have hopen : (g.calculateLFGRoles classOf info).openRoles +
      (g.guids.foldl (g.assign classOf) []).length = 5 := by
    have htank : countRole _ .tank ≤ 1 := hr.fits .tank
    have hhealer : countRole _ .healer ≤ 1 := hr.fits .healer
    have hdps : countRole _ .dps ≤ 3 := hr.fits .dps
    have hmarked : ∀ role, (g.calculateLFGRoles classOf info).marked role = _ := marked_eq hr info
    rw [openRoles_eq, hmarked, hmarked, hmarked, length_eq_countRole]
    omega
  have hfive : g.guids.length ≤ 5 := by
    obtain ⟨role, -, hslots⟩ := hassign
    have htank : g.guids.countP (role · = .tank) ≤ 1 := hslots .tank
    have hhealer : g.guids.countP (role · = .healer) ≤ 1 := hslots .healer
    have hdps : g.guids.countP (role · = .dps) ≤ 3 := hslots .dps
    have := length_eq_countP role g.guids
    omega
  have hcan : ∀ guid ∈ g.guids, (classOf guid).canPlay .dps = true := by
    obtain ⟨role, hplay, -⟩ := hassign
    exact fun guid hguid => canPlay_dps (hplay guid hguid)
  rw [and_iff_left (playable_calculateLFGRoles hnodup info),
    ← length_assign_iff hnodup hcan (countP_dps_le hassign) [] g.guids rfl]
  show _ = _ ↔ (g.guids.foldl (g.assign classOf) []).length = _
  omega

/-- Two warriors and a mage. -/
def twoWarriors : Group where
  memberSlots := [⟨1, 0, false⟩, ⟨2, 0, false⟩, ⟨3, 0, false⟩]

def twoWarriorsClass (guid : Nat) : PlayerClass := if guid = 3 then .mage else .warrior

theorem twoWarriors_assignable : twoWarriors.Assignable twoWarriorsClass :=
  ⟨fun guid => if guid = 1 then .tank else .dps, by decide, by intro r; cases r <;> decide⟩

/-- The mage stands before the second warrior. -/
def mageBetween : Group where
  memberSlots := [⟨1, 0, false⟩, ⟨3, 0, false⟩, ⟨2, 0, false⟩]

theorem calculateLFGRoles_iff_mageBetween :
    (mageBetween.Accounts (mageBetween.calculateLFGRoles twoWarriorsClass {}) ∧
      mageBetween.Playable twoWarriorsClass (mageBetween.calculateLFGRoles twoWarriorsClass {})) ↔
      mageBetween.guids.Pairwise (InTurn mageBetween twoWarriorsClass) :=
  calculateLFGRoles_iff mageBetween twoWarriorsClass {} (by decide)
    ⟨fun guid => if guid = 1 then .tank else .dps, by decide, by intro r; cases r <;> decide⟩

/-- The second warrior yields to the mage for damage, though there are places for both. -/
theorem twoWarriors_not_accounted : ¬ ∀ (g : Group) (classOf : Nat → PlayerClass)
    (info : LfgGroupQueueInfo), g.guids.Nodup → g.Assignable classOf →
      g.Accounts (g.calculateLFGRoles classOf info) ∧
        g.Playable classOf (g.calculateLFGRoles classOf info) := by
  intro h
  have haccounts := (h twoWarriors twoWarriorsClass {} (by decide) twoWarriors_assignable).1
  revert haccounts
  unfold Accounts
  decide

end Group

end Windrunner
