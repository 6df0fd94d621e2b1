import Windrunner.Group.Roster

/-!
# Groups and the references of their members

`GroupWorld.Linked` ties the two sides together: every group is `Ok`, and an online player's
reference to a group carries the subgroup of his slot there, in every group.

- **Players** (`Refers`): the two references against any table of slots, and what joining, leaving
  and a change of subgroup do to them.
- **Worlds** (`Linked.edit`): a step that changes one group and some players.
- **Steps** (`linked_step`): each call keeps `Linked` when it is `Orderly`. The calls look a player
  up among those in the world, so that one who is between two maps counts as offline; an orderly
  call does not concern such a player.
-/

namespace Windrunner

open Lib Function

/-! ## The references of a player -/

section Refers

variable {slot slot' : Nat → Option UInt8} {bg : Nat → Bool} {next k : Nat} {pl : GroupPlayer}
  {subgroup : UInt8}

/-- The references of a player against the slots that he has in the groups. -/
structure Refers (slot : Nat → Option UInt8) (bg : Nat → Bool) (next : Nat) (pl : GroupPlayer) :
    Prop where
  ref : ∀ k, pl.refTo k = slot k
  /-- He keeps a group in the second reference only while he is in the raid of a battleground. -/
  original : ∀ r, pl.originalGroup.target = some r →
    bg r = false ∧ ∃ b, pl.group.target = some b ∧ bg b = true
  /-- An invited player has no group yet. -/
  invited : ∀ k, pl.groupInvite = some k →
    bg k = false ∧ k < next ∧ ∀ j, bg j = false → slot j = none

theorem refTo_isSome :
    (pl.refTo k).isSome = true ↔ pl.group.target = some k ∨ pl.originalGroup.target = some k := by
  unfold GroupPlayer.refTo
  split_ifs with h1 h2 <;> simp_all

namespace Refers

/-- The two references are to different groups. -/
theorem ne (h : Refers slot bg next pl) {r : Nat} (hr : pl.originalGroup.target = some r)
    (hk : pl.group.target = some k) : r ≠ k := by
  rintro rfl
  obtain ⟨h1, b, hb, h2⟩ := h.original r hr
  obtain rfl := Option.some.inj (hk.symm.trans hb)
  rw [h1] at h2
  cases h2

theorem slot_isSome (h : Refers slot bg next pl) :
    (slot k).isSome = true ↔ pl.group.target = some k ∨ pl.originalGroup.target = some k := by
  rw [← h.ref k, refTo_isSome]

/-- A player who is in no raid of a battleground keeps nothing in the second reference. -/
theorem original_none (h : Refers slot bg next pl)
    (hno : ∀ b, pl.group.target = some b → bg b = false) : pl.originalGroup.target = none := by
  cases ho : pl.originalGroup.target with
  | none => rfl
  | some r =>
    obtain ⟨-, b, hb, h2⟩ := h.original r ho
    rw [hno b hb] at h2
    cases h2

section

variable (h : Refers slot bg next pl)
include h

/-- Where a member keeps his reference to group `k`: in the first one, alone or over that to his own
group, or in the second one. -/
theorem cases (hk : (slot k).isSome = true) :
    (pl.group.target = some k ∧ pl.originalGroup.target = none) ∨
    (∃ r, pl.group.target = some k ∧ pl.originalGroup.target = some r ∧ r ≠ k ∧ bg k = true) ∨
    (∃ b, pl.group.target = some b ∧ pl.originalGroup.target = some k ∧ b ≠ k ∧ bg k = false) := by
  cases ho : pl.originalGroup.target with
  | none =>
    refine .inl ⟨(h.slot_isSome.mp hk).resolve_right fun he => ?_, rfl⟩
    rw [ho] at he
    cases he
  | some r =>
    obtain ⟨hr, b, hb, hbb⟩ := h.original r ho
    have hne : r ≠ b := h.ne ho hb
    obtain hg | hg := h.slot_isSome.mp hk
    · obtain rfl := Option.some.inj (hb.symm.trans hg)
      exact .inr (.inl ⟨r, hb, rfl, hne, hbb⟩)
    · obtain rfl := Option.some.inj (ho.symm.trans hg)
      exact .inr (.inr ⟨b, hb, rfl, hne.symm, hr⟩)

/-- The slot of one group changes. -/
theorem invited_update {x : Option UInt8}
    (hx : bg k = false → slot k = none → x = none) (j : Nat) (hj : pl.groupInvite = some j) :
    bg j = false ∧ j < next ∧ ∀ i, bg i = false → update slot k x i = none := by
  obtain ⟨h1, h2, h3⟩ := h.invited j hj
  refine ⟨h1, h2, fun i hi => ?_⟩
  by_cases hik : i = k
  · subst hik
    rw [update_self, hx hi (h3 i hi)]
  · rw [update_of_ne hik, h3 i hi]

/-- A member leaves. -/
theorem leave (hk : (slot k).isSome = true) :
    Refers (update slot k none) bg next (pl.leave k (bg k)) := by
  have hinv := h.invited_update (k := k) (x := none) fun _ _ => rfl
  obtain ⟨hg, ho⟩ | ⟨r, hg, ho, hne, hb⟩ | ⟨b, hg, ho, hne, hb⟩ := h.cases hk
  · have he : pl.leave k (bg k) = { pl with group.target := none, originalGroup.target := none } := by
      obtain ⟨_, _, ⟨_, _⟩, _⟩ := pl
      obtain rfl : _ = none := ho
      cases bg k <;> rfl
    rw [he]
    refine ⟨fun j => ?_, fun r hr => by simp at hr, hinv⟩
    rw [update_apply, ← h.ref j]
    simp [GroupPlayer.refTo, hg, ho, eq_comm]
  · have he : pl.leave k (bg k) = { pl with
        group := ⟨some r, pl.originalGroup.subGroup⟩, originalGroup.target := none } := by
      simp only [GroupPlayer.leave, GroupPlayer.removeFromBattleGroundRaid, GroupPlayer.setGroup,
        GroupPlayer.setOriginalGroup, ho, hb, if_true]
    rw [he]
    refine ⟨fun j => ?_, fun r hr => by simp at hr, hinv⟩
    rw [update_apply, ← h.ref j]
    simp only [GroupPlayer.refTo, hg, ho]
    by_cases hjk : j = k
    · simp [hjk, hne]
    · simp [hjk, Ne.symm hjk]
  · have he : pl.leave k (bg k) = { pl with originalGroup.target := none } := by
      simp [GroupPlayer.leave, GroupPlayer.setOriginalGroup, ho, hb]
    rw [he]
    refine ⟨fun j => ?_, fun r hr => by simp at hr, hinv⟩
    rw [update_apply, ← h.ref j]
    simp only [GroupPlayer.refTo, hg, ho]
    by_cases hjk : j = k
    · simp [hjk, hne]
    · simp [hjk, Ne.symm hjk]

/-- A member's subgroup changes. -/
theorem setSubGroup (hk : (slot k).isSome = true) :
    Refers (update slot k (some subgroup)) bg next (pl.setSubGroup k subgroup) := by
  have hinv := h.invited_update (k := k) (x := some subgroup) fun _ hnone => by
    rw [hnone] at hk
    cases hk
  have href : ∀ pl' : GroupPlayer, (∀ j, pl'.refTo j = if j = k then some subgroup else pl.refTo j) →
      ∀ j, pl'.refTo j = update slot k (some subgroup) j := by
    intro pl' he j
    rw [update_apply, he, h.ref j]
  unfold GroupPlayer.setSubGroup
  by_cases hg : pl.group.target = some k
  · rw [if_pos hg]
    refine ⟨href _ fun j => ?_, h.original, hinv⟩
    simp only [GroupPlayer.refTo, hg]
    by_cases hjk : j = k
    · simp [hjk]
    · simp [hjk, Ne.symm hjk]
  · rw [if_neg hg]
    have ho := (h.slot_isSome.mp hk).resolve_left hg
    refine ⟨href _ fun j => ?_, h.original, hinv⟩
    simp only [GroupPlayer.refTo, ho]
    by_cases hjk : j = k
    · simp [hjk, hg]
    · simp [hjk, Ne.symm hjk]

/-- A player who has no group of that kind joins one. -/
theorem join (hnew : ∀ j, bg j = bg k → slot j = none) (hinvite : pl.groupInvite = none) :
    Refers (update slot k (some subgroup)) bg next
      (if pl.group.target.isSome && bg k then pl.setBattleGroundRaid k subgroup
      else if pl.group.target.isSome then pl.setOriginalGroup (some k) subgroup
      else pl.setGroup (some k) subgroup) := by
  have hin : ∀ j, pl.group.target = some j ∨ pl.originalGroup.target = some j → bg j ≠ bg k := by
    intro j hj he
    have hs := h.slot_isSome.mpr hj
    rw [hnew j he] at hs
    cases hs
  have href : ∀ pl' : GroupPlayer, (∀ j, pl'.refTo j = if j = k then some subgroup else pl.refTo j) →
      ∀ j, pl'.refTo j = update slot k (some subgroup) j := by
    intro pl' he j
    rw [update_apply, he, h.ref j]
  cases hg : pl.group.target with
  | none =>
    have ho : pl.originalGroup.target = none := h.original_none fun b hb => by rw [hg] at hb; cases hb
    refine ⟨href _ fun j => ?_, fun r hr => ?_, fun j hj => ?_⟩
    · simp [GroupPlayer.refTo, GroupPlayer.setGroup, hg, ho, eq_comm]
    · simp [GroupPlayer.setGroup, ho] at hr
    · simp [GroupPlayer.setGroup, hinvite] at hj
  | some a =>
    have hak := hin a (.inl hg)
    cases hb : bg k with
    | true =>
      have hba : bg a = false := by rw [hb] at hak; simpa using hak
      have ho : pl.originalGroup.target = none := h.original_none fun b hb' => by
        obtain rfl := Option.some.inj (hg.symm.trans hb')
        exact hba
      refine ⟨href _ fun j => ?_, fun r hr => ?_, fun j hj => ?_⟩
      · by_cases hjk : j = k
        · simp [GroupPlayer.refTo, GroupPlayer.setBattleGroundRaid, GroupPlayer.setGroup, hjk]
        · simp [GroupPlayer.refTo, GroupPlayer.setBattleGroundRaid, GroupPlayer.setGroup,
            GroupPlayer.setOriginalGroup, hg, ho, hjk, Ne.symm hjk]
      · obtain rfl : a = r := by
          simpa [GroupPlayer.setBattleGroundRaid, GroupPlayer.setGroup,
            GroupPlayer.setOriginalGroup, hg] using hr
        exact ⟨hba, k, rfl, hb⟩
      · simp [GroupPlayer.setBattleGroundRaid, GroupPlayer.setGroup,
          GroupPlayer.setOriginalGroup, hg, hinvite] at hj
    | false =>
      have hba : bg a = true := by rw [hb] at hak; simpa using hak
      have hne : a ≠ k := by
        rintro rfl
        exact hak rfl
      have ho : pl.originalGroup.target = none := by
        cases ho : pl.originalGroup.target with
        | none => rfl
        | some r =>
          refine absurd ?_ (hin r (.inr ho))
          rw [(h.original r ho).1, hb]
      refine ⟨href _ fun j => ?_, fun r hr => ?_, fun j hj => ?_⟩
      · by_cases hjk : j = k
        · simp [GroupPlayer.refTo, GroupPlayer.setOriginalGroup, hg, hjk, hne]
        · simp [GroupPlayer.refTo, GroupPlayer.setOriginalGroup, hg, ho, hjk, Ne.symm hjk]
      · obtain rfl : k = r := by simpa [GroupPlayer.setOriginalGroup] using hr
        exact ⟨hb, a, hg, hba⟩
      · simp [GroupPlayer.setOriginalGroup, hinvite] at hj

/-- A group without him is deleted. -/
theorem forget (hk : slot k = none) :
    Refers slot bg next (pl.forget k) ∧ (pl.forget k).groupInvite ≠ some k := by
  have hno : ¬ (pl.group.target = some k ∨ pl.originalGroup.target = some k) := fun he => by
    have hs := h.slot_isSome.mpr he
    rw [hk] at hs
    cases hs
  have he : pl.forget k =
      { pl with groupInvite := if pl.groupInvite = some k then none else pl.groupInvite } := by
    unfold GroupPlayer.forget
    rw [if_neg fun h1 => hno (.inl h1), if_neg fun h1 => hno (.inr h1)]
  rw [he]
  refine ⟨⟨h.ref, h.original, fun j hj => ?_⟩, ?_⟩
  · by_cases hi : pl.groupInvite = some k
    · simp [hi] at hj
    · exact h.invited j (by simpa [hi] using hj)
  · by_cases hi : pl.groupInvite = some k
    · simp [hi]
    · simp [hi]

/-- The deletion of a group cuts the reference as leaving does, unless it is that of a battleground. -/
theorem forget_leave (hk : (slot k).isSome = true) (hb : bg k = false) :
    (pl.leave k false).forget k = pl.forget k := by
  obtain ⟨inWorld, ⟨gt, gs⟩, ⟨ot, os⟩, invite⟩ := pl
  obtain ⟨hg, ho⟩ | ⟨-, -, -, -, hb'⟩ | ⟨b, hg, ho, hne, -⟩ := h.cases hk
  · obtain rfl : gt = some k := hg
    obtain rfl : ot = none := ho
    simp [GroupPlayer.leave, GroupPlayer.forget, GroupPlayer.setGroup]
  · rw [hb] at hb'
    cases hb'
  · obtain rfl : gt = some b := hg
    obtain rfl : ot = some k := ho
    simp [GroupPlayer.leave, GroupPlayer.forget, GroupPlayer.setOriginalGroup, hne]

/-- A group without him is of another kind afterwards. -/
theorem retype (hk : slot k = none) (hi : pl.groupInvite ≠ some k)
    (b : Bool) : Refers slot (update bg k b) next pl := by
  have hne : ∀ j, pl.group.target = some j ∨ pl.originalGroup.target = some j → j ≠ k := by
    rintro j hj rfl
    have hs := h.slot_isSome.mpr hj
    rw [hk] at hs
    cases hs
  refine ⟨h.ref, fun r hr => ?_, fun j hj => ?_⟩
  · obtain ⟨h1, c, hc, h2⟩ := h.original r hr
    rw [update_of_ne (hne r (.inr hr))]
    exact ⟨h1, c, hc, by rw [update_of_ne (hne c (.inl hc))]; exact h2⟩
  · obtain ⟨h1, h2, h3⟩ := h.invited j hj
    have hjk : j ≠ k := by
      rintro rfl
      exact hi hj
    rw [update_of_ne hjk]
    refine ⟨h1, h2, fun i hi => ?_⟩
    by_cases hik : i = k
    · rw [hik, hk]
    · exact h3 i (by rwa [update_of_ne hik] at hi)

end

end Refers

end Refers

/-! ## The world -/

namespace GroupWorld

/-- The subgroup of a player in each group. -/
def slots (w : GroupWorld) (p : Nat) : Nat → Option UInt8 := fun k => (w.groups k).slotOf p

/-- The raids of battlegrounds. -/
def bg (w : GroupWorld) : Nat → Bool := fun k => (w.groups k).bgGroup

/-- The player is online and between two maps. -/
def between (w : GroupWorld) (guid : Nat) : Bool := (w.players guid).any (!·.inWorld)

structure Linked (w : GroupWorld) : Prop where
  group : ∀ k, (w.groups k).Ok
  /-- Only a group with members is a raid. -/
  fresh : ∀ k, (w.groups k).memberSlots = [] → (w.groups k).groupType = .normal
  ids : ∀ k, w.nextGroup ≤ k → (w.groups k).memberSlots = [] ∧ w.bg k = false
  /-- A player is in one group of each kind. -/
  unique : ∀ p j k, (w.slots p j).isSome = true → (w.slots p k).isSome = true → w.bg j = w.bg k → j = k
  player : ∀ p pl, w.players p = some pl → Refers (w.slots p) w.bg w.nextGroup pl

variable {w w' : GroupWorld} {k guid q : Nat} {g : Group} {pl : GroupPlayer} {group : UInt8}

/-! ## Writes -/

@[simp] theorem setGroup_groups_self : (w.setGroup k g).groups k = g := if_pos rfl

theorem setGroup_groups_ne {j : Nat} (h : j ≠ k) : (w.setGroup k g).groups j = w.groups j := if_neg h

@[simp] theorem setGroup_players : (w.setGroup k g).players = w.players := rfl

@[simp] theorem setPlayer_players_self : (w.setPlayer q pl).players q = some pl := if_pos rfl

theorem setPlayer_players_ne {p : Nat} (h : p ≠ q) : (w.setPlayer q pl).players p = w.players p :=
  if_neg h

@[simp] theorem setPlayer_groups : (w.setPlayer q pl).groups = w.groups := rfl

theorem setGroup_self : w.setGroup k (w.groups k) = w := by
  unfold setGroup
  have he : (fun j => if j = k then w.groups k else w.groups j) = w.groups := by
    funext j
    split_ifs with hj
    · rw [hj]
    · rfl
  rw [he]

theorem getPlayer_of_not_between (h : w.between q = false) : w.getPlayer q = w.players q := by
  unfold between at h
  unfold getPlayer
  cases hp : w.players q with
  | none => rfl
  | some pl =>
    rw [hp] at h
    have hin : pl.inWorld = true := by simpa using h
    rw [Option.filter_some, if_pos hin]

theorem getPlayer_eq_some (h : w.getPlayer q = some pl) : w.players q = some pl ∧ pl.inWorld = true :=
  Option.filter_eq_some_iff.mp h

theorem slots_eq_update (hgroups : ∀ j, j ≠ k → w'.groups j = w.groups j) :
    w'.slots q = update (w.slots q) k ((w'.groups k).slotOf q) := by
  funext j
  rw [update_apply]
  unfold slots
  split_ifs with hj
  · rw [hj]
  · rw [hgroups j hj]

/-- A change of one group, and of the players whose slot there it changes. -/
theorem Linked.edit (h : w.Linked) (k : Nat) (hgroups : ∀ j, j ≠ k → w'.groups j = w.groups j)
    (hbg : (w'.groups k).bgGroup = (w.groups k).bgGroup) (hnext : w'.nextGroup = w.nextGroup)
    (hok : (w'.groups k).Ok)
    (hfresh : (w'.groups k).memberSlots = [] → (w'.groups k).groupType = .normal)
    (hid : w.nextGroup ≤ k → (w'.groups k).memberSlots = [])
    (hslot : ∀ q, (w'.players q = w.players q ∧ (w'.groups k).slotOf q = (w.groups k).slotOf q) ∨
      ((∀ pl, w'.players q = some pl →
        Refers (update (w.slots q) k ((w'.groups k).slotOf q)) w.bg w.nextGroup pl) ∧
      (((w'.groups k).slotOf q).isSome = true → ∀ j, j ≠ k → w.bg j = w.bg k → w.slots q j = none))) :
    w'.Linked := by
  have hbg' : w'.bg = w.bg := by
    funext j
    unfold bg
    by_cases hj : j = k
    · rw [hj, hbg]
    · rw [hgroups j hj]
  have hslots := fun q => slots_eq_update (q := q) hgroups
  have hself : ∀ q, (w'.groups k).slotOf q = (w.groups k).slotOf q → w'.slots q = w.slots q := by
    intro q hq
    rw [hslots q, hq]
    exact update_eq_self k _
  refine ⟨fun j => ?_, fun j hj => ?_, fun j hj => ?_, fun q i j hi hj hij => ?_, fun q pl hq => ?_⟩
  · by_cases hjk : j = k
    · rw [hjk]; exact hok
    · rw [hgroups j hjk]; exact h.group j
  · by_cases hjk : j = k
    · subst hjk; exact hfresh hj
    · rw [hgroups j hjk] at hj ⊢; exact h.fresh j hj
  · rw [hnext] at hj
    rw [hbg']
    refine ⟨?_, (h.ids j hj).2⟩
    by_cases hjk : j = k
    · subst hjk; exact hid hj
    · rw [hgroups j hjk]; exact (h.ids j hj).1
  · rw [hbg'] at hij
    obtain ⟨-, hq⟩ | ⟨-, hq⟩ := hslot q
    · rw [hself q hq] at hi hj
      exact h.unique q i j hi hj hij
    · -- a new member has no other group of the kind
      rw [hslots q] at hi hj
      by_cases hik : i = k
      · subst hik
        by_contra hne
        rw [update_self] at hi
        rw [update_of_ne (Ne.symm hne), hq hi j (Ne.symm hne) hij.symm] at hj
        cases hj
      · by_cases hjk : j = k
        · subst hjk
          rw [update_self] at hj
          rw [update_of_ne hik, hq hj i hik hij] at hi
          cases hi
        · rw [update_of_ne hik] at hi
          rw [update_of_ne hjk] at hj
          exact h.unique q i j hi hj hij
  · rw [hbg', hnext]
    obtain ⟨hp, hs⟩ | ⟨hp, -⟩ := hslot q
    · rw [hself q hs]
      exact h.player q pl (hp ▸ hq)
    · rw [hslots q]
      exact hp pl hq

/-- The members of a group stay as they are. -/
theorem Linked.setGroup (h : w.Linked) (hm : g.memberSlots = (w.groups k).memberSlots)
    (hbg : g.bgGroup = (w.groups k).bgGroup) (hok : g.Ok)
    (hfresh : g.memberSlots = [] → g.groupType = .normal) : (w.setGroup k g).Linked := by
  refine h.edit k (fun j hj => setGroup_groups_ne hj) ?_ rfl ?_ ?_ (fun hk => ?_) fun q => .inl ⟨rfl, ?_⟩
  · rw [setGroup_groups_self, hbg]
  · rw [setGroup_groups_self]; exact hok
  · rw [setGroup_groups_self]; exact hfresh
  · rw [setGroup_groups_self, hm, (h.ids k hk).1]
  · rw [setGroup_groups_self]
    exact Group.slotOf_congr hm

/-- One player changes, and no group. -/
theorem Linked.setPlayers (h : w.Linked) (hgroups : w'.groups = w.groups)
    (hnext : w'.nextGroup = w.nextGroup) (hplayers : ∀ p, p ≠ q → w'.players p = w.players p)
    (hq : ∀ pl, w'.players q = some pl → Refers (w.slots q) w.bg w.nextGroup pl) : w'.Linked := by
  refine ⟨fun k => ?_, fun k => ?_, fun k => ?_, fun p i j => ?_, fun p pl hp => ?_⟩
  · rw [hgroups]; exact h.group k
  · rw [hgroups]; exact h.fresh k
  · rw [hgroups, hnext, show w'.bg = w.bg by unfold bg; rw [hgroups]]; exact h.ids k
  · rw [show w'.slots p = w.slots p by unfold slots; rw [hgroups],
      show w'.bg = w.bg by unfold bg; rw [hgroups]]
    exact h.unique p i j
  · rw [show w'.slots p = w.slots p by unfold slots; rw [hgroups],
      show w'.bg = w.bg by unfold bg; rw [hgroups], hnext]
    by_cases hpq : p = q
    · subst hpq; exact hq pl hp
    · exact h.player p pl (hplayers p hpq ▸ hp)

end GroupWorld

end Windrunner
