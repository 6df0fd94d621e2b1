import Windrunner.Group.State
import Windrunner.Lib.Keyed

/-!
# The roster of a group

`Group.Ok` is what a group keeps of its own data: no guid has two slots, the size fits the type, the
leader has a slot, and in a raid the counters are the sizes of the subgroups, none above five.

- **Counters** (`Counted`): bytes that count a class each; exact as long as nothing wraps.
- **Slots** (`slotOf_eq`): the subgroup of a member, and what each write does to it.
- **Writes**: `Seated` is `Ok` without the leader, who can be the one that is removed.
-/

namespace Windrunner

open Lib
open Option hiding any_eq_true
open List hiding getElem?_eq_some_iff

/-! ## Counters -/

/-- The bytes are the numbers `n`. -/
def Counted (bytes : List UInt8) (n : Nat → Nat) : Prop :=
  bytes.length = maxRaidSubgroups ∧ ∀ i x, bytes[i]? = some x → x.toNat = n i

namespace Counted

variable {bytes : List UInt8} {n : Nat → Nat} {k : Nat}

theorem zero : Counted (replicate maxRaidSubgroups 0) fun _ => 0 := by
  refine ⟨length_replicate, fun i x hx => ?_⟩
  obtain rfl : x = 0 := eq_of_mem_replicate (mem_of_getElem? hx)
  rfl

section

variable (h : Counted bytes n)
include h

theorem congr {n' : Nat → Nat} (hn : ∀ i, n' i = n i) : Counted bytes n' :=
  ⟨h.1, fun i x hx => (h.2 i x hx).trans (hn i).symm⟩

theorem inc (hk : n k + 1 < 256) :
    Counted (bytes.modify k (· + 1)) fun i => n i + if k = i then 1 else 0 := by
  refine ⟨(length_modify _ _ _).trans h.1, fun i x hx => ?_⟩
  rw [getElem?_modify] at hx
  obtain ⟨y, hy, rfl⟩ := map_eq_some_iff.mp hx
  have hn := h.2 i y hy
  show _ = n i + if k = i then 1 else 0
  by_cases hi : k = i
  · subst hi
    rw [if_pos rfl, if_pos rfl, toNat_succ8 (by omega), hn]
  · rw [if_neg hi, if_neg hi]; exact hn

theorem dec (hk : 0 < n k) :
    Counted (bytes.modify k (· - 1)) fun i => n i - if k = i then 1 else 0 := by
  refine ⟨(length_modify _ _ _).trans h.1, fun i x hx => ?_⟩
  rw [getElem?_modify] at hx
  obtain ⟨y, hy, rfl⟩ := map_eq_some_iff.mp hx
  have hn := h.2 i y hy
  show _ = n i - if k = i then 1 else 0
  by_cases hi : k = i
  · subst hi
    have := toNat_pred8 (a := y) (by omega)
    rw [if_pos rfl, if_pos rfl]; omega
  · rw [if_neg hi, if_neg hi]; exact hn

/-- A counter that can be read. -/
theorem getD_eq (hk : k < maxRaidSubgroups) : (bytes[k]?.getD 0).toNat = n k := by
  have hlt : k < bytes.length := by rw [h.1]; exact hk
  rw [getElem?_eq_getElem hlt]
  exact h.2 k _ (getElem?_eq_getElem hlt)

end

end Counted

namespace Group

/-- The number of members in subgroup `i`. -/
def sizeOf (g : Group) (i : Nat) : Nat := g.memberSlots.countP (·.group.toNat == i)

/-- The slots of a group and its counters. -/
structure Seated (g : Group) : Prop where
  keyed : Keyed MemberSlot.guid g.memberSlots
  size_le : g.memberSlots.length ≤ g.maxSize
  subgroup_lt : ∀ s ∈ g.memberSlots, s.group.toNat < maxRaidSubgroups
  counted : ∀ c, g.subGroupsCounts = some c → Counted c g.sizeOf ∧ ∀ i, g.sizeOf i ≤ maxGroupSize
  /-- A group has counters when it is a raid; otherwise its members are in the first subgroup. -/
  raid : g.isRaidGroup = true → g.subGroupsCounts.isSome = true
  party : g.isRaidGroup = false → g.subGroupsCounts = none ∧ ∀ s ∈ g.memberSlots, s.group = 0

structure Ok (g : Group) : Prop extends Seated g where
  leader : g.memberSlots ≠ [] → g.isMember g.leaderGuid = true

variable {g g' : Group} {guid swapGuid p i j : Nat} {group : UInt8} {s t : MemberSlot}

/-! ## Slots -/

theorem getMemberSlot_eq_some (h : g.getMemberSlot guid = some (i, s)) :
    g.memberSlots[i]? = some s ∧ s.guid = guid := by
  obtain ⟨i', hi, hs⟩ := bind_eq_some_iff.mp h
  obtain ⟨s', hs', he⟩ := map_eq_some_iff.mp hs
  obtain ⟨rfl, rfl⟩ := Prod.mk.inj he
  obtain ⟨hlt, hk, -⟩ := findIdx?_eq_some_iff_getElem.mp hi
  rw [getElem?_eq_getElem hlt] at hs'
  exact ⟨by rw [getElem?_eq_getElem hlt, hs'], by
    rw [← some.inj hs']; exact beq_iff_eq.mp hk⟩

/-- The first slot of a guid, found by its place or by itself. -/
theorem slotOf_eq : g.slotOf p = (g.memberSlots.find? (·.guid == p)).map (·.group) := by
  unfold slotOf getMemberSlot
  induction g.memberSlots with
  | nil => rfl
  | cons a l ih =>
    rw [findIdx?_cons, find?_cons]
    by_cases ha : a.guid == p
    · simp [ha]
    · rw [if_neg ha, Bool.not_eq_true] at *
      rw [ha, ← ih]
      cases l.findIdx? (·.guid == p) with
      | none => rfl
      | some i =>
        show Option.map _ (Option.map _ (a :: l)[i + 1]?) = Option.map _ (Option.map _ l[i]?)
        rw [getElem?_cons_succ, Option.map_map, Option.map_map]
        rfl

theorem slotOf_eq_of_slot (h : g.getMemberSlot guid = some (i, s)) : g.slotOf guid = some s.group := by
  unfold slotOf
  rw [h]
  rfl

theorem isMember_iff : g.isMember p = true ↔ (g.slotOf p).isSome = true := by
  rw [slotOf_eq, Option.isSome_map, find?_isSome, isMember, any_eq_true]

theorem slotOf_isSome_iff : (g.slotOf p).isSome = true ↔ ∃ s ∈ g.memberSlots, s.guid = p := by
  rw [slotOf_eq, Option.isSome_map, find?_isSome]
  simp only [beq_iff_eq]

theorem slotOf_congr (h : g'.memberSlots = g.memberSlots) : g'.slotOf p = g.slotOf p := by
  rw [slotOf_eq, slotOf_eq, h]

theorem slotOf_nil (h : g.memberSlots = []) : g.slotOf p = none := by
  rw [slotOf_eq, h]
  rfl

theorem isMember_congr (h : g'.memberSlots = g.memberSlots) : g'.isMember p = g.isMember p := by
  unfold isMember
  rw [h]

/-- There is a slot exactly when there is a subgroup. -/
theorem getMemberSlot_of_slotOf (h : g.slotOf guid = some group) :
    ∃ i s, g.getMemberSlot guid = some (i, s) ∧ s.group = group := by
  obtain ⟨⟨i, s⟩, hs, he⟩ := map_eq_some_iff.mp h
  exact ⟨i, s, hs, he⟩

theorem slotOf_addSlot (hnew : g.slotOf guid = none) :
    (g.addSlot guid group).slotOf p = if p = guid then some group else g.slotOf p := by
  rw [slotOf_eq]
  show ((g.memberSlots ++ [(⟨guid, group, false⟩ : MemberSlot)]).find? (·.guid == p)).map (·.group) = _
  rw [find?_append, find?_singleton]
  split_ifs with h1 h2 h2
  · subst h2
    rw [slotOf_eq, map_eq_none_iff] at hnew
    rw [hnew]
    rfl
  · exact absurd (beq_iff_eq.mp h1).symm h2
  · exact absurd (beq_iff_eq.mpr h2.symm) h1
  · rw [or_none, slotOf_eq]

section

variable (h : Keyed MemberSlot.guid g.memberSlots)
include h

section

variable (hs : g.getMemberSlot guid = some (i, s))
include hs

theorem slotOf_removeSlot :
    (g.removeSlot guid).slotOf p = if p = guid then none else g.slotOf p := by
  obtain ⟨hi, rfl⟩ := getMemberSlot_eq_some hs
  rw [slotOf_eq, slotOf_eq]
  unfold removeSlot
  rw [hs]
  show ((g.memberSlots.eraseIdx i).find? (·.guid == p)).map (·.group) = _
  rw [Keyed.find?_eraseIdx h hi]
  split_ifs <;> rfl

/-- The slot of a member is given another subgroup. -/
theorem slotOf_set (hg : g'.memberSlots = g.memberSlots.set i { s with group := group }) :
    g'.slotOf p = if p = guid then some group else g.slotOf p := by
  obtain ⟨hi, rfl⟩ := getMemberSlot_eq_some hs
  have hk : MemberSlot.guid { s with group := group } = s.guid := rfl
  rw [slotOf_eq, slotOf_eq, hg, Keyed.find?_set h hi hk]
  split_ifs <;> rfl

/-- Two slots exchange their subgroups. -/
theorem slotOf_swapSlots (ht : g.getMemberSlot swapGuid = some (j, t))
    (hne : guid ≠ swapGuid) (hg : g.swapSlots guid swapGuid = some g') :
    g'.slotOf p = if p = guid then some t.group else if p = swapGuid then some s.group
      else g.slotOf p := by
  unfold swapSlots at hg
  rw [hs, ht] at hg
  obtain rfl := some.inj hg
  obtain ⟨hi, rfl⟩ := getMemberSlot_eq_some hs
  obtain ⟨hj, rfl⟩ := getMemberSlot_eq_some ht
  have hji : j ≠ i := by
    rintro rfl
    obtain rfl := some.inj (hi.symm.trans hj)
    exact hne rfl
  have hkt : MemberSlot.guid { t with group := s.group } = t.guid := rfl
  have hks : MemberSlot.guid { s with group := t.group } = s.guid := rfl
  rw [slotOf_eq, slotOf_eq, Keyed.find?_set (h.set_key hj hkt) (by rwa [getElem?_set_ne hji]) hks,
    Keyed.find?_set h hj hkt]
  split_ifs <;> rfl

end

end

/-! ## Sizes of the subgroups -/

theorem sizeOf_pos (hs : s ∈ g.memberSlots) : 0 < g.sizeOf s.group.toNat :=
  countP_pos_iff.mpr ⟨s, hs, beq_self_eq_true _⟩

theorem sizeOf_le_length : g.sizeOf i ≤ g.memberSlots.length := countP_le_length

/-- The sizes depend on the subgroups of the slots only. -/
theorem sizeOf_eq : g.sizeOf i = (g.memberSlots.map MemberSlot.group).countP (·.toNat == i) := by
  rw [countP_map]
  rfl

theorem sizeOf_addSlot :
    (g.addSlot guid group).sizeOf i = g.sizeOf i + if group.toNat = i then 1 else 0 := by
  unfold sizeOf
  show countP _ (g.memberSlots ++ [(⟨guid, group, false⟩ : MemberSlot)]) = _
  rw [countP_append, countP_singleton]
  simp only [beq_iff_eq]

theorem sizeOf_erase (hj : g.memberSlots[j]? = some s)
    (hg : g'.memberSlots = g.memberSlots.eraseIdx j) :
    g'.sizeOf i = g.sizeOf i - if s.group.toNat = i then 1 else 0 := by
  obtain ⟨hlt, rfl⟩ := List.getElem?_eq_some_iff.mp hj
  have hp := (getElem_cons_eraseIdx_perm hlt).countP_eq (·.group.toNat == i)
  rw [countP_cons] at hp
  unfold sizeOf
  rw [hg, ← hp]
  simp only [beq_iff_eq]
  omega

theorem sizeOf_set (hj : g.memberSlots[j]? = some s)
    (hg : g'.memberSlots = g.memberSlots.set j { s with group := group }) :
    g'.sizeOf i = g.sizeOf i - (if s.group.toNat = i then 1 else 0)
      + if group.toNat = i then 1 else 0 := by
  obtain ⟨hlt, rfl⟩ := List.getElem?_eq_some_iff.mp hj
  unfold sizeOf
  rw [hg, countP_set hlt]
  simp only [beq_iff_eq]

/-- Two members exchange their subgroups. -/
theorem sizeOf_swap (hi : g.memberSlots[i]? = some s) (hj : g.memberSlots[j]? = some t) (k : Nat)
    (hg : g'.memberSlots = (g.memberSlots.set j { t with group := s.group }).set i
      { s with group := t.group }) : g'.sizeOf k = g.sizeOf k := by
  obtain ⟨hilt, rfl⟩ := List.getElem?_eq_some_iff.mp hi
  obtain ⟨hjlt, rfl⟩ := List.getElem?_eq_some_iff.mp hj
  have hp := @set_set_perm _ (g.memberSlots.map MemberSlot.group) j i (by simpa using hjlt)
    (by simpa using hilt)
  rw [getElem_map, getElem_map] at hp
  rw [sizeOf_eq, sizeOf_eq, hg, map_set, map_set]
  exact hp.countP_eq _

/-! ## Writes -/

theorem length_lt_of_not_full (h : g.isFull = false) : g.memberSlots.length < g.maxSize := by
  unfold isFull at h
  simpa using h

/-- The subgroup for a new member has room. -/
theorem Seated.freeSubGroup (h : g.Seated) (hsub : g.freeSubGroup = some group) :
    group.toNat < maxRaidSubgroups ∧ (∀ c, g.subGroupsCounts = some c → g.sizeOf group.toNat < maxGroupSize)
      ∧ (g.subGroupsCounts = none → group = 0) := by
  unfold Group.freeSubGroup at hsub
  split at hsub
  · rename_i hnone
    obtain rfl := some.inj hsub
    rw [hnone]
    exact ⟨by decide, by simp, fun _ => rfl⟩
  · rename_i c hc
    obtain ⟨i, hi, rfl⟩ := map_eq_some_iff.mp hsub
    obtain ⟨hlt, hroom, -⟩ := findIdx?_eq_some_iff_getElem.mp hi
    obtain ⟨hcount, -⟩ := h.counted c hc
    have hlen := hcount.1
    have hi8 : i < 8 := by rw [hlen] at hlt; exact hlt
    have hnat : (UInt8.ofNat i).toNat = i := by
      rw [UInt8.toNat_ofNat']; omega
    have hsize := hcount.2 i _ (getElem?_eq_getElem hlt)
    rw [hnat]
    refine ⟨hi8, fun _ _ => ?_, fun hnone => by rw [hc] at hnone; cases hnone⟩
    rw [← hsize]
    exact of_decide_eq_true hroom

theorem countP_subgroup_succ (l : List MemberSlot) (n : Nat) :
    l.countP (·.group.toNat < n + 1) =
      l.countP (·.group.toNat < n) + l.countP (·.group.toNat == n) := by
  induction l with
  | nil => rfl
  | cons s l ih =>
    simp only [countP_cons, ih, decide_eq_true_eq, beq_iff_eq]
    split_ifs <;> omega

/-- When every subgroup has its five, the raid is full. -/
theorem le_countP_subgroups {l : List MemberSlot} (n : Nat)
    (h : ∀ i < n, maxGroupSize ≤ l.countP (·.group.toNat == i)) :
    n * maxGroupSize ≤ l.countP (·.group.toNat < n) := by
  induction n with
  | zero => simp
  | succ n ih =>
    have hn := h n (Nat.lt_succ_self n)
    have hrest := ih fun i hi => h i (Nat.lt_succ_of_lt hi)
    rw [countP_subgroup_succ, Nat.succ_mul]
    omega

section

variable (h : g.Seated)
include h

/-- A group that is not full has a subgroup for a new member. -/
theorem Seated.freeSubGroup_isSome (hfull : g.isFull = false) :
    g.freeSubGroup.isSome = true := by
  unfold Group.freeSubGroup
  split
  next => rfl
  next c hc =>
    rw [Option.isSome_map, findIdx?_isSome, any_eq_true]
    by_contra hno
    obtain ⟨hcount, -⟩ := h.counted c hc
    have hraid : g.isRaidGroup = true := by
      by_contra hparty
      rw [(h.party (Bool.eq_false_iff.mpr hparty)).1] at hc
      cases hc
    have hsize : ∀ i < maxRaidSubgroups, maxGroupSize ≤ g.sizeOf i := by
      intro i hi
      have hlt : i < c.length := hcount.1 ▸ hi
      rw [← hcount.2 i (c.get ⟨i, hlt⟩) (getElem?_eq_getElem hlt)]
      exact Nat.le_of_not_lt fun hroom => hno ⟨c.get ⟨i, hlt⟩, get_mem c _, decide_eq_true hroom⟩
    have hlen := length_lt_of_not_full hfull
    have hmany : 40 ≤ g.memberSlots.countP (·.group.toNat < maxRaidSubgroups) :=
      le_countP_subgroups maxRaidSubgroups hsize
    have hle : g.memberSlots.countP (·.group.toNat < maxRaidSubgroups) ≤ g.memberSlots.length :=
      countP_le_length
    have hmax : g.maxSize = 40 := by
      unfold maxSize
      rw [hraid]
      rfl
    omega

/-- A write to the slots, with its change of the counters. -/
theorem Seated.write {f : List UInt8 → List UInt8}
    (hraid : g'.groupType = g.groupType) (hcounts : g'.subGroupsCounts = g.subGroupsCounts.map f)
    (hkeyed : Keyed MemberSlot.guid g'.memberSlots) (hsize : g'.memberSlots.length ≤ g.maxSize)
    (hlt : ∀ s ∈ g'.memberSlots, s.group.toNat < maxRaidSubgroups)
    (hcount : ∀ c, g.subGroupsCounts = some c → Counted c g.sizeOf → Counted (f c) g'.sizeOf ∧
      ∀ i, g'.sizeOf i ≤ maxGroupSize)
    (hparty : g.subGroupsCounts = none → (∀ s ∈ g.memberSlots, s.group = 0) →
      ∀ s ∈ g'.memberSlots, s.group = 0) : g'.Seated := by
  have hr : g'.isRaidGroup = g.isRaidGroup := by unfold isRaidGroup; rw [hraid]
  have hmax : g'.maxSize = g.maxSize := by unfold maxSize; rw [hr]
  refine ⟨hkeyed, hmax ▸ hsize, hlt, fun c hc => ?_, fun h1 => ?_, fun h1 => ?_⟩
  · rw [hcounts] at hc
    obtain ⟨c', hc', rfl⟩ := map_eq_some_iff.mp hc
    exact hcount c' hc' (h.counted c' hc').1
  · rw [hcounts, Option.isSome_map]
    exact h.raid (hr ▸ h1)
  · obtain ⟨hnone, hall⟩ := h.party (hr ▸ h1)
    rw [hcounts, hnone]
    exact ⟨rfl, hparty hnone hall⟩

theorem Seated.addSlot (hfull : g.isFull = false) (hnew : g.slotOf guid = none)
    (hsub : g.freeSubGroup = some group) : (g.addSlot guid group).Seated := by
  obtain ⟨hlt, hroom, hzero⟩ := h.freeSubGroup hsub
  have hmem : ∀ s ∈ (g.addSlot guid group).memberSlots, s ∈ g.memberSlots ∨ s.group = group := by
    intro s hs
    obtain hs | hs := mem_append.mp hs
    · exact .inl hs
    · exact .inr (by rw [mem_singleton.mp hs])
  refine h.write rfl rfl ?_ ?_ (fun s hs => ?_) (fun c hc hcount => ?_) fun hnone hall s hs => ?_
  · refine h.keyed.concat fun s hs he => ?_
    have := slotOf_isSome_iff.mpr ⟨s, hs, he⟩
    rw [hnew] at this
    cases this
  · show (g.memberSlots ++ [(⟨guid, group, false⟩ : MemberSlot)]).length ≤ g.maxSize
    rw [length_append, length_singleton]
    exact length_lt_of_not_full hfull
  · obtain hs | hs := hmem s hs
    · exact h.subgroup_lt s hs
    · rw [hs]; exact hlt
  · have hlt5 : g.sizeOf group.toNat < 5 := hroom c hc
    refine ⟨(hcount.inc (by omega)).congr fun i => sizeOf_addSlot, fun i => ?_⟩
    have hle := (h.counted c hc).2 i
    rw [sizeOf_addSlot]
    split_ifs with hi
    · rw [← hi]; exact hlt5
    · exact hle
  · obtain hs | hs := hmem s hs
    · exact hall s hs
    · rw [hs]; exact hzero hnone

theorem Seated.removeSlot : (g.removeSlot guid).Seated := by
  unfold Group.removeSlot
  split
  · exact h
  rename_i j s hs
  obtain ⟨hj, rfl⟩ := getMemberSlot_eq_some hs
  have hsub : ∀ t ∈ g.memberSlots.eraseIdx j, t ∈ g.memberSlots :=
    fun t ht => mem_of_mem_eraseIdx ht
  refine h.write rfl rfl (h.keyed.eraseIdx j) ?_ (fun t ht => h.subgroup_lt t (hsub t ht))
    (fun c hc hcount => ?_) fun _ hall t ht => hall t (hsub t ht)
  · exact Nat.le_trans (eraseIdx_sublist ..).length_le h.size_le
  · have hpos := sizeOf_pos (mem_of_getElem? hj)
    refine ⟨(hcount.dec hpos).congr fun i => sizeOf_erase hj rfl, fun i => ?_⟩
    have hle := (h.counted c hc).2 i
    rw [sizeOf_erase hj rfl]
    omega

/-- `ChangeMembersGroup`: one counter goes up, the other one down. -/
theorem Seated.setMembersGroup (hraid : g.isRaidGroup = true)
    (hlt : group.toNat < maxRaidSubgroups) (hroom : g.hasRoom group = true)
    (hs : g.getMemberSlot guid = some (i, s)) (hne : s.group ≠ group)
    (hg : g.setMembersGroup guid group = some g') :
    (g'.subGroupCounterDecrease s.group).Seated := by
  obtain ⟨hi, rfl⟩ := getMemberSlot_eq_some hs
  unfold Group.setMembersGroup at hg
  rw [hs] at hg
  obtain rfl := some.inj hg
  have hmem : ∀ t ∈ g.memberSlots.set i { s with group := group },
      t ∈ g.memberSlots ∨ t.group = group := by
    intro t ht
    obtain ht | rfl := mem_or_eq_of_mem_set ht
    · exact .inl ht
    · exact .inr rfl
  refine h.write
    (f := fun c => (c.modify group.toNat (· + 1)).modify s.group.toNat (· - 1)) rfl
    (Option.map_map _ _ _) (h.keyed.set_key hi rfl) ?_ (fun t ht => ?_) (fun c hc hcount => ?_)
    fun hnone => ?_
  · exact Nat.le_trans (Nat.le_of_eq length_set) h.size_le
  · obtain ht | ht := hmem t ht
    · exact h.subgroup_lt t ht
    · rw [ht]; exact hlt
  · have hlt5 : g.sizeOf group.toNat < 5 := by
      rw [← hcount.getD_eq hlt]
      unfold hasRoom at hroom
      rw [hc] at hroom
      simpa using hroom
    have hpos := sizeOf_pos (mem_of_getElem? hi)
    have hne : group.toNat ≠ s.group.toNat := fun he => hne (UInt8.toNat_inj.mp he.symm)
    refine ⟨((hcount.inc (by omega)).dec ?_).congr fun k => ?_, fun k => ?_⟩
    · omega
    · refine (sizeOf_set hi rfl).trans ?_
      split_ifs <;> omega
    · refine Nat.le_trans (Nat.le_of_eq (sizeOf_set hi rfl)) ?_
      have hle : g.sizeOf k ≤ 5 := (h.counted c hc).2 k
      show _ ≤ 5
      split_ifs with h1 h2 h2
      · omega
      · omega
      · rw [← h2]; omega
      · omega
  · have := h.raid hraid
    rw [hnone] at this
    cases this

theorem Seated.swapSlots (hraid : g.isRaidGroup = true)
    (hs : g.getMemberSlot guid = some (i, s)) (ht : g.getMemberSlot swapGuid = some (j, t))
    (hg : g.swapSlots guid swapGuid = some g') : g'.Seated := by
  unfold Group.swapSlots at hg
  rw [hs, ht] at hg
  obtain rfl := some.inj hg
  obtain ⟨hi, rfl⟩ := getMemberSlot_eq_some hs
  obtain ⟨hj, rfl⟩ := getMemberSlot_eq_some ht
  have hsi := h.subgroup_lt s (mem_of_getElem? hi)
  have htj := h.subgroup_lt t (mem_of_getElem? hj)
  have hkj : Keyed MemberSlot.guid (g.memberSlots.set j { t with group := s.group }) :=
    h.keyed.set_key hj rfl
  have hi' : ∃ s', (g.memberSlots.set j { t with group := s.group })[i]? = some s' ∧
      s'.guid = s.guid := by
    rw [getElem?_set]
    split_ifs with hji hlt
    · subst hji
      obtain rfl := some.inj (hj.symm.trans hi)
      exact ⟨_, rfl, rfl⟩
    · exact absurd (List.getElem?_eq_some_iff.mp hj).1 hlt
    · exact ⟨s, hi, rfl⟩
  obtain ⟨s', hs', hk⟩ := hi'
  refine h.write (f := id) rfl map_id'.symm (hkj.set_key hs' hk.symm) ?_ (fun x hx => ?_)
    (fun c hc hcount => ?_) fun hnone => ?_
  · rw [length_set, length_set]
    exact h.size_le
  · obtain hx | rfl := mem_or_eq_of_mem_set hx
    · obtain hx | rfl := mem_or_eq_of_mem_set hx
      · exact h.subgroup_lt x hx
      · exact hsi
    · exact htj
  · have hsize : ∀ k, Group.sizeOf { g with memberSlots :=
        (g.memberSlots.set j { t with group := s.group }).set i { s with group := t.group } } k =
        g.sizeOf k := fun k => sizeOf_swap hi hj k rfl
    exact ⟨hcount.congr hsize, fun k => Nat.le_trans (Nat.le_of_eq (hsize k)) ((h.counted c hc).2 k)⟩
  · have := h.raid hraid
    rw [hnone] at this
    cases this

end

/-- The counters are counted anew. -/
theorem counted_slots {l : List MemberSlot} {c : List UInt8} {n : Nat → Nat} (h : Counted c n)
    (hn : ∀ i, n i + l.length < 256) :
    Counted (l.foldl (fun c s => c.modify s.group.toNat (· + 1)) c)
      fun i => n i + l.countP (·.group.toNat == i) := by
  induction l generalizing c n with
  | nil => exact h
  | cons s l ih =>
    simp only [length_cons] at hn
    have hs := h.inc (k := s.group.toNat) (by have := hn s.group.toNat; omega)
    refine (ih hs fun i => ?_).congr fun i => ?_
    · have := hn i
      show n i + (if s.group.toNat = i then 1 else 0) + l.length < 256
      split_ifs <;> omega
    · show n i + _ = n i + (if s.group.toNat = i then 1 else 0) + _
      rw [countP_cons]
      simp only [beq_iff_eq]
      omega

theorem Ok.convertToRaid (h : g.Ok) : g.convertToRaid.Ok := by
  have hsize : ∀ i, g.sizeOf i ≤ 5 := by
    intro i
    by_cases hr : g.isRaidGroup = true
    · obtain ⟨c, hc⟩ := isSome_iff_exists.mp (h.raid hr)
      exact (h.counted c hc).2 i
    · refine Nat.le_trans sizeOf_le_length (Nat.le_trans h.size_le ?_)
      unfold maxSize
      rw [if_neg hr]
  have hlen : g.memberSlots.length ≤ 40 := by
    refine Nat.le_trans h.size_le ?_
    unfold maxSize
    split_ifs <;> decide
  have hcount := counted_slots (l := g.memberSlots) Counted.zero (fun i => by omega)
  refine ⟨⟨h.keyed, hlen, h.subgroup_lt, ?_, fun _ => rfl, fun hr => ?_⟩, h.leader⟩
  · intro c hc
    obtain rfl := some.inj hc
    exact ⟨hcount.congr fun i => (Nat.zero_add _).symm, hsize⟩
  · cases hr

theorem Seated.congr (h : g.Seated) (hm : g'.memberSlots = g.memberSlots)
    (ht : g'.groupType = g.groupType) (hc : g'.subGroupsCounts = g.subGroupsCounts) : g'.Seated := by
  have hs : g'.sizeOf = g.sizeOf := by funext i; unfold sizeOf; rw [hm]
  refine h.write (f := id) ht (by rw [hc, Option.map_id]; rfl) (hm ▸ h.keyed) (hm ▸ h.size_le) ?_ ?_ ?_
  · rw [hm]; exact h.subgroup_lt
  · intro c hc hcount
    rw [hs]
    exact ⟨hcount, (h.counted c hc).2⟩
  · rw [hm]; exact fun _ hall => hall

theorem Ok.empty {g : Group} (hm : g.memberSlots = []) (hc : g.subGroupsCounts = none)
    (ht : g.groupType = .normal) : g.Ok := by
  have hno : ∀ s ∈ g.memberSlots, False := by rw [hm]; exact fun s hs => not_mem_nil hs
  refine ⟨⟨hm ▸ Keyed.nil, ?_, fun s hs => (hno s hs).elim, ?_, fun hr => ?_, fun _ => ?_⟩, ?_⟩
  · rw [hm]; exact Nat.zero_le _
  · intro c he
    rw [hc] at he
    cases he
  · unfold isRaidGroup at hr
    rw [ht] at hr
    cases hr
  · exact ⟨hc, fun s hs => (hno s hs).elim⟩
  · exact fun he => absurd hm he

/-- A member becomes the leader. -/
theorem Seated.setLeader (h : g.Seated) (hm : g.isMember guid = true) : (g.setLeader guid).Ok := by
  unfold Group.setLeader
  rw [if_pos hm]
  exact ⟨h.congr rfl rfl rfl, fun _ => hm⟩

theorem Ok.setLeader (h : g.Ok) : (g.setLeader guid).Ok := by
  by_cases hm : g.isMember guid = true
  · exact h.toSeated.setLeader hm
  · unfold Group.setLeader
    rw [if_neg hm]
    exact h

theorem setLeader_memberSlots : (g.setLeader guid).memberSlots = g.memberSlots := by
  unfold setLeader
  split <;> rfl

theorem setLeader_bgGroup : (g.setLeader guid).bgGroup = g.bgGroup := by
  unfold setLeader
  split <;> rfl

theorem setLeader_groupType : (g.setLeader guid).groupType = g.groupType := by
  unfold setLeader
  split <;> rfl

end Group

end Windrunner
