import Windrunner.Lft.Offers
import Windrunner.Lib.Quota

/-!
# Whom a search takes

`TryBuildOfferForInstance` tries each player of the queue as the first one of an offer, and goes
through the queue for him: a party is taken whole or not at all.

* `Together`: every selected player can be grouped with the first one, and so is his party.
* `tryBuildOfferForInstance_spec`: what a search does that finds an offer, and one that does not.
* `Solos`: nobody has a party, and each has one role. The search is then a pick with a quota
  (`Follows`), which is met as soon as there are enough for each role:
  `Solos.earliest_offered`.
-/

namespace Windrunner.LftManager

open Lib List
open Option hiding filter_filter

variable {w : LftWorld} {s : LftManager} {instanceName : Text} {seed q : QueuedPlayer}
  {guid g seedGuid : Nat} {role : UInt8} {c : Selection}

/-- `foundOffer`, which is what `TryBuildOfferForInstance` returns. -/
def foundOffer (w : LftWorld) (s : LftManager) (instanceName : Text) : Bool :=
  (selectPlayers w s instanceName).isSome

/-- The order lists who is queued. -/
theorem mem_getQueueOrder : g ∈ getQueueOrder s ↔ s.queue.contains g = true := by
  unfold getQueueOrder
  rw [((perm_insertionSort _ _).map _).mem_iff]
  exact SortedMap.mem_keys_iff

/-- A party is who is queued under the leader. -/
theorem mem_blockOf {leader : Nat} :
    g ∈ blockOf s (getQueueOrder s) leader ↔
      ∃ q, s.queue.find g = some q ∧ q.block g = leader := by
  unfold blockOf
  rw [mem_filter, mem_getQueueOrder, SortedMap.contains]
  cases s.queue.find g with
  | none => simp
  | some q => simp

theorem contains_add : (c.add guid role).roles.contains g = true ↔
    g = guid ∨ c.roles.contains g = true := by
  rw [Selection.add, SortedMap.contains, SortedMap.find_insert]
  by_cases h : g = guid
  · simp [h]
  · simp [h, SortedMap.contains]

/-! ## Parties -/

/-- The player can be grouped with the first one. -/
def Groupable (w : LftWorld) (s : LftManager) (seed : QueuedPlayer) (guid : Nat) : Prop :=
  ∃ q, s.queue.find guid = some q ∧ canQueuedPlayersGroup w seed q = true

/-- Who is placed can be grouped with the first player. -/
theorem placeMember_groupable {selected c' : Selection}
    (h : placeMember w s instanceName seed selected c guid = some c') :
    Groupable w s seed guid := by
  unfold placeMember at h
  split at h
  case h_1 => cases h
  case h_2 q hq =>
    split at h
    case isFalse => cases h
    case isTrue hfits => exact ⟨q, hq, (fits_iff.mp hfits).2.2.2⟩

/-- A party that is placed: its members, and nobody else, are new in the selection. -/
theorem placed {selected : Selection} {block : List Nat} :
    ∀ {c c' : Selection}, block.foldlM (placeMember w s instanceName seed selected) c = some c' →
      (∀ g ∈ block, Groupable w s seed g) ∧
        ∀ g, c'.roles.contains g = true ↔ g ∈ block ∨ c.roles.contains g = true := by
  induction block with
  | nil =>
    intro c c' h
    obtain rfl := some.inj h
    simp
  | cons guid block ih =>
    intro c c' h
    rw [foldlM_cons] at h
    obtain ⟨c1, h1, h2⟩ := bind_eq_some_iff.mp h
    have hg := placeMember_groupable h1
    obtain ⟨-, role, -, rfl⟩ := placeMember_some h1
    obtain ⟨hblock, hiff⟩ := ih h2
    refine ⟨forall_mem_cons.mpr ⟨hg, hblock⟩, fun g => ?_⟩
    rw [hiff, contains_add, mem_cons]
    tauto

/-- The selected players can be grouped with the first one, and come with their parties. -/
structure Together (w : LftWorld) (s : LftManager) (seed : QueuedPlayer)
    (roles : SortedMap Nat UInt8) : Prop where
  groupable : ∀ g, roles.contains g = true → Groupable w s seed g
  whole : ∀ g q g' q', roles.contains g = true → s.queue.find g = some q →
    s.queue.find g' = some q' → q'.block g' = q.block g → roles.contains g' = true

theorem Together.empty : Together w s seed ∅ :=
  ⟨fun _ h => (nomatch h), fun _ _ _ _ h => (nomatch h)⟩

/-- The queue is searched for the party of a candidate, so all of it is taken. -/
theorem Together.candidate (h : Together w s seed c.roles) (candidate : Nat) :
    Together w s seed
      (addCandidate w s instanceName seed (getQueueOrder s) c candidate).roles := by
  unfold addCandidate
  split
  case isTrue => exact h
  split
  case h_1 => exact h
  case h_2 q _ =>
    split
    case isFalse => exact h
    dsimp only
    split
    case h_1 => exact h
    case h_2 all hall =>
      split
      case isTrue => exact h
      case isFalse =>
        obtain ⟨hblock, hiff⟩ := placed hall
        refine ⟨fun g hg => ?_, fun g q1 g' q' hg hq1 hq' he => ?_⟩
        · rcases (hiff g).mp hg with hg | hg
          · exact hblock g hg
          · exact h.groupable g hg
        · -- a party of one of the new players is the one that was placed
          refine (hiff g').mpr ?_
          rcases (hiff g).mp hg with hg | hg
          · obtain ⟨q0, hq0, hlead⟩ := mem_blockOf.mp hg
            obtain rfl := some.inj (hq0.symm.trans hq1)
            exact Or.inl (mem_blockOf.mpr ⟨q', hq', he.trans hlead⟩)
          · exact Or.inr (h.whole g q1 g' q' hg hq1 hq' he)

theorem Together.candidates (l : List Nat) (h : Together w s seed c.roles) :
    Together w s seed
      (l.foldl (addCandidate w s instanceName seed (getQueueOrder s)) c).roles := by
  induction l generalizing c with
  | nil => exact h
  | cons a l ih => exact ih (h.candidate a)

/-- The first player of an offer: queued for the instance, and in no offer. -/
structure IsSeed (s : LftManager) (instanceName : Text) (seedGuid : Nat) (seed : QueuedPlayer) :
    Prop where
  queued : s.queue.find seedGuid = some seed
  free : s.playerOffers.find seedGuid = none
  listed : instanceName ∈ seed.instances

/-- The selection that is made for a first player. -/
def selection (w : LftWorld) (s : LftManager) (instanceName : Text) (seed : QueuedPlayer) :
    Selection :=
  (getQueueOrder s).foldl (addCandidate w s instanceName seed (getQueueOrder s)) {}

/-- The selection fills the offer. -/
def Selection.Full (c : Selection) : Prop :=
  c.tanks = 1 ∧ c.healers = 1 ∧ c.damage = 3 ∧ c.size = 5

/-- The players of an offer are the selection for some first player. -/
theorem selectPlayers_seed {roles : SortedMap Nat UInt8}
    (h : selectPlayers w s instanceName = some roles) :
    ∃ seedGuid seed, IsSeed s instanceName seedGuid seed ∧
      (selection w s instanceName seed).Full ∧ (selection w s instanceName seed).roles = roles := by
  unfold selectPlayers at h
  obtain ⟨seedGuid, -, h⟩ := exists_of_findSome?_eq_some h
  split at h
  case h_1 => cases h
  case h_2 seed hseed =>
    split at h
    case isTrue => cases h
    case isFalse hno =>
      simp only [SortedMap.contains, Bool.or_eq_true, Bool.not_eq_true', not_or,
        Bool.not_eq_true, isSome_eq_false_iff, isNone_iff_eq_none,
        Bool.not_eq_false, contains_iff_mem] at hno
      dsimp only at h
      split at h
      case isFalse => cases h
      case isTrue hfull =>
        exact ⟨seedGuid, seed, ⟨hseed, hno.1, hno.2⟩, hfull, some.inj h⟩

/-- A first player whose selection fills the offer is enough. -/
theorem foundOffer_of_seed (h : IsSeed s instanceName seedGuid seed)
    (hfull : (selection w s instanceName seed).Full) : foundOffer w s instanceName = true := by
  unfold foundOffer selectPlayers
  refine findSome?_isSome_iff.mpr ⟨seedGuid, mem_getQueueOrder.mpr ?_, ?_⟩
  · rw [SortedMap.contains, h.queued]
    rfl
  · rw [h.queued]
    dsimp only
    rw [if_neg (by simp [SortedMap.contains, h.free, h.listed])]
    exact isSome_iff_exists.mpr ⟨_, if_pos hfull⟩

/-- What a new offer is like: five roles, whole parties, and a first player with whom each of the
five can be grouped. -/
structure Built (w : LftWorld) (s : LftManager) (instanceName : Text)
    (roles : SortedMap Nat UInt8) : Prop where
  full : FullParty roles
  whole : ∀ g q g' q', roles.contains g = true → s.queue.find g = some q →
    s.queue.find g' = some q' → q'.block g' = q.block g → roles.contains g' = true
  players : ∃ seedGuid seed, IsSeed s instanceName seedGuid seed ∧
    ∀ g role, roles.find g = some role → ∃ q, s.queue.find g = some q ∧
      instanceName ∈ q.instances ∧ IsRole role ∧ q.roleMask &&& role ≠ 0 ∧
      s.playerOffers.find g = none ∧ canQueuedPlayersGroup w seed q = true

/-- What is selected is an offer as it should be. -/
theorem selectPlayers_built {roles : SortedMap Nat UInt8}
    (h : selectPlayers w s instanceName = some roles) : Built w s instanceName roles := by
  obtain ⟨hfull, havailable⟩ := selectPlayers_spec h
  obtain ⟨seedGuid, seed, hseed, -, rfl⟩ := selectPlayers_seed h
  have ht : Together w s seed (selection w s instanceName seed).roles :=
    Together.candidates (c := {}) (getQueueOrder s) Together.empty
  refine ⟨hfull, ht.whole, seedGuid, seed, hseed, fun g role hg => ?_⟩
  -- each was available when he was taken, and fits the first player
  obtain ⟨hrole, hfree, q, hq, hlisted, hmask⟩ := havailable g role hg
  obtain ⟨q', hq', hgroup⟩ := ht.groupable g (isSome_iff_exists.mpr ⟨role, hg⟩)
  obtain rfl := some.inj (hq.symm.trans hq')
  exact ⟨q, hq, hlisted, hrole, hmask, hfree, hgroup⟩

theorem tryBuild_of_select {roles : SortedMap Nat UInt8}
    (h : selectPlayers w s instanceName = some roles) :
    tryBuildOfferForInstance w s instanceName = makeOffer s instanceName roles := by
  unfold tryBuildOfferForInstance
  rw [h]

/-- A search that finds an offer makes one of whole parties who fit; one that does not leaves the
offers and the queue as they are. -/
theorem tryBuildOfferForInstance_spec (w : LftWorld) (s : LftManager) (instanceName : Text) :
    (foundOffer w s instanceName = true →
      ∃ roles, Built w s instanceName roles ∧
        Made instanceName roles s (tryBuildOfferForInstance w s instanceName)) ∧
    (foundOffer w s instanceName = false →
      (tryBuildOfferForInstance w s instanceName).offers = s.offers ∧
      (tryBuildOfferForInstance w s instanceName).playerOffers = s.playerOffers ∧
      (tryBuildOfferForInstance w s instanceName).queue = s.queue) := by
  constructor
  · intro h
    obtain ⟨roles, hsel⟩ := isSome_iff_exists.mp h
    rw [tryBuild_of_select hsel]
    exact ⟨roles, selectPlayers_built hsel, makeOffer_made s instanceName roles⟩
  · intro h
    have hnone : selectPlayers w s instanceName = none :=
      isNone_iff_eq_none.mp (isSome_eq_false_iff.mp h)
    unfold tryBuildOfferForInstance
    rw [hnone]
    exact ⟨rfl, rfl, rfl⟩

/-! ## Players without a party -/

inductive HardcoreInteractionResult where
  | allowed
  | levelLimitExceeded
  | notHardcore
  | targetNotHardcore
  deriving DecidableEq, Repr

/-- `Player::HandleHardcoreInteraction`. The difference of the levels is an `int32`. -/
def handleHardcoreInteraction (isHardcore : Nat → Bool) (getLevel : Nat → UInt32)
    (player target : Nat) (checkLevelDiff : Bool) : HardcoreInteractionResult :=
  if !isHardcore player && !isHardcore target then .allowed
  else if isHardcore player then
    if !isHardcore target then .targetNotHardcore
    else if checkLevelDiff && (getLevel player - getLevel target).toInt32.toInt.natAbs > 5 then
      .levelLimitExceeded
    else .allowed
  else if isHardcore target then .notHardcore
  else .allowed

/-- Nobody is kept from playing with himself. -/
theorem handleHardcoreInteraction_self (isHardcore : Nat → Bool) (getLevel : Nat → UInt32)
    (player : Nat) (checkLevelDiff : Bool) :
    handleHardcoreInteraction isHardcore getLevel player player checkLevelDiff = .allowed := by
  unfold handleHardcoreInteraction
  rw [UInt32.sub_self]
  cases isHardcore player <;> cases checkLevelDiff <;> rfl

/-- The interaction of the world is the one of the characters. -/
def LevelsDecide (w : LftWorld) (getLevel : Nat → UInt32) : Prop :=
  ∀ a b, w.hardcoreInteraction a b =
    (handleHardcoreInteraction w.isHardcore getLevel a b true == .allowed)

theorem canQueuedPlayersGroup_self {getLevel : Nat → UInt32} (hw : LevelsDecide w getLevel)
    (q : QueuedPlayer) : canQueuedPlayersGroup w q q = true := by
  unfold canQueuedPlayersGroup canPlayersGroup
  rw [hw, handleHardcoreInteraction_self]
  simp

/-- Of the three roles the mask has this one only. -/
structure OneRole (mask role : UInt8) : Prop where
  isRole : IsRole role
  only : ∀ r, IsRole r → (mask &&& r ≠ 0 ↔ r = role)

/-- How many players an offer has with a role. -/
def wanted (role : UInt8) : Nat := if role = roleDamage then 3 else 1

/-- How many players a selection has with a role. -/
def Selection.count (c : Selection) (role : UInt8) : Nat :=
  if role = roleTank then c.tanks else if role = roleHealer then c.healers else c.damage

/-- The role is picked while it is wanted. -/
theorem OneRole.pickRole_eq {mask : UInt8} (h : OneRole mask role) (c : Selection) :
    pickRole mask c.tanks c.healers c.damage = if c.count role < wanted role then role else 0 := by
  have ht := h.only roleTank (Or.inl rfl)
  have hh := h.only roleHealer (Or.inr (Or.inl rfl))
  have hd := h.only roleDamage (Or.inr (Or.inr rfl))
  unfold pickRole
  simp only [ht, hh, hd]
  rcases h.isRole with rfl | rfl | rfl
  · simp [Selection.count, wanted, roleTank, roleHealer, roleDamage]
  · simp [Selection.count, wanted, roleTank, roleHealer, roleDamage]
  · simp [Selection.count, wanted, roleTank, roleHealer, roleDamage]

theorem OneRole.ne_zero {mask : UInt8} (h : OneRole mask role) : role ≠ 0 := by
  rcases h.isRole with rfl | rfl | rfl <;> decide

/-- Every player is his own queue leader, is in no offer and has one role, and any two of them can
be grouped. -/
structure Solos (w : LftWorld) (s : LftManager) : Prop where
  leader : ∀ g q, s.queue.find g = some q → q.block g = g
  free : ∀ g q, s.queue.find g = some q → s.playerOffers.find g = none
  groupable : ∀ g q g' q', s.queue.find g = some q → s.queue.find g' = some q' → g ≠ g' →
    canQueuedPlayersGroup w q q' = true
  oneRole : ∀ g q, s.queue.find g = some q → ∃ role, OneRole q.roleMask role

/-- The player waits for the instance. -/
def lists (s : LftManager) (instanceName : Text) (g : Nat) : Bool :=
  (s.queue.find g).any fun q => q.instances.contains instanceName

/-- The role of a player who has one. -/
def soloRole (s : LftManager) (g : Nat) : UInt8 :=
  match s.queue.find g with
  | none => 0
  | some q => pickRole q.roleMask 0 0 0

/-- Who waits for the instance and has the role, in the order of the queue. -/
def waiting (s : LftManager) (instanceName : Text) (role : UInt8) : List Nat :=
  (getQueueOrder s).filter fun g =>
    (s.queue.find g).any fun q => q.instances.contains instanceName && q.roleMask &&& role != 0

namespace Solos

variable (hs : Solos w s)

include hs

/-- The role of a player without a party is the one his mask has. -/
theorem soloRole_spec (hq : s.queue.find g = some q) : OneRole q.roleMask (soloRole s g) := by
  obtain ⟨role, h⟩ := hs.oneRole g q hq
  have he : soloRole s g = role := by
    unfold soloRole
    rw [hq]
    refine (h.pickRole_eq {}).trans (if_pos ?_)
    rcases h.isRole with rfl | rfl | rfl <;> decide
  rw [he]
  exact h

/-- His party is the player alone. -/
theorem blockOf_eq (hq : s.queue.find g = some q) : blockOf s (getQueueOrder s) g = [g] := by
  have hmem : ∀ x, x ∈ blockOf s (getQueueOrder s) g ↔ x ∈ [g] := by
    intro x
    rw [mem_blockOf, mem_singleton]
    constructor
    · rintro ⟨q', hq', he⟩
      exact (hs.leader x q' hq').symm.trans he
    · rintro rfl
      exact ⟨q, hq, hs.leader x q hq⟩
  exact perm_singleton.mp ((perm_ext_iff_of_nodup
    ((getQueueOrder_nodup s).sublist filter_sublist) (nodup_singleton g)).mpr hmem)

/-- Who waits for a role is who has it, in the order of the queue. -/
theorem waiting_eq (hr : IsRole role) :
    waiting s instanceName role =
      ofKind (soloRole s) role ((getQueueOrder s).filter (lists s instanceName)) := by
  unfold waiting ofKind
  rw [filter_filter]
  refine filter_congr fun g hg => ?_
  obtain ⟨q, hq⟩ := isSome_iff_exists.mp (mem_getQueueOrder.mp hg)
  have honly := (hs.soloRole_spec hq).only role hr
  unfold lists
  rw [hq]
  simp only [any_some]
  by_cases he : soloRole s g = role
  · simp [he, honly.mpr he.symm]
  · have hmask : q.roleMask &&& role = 0 := by
      by_contra hne
      exact he (honly.mp hne).symm
    simp [he, hmask]

/-- The party of one is placed while its role is wanted. -/
theorem placeMember_eq (hq : s.queue.find g = some q) (hlisted : instanceName ∈ q.instances)
    (hgroup : canQueuedPlayersGroup w seed q = true) (hnew : c.roles.find g = none) :
    placeMember w s instanceName seed c c g =
      if c.count (soloRole s g) < wanted (soloRole s g) then some (c.add g (soloRole s g)) else none := by
  have hfits : fits w s instanceName seed c g q = true :=
    fits_iff.mpr ⟨hnew, hs.free g q hq, hlisted, hgroup⟩
  have hrole := hs.soloRole_spec hq
  unfold placeMember
  rw [hq]
  dsimp only
  rw [if_pos hfits, hrole.pickRole_eq]
  split
  case isTrue => exact if_neg hrole.ne_zero
  case isFalse => exact if_pos rfl

/-- One turn of the loop over the candidates, when five are not selected too early. -/
theorem addCandidate_eq (hq : s.queue.find g = some q)
    (hgroup : canQueuedPlayersGroup w seed q = true) (hnew : c.roles.find g = none)
    (hstop : c.size ≥ 5 → ¬ c.count (soloRole s g) < wanted (soloRole s g)) :
    addCandidate w s instanceName seed (getQueueOrder s) c g =
      if lists s instanceName g = true ∧ c.count (soloRole s g) < wanted (soloRole s g) then
        c.add g (soloRole s g)
      else c := by
  unfold addCandidate
  -- the loop stops at five; then no role is wanted any more
  by_cases hsize : c.size ≥ 5
  · rw [if_pos hsize, if_neg fun h => hstop hsize h.2]
  rw [if_neg hsize, hq]
  dsimp only
  have hlists : lists s instanceName g = true ↔ instanceName ∈ q.instances := by
    unfold lists
    rw [hq]
    simp
  by_cases hlisted : instanceName ∈ q.instances
  · rw [if_pos (fits_iff.mpr ⟨hnew, hs.free g q hq, hlisted, hgroup⟩), hs.leader g q hq,
      hs.blockOf_eq hq]
    rw [foldlM_cons, hs.placeMember_eq hq hlisted hgroup hnew]
    by_cases hroom : c.count (soloRole s g) < wanted (soloRole s g)
    · have hlen : (c.add g (soloRole s g)).size = c.size + 1 :=
        (SortedMap.entries_insert hnew _).length_eq
      rw [if_pos hroom, if_pos ⟨hlists.mpr hlisted, hroom⟩]
      refine if_neg (not_or.mpr ⟨cons_ne_nil _ _, ?_⟩)
      omega
    · rw [if_neg hroom, if_neg fun h => hroom h.2]
      rfl
  · rw [if_neg fun h => hlisted (fits_iff.mp h).2.2.1, if_neg fun h => hlisted (hlists.mp h.1)]

end Solos

/-- The selection is what a pick with a quota has picked. -/
structure Follows (s : LftManager) (picked : List Nat) (c : Selection) : Prop where
  find : ∀ g role, c.roles.find g = some role ↔ g ∈ picked ∧ soloRole s g = role
  count : ∀ role, IsRole role → c.count role = (ofKind (soloRole s) role picked).length
  size : c.size = c.tanks + c.healers + c.damage

namespace Follows

variable {picked l : List Nat}

theorem empty (s : LftManager) : Follows s [] {} := by
  refine ⟨fun g role => ?_, fun role hr => ?_, rfl⟩
  · simp [show (({} : Selection).roles.find g) = none from rfl]
  · rcases hr with rfl | rfl | rfl <;> rfl

theorem add (h : Follows s picked c) (hnew : guid ∉ picked) (hr : IsRole (soloRole s guid)) :
    Follows s (picked ++ [guid]) (c.add guid (soloRole s guid)) := by
  have hnone : c.roles.find guid = none := by
    cases hf : c.roles.find guid with
    | none => rfl
    | some role => exact absurd ((h.find guid role).mp hf).1 hnew
  refine ⟨fun g role => ?_, fun role hrole => ?_, ?_⟩
  · rw [Selection.add, SortedMap.find_insert, mem_append, mem_singleton]
    by_cases hg : g = guid
    · subst hg
      simp
    · simp only [hg, if_false, or_false]
      exact h.find g role
  · rw [ofKind_concat]
    have hcount := h.count role hrole
    rcases hr with he | he | he <;> rcases hrole with rfl | rfl | rfl <;>
      simp_all [Selection.count, Selection.add, roleTank, roleHealer, roleDamage]
  · have hlen : (c.add guid (soloRole s guid)).size = c.size + 1 :=
      (SortedMap.entries_insert hnone _).length_eq
    rw [hlen, h.size]
    rcases hr with he | he | he <;>
      simp [Selection.add, he, roleTank, roleHealer, roleDamage] <;> omega

/-- When five are selected no role is wanted any more. -/
theorem stop (h : Follows s (pick (soloRole s) wanted l) c) (hsize : c.size ≥ 5)
    (hr : IsRole role) : ¬ c.count role < wanted role := by
  -- no role is picked beyond what is wanted, and what is wanted adds up to five
  have hle : ∀ r, IsRole r → c.count r ≤ wanted r := by
    intro r hr
    rw [h.count r hr, countP_pick]
    exact min_le_left ..
  have ht : c.tanks ≤ 1 := hle roleTank (Or.inl rfl)
  have hh : c.healers ≤ 1 := hle roleHealer (Or.inr (Or.inl rfl))
  have hd : c.damage ≤ 3 := hle roleDamage (Or.inr (Or.inr rfl))
  have hsum := h.size
  rcases hr with rfl | rfl | rfl
  · show ¬ c.tanks < 1
    omega
  · show ¬ c.healers < 1
    omega
  · show ¬ c.damage < 3
    omega

/-- A candidate is selected when the pick takes him. -/
theorem candidate (hs : Solos w s) (hgroup : ∀ g q, s.queue.find g = some q →
      canQueuedPlayersGroup w seed q = true)
    (h : Follows s (pick (soloRole s) wanted (l.filter (lists s instanceName))) c)
    (hg : s.queue.contains g = true) (hl : g ∉ l) :
    Follows s (pick (soloRole s) wanted ((l ++ [g]).filter (lists s instanceName)))
      (addCandidate w s instanceName seed (getQueueOrder s) c g) := by
  obtain ⟨q, hq⟩ := isSome_iff_exists.mp hg
  have hrole := (hs.soloRole_spec hq).isRole
  have hnew : g ∉ pick (soloRole s) wanted (l.filter (lists s instanceName)) :=
    fun hm => hl (mem_filter.mp (mem_of_mem_pick _ _ hm)).1
  have hnone : c.roles.find g = none := by
    cases hf : c.roles.find g with
    | none => rfl
    | some role => exact absurd ((h.find g role).mp hf).1 hnew
  rw [hs.addCandidate_eq hq (hgroup g q hq) hnone fun hsize => h.stop hsize hrole,
    filter_append, filter_singleton]
  -- who waits for another instance is passed over by both
  by_cases hlists : lists s instanceName g = true
  · rw [hlists, cond_true, pick_concat, pickNext, ← h.count _ hrole]
    by_cases hroom : c.count (soloRole s g) < wanted (soloRole s g)
    · rw [if_pos hroom, if_pos ⟨rfl, hroom⟩]
      exact h.add hnew hrole
    · rw [if_neg hroom, if_neg fun hno => hroom hno.2]
      exact h
  · rw [if_neg fun hno => hlists hno.1, Bool.eq_false_iff.mpr hlists, cond_false,
      append_nil]
    exact h

/-- The whole loop over the candidates. -/
theorem selection (instanceName : Text) (hs : Solos w s) (hgroup : ∀ g q, s.queue.find g = some q →
      canQueuedPlayersGroup w seed q = true) :
    Follows s (pick (soloRole s) wanted ((getQueueOrder s).filter (lists s instanceName)))
      (selection w s instanceName seed) := by
  have hfold : ∀ l : List Nat, l.Nodup → (∀ g ∈ l, s.queue.contains g = true) →
      Follows s (pick (soloRole s) wanted (l.filter (lists s instanceName)))
        (l.foldl (addCandidate w s instanceName seed (getQueueOrder s)) {}) := by
    intro l
    -- from the front, as the loop goes
    induction l using reverseRecOn with
    | nil => exact fun _ _ => Follows.empty s
    | append_singleton l g ih =>
      intro hnd hl
      rw [foldl_append]
      have hnd' := nodup_append.mp hnd
      exact (ih hnd'.1 fun x hx => hl x (mem_append_left _ hx)).candidate hs hgroup
        (hl g (mem_append_right _ mem_cons_self))
        fun hm => hnd'.2.2 g hm g mem_cons_self rfl
  exact hfold _ (getQueueOrder_nodup s) fun g hg => mem_getQueueOrder.mp hg

end Follows

/-- There are enough players for each role. -/
def Enough (s : LftManager) (instanceName : Text) : Prop :=
  ∀ role, IsRole role → wanted role ≤ (waiting s instanceName role).length

namespace Solos

variable (hs : Solos w s) {getLevel : Nat → UInt32} (hw : LevelsDecide w getLevel)

include hs hw

/-- Whoever is the first one, all can be grouped with him. -/
theorem groups_all (hseed : s.queue.find seedGuid = some seed) :
    ∀ g q, s.queue.find g = some q → canQueuedPlayersGroup w seed q = true := by
  intro g q hq
  by_cases hg : seedGuid = g
  · subst hg
    obtain rfl := some.inj (hseed.symm.trans hq)
    exact canQueuedPlayersGroup_self hw seed
  · exact hs.groupable seedGuid seed g q hseed hq hg

/-- For any first player the earliest of each role are selected. -/
theorem find_selection (hseed : s.queue.find seedGuid = some seed) :
    (selection w s instanceName seed).roles.find g = some role ↔
      IsRole role ∧ g ∈ (waiting s instanceName role).take (wanted role) := by
  have hf := Follows.selection instanceName hs (hs.groups_all hw hseed)
  rw [hf.find, mem_pick]
  constructor
  · rintro ⟨hg, rfl⟩
    have hm := (mem_ofKind (soloRole s)).mp (mem_of_mem_take hg)
    obtain ⟨q, hq⟩ := isSome_iff_exists.mp
      (mem_getQueueOrder.mp (mem_filter.mp hm.1).1)
    have hr := (hs.soloRole_spec hq).isRole
    exact ⟨hr, by rwa [hs.waiting_eq hr]⟩
  · rintro ⟨hr, hg⟩
    rw [hs.waiting_eq hr] at hg
    obtain ⟨-, rfl⟩ := (mem_ofKind (soloRole s)).mp (mem_of_mem_take hg)
    exact ⟨hg, rfl⟩

/-- It is full, when there are enough. -/
theorem full_selection (henough : Enough s instanceName)
    (hseed : s.queue.find seedGuid = some seed) : (selection w s instanceName seed).Full := by
  have hf := Follows.selection instanceName hs (hs.groups_all hw hseed)
  have hcount : ∀ role, IsRole role →
      (selection w s instanceName seed).count role = wanted role := by
    intro role hr
    rw [hf.count role hr, countP_pick, ← hs.waiting_eq hr]
    exact min_eq_left (henough role hr)
  have ht := hcount roleTank (Or.inl rfl)
  have hh := hcount roleHealer (Or.inr (Or.inl rfl))
  have hd := hcount roleDamage (Or.inr (Or.inr rfl))
  refine ⟨ht, hh, hd, ?_⟩
  have h5 : (selection w s instanceName seed).size =
      (selection w s instanceName seed).count roleTank +
        (selection w s instanceName seed).count roleHealer +
        (selection w s instanceName seed).count roleDamage := hf.size
  rw [h5, ht, hh, hd]
  rfl

/-- A search among players without a party finds an offer as soon as there are enough for each
role, and takes the earliest of them. -/
theorem earliest_offered (henough : Enough s instanceName) :
    foundOffer w s instanceName = true ∧
      ∃ roles, (∀ g role, roles.find g = some role ↔
          IsRole role ∧ g ∈ (waiting s instanceName role).take (wanted role)) ∧
        Made instanceName roles s (tryBuildOfferForInstance w s instanceName) := by
  have hfound : foundOffer w s instanceName = true := by
    -- the first tank of the queue will do as a first player
    obtain ⟨g, hg⟩ := exists_mem_of_length_pos (henough roleTank (Or.inl rfl))
    obtain ⟨horder, hlisted⟩ := mem_filter.mp hg
    obtain ⟨q, hq⟩ := isSome_iff_exists.mp (mem_getQueueOrder.mp horder)
    rw [hq, any_some, Bool.and_eq_true] at hlisted
    exact foundOffer_of_seed ⟨hq, hs.free g q hq, contains_iff_mem.mp hlisted.1⟩
      (hs.full_selection hw henough hq)
  refine ⟨hfound, ?_⟩
  obtain ⟨roles, hsel⟩ := isSome_iff_exists.mp hfound
  refine ⟨roles, fun g role => ?_, ?_⟩
  · obtain ⟨seedGuid, seed, hseed, -, rfl⟩ := selectPlayers_seed hsel
    exact hs.find_selection hw hseed.queued
  · rw [tryBuild_of_select hsel]
    exact makeOffer_made s instanceName roles

end Solos

theorem OneRole.self (h : IsRole role) : OneRole role role := by
  refine ⟨h, fun r hr => ?_⟩
  rcases h with rfl | rfl | rfl <;> rcases hr with rfl | rfl | rfl <;> decide

/-- Two tanks, two healers, four damage dealers, one of them for another instance. -/
def soloQueue : LftManager where
  queue := [(9, 4, 1), (2, 4, 2), (3, 1, 1), (4, 4, 1), (5, 2, 1), (6, 1, 1), (7, 4, 1),
      (8, 2, 1), (1, 4, 1)].foldl (fun (m : SortedMap Nat QueuedPlayer) x =>
    m.insert x.1 { guid := x.1, queueLeaderGuid := x.1, queueOrder := 10 - x.1,
                   instances := [[Char.ofNat (96 + x.2.2)]], roleMask := UInt8.ofNat x.2.1 }) ∅

/-- They are not hardcore and of one level. -/
def softWorld : LftWorld where
  hardcoreInteraction a b :=
    handleHardcoreInteraction (fun _ => false) (fun _ => 60) a b true == .allowed

theorem soloQueue_solos : Solos softWorld soloQueue := by
  have hmem : ∀ {g q}, soloQueue.queue.find g = some q → (g, q) ∈ soloQueue.queue.entries :=
    fun hq => SortedMap.mem_entries_iff.mpr hq
  have hleader : ∀ x ∈ soloQueue.queue.entries, x.2.block x.1 = x.1 := by decide
  have hgroup : ∀ x ∈ soloQueue.queue.entries, ∀ y ∈ soloQueue.queue.entries,
      canQueuedPlayersGroup softWorld x.2 y.2 = true := by decide
  have hrole : ∀ x ∈ soloQueue.queue.entries, IsRole x.2.roleMask := by
    unfold IsRole
    decide
  exact
    { leader := fun g q hq => hleader (g, q) (hmem hq)
      free := fun _ _ _ => rfl
      groupable := fun g q g' q' hq hq' _ => hgroup (g, q) (hmem hq) (g', q') (hmem hq')
      oneRole := fun g q hq => ⟨q.roleMask, OneRole.self (hrole (g, q) (hmem hq))⟩ }

theorem soloQueue_offered : foundOffer softWorld soloQueue ['a'] = true := by
  have henough : Enough soloQueue ['a'] := by
    intro role hr
    rcases hr with rfl | rfl | rfl <;> decide
  have hlevels : LevelsDecide softWorld fun _ => 60 := fun _ _ => rfl
  exact (soloQueue_solos.earliest_offered hlevels henough).1

end Windrunner.LftManager
