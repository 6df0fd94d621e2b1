import Windrunner.Lft.Offers

/-!
# Offer ids that come around

The offer ids are `uint32`, and `m_offers[offer.id] = offer` does not ask whether the id is in use.
Ten players make two offers. The last one leaves the second offer and comes back, again and again,
while nobody answers the first: each time around (`Turned.turn`) the five get a new offer with the
next id, at last with the id of the first (`roundRun_not_booked`).
-/

namespace Windrunner.LftManager

open Lib List

variable {s : LftManager} {m : Nat}

/-! ## Order numbers -/

section Reorder

variable {w : LftWorld} {s s' : LftManager} {instanceName : Text} {t : QueuedPlayer → Nat}

/-- The states differ in the order numbers only. -/
def Reordered (t : QueuedPlayer → Nat) (s s' : LftManager) : Prop :=
  s'.playerOffers = s.playerOffers ∧
    ∀ g, s'.queue.find g = (s.queue.find g).map fun q => { q with queueOrder := t q }

/-- A member is placed by his roles and instances. -/
theorem placeMember_reordered (h : Reordered t s s') (seed : QueuedPlayer) (order : Nat)
    (selected c : Selection) (guid : Nat) :
    placeMember w s' instanceName { seed with queueOrder := order } selected c guid =
      placeMember w s instanceName seed selected c guid := by
  unfold placeMember fits
  rw [h.1, h.2]
  cases s.queue.find guid <;> rfl

theorem addCandidate_reordered (h : Reordered t s s') (seed : QueuedPlayer) (n : Nat)
    (order : List Nat) (selected : Selection) (candidate : Nat) :
    addCandidate w s' instanceName { seed with queueOrder := n } order selected candidate =
      addCandidate w s instanceName seed order selected candidate := by
  have hblock : ∀ leader, blockOf s' order leader = blockOf s order leader := by
    intro leader
    refine filter_congr fun guid _ => ?_
    rw [h.2]
    cases s.queue.find guid <;> rfl
  have hplace : placeMember w s' instanceName { seed with queueOrder := n } selected =
      placeMember w s instanceName seed selected := by
    funext c guid
    exact placeMember_reordered h seed n selected c guid
  unfold addCandidate
  rw [h.2]
  cases s.queue.find candidate with
  | none => rfl
  | some q =>
    dsimp only [Option.map_some]
    rw [hblock, hplace]
    unfold fits
    rw [h.1]
    rfl

/-- The search sees the order numbers through the order of the queue only. -/
theorem selectPlayers_reordered (h : Reordered t s s') (ho : getQueueOrder s' = getQueueOrder s) :
    selectPlayers w s' instanceName = selectPlayers w s instanceName := by
  unfold selectPlayers
  rw [ho]
  dsimp only
  refine congrArg (fun f => (getQueueOrder s).findSome? f) (funext fun seedGuid => ?_)
  rw [h.1, h.2]
  cases s.queue.find seedGuid with
  | none => rfl
  | some seed =>
    dsimp only [Option.map_some]
    have hadd :
        addCandidate w s' instanceName { seed with queueOrder := t seed } (getQueueOrder s) =
          addCandidate w s instanceName seed (getQueueOrder s) := by
      funext selected candidate
      exact addCandidate_reordered h seed (t seed) _ selected candidate
    rw [hadd]

end Reorder

/-! ## Ten players -/

/-- Druids, who are in the world and in no group. -/
def druids : LftWorld := { playerClass := fun _ => .druid }

def ragefire : Text := ['r', 'f', 'c']

/-- Of five players with numbers in a row one is a tank, one a healer, and three do damage. -/
def roleOf (guid : Nat) : UInt8 :=
  if guid % 5 = 1 then roleTank else if guid % 5 = 2 then roleHealer else roleDamage

def queueCall (guid : Nat) : LftWorld × Input :=
  (druids, .queuePlayer guid [ragefire] (roleOf guid))

/-- The last of ten players leaves his offer and comes back. -/
def turn : List (LftWorld × Input) := [(druids, .leaveQueue 10), queueCall 10]

def entryOf (guid queueOrder : Nat) : QueuedPlayer :=
  { guid, queueLeaderGuid := guid, queueOrder, instances := [ragefire], roleMask := roleOf guid,
    assignedRole := roleOf guid }

def nine : SortedMap Nat QueuedPlayer :=
  [1, 2, 3, 4, 5, 6, 7, 8, 9].foldl (fun queue guid => queue.insert guid (entryOf guid guid)) ∅

/-- The first five are in offer 1. -/
def firstFive : SortedMap Nat Nat := [1, 2, 3, 4, 5].foldl (fun m guid => m.insert guid 1) ∅

/-- The roles of the others. -/
def otherFive : SortedMap Nat UInt8 :=
  [6, 7, 8, 9, 10].foldl (fun roles guid => roles.insert guid (roleOf guid)) ∅

/-- Ten players are queued, the last of them as the `order`th, and offer `n` is for five of them. -/
structure Turned (n : UInt32) (order : Nat) (s : LftManager) : Prop where
  queue : s.queue = nine.insert 10 (entryOf 10 order)
  rolechecks : s.rolechecks = ∅
  playerOffers : s.playerOffers =
    [6, 7, 8, 9, 10].foldl (fun m guid => m.insert guid n.toNat) firstFive
  offer : ∃ offer, s.offers.find n.toNat = some offer ∧ offer.roles = otherFive
  nextOfferId : s.nextOfferId = n + 1
  nextQueueOrder : s.nextQueueOrder = order + 1

/-- After ten requests the last player is in the second offer. -/
theorem turned_start : Turned 2 10 (run step {} ((range' 1 10).map queueCall)) := by
  refine ⟨?_, ?_, ?_, ⟨{ instanceName := ragefire, roles := otherFive, timer := offerTimeout }, ?_,
    rfl⟩, ?_, ?_⟩
  · decide +kernel
  · decide +kernel
  · decide +kernel
  · decide +kernel
  · decide +kernel
  · decide +kernel

/-- The queue of ten in its order, whichever number the last one has. -/
theorem getQueueOrder_ten (hs : s.queue = nine.insert 10 (entryOf 10 m)) (hm : 9 < m) :
    getQueueOrder s = [1, 2, 3, 4, 5, 6, 7, 8, 9, 10] := by
  have hsorted : s.queue.entries.Pairwise fun a b =>
      a.2.queueOrder < b.2.queueOrder ∨ a.2.queueOrder = b.2.queueOrder ∧ a.1 ≤ b.1 := by
    rw [hs]
    show List.Pairwise _ [(1, entryOf 1 1), (2, entryOf 2 2), (3, entryOf 3 3), (4, entryOf 4 4),
      (5, entryOf 5 5), (6, entryOf 6 6), (7, entryOf 7 7), (8, entryOf 8 8), (9, entryOf 9 9),
      (10, entryOf 10 m)]
    simp [entryOf]
    omega
  unfold getQueueOrder
  rw [List.Pairwise.insertionSort_eq hsorted, hs]
  rfl

/-- The five who are free are found, whichever number the last one has. -/
theorem selectPlayers_ten (hq : s.queue = nine.insert 10 (entryOf 10 m))
    (hp : s.playerOffers = firstFive) (hm : 9 < m) :
    selectPlayers druids s ragefire = some otherFive := by
  have hten : selectPlayers druids
      { queue := nine.insert 10 (entryOf 10 10), playerOffers := firstFive } ragefire =
        some otherFive := by decide +kernel
  rw [← hten]
  -- with the number 10 the search can be run; with another one it is the same
  refine selectPlayers_reordered (t := fun q => if q.guid = 10 then m else q.queueOrder)
    ⟨hp, fun g => ?_⟩ ?_
  · rw [hq]
    dsimp only
    rw [SortedMap.find_insert, SortedMap.find_insert]
    split
    case isTrue => rfl
    case isFalse =>
      cases hg : nine.find g with
      | none => rfl
      | some q =>
        have hall : ∀ x ∈ nine.entries, x.2.guid ≠ 10 := by decide +kernel
        have hne := hall (g, q) (SortedMap.mem_entries_iff.mpr hg)
        rw [Option.map_some, if_neg hne]
  · rw [getQueueOrder_ten hq hm]
    decide +kernel

theorem wantedInstances_ten (hq : s.queue = nine.insert 10 (entryOf 10 m))
    (hp : s.playerOffers = firstFive) : wantedInstances s = [ragefire] := by
  unfold wantedInstances
  rw [hq, hp]
  rfl

/-- Four are too few. -/
theorem tryMakeOffers_nine (hq : s.queue = nine) (hp : s.playerOffers = firstFive) :
    tryMakeOffers druids s = s := by
  have hwanted : wantedInstances s = [ragefire] := by
    unfold wantedInstances
    rw [hq, hp]
    decide +kernel
  have hnine :
      selectPlayers druids { queue := nine, playerOffers := firstFive } ragefire = none := by
    decide +kernel
  have hnone : selectPlayers druids s ragefire = none := by
    rw [← hnine]
    refine selectPlayers_reordered (t := fun q => q.queueOrder) ⟨hp, fun g => ?_⟩ ?_
    · rw [hq]
      cases nine.find g <;> rfl
    · unfold getQueueOrder
      rw [hq]
  unfold tryMakeOffers
  rw [hwanted, foldl_cons, foldl_nil, tryBuildOfferForInstance, hnone]

/-- The last player leaves. -/
theorem Turned.leave {n : UInt32} (h : Turned n m s) :
    s.step (druids, .leaveQueue 10) =
      { s with queue := nine, playerOffers := firstFive, offers := s.offers.erase n.toNat } := by
  obtain ⟨offer, ho, hroles⟩ := h.offer
  have hfind : s.playerOffers.find 10 = some n.toNat := by
    rw [h.playerOffers]
    rfl
  have hcancel : s.cancelOffer true 10 true n.toNat =
      { s with queue := nine, playerOffers := firstFive, offers := s.offers.erase n.toNat } := by
    unfold cancelOffer
    rw [ho]
    dsimp only
    rw [foldl_release, hroles, h.queue, h.playerOffers]
    rfl
  have hno : s.rolechecks.entries.find? (fun x => x.2.members.contains 10) = none := by
    rw [h.rolechecks]
    rfl
  show leaveQueue druids s 10 = _
  unfold leaveQueue
  rw [hno, hfind]
  dsimp only
  rw [hcancel, tryMakeOffers_nine rfl rfl]

/-- The next offer is made. -/
theorem Turned.search (hq : s.queue = nine.insert 10 (entryOf 10 m))
    (hp : s.playerOffers = firstFive) (hr : s.rolechecks = ∅) (hm : s.nextQueueOrder = m + 1)
    (hlo : 9 < m) :
    Turned s.nextOfferId m (tryMakeOffers druids s) := by
  unfold tryMakeOffers
  rw [wantedInstances_ten hq hp, foldl_cons, foldl_nil, tryBuildOfferForInstance,
    selectPlayers_ten hq hp hlo]
  dsimp only
  unfold makeOffer
  rw [foldl_bind]
  refine ⟨?_, hr, ?_, ⟨_, (SortedMap.find_insert ..).trans (if_pos rfl), rfl⟩, rfl, hm⟩
  · dsimp only
    rw [hq]
    rfl
  · dsimp only
    rw [hp]
    rfl

/-- He comes back. -/
theorem Turned.back (hq : s.queue = nine) (hp : s.playerOffers = firstFive)
    (hr : s.rolechecks = ∅) (hm : s.nextQueueOrder = m) (hlo : 9 < m) (hhi : m + 1 < 2 ^ 64) :
    Turned s.nextOfferId m (s.step (queueCall 10)) := by
  have hclean : s.cleanupPlayer 10 = s := by
    obtain ⟨queue, rolechecks, offers, playerOffers, id, order⟩ := s
    obtain rfl : queue = nine := hq
    obtain rfl : playerOffers = firstFive := hp
    obtain rfl : rolechecks = ∅ := hr
    rfl
  have hvalid : validRequest druids 10 [ragefire] (roleOf 10) = some ([ragefire], roleDamage) := by
    decide +kernel
  have hten : enqueuePlayer druids s 10 10 [ragefire] roleDamage =
      { s with queue := nine.insert 10 (entryOf 10 m), nextQueueOrder := m + 1 } := by
    unfold enqueuePlayer
    rw [hm, Nat.mod_eq_of_lt hhi, hq]
    rfl
  show Turned _ m (queuePlayer druids s 10 [ragefire] (roleOf 10))
  unfold queuePlayer
  rw [hvalid]
  dsimp only
  rw [hclean]
  show Turned _ m (tryMakeOffers druids (enqueuePlayer druids s 10 10 [ragefire] roleDamage))
  rw [hten]
  exact Turned.search (s := { s with
      queue := nine.insert 10 (entryOf 10 m), nextQueueOrder := m + 1 })
    rfl hp hr rfl hlo

/-- He leaves and comes back, and the next id is used. -/
theorem Turned.turn {n : UInt32} (h : Turned n m s) (hlo : 9 < m) (hhi : m + 2 < 2 ^ 64) :
    Turned (n + 1) (m + 1) (run step s turn) := by
  have hback := Turned.back (s := { s with
      queue := nine, playerOffers := firstFive, offers := s.offers.erase n.toNat })
    rfl rfl h.rolechecks h.nextQueueOrder (by omega) hhi
  rw [← h.leave] at hback
  have hn : (s.step (druids, .leaveQueue 10)).nextOfferId = n + 1 := by
    rw [h.leave]
    exact h.nextOfferId
  rw [hn] at hback
  exact hback

/-- So it goes on, as long as the order numbers do not come around. -/
theorem Turned.turns {n : UInt32} (h : Turned n m s) (hlo : 9 < m) (k : Nat)
    (hhi : m + k + 1 < 2 ^ 64) :
    Turned (n + UInt32.ofNat k) (m + k)
      (run step s (replicate k LftManager.turn).flatten) := by
  induction k with
  | zero =>
    rw [show UInt32.ofNat 0 = 0 from rfl, UInt32.add_zero]
    exact h
  | succ k ih =>
    have hk := (ih (by omega)).turn (by omega) (by omega)
    rw [UInt32.ofNat_add, ← UInt32.add_assoc]
    rw [replicate_succ', flatten_append, flatten_singleton]
    unfold run at hk ⊢
    rw [foldl_append]
    exact hk

/-- Ten players who are queued one after the other, and one who accepts. -/
theorem tenRun_booked :
    Booked (run step {} ((range' 1 10).map queueCall ++ [(druids, .offerAccept 8)])) :=
  booked_of_run (by decide +kernel)

/-- Ten players are queued, and the last of them leaves and comes back until the ids come around. -/
def roundRun : List (LftWorld × Input) :=
  (range' 1 10).map queueCall ++ (replicate (2 ^ 32 - 1) turn).flatten

/-- The second offer of the five gets the id of the first one: the players of that one are in an
offer that they are not in. -/
theorem roundRun_not_booked : ¬ Booked (run step {} roundRun) := by
  intro h
  have hturned := turned_start.turns (by omega) (2 ^ 32 - 1) (by omega)
  -- after 2 ^ 32 - 1 turns the id of the first offer is next
  have hone : (2 : UInt32) + UInt32.ofNat (2 ^ 32 - 1) = 1 := by decide +kernel
  have hrun : run step {} roundRun = run step (run step {} ((range' 1 10).map queueCall))
      (replicate (2 ^ 32 - 1) turn).flatten := by
    unfold roundRun run
    rw [foldl_append]
  rw [hone, ← hrun] at hturned
  obtain ⟨offer, ho, hroles⟩ := hturned.offer
  have hplayer : (run step {} roundRun).playerOffers.find 1 = some 1 := by
    rw [hturned.playerOffers]
    rfl
  obtain ⟨offer', ho', hin⟩ := (h.linked 1 1).mp hplayer
  obtain rfl := Option.some.inj (ho.symm.trans ho')
  rw [hroles] at hin
  exact absurd hin (by decide +kernel)

end Windrunner.LftManager
