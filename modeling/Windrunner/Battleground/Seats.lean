import Windrunner.Battleground.Counters

/-!
# Seats and slots

The seat of a player in a queue is whether he is marked as online there, and the bracket of his
group; the slots are what he knows himself. Here is what each operation does to the one and the
other.
-/

namespace Windrunner

open Lib List
open Option hiding any_eq_true any_map map_map

namespace BgQueue

variable {q q' : BgQueue} {guid : Nat}

/-! ## Seats -/

/-- Whether a player is marked as online, and the bracket of his group. -/
def seat (q : BgQueue) (guid : Nat) : Option (Bool × Nat) :=
  (q.queuedPlayers.lookup guid).map fun pl => (pl.online, (q.info pl.groupInfo).bracketId)

theorem seat_eq_none : q.seat guid = none ↔ q.groupOf guid = none := by
  unfold seat groupOf
  rw [map_eq_none_iff, map_eq_none_iff]

theorem seat_of_lookup {pl : PlayerQueueInfo} (hpl : q.queuedPlayers.lookup guid = some pl) :
    q.seat guid = some (pl.online, (q.info pl.groupInfo).bracketId) := by
  unfold seat
  rw [hpl]
  rfl

theorem seat_congr (hp : q'.queuedPlayers.lookup guid = q.queuedPlayers.lookup guid)
    (hb : ∀ i, q.groupOf guid = some i → (q'.info i).bracketId = (q.info i).bracketId) :
    q'.seat guid = q.seat guid := by
  unfold seat
  rw [hp]
  cases hpl : q.queuedPlayers.lookup guid with
  | none => rfl
  | some pl =>
    rw [map_some, map_some, hb pl.groupInfo]
    unfold groupOf
    rw [hpl]
    rfl

theorem infos_of_removePlayer (h : q.Wired) {g i : Nat} (hg : g ≠ guid)
    (hi : q.groupOf g = some i) : ∃ players,
      (q.removePlayer guid).info i = { q.info i with players := players } := by
  have hi' : (q.removePlayer guid).groupOf g = some i := by
    rw [groupOf_removePlayer, if_neg hg]
    exact hi
  obtain ⟨gi, hgi, -⟩ := infos_of_groupOf (wired_removePlayer h guid) hi'
  obtain ⟨players, hplayers⟩ := infos_removePlayer hgi
  refine ⟨players, ?_⟩
  rw [← hplayers]
  unfold info
  rw [hgi]
  rfl

theorem seat_removePlayer (h : q.Wired) (guid g : Nat) :
    (q.removePlayer guid).seat g = if g = guid then none else q.seat g := by
  split_ifs with hg
  · rw [seat_eq_none, groupOf_removePlayer, if_pos hg]
  · refine seat_congr ?_ fun i hi => ?_
    · rw [lookup_removePlayer, if_neg hg]
    · obtain ⟨players, hinfo⟩ := infos_of_removePlayer h hg hi
      rw [hinfo]

/-- A player is marked anew; his group stays. -/
theorem seat_insert {pl : PlayerQueueInfo} (pl' : PlayerQueueInfo)
    (hpl : q.queuedPlayers.lookup guid = some pl) (hi : pl'.groupInfo = pl.groupInfo) (g : Nat) :
    BgQueue.seat { q with queuedPlayers := q.queuedPlayers.insert guid pl' } g =
      if g = guid then (q.seat guid).map fun x => (pl'.online, x.2) else q.seat g := by
  split_ifs with hg
  · unfold seat
    rw [hg, AList.lookup_insert, hpl, map_some, map_some, map_some, hi]
    rfl
  · exact seat_congr (AList.lookup_insert_ne hg) fun _ _ => rfl

theorem seat_unmarked {online : Bool} (hpl : q.queuedPlayers.lookup guid = none) (g : Nat) :
    q.seat g = if g = guid then (q.seat guid).map fun x => (online, x.2) else q.seat g := by
  have hnone : q.seat guid = none := map_eq_none_iff.mpr hpl
  split_ifs with hg
  · rw [hg, hnone]
    rfl
  · rfl

theorem seat_playerLoggedOut (guid : Nat) (now : UInt32) (g : Nat) :
    (q.playerLoggedOut guid now).seat g =
      if g = guid then (q.seat guid).map fun x => (false, x.2) else q.seat g := by
  unfold playerLoggedOut
  cases hpl : q.queuedPlayers.lookup guid with
  | none => exact seat_unmarked hpl g
  | some pl => exact seat_insert { pl with lastOnlineTime := now, online := false } hpl rfl g

theorem seat_playerLoggedIn (guid g : Nat) :
    (q.playerLoggedIn guid).seat g =
      if g = guid then (q.seat guid).map fun x => (true, x.2) else q.seat g := by
  unfold playerLoggedIn
  cases hpl : q.queuedPlayers.lookup guid with
  | none => exact seat_unmarked hpl g
  | some pl => exact seat_insert { pl with online := true } hpl rfl g

/-! ## Joining -/

variable {team : Nat → BgTeam} {j : BgJoin}

theorem queuedPlayers_pushGroup (b t i : Nat) :
    (q.pushGroup b t i).queuedPlayers = q.queuedPlayers := by
  unfold pushGroup
  split_ifs <;> rfl

theorem lookup_queuePlayer (i g : Nat) : (queuePlayer i q guid).queuedPlayers.lookup g =
    if g = guid then some { groupInfo := i } else q.queuedPlayers.lookup g := by
  show (q.queuedPlayers.insert guid _).lookup g = _
  split_ifs with hg
  · rw [hg, AList.lookup_insert]
  · exact AList.lookup_insert_ne hg

theorem lookup_addSolo (guid g : Nat) : (q.addSolo team j guid).queuedPlayers.lookup g =
    if g = guid then some { groupInfo := q.nextInfo } else q.queuedPlayers.lookup g := by
  unfold addSolo
  simp only
  rw [queuedPlayers_pushGroup, lookup_queuePlayer]
  rfl

theorem lookup_addGroup (groupLimit leader : Nat) (grp : BgGroup) (excluded : List Nat) (g : Nat) :
    let q' := q.addGroup team groupLimit j leader grp excluded
    q'.queuedPlayers.lookup g = q.queuedPlayers.lookup g ∨
      ((g ∈ grp.members ∧ g ∉ excluded) ∧
        ∃ i, q'.queuedPlayers.lookup g = some { groupInfo := i }) := by
  intro q'
  have hpush : q'.queuedPlayers = _ := queuedPlayers_pushGroup ..
  rw [hpush]
  refine foldlRecOn (motive := fun q' : BgQueue => q'.queuedPlayers.lookup g =
    q.queuedPlayers.lookup g ∨ ((g ∈ grp.members ∧ g ∉ excluded) ∧
      ∃ i, q'.queuedPlayers.lookup g = some { groupInfo := i })) grp.members _ (Or.inl rfl)
    fun q' h guid hguid => ?_
  by_cases hex : guid ∈ excluded
  · rw [if_pos hex]
    exact h
  · rw [if_neg hex]
    -- a member enters, and he may be the player
    have henter : ∀ i, (if g = guid then some { groupInfo := i } else q'.queuedPlayers.lookup g) =
        q.queuedPlayers.lookup g ∨ ((g ∈ grp.members ∧ g ∉ excluded) ∧
          ∃ k, (if g = guid then some { groupInfo := i } else q'.queuedPlayers.lookup g) =
            some { groupInfo := k }) := by
      intro i
      by_cases hg : g = guid
      · subst hg
        refine Or.inr ⟨⟨hguid, hex⟩, i, ?_⟩
        rw [if_pos rfl]
      · rw [if_neg hg]
        exact h
    split_ifs
    · rw [lookup_addSolo]
      exact henter _
    · rw [lookup_queuePlayer]
      exact henter _

end BgQueue

namespace BgOutcome

open BgQueue

/-! ## An update -/

/-- The battleground to which a group has been invited is over. -/
def hasEnded (m : BgMoment) (gi : GroupQueueInfo) : Bool :=
  decide (gi.isInvitedToBGInstanceGUID ≠ 0) && m.ended gi.isInvitedToBGInstanceGUID gi.bgTypeId

/-- Who is left by the sweep has his seat, and is not one of those it has dropped. -/
theorem seat_removeExpired (m : BgMoment) (fuel : Nat) (o : BgOutcome) (h : o.queue.Wired)
    (g : Nat) : (removeExpired m fuel o).queue.seat g = none ∨
      ((removeExpired m fuel o).queue.seat g = o.queue.seat g ∧
        (g ∈ (removeExpired m fuel o).dropped → g ∈ o.dropped)) := by
  induction fuel generalizing o with
  | zero => exact Or.inr ⟨rfl, id⟩
  | succ fuel ih =>
    unfold removeExpired
    split
    · exact Or.inr ⟨rfl, id⟩
    case h_2 guid pl hfind =>
      have hseat := seat_removePlayer h guid g
      rcases ih { o with
          queue := o.queue.removePlayer guid
          dropped := if pl.online then o.dropped ++ [guid] else o.dropped }
        (wired_removePlayer h guid) with hnone | ⟨hsame, hdropped⟩
      · exact Or.inl hnone
      · by_cases hg : g = guid
        · rw [if_pos hg] at hseat
          exact Or.inl (hsame.trans hseat)
        · rw [if_neg hg] at hseat
          refine Or.inr ⟨hsame.trans hseat, fun hmem => ?_⟩
          have hmem := hdropped hmem
          simp only at hmem
          split_ifs at hmem
          · exact (mem_append.mp hmem).resolve_right (by simpa using hg)
          · exact hmem

/-- Who is marked as online is left by the sweep, unless his battleground is over. -/
theorem lookup_removeExpired (m : BgMoment) (fuel : Nat) {o : BgOutcome} (h : o.queue.Wired)
    {g : Nat} {pl : PlayerQueueInfo} (hpl : o.queue.queuedPlayers.lookup g = some pl)
    (honline : pl.online = true) (hended : hasEnded m (o.queue.info pl.groupInfo) = false) :
    (removeExpired m fuel o).queue.queuedPlayers.lookup g = some pl := by
  induction fuel generalizing o with
  | zero => exact hpl
  | succ fuel ih =>
    unfold removeExpired
    split
    · exact hpl
    case h_2 guid pl' hfind =>
      have hexpired := find?_some hfind
      have hne : g ≠ guid := by
        rintro rfl
        have hmem : pl' ∈ o.queue.queuedPlayers.lookup g :=
          AList.mem_lookup_iff.mpr (mem_of_find?_eq_some hfind)
        rw [hpl] at hmem
        obtain rfl := some_inj.mp hmem
        unfold hasEnded at hended
        unfold expired at hexpired
        simp only [honline] at hexpired
        rw [hended] at hexpired
        cases hexpired
      have hgroup : o.queue.groupOf g = some pl.groupInfo := by
        unfold BgQueue.groupOf
        rw [hpl]
        rfl
      obtain ⟨players, hinfo⟩ := infos_of_removePlayer h hne hgroup
      refine ih (wired_removePlayer h guid) ?_ ?_
      · rw [lookup_removePlayer, if_neg hne]
        exact hpl
      · rw [hinfo]
        exact hended

/-- After the sweep nobody's seat changes. -/
theorem update_seats (cfg : BgConfig) (tmpl : Option BgTemplate) (m : BgMoment) (q : BgQueue)
    (type : BgType) (b : Nat) :
    let o₁ := removeExpired m q.queuedPlayers.entries.length { queue := q }
    let o := q.update cfg tmpl m type b
    o.queue.queuedPlayers = o₁.queue.queuedPlayers ∧ o.dropped = o₁.dropped ∧
      ∀ i, (o.queue.info i).bracketId = (o₁.queue.info i).bracketId := by
  intro o₁ o
  refine induct_update cfg (P := fun o => o.queue.queuedPlayers = o₁.queue.queuedPlayers ∧
    o.dropped = o₁.dropped ∧ ∀ i, (o.queue.info i).bracketId = (o₁.queue.info i).bracketId)
    (fun o q' hsame ho => ?_) (fun o l ho => ho) (fun o i id _ ho => ?_) tmpl q type b
    ⟨rfl, rfl, fun _ => rfl⟩
  · obtain ⟨hinfos, hplayers⟩ := hsame
    refine ⟨hplayers.trans ho.1, ho.2.1, fun i => ?_⟩
    rw [← ho.2.2 i]
    unfold BgQueue.info
    rw [hinfos]
  · obtain ⟨hplayers, hdropped, hbracket⟩ := ho
    unfold inviteGroupToBG
    split
    · exact ⟨hplayers, hdropped, hbracket⟩
    case h_2 gi hgi =>
      split_ifs
      · exact ⟨hplayers, hdropped, hbracket⟩
      · refine ⟨hplayers, hdropped, fun k => ?_⟩
        rw [← hbracket k]
        simp only
        rw [info_setInfo]
        split_ifs with hk
        · unfold BgQueue.info
          rw [hk, hgi, getD_some, getD_some]
        · rfl

theorem seat_update (cfg : BgConfig) (tmpl : Option BgTemplate) (m : BgMoment) {q : BgQueue}
    (type : BgType) (b : Nat) (h : q.Wired) (g : Nat) :
    (q.update cfg tmpl m type b).queue.seat g = none ∨
      ((q.update cfg tmpl m type b).queue.seat g = q.seat g ∧
        g ∉ (q.update cfg tmpl m type b).dropped) := by
  obtain ⟨hplayers, hdropped, hbracket⟩ := update_seats cfg tmpl m q type b
  rw [seat_congr (congrArg (AList.lookup g) hplayers) fun i _ => hbracket i, hdropped]
  rcases seat_removeExpired m q.queuedPlayers.entries.length { queue := q } h g with hs | ⟨hs, hd⟩
  · exact Or.inl hs
  · exact Or.inr ⟨hs, fun hmem => not_mem_nil (hd hmem)⟩

end BgOutcome

/-! ## Slots -/

namespace BgPlayer

variable {pl : BgPlayer} {type type' : BgType}

theorem inQueue_iff : pl.inQueue type = true ↔ ∃ s ∈ pl.slots, s.queueType = some type := by
  unfold inQueue
  rw [any_eq_true]
  simp only [beq_iff_eq]

def freeSlots (pl : BgPlayer) : Nat := pl.slots.countP (·.queueType.isNone)

/-- A queue id that a player has stays where it is. -/
theorem inQueue_set {i : Nat} {s : BgSlot} (h : pl.inQueue type' = true)
    (hi : ∀ _ : i < pl.slots.length, pl.slots[i].queueType = some type' →
      s.queueType = some type') :
    BgPlayer.inQueue { pl with slots := pl.slots.set i s } type' = true := by
  obtain ⟨old, hmem, htype⟩ := inQueue_iff.mp h
  obtain ⟨k, hk, rfl⟩ := getElem_of_mem hmem
  rw [inQueue_iff]
  by_cases hki : i = k
  · subst hki
    exact ⟨s, mem_set hk s, hi hk htype⟩
  · refine ⟨pl.slots[k], mem_iff_getElem.mpr ⟨k, by simpa using hk, ?_⟩, htype⟩
    exact getElem_set_ne hki _

theorem inQueue_add (h : pl.inQueue type' = true) (type : BgType) :
    (pl.addBattleGroundQueueId type).inQueue type' = true := by
  unfold addBattleGroundQueueId
  split
  · exact h
  case h_2 i hi =>
    obtain ⟨hlt, hslot, -⟩ := findIdx?_eq_some_iff_getElem.mp hi
    refine inQueue_set h fun _ htype => ?_
    rw [htype] at hslot
    have heq : type' = type := by simpa using hslot
    rw [heq]

theorem inQueue_add_free (h : 0 < pl.freeSlots) (type : BgType) :
    (pl.addBattleGroundQueueId type).inQueue type = true := by
  obtain ⟨s, hs, hfree⟩ := countP_pos_iff.mp h
  unfold addBattleGroundQueueId
  split
  case h_1 hi =>
    have hno := findIdx?_eq_none_iff.mp hi s hs
    rw [hfree] at hno
    cases hno
  case h_2 i hi =>
    obtain ⟨hlt, -⟩ := findIdx?_eq_some_iff_getElem.mp hi
    exact inQueue_iff.mpr ⟨_, mem_set hlt _, rfl⟩

theorem freeSlots_add (pl : BgPlayer) (type : BgType) :
    pl.freeSlots ≤ (pl.addBattleGroundQueueId type).freeSlots + 1 := by
  unfold addBattleGroundQueueId
  split
  · omega
  case h_2 i hi =>
    obtain ⟨hlt, -⟩ := findIdx?_eq_some_iff_getElem.mp hi
    unfold freeSlots
    rw [countP_set hlt]
    split_ifs <;> omega

theorem inQueue_remove (h : pl.inQueue type' = true) (hne : type' ≠ type) :
    (pl.removeBattleGroundQueueId type).inQueue type' = true := by
  unfold removeBattleGroundQueueId
  split
  · exact h
  case h_2 i hi =>
    obtain ⟨hlt, hslot, -⟩ := findIdx?_eq_some_iff_getElem.mp hi
    refine inQueue_set h fun _ htype => ?_
    rw [htype] at hslot
    exact absurd (by simpa using hslot) hne

theorem slots_setInvite (pl : BgPlayer) (type : BgType) (id : Nat) :
    (pl.setInvite type id).slots.map (·.queueType) = pl.slots.map (·.queueType) := by
  unfold setInvite
  rw [map_map]
  refine map_congr_left fun s _ => ?_
  simp only [Function.comp_apply]
  split_ifs <;> rfl

theorem inQueue_setInvite (pl : BgPlayer) (type : BgType) (id : Nat) :
    (pl.setInvite type id).inQueue type' = pl.inQueue type' := by
  have hany : ∀ pl : BgPlayer,
      pl.inQueue type' = (pl.slots.map (·.queueType)).any (· == some type') := by
    intro pl
    rw [any_map]
    rfl
  rw [hany, hany, slots_setInvite]

theorem freeSlots_setInvite (pl : BgPlayer) (type : BgType) (id : Nat) :
    (pl.setInvite type id).freeSlots = pl.freeSlots := by
  have hcount : ∀ pl : BgPlayer,
      pl.freeSlots = (pl.slots.map (·.queueType)).countP (·.isNone) := by
    intro pl
    rw [countP_map]
    rfl
  rw [hcount, hcount, slots_setInvite]

theorem freeSlots_of_hasFree {n : Nat} (h : pl.hasFreeBattleGroundQueueId n = true) :
    0 < pl.freeSlots := by
  obtain ⟨s, hs, hfree⟩ := any_eq_true.mp h
  exact countP_pos_iff.mpr ⟨s, mem_of_mem_take hs, hfree⟩

end BgPlayer

end Windrunner
