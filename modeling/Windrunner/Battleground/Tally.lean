import Mathlib.Order.Interval.Finset.Nat
import Windrunner.Battleground.Consistent
import Windrunner.Battleground.Invited

/-!
# The counters of the battlegrounds

Of a queue only the tickets matter: where the group info of a player has been invited, its type and
its team. `Ledger` says that the players who are counted are those with a ticket to the battleground
and those who are in it or on their way. Each operation of the queues and of the battlegrounds keeps
it, as long as

* an invited group has no member who is not told (`Battles.Told`),
* nobody leaves a battleground before he has arrived (`Battles.Arrived`),
* and no join lets in a player who is in the queue still (`BgWorld.Kept`).
-/

namespace Windrunner

open Lib Function UInt32 Option Finset

/-- `IsInvitedToBGInstanceGUID`, `BgTypeId` and `GroupTeam` -/
abbrev BgTicket := Nat × BgType × BgTeam

def GroupQueueInfo.ticket (gi : GroupQueueInfo) : BgTicket :=
  (gi.isInvitedToBGInstanceGUID, gi.bgTypeId, gi.groupTeam)

namespace BgQueue

variable {q q' : BgQueue}

def ticketOf (q : BgQueue) (guid : Nat) : Option BgTicket :=
  (q.groupOf guid).map fun i => (q.info i).ticket

theorem ticketOf_eq {guid i : Nat} (h : q.groupOf guid = some i) :
    q.ticketOf guid = some (q.info i).ticket := by
  unfold ticketOf
  rw [h]
  rfl

theorem ticketOf_none {guid : Nat} (h : q.groupOf guid = none) : q.ticketOf guid = none := by
  unfold ticketOf
  rw [h]
  rfl

theorem ticketOf_congr (hg : q'.groupOf = q.groupOf) (hi : q'.infos = q.infos) :
    q'.ticketOf = q.ticketOf := by
  funext guid
  unfold ticketOf info
  rw [hg, hi]

theorem ticketOf_playerLoggedIn (guid : Nat) : (q.playerLoggedIn guid).ticketOf = q.ticketOf := by
  refine ticketOf_congr (reshaped_playerLoggedIn q guid).groupOf ?_
  unfold playerLoggedIn
  split <;> rfl

theorem ticketOf_playerLoggedOut (guid : Nat) (now : UInt32) :
    (q.playerLoggedOut guid now).ticketOf = q.ticketOf := by
  refine ticketOf_congr (reshaped_playerLoggedOut q guid now).groupOf ?_
  unfold playerLoggedOut
  split <;> rfl

/-! ## Leaving the queue -/

theorem lookup_removePlayer (guid g : Nat) : (q.removePlayer guid).queuedPlayers.lookup g =
    if g = guid then none else q.queuedPlayers.lookup g := by
  have htake : ∀ i, (q.takeOut guid i).queuedPlayers.lookup g =
      if g = guid then none else q.queuedPlayers.lookup g := by
    intro i
    show (q.queuedPlayers.erase guid).lookup g = _
    split_ifs with h
    · rw [h, AList.lookup_erase]
    · rw [AList.lookup_erase_ne h]
  unfold removePlayer
  cases hg : q.groupOf guid with
  | none =>
    split_ifs with h
    · rw [h]
      exact map_eq_none_iff.mp hg
    · rfl
  | some i =>
    simp only
    split
    · exact htake i
    · by_cases hempty : (q.takeOut guid i).playersOf i = []
      · rw [if_pos hempty]
        exact htake i
      · rw [if_neg hempty]
        exact htake i

theorem groupOf_removePlayer (guid g : Nat) :
    (q.removePlayer guid).groupOf g = if g = guid then none else q.groupOf g := by
  unfold groupOf
  rw [lookup_removePlayer]
  split_ifs <;> rfl

/-- A group info that stays is the same, up to its players. -/
theorem infos_removePlayer {guid j : Nat} {gi : GroupQueueInfo}
    (h : (q.removePlayer guid).infos j = some gi) :
    ∃ players, gi = { q.info j with players := players } := by
  have hsame : q.infos j = some gi → ∃ players, gi = { q.info j with players := players } := by
    intro h
    refine ⟨gi.players, ?_⟩
    unfold info
    rw [h]
    rfl
  have htake : ∀ i, (q.takeOut guid i).infos j = some gi →
      ∃ players, gi = { q.info j with players := players } := by
    intro i h
    change (q.setInfo i _).infos j = some gi at h
    rw [infos_setInfo] at h
    split_ifs at h with hj
    · obtain rfl := some_inj.mp h
      rw [hj]
      exact ⟨_, rfl⟩
    · exact hsame h
  unfold removePlayer at h
  split at h
  · exact hsame h
  · simp only at h
    split at h
    · exact htake _ h
    · split at h
      · rw [infos_setInfo, infos_setGroups] at h
        split_ifs at h
        exact htake _ h
      · exact htake _ h

/-- Who is queued is in a group that is there. -/
theorem infos_of_groupOf (h : q.Wired) {guid i : Nat} (hg : q.groupOf guid = some i) :
    ∃ gi, q.infos i = some gi ∧ i < q.nextInfo := by
  have hmem := (h.member guid i).mp hg
  cases hi : q.infos i with
  | none =>
    rw [playersOf, info, hi] at hmem
    cases hmem
  | some gi =>
    refine ⟨gi, rfl, Classical.byContradiction fun hlt => ?_⟩
    rw [h.fresh i (by omega)] at hi
    cases hi

/-- Only the player's own invitation goes. -/
theorem ticketOf_removePlayer (h : q.Wired) (guid : Nat) :
    (q.removePlayer guid).ticketOf = Function.update q.ticketOf guid none := by
  funext g
  rw [update_apply]
  have hgroup := @groupOf_removePlayer q guid g
  split_ifs with hg
  · rw [if_pos hg] at hgroup
    exact ticketOf_none hgroup
  · rw [if_neg hg] at hgroup
    cases hold : q.groupOf g with
    | none => rw [ticketOf_none (hgroup.trans hold), ticketOf_none hold]
    | some j =>
      rw [hold] at hgroup
      obtain ⟨gi, hgi, -⟩ := infos_of_groupOf (wired_removePlayer h guid) hgroup
      obtain ⟨players, rfl⟩ := infos_removePlayer hgi
      rw [ticketOf_eq hgroup, ticketOf_eq hold]
      unfold info at hgi ⊢
      rw [hgi]
      rfl

/-! ## Joining -/

/-- New group infos are not invited, and the ones with numbers below `n` stay as they are. -/
structure Admits (type : BgType) (n : Nat) (q q' : BgQueue) : Prop where
  next : n ≤ q'.nextInfo
  old : ∀ i, i < n → q'.infos i = q.infos i
  new : ∀ i gi, n ≤ i → q'.infos i = some gi →
    gi.isInvitedToBGInstanceGUID = 0 ∧ gi.bgTypeId = type
  groupOf : ∀ g, q'.groupOf g = q.groupOf g ∨ ∃ i, n ≤ i ∧ q'.groupOf g = some i

variable {type : BgType} {n : Nat} {team : BgTeam} {j : BgJoin} {q₀ : BgQueue}

variable (team) in
section

variable (h : Admits type n q₀ q)
include h

theorem Admits.newInfo (hj : j.bgTypeId = type) :
    Admits type n q₀ (q.newInfo team j) := by
  refine ⟨Nat.le_succ_of_le h.next, fun i hi => ?_, fun i gi hi hgi => ?_, h.groupOf⟩
  · show (q.setInfo q.nextInfo _).infos i = _
    rw [infos_setInfo, if_neg (by have := h.next; omega)]
    exact h.old i hi
  · change (q.setInfo q.nextInfo _).infos i = _ at hgi
    rw [infos_setInfo] at hgi
    split_ifs at hgi
    · obtain rfl := some_inj.mp hgi
      exact ⟨rfl, hj⟩
    · exact h.new i gi hi hgi

theorem Admits.queuePlayer {i : Nat} (hi : n ≤ i)
    (hsome : (q.infos i).isSome) (guid : Nat) : Admits type n q₀ (queuePlayer i q guid) := by
  refine ⟨h.next, fun k hk => ?_, fun k gi hk hgi => ?_, fun g => ?_⟩
  · show (q.setInfo i _).infos k = _
    rw [infos_setInfo, if_neg (by omega)]
    exact h.old k hk
  · change (q.setInfo i _).infos k = _ at hgi
    rw [infos_setInfo] at hgi
    by_cases hki : k = i
    · rw [if_pos hki] at hgi
      obtain rfl := some_inj.mp hgi
      obtain ⟨gi, hgi⟩ := isSome_iff_exists.mp hsome
      have hnew := h.new i gi hi hgi
      unfold info
      rw [hgi]
      exact hnew
    · rw [if_neg hki] at hgi
      exact h.new k gi hk hgi
  · rw [groupOf_queuePlayer]
    split_ifs
    · exact Or.inr ⟨i, hi, rfl⟩
    · exact h.groupOf g

theorem Admits.pushGroup (b t i : Nat) :
    Admits type n q₀ (q.pushGroup b t i) := by
  unfold BgQueue.pushGroup
  split_ifs
  · exact h
  · exact { h with }

theorem Admits.addSolo {teams : Nat → BgTeam} (hj : j.bgTypeId = type)
    (guid : Nat) : Admits type n q₀ (q.addSolo teams j guid) :=
  ((h.newInfo _ hj).queuePlayer h.next (infos_newInfo (teams guid) j).1 guid).pushGroup ..

theorem Admits.addGroup {teams : Nat → BgTeam} (hj : j.bgTypeId = type)
    (groupLimit leader : Nat) (grp : BgGroup) (excluded : List Nat) :
    Admits type n q₀ (q.addGroup teams groupLimit j leader grp excluded) := by
  unfold BgQueue.addGroup
  simp only
  refine Admits.pushGroup ?_ ..
  have hnew := h.newInfo (teams leader) hj
  by_cases hlimit : grp.membersCount > groupLimit
  · simp only [if_pos hlimit]
    refine List.foldlRecOn (motive := Admits type n q₀) grp.members _ hnew fun q' h' guid _ => ?_
    split_ifs
    · exact h'
    · exact h'.addSolo (j := { j with isPremade := false }) hj guid
  · simp only [if_neg hlimit]
    refine (List.foldlRecOn (motive := fun q' => Admits type n q₀ q' ∧ (q'.infos q.nextInfo).isSome)
      grp.members _ ⟨hnew, (infos_newInfo (teams leader) j).1⟩ fun q' h' guid _ => ?_).1
    split_ifs
    · exact h'
    · exact ⟨h'.1.queuePlayer h.next h'.2 guid, (infos_queuePlayer guid).1⟩

end

/-- Who has joined has a ticket that is not to a battleground. -/
theorem Admits.ticketOf (h : Admits type q.nextInfo q q') (hq : q.Wired) (hq' : q'.Wired)
    (g : Nat) : q'.ticketOf g = q.ticketOf g ∨
      (q.ticketOf g = none ∧ ∃ t, q'.ticketOf g = some (0, type, t)) := by
  have hold : ∀ i, q.groupOf g = some i → q'.groupOf g = some i ∧ i < q.nextInfo := by
    intro i hg
    obtain ⟨gi, -, hlt⟩ := infos_of_groupOf hq hg
    refine ⟨(hq'.member g i).mpr ?_, hlt⟩
    unfold playersOf info
    rw [h.old i hlt]
    exact (hq.member g i).mp hg
  cases hg : q.groupOf g with
  | some i =>
    obtain ⟨hg', hlt⟩ := hold i hg
    refine Or.inl ?_
    rw [ticketOf_eq hg', ticketOf_eq hg]
    unfold info
    rw [h.old i hlt]
  | none =>
    rcases h.groupOf g with hsame | ⟨i, hi, hg'⟩
    · exact Or.inl ((ticketOf_none (hsame.trans hg)).trans (ticketOf_none hg).symm)
    · obtain ⟨gi, hgi, -⟩ := infos_of_groupOf hq' hg'
      obtain ⟨h0, htype⟩ := h.new i gi hi hgi
      refine Or.inr ⟨ticketOf_none hg, gi.groupTeam, ?_⟩
      rw [ticketOf_eq hg']
      unfold info GroupQueueInfo.ticket
      rw [hgi, ← h0, ← htype]
      rfl

end BgQueue

namespace BgWorld

/-- The queue into which somebody has been let. -/
def entered (s : BgSetup) (w : BgWorld) (e : Entry) : BgQueue :=
  match e.grp with
  | none => (w.queues e.join.bgTypeId).addSolo s.team e.join e.leader
  | some grp =>
    (w.queues e.join.bgTypeId).addGroup s.team s.cfg.groupLimit e.join e.leader grp e.excluded

/-- Joining changes one queue. -/
theorem queues_enter (s : BgSetup) (w : BgWorld) (e : Entry) :
    (w.enter s e).queues = Function.update w.queues e.join.bgTypeId (w.entered s e) := by
  unfold enter
  simp only
  rw [queues_foldl_mapPlayer (fun guid => guid)]
  rfl

theorem admits_enter (s : BgSetup) {w : BgWorld} (hw : w.AllWired) (e : Entry) :
    BgQueue.Admits e.join.bgTypeId (w.queues e.join.bgTypeId).nextInfo
      (w.queues e.join.bgTypeId) (w.entered s e) := by
  have hstart : BgQueue.Admits e.join.bgTypeId (w.queues e.join.bgTypeId).nextInfo
      (w.queues e.join.bgTypeId) (w.queues e.join.bgTypeId) := by
    refine ⟨Nat.le_refl _, fun _ _ => rfl, fun i gi hi hgi => ?_, fun _ => Or.inl rfl⟩
    rw [(hw _).fresh i hi] at hgi
    cases hgi
  unfold entered
  cases e.grp with
  | none => exact hstart.addSolo rfl e.leader
  | some grp => exact hstart.addGroup rfl s.cfg.groupLimit e.leader grp e.excluded

end BgWorld

namespace Battles

/-! ## The ledger -/

/-- `T` is what ticket a player has in a queue. -/
structure Ledger (T : BgType → Nat → Option BgTicket) (b : Battles) : Prop where
  pos : 0 < b.nextInstance
  live : ∀ id bg, b.battles id = some bg → 0 < id ∧ id < b.nextInstance
  known : ∀ type g id type' t, T type g = some (id, type', t) → type' = type ∧ id < b.nextInstance
  kind : ∀ type g id type' t bg, T type g = some (id, type', t) → b.battles id = some bg →
    bg.type = type
  data : ∀ g d, b.bgData g = some d → d.instanceId < b.nextInstance
  dataKind : ∀ g d bg, b.bgData g = some d → b.battles d.instanceId = some bg → bg.type = d.type
  member : ∀ id bg t g, b.battles id = some bg → (g ∈ b.counted id t ↔
    T bg.type g = some (id, bg.type, t) ∨ b.bgData g = some ⟨id, bg.type, t⟩)
  apart : ∀ type g id type' t d, T type g = some (id, type', t) → id ≠ 0 → b.bgData g = some d →
    d.instanceId ≠ id
  players : ∀ id bg g t, b.battles id = some bg → bg.players.lookup g = some t →
    b.bgData g = some ⟨id, bg.type, t⟩
  count : ∀ id bg t, b.battles id = some bg → (bg.invited t).toNat = (b.counted id t).card
  small : ∀ id t, ∀ g ∈ b.counted id t, 0 < g ∧ g < 4294967296
  blank : ∀ id t, b.nextInstance ≤ id → b.counted id t = ∅

/-- There are less players than a counter can hold. -/
theorem card_lt_of_small {l : Finset Nat} (h : ∀ g ∈ l, 0 < g ∧ g < 4294967296) :
    l.card < 4294967296 := by
  have hsub : l ⊆ Finset.Ioo 0 4294967296 := fun g hg => mem_Ioo.mpr (h g hg)
  have hcard := card_le_card hsub
  rw [Nat.card_Ioo] at hcard
  omega

theorem ledger_empty : Ledger (fun _ _ => none) {} where
  pos := Nat.one_pos
  live _ _ h := by cases h
  known _ _ _ _ _ h := by cases h
  kind _ _ _ _ _ _ h := by cases h
  data _ _ h := by cases h
  dataKind _ _ _ h := by cases h
  member _ _ _ _ h := by cases h
  apart _ _ _ _ _ _ h := by cases h
  players _ _ _ _ h := by cases h
  count _ _ _ h := by cases h
  small _ _ _ h := absurd h (notMem_empty _)
  blank _ _ _ := rfl

section Operations

variable {T T' : BgType → Nat → Option BgTicket} {b : Battles}

/-- A ticket that is not to a battleground does not count. -/
theorem Ledger.enter (h : Ledger T b) (hT : ∀ type g, T' type g = T type g ∨
    (T type g = none ∧ ∃ t, T' type g = some (0, type, t))) : Ledger T' b := by
  have hold : ∀ type g id type' t, T' type g = some (id, type', t) →
      T type g = some (id, type', t) ∨ (id = 0 ∧ type' = type) := by
    intro type g id type' t hticket
    rcases hT type g with hsame | ⟨-, t', hnew⟩
    · exact Or.inl (hsame.symm.trans hticket)
    · rw [hnew] at hticket
      cases hticket
      exact Or.inr ⟨rfl, rfl⟩
  have hnext : ∀ id bg, b.battles id = some bg → id ≠ 0 := fun id bg hbg =>
    Nat.pos_iff_ne_zero.mp (h.live id bg hbg).1
  refine { h with
    known := fun type g id type' t hticket => ?_
    kind := fun type g id type' t bg hticket hbg => ?_
    member := fun id bg t g hbg => ?_
    apart := fun type g id type' t d hticket h0 => ?_ }
  · rcases hold _ _ _ _ _ hticket with hticket | ⟨rfl, rfl⟩
    · exact h.known _ _ _ _ _ hticket
    · exact ⟨rfl, h.pos⟩
  · rcases hold _ _ _ _ _ hticket with hticket | ⟨rfl, -⟩
    · exact h.kind _ _ _ _ _ _ hticket hbg
    · exact absurd rfl (hnext _ _ hbg)
  · rw [h.member id bg t g hbg]
    refine or_congr_left ?_
    rcases hT bg.type g with hsame | ⟨hnone, t', hnew⟩
    · rw [hsame]
    · rw [hnone, hnew]
      refine iff_of_false (fun he => ?_) (fun he => ?_)
      · cases he
      · cases he
        exact absurd rfl (hnext _ _ hbg)
  · rcases hold _ _ _ _ _ hticket with hticket | ⟨rfl, -⟩
    · exact h.apart _ _ _ _ _ _ hticket h0
    · exact absurd rfl h0

/-- The player is counted, and for which team: he has a ticket, or he has accepted. -/
def Claims (T : BgType → Nat → Option BgTicket) (b : Battles) (id : Nat) (type : BgType)
    (t : BgTeam) (g : Nat) : Prop :=
  T type g = some (id, type, t) ∨ b.bgData g = some ⟨id, type, t⟩

/-- `guid` gives back his place in the battleground `id`, and nothing else changes. -/
theorem Ledger.lower (h : Ledger T b) {b' : Battles} (id guid : Nat)
    (hnext : b'.nextInstance = b.nextInstance)
    (hT : ∀ type g x, T' type g = some x → T type g = some x)
    (hdata : ∀ g d, b'.bgData g = some d → b.bgData g = some d)
    (hclaims : ∀ id' bg t g, b.battles id' = some bg → (Claims T' b' id' bg.type t g ↔
      Claims T b id' bg.type t g ∧ ¬ (id' = id ∧ g = guid)))
    (hsub : ∀ id' t, b'.counted id' t ⊆ b.counted id' t)
    (hcounted : ∀ id' bg t, b.battles id' = some bg →
      b'.counted id' t = if id' = id then (b.counted id t).erase guid else b.counted id' t)
    (hbattles : ∀ id' bg', b'.battles id' = some bg' → ∃ bg, b.battles id' = some bg ∧
      bg'.type = bg.type ∧
      (∀ t, (bg'.invited t).toNat + (if id' = id ∧ guid ∈ b.counted id t then 1 else 0) =
        (bg.invited t).toNat) ∧
      ∀ g t, bg'.players.lookup g = some t →
        bg.players.lookup g = some t ∧ b'.bgData g = b.bgData g) : Ledger T' b' := by
  refine ⟨by rw [hnext]; exact h.pos, fun id' bg' hbg' => ?_, fun type g id' type' t hg => ?_,
    fun type g id' type' t bg' hg hbg' => ?_, fun g d hd => ?_, fun g d bg' hd hbg' => ?_,
    fun id' bg' t g hbg' => ?_, fun type g id' type' t d hg h0 hd => ?_,
    fun id' bg' g t hbg' hg => ?_, fun id' bg' t hbg' => ?_, fun id' t g hg => ?_,
    fun id' t hid' => ?_⟩
  · obtain ⟨bg, hbg, -⟩ := hbattles id' bg' hbg'
    rw [hnext]
    exact h.live id' bg hbg
  · rw [hnext]
    exact h.known type g id' type' t (hT _ _ _ hg)
  · obtain ⟨bg, hbg, htype, -⟩ := hbattles id' bg' hbg'
    exact htype.trans (h.kind type g id' type' t bg (hT _ _ _ hg) hbg)
  · rw [hnext]
    exact h.data g d (hdata g d hd)
  · obtain ⟨bg, hbg, htype, -⟩ := hbattles _ bg' hbg'
    exact htype.trans (h.dataKind g d bg (hdata g d hd) hbg)
  · obtain ⟨bg, hbg, htype, -⟩ := hbattles id' bg' hbg'
    have hmember := h.member id' bg t g hbg
    have hclaim := hclaims id' bg t g hbg
    unfold Claims at hclaim
    rw [htype, hclaim, ← hmember, hcounted id' bg t hbg]
    split_ifs with hid
    · subst hid
      rw [mem_erase]
      tauto
    · tauto
  · exact h.apart type g id' type' t d (hT _ _ _ hg) h0 (hdata g d hd)
  · obtain ⟨bg, hbg, htype, -, hplayers⟩ := hbattles id' bg' hbg'
    obtain ⟨hold, hsame⟩ := hplayers g t hg
    rw [hsame, htype]
    exact h.players id' bg g t hbg hold
  · obtain ⟨bg, hbg, -, hinvited, -⟩ := hbattles id' bg' hbg'
    have hcount := h.count id' bg t hbg
    have hinv := hinvited t
    rw [hcounted id' bg t hbg]
    split_ifs with hid
    · subst hid
      by_cases hmem : guid ∈ b.counted id' t
      · rw [if_pos ⟨rfl, hmem⟩] at hinv
        have hcard := card_erase_add_one hmem
        omega
      · rw [if_neg fun hc => hmem hc.2] at hinv
        rw [erase_eq_of_notMem hmem]
        omega
    · rw [if_neg fun hc => hid hc.1] at hinv
      omega
  · exact h.small id' t g (hsub id' t hg)
  · rw [hnext] at hid'
    exact subset_empty.mp ((h.blank id' t hid') ▸ hsub id' t)

variable {id : Nat} {bg : BgBattle}

theorem getBattleGround_some {type : BgType} :
    b.getBattleGround id type = some bg ↔ b.battles id = some bg ∧ bg.type = type := by
  unfold getBattleGround
  rw [filter_eq_some_iff]
  simp

theorem toNat_sub_one {x : UInt32} (h : 0 < x.toNat) : (x - 1).toNat + 1 = x.toNat := by
  have hle : (1 : UInt32) ≤ x := le_iff_toNat_le.mpr h
  rw [UInt32.toNat_sub_of_le _ _ hle]
  show x.toNat - 1 + 1 = x.toNat
  omega

/-- Who is counted for a team is counted for no other. -/
theorem Ledger.one_team (h : Ledger T b) {t t' : BgTeam} {g : Nat}
    (hbg : b.battles id = some bg) (hg : g ∈ b.counted id t) (hg' : g ∈ b.counted id t') :
    t = t' := by
  have h0 := Nat.pos_iff_ne_zero.mp (h.live id bg hbg).1
  rw [h.member id bg _ g hbg] at hg hg'
  rcases hg with hg | hg
  · rcases hg' with hg' | hg'
    · rw [hg] at hg'
      cases hg'
      rfl
    · exact absurd rfl (h.apart _ _ _ _ _ _ hg h0 hg')
  · rcases hg' with hg' | hg'
    · exact absurd rfl (h.apart _ _ _ _ _ _ hg' h0 hg)
    · rw [hg] at hg'
      cases hg'
      rfl

/-- A counter goes down for one who is counted. -/
theorem Ledger.invited_sub (h : Ledger T b) {t : BgTeam} {guid : Nat}
    (hbg : b.battles id = some bg) (hg : guid ∈ b.counted id t) (t' : BgTeam) :
    (Function.update bg.invited t (bg.invited t - 1) t').toNat +
      (if guid ∈ b.counted id t' then 1 else 0) = (bg.invited t').toNat := by
  by_cases ht : t' = t
  · subst ht
    rw [update_self, if_pos hg]
    refine toNat_sub_one ?_
    rw [h.count id bg t' hbg]
    exact card_pos.mpr ⟨guid, hg⟩
  · rw [update_of_ne ht, if_neg fun hg' => ht (h.one_team hbg hg' hg)]
    rfl

/-- Who leaves a queue has no ticket, and is not counted. -/
theorem Ledger.decreaseFor (h : Ledger T b) {q : BgQueue} {type : BgType} (guid : Nat)
    (hq : T type guid = q.ticketOf guid) :
    Ledger (Function.update T type (Function.update (T type) guid none))
      (b.decreaseFor q guid) := by
  have hT : ∀ type' g, Function.update T type (Function.update (T type) guid none) type' g =
      if type' = type ∧ g = guid then none else T type' g := by
    intro type' g
    rw [update_apply]
    split_ifs with ht hg hg
    · rw [update_apply, if_pos hg.2]
    · rw [update_apply, if_neg fun hg' => hg ⟨ht, hg'⟩, ht]
    · exact absurd hg.1 ht
    · rfl
  generalize Function.update T type (Function.update (T type) guid none) = T' at hT
  have hkeep : ∀ type' g x, T' type' g = some x → T type' g = some x := by
    intro type' g x hx
    rw [hT] at hx
    split_ifs at hx
    exact hx
  -- The battleground whose place he gives back; 0 is none.
  have hclaims : ∀ id type' t, (T type guid = none ∧ id = 0) ∨ T type guid = some (id, type', t) →
      ∀ id' bg t' g, b.battles id' = some bg → (Claims T' b id' bg.type t' g ↔
        Claims T b id' bg.type t' g ∧ ¬ (id' = id ∧ g = guid)) := by
    intro id type' t hticket id' bg t' g hbg
    have h0 := Nat.pos_iff_ne_zero.mp (h.live id' bg hbg).1
    unfold Claims
    rw [hT]
    by_cases hg : bg.type = type ∧ g = guid
    · obtain ⟨rfl, rfl⟩ := hg
      rw [if_pos ⟨rfl, rfl⟩]
      rcases hticket with ⟨hnone, rfl⟩ | hticket
      · rw [hnone]
        simp [h0]
      · obtain ⟨rfl, -⟩ := h.known _ _ _ _ _ hticket
        by_cases hid : id' = id
        · subst hid
          refine iff_of_false ?_ fun hc => hc.2 ⟨rfl, rfl⟩
          rintro (hc | hc)
          · cases hc
          · exact h.apart _ _ _ _ _ _ hticket h0 hc rfl
        · rw [hticket]
          simp [hid]
          intro he
          exact absurd he.symm hid
    · rw [if_neg hg]
      refine ⟨fun hc => ⟨hc, ?_⟩, And.left⟩
      rintro ⟨rfl, rfl⟩
      rcases hticket with ⟨-, rfl⟩ | hticket
      · exact h0 rfl
      · exact hg ⟨h.kind _ _ _ _ _ _ hticket hbg, rfl⟩
  have hzero : ∀ {type' t}, (T type guid = none) ∨ T type guid = some (0, type', t) →
      Ledger T' b := by
    intro type' t hticket
    refine h.lower 0 guid rfl hkeep (fun _ _ hd => hd)
      (hclaims 0 type' t (hticket.imp_left fun hn => ⟨hn, rfl⟩)) (fun _ _ => subset_rfl)
      (fun id' bg t hbg => ?_) fun id' bg hbg => ⟨bg, hbg, rfl, fun t => ?_, fun g t hg => ⟨hg, rfl⟩⟩
    · rw [if_neg (Nat.pos_iff_ne_zero.mp (h.live id' bg hbg).1)]
    · rw [if_neg fun hc => Nat.pos_iff_ne_zero.mp (h.live id' bg hbg).1 hc.1]
      rfl
  unfold Battles.decreaseFor
  cases hg : q.groupOf guid with
  | none => exact @hzero type .alliance (Or.inl (hq.trans (BgQueue.ticketOf_none hg)))
  | some i =>
    have hticket := hq.trans (BgQueue.ticketOf_eq hg)
    simp only
    split_ifs with h0
    · unfold GroupQueueInfo.ticket at hticket
      rw [h0] at hticket
      exact hzero (Or.inr hticket)
    · have hsame := h.known _ _ _ _ _ hticket
      have hcount : ∀ id' bg t', b.battles id' = some bg →
          (if id' = (q.info i).isInvitedToBGInstanceGUID then (b.counted id' t').erase guid
            else b.counted id' t') = if id' = (q.info i).isInvitedToBGInstanceGUID then
              (b.counted (q.info i).isInvitedToBGInstanceGUID t').erase guid
            else b.counted id' t' := by
        intro id' bg t' _
        split_ifs with hid
        · rw [hid]
        · rfl
      have hsub : ∀ id' t', (if id' = (q.info i).isInvitedToBGInstanceGUID then
          (b.counted id' t').erase guid else b.counted id' t') ⊆ b.counted id' t' := by
        intro id' t'
        split_ifs
        · exact erase_subset _ _
        · exact subset_rfl
      unfold decreaseInvitedCount
      split
      case h_1 hnone =>
        have hdead : ∀ bg, b.battles (q.info i).isInvitedToBGInstanceGUID ≠ some bg := by
          intro bg hbg
          have hkind := h.kind _ _ _ _ _ _ hticket hbg
          rw [getBattleGround_some.mpr ⟨hbg, hkind.trans hsame.1.symm⟩] at hnone
          cases hnone
        refine h.lower _ guid rfl hkeep (fun _ _ hd => hd) (hclaims _ _ _ (Or.inr hticket)) hsub
          hcount fun id' bg hbg => ⟨bg, hbg, rfl, fun t' => ?_, fun g t' hg => ⟨hg, rfl⟩⟩
        have hne : ¬ (id' = (q.info i).isInvitedToBGInstanceGUID ∧
            guid ∈ b.counted (q.info i).isInvitedToBGInstanceGUID t') := fun hc =>
          hdead bg (hc.1 ▸ hbg)
        rw [if_neg hne]
        rfl
      case h_2 bg hbg =>
        obtain ⟨hbg, hkind⟩ := getBattleGround_some.mp hbg
        have hmem : guid ∈ b.counted (q.info i).isInvitedToBGInstanceGUID (q.info i).groupTeam := by
          rw [h.member _ bg _ guid hbg, hkind, hsame.1]
          exact Or.inl (hsame.1 ▸ hticket)
        refine h.lower _ guid rfl hkeep (fun _ _ hd => hd) (hclaims _ _ _ (Or.inr hticket)) hsub
          hcount fun id' bg' hbg' => ?_
        change Function.update b.battles _ _ id' = some bg' at hbg'
        rw [update_apply] at hbg'
        split_ifs at hbg' with hid
        · obtain rfl := some_inj.mp hbg'
          refine ⟨bg, hid ▸ hbg, rfl, fun t' => ?_, fun g t' hg => ⟨hg, rfl⟩⟩
          have hinv := h.invited_sub hbg hmem t'
          simpa [hid] using hinv
        · refine ⟨bg', hbg', rfl, fun t' => ?_, fun g t' hg => ⟨hg, rfl⟩⟩
          rw [if_neg fun hc => hid hc.1]
          rfl

/-- A battleground changes, but not its counters. -/
theorem Ledger.replace (h : Ledger T b) {bg' : BgBattle} (hbg : b.battles id = some bg)
    (htype : bg'.type = bg.type) (hinvited : ∀ t, bg'.invited t = bg.invited t)
    (hplayers : ∀ g t, bg'.players.lookup g = some t → b.bgData g = some ⟨id, bg.type, t⟩) :
    Ledger T (b.setBattle id (some bg')) := by
  have hold : ∀ id' bg'', Function.update b.battles id (some bg') id' = some bg'' →
      ∃ bg, b.battles id' = some bg ∧ bg''.type = bg.type ∧ (∀ t, bg''.invited t = bg.invited t) ∧
        ∀ g t, bg''.players.lookup g = some t → b.bgData g = some ⟨id', bg.type, t⟩ := by
    intro id' bg'' hbg''
    rw [update_apply] at hbg''
    split_ifs at hbg'' with hid
    · obtain rfl := some_inj.mp hbg''
      subst hid
      exact ⟨bg, hbg, htype, hinvited, hplayers⟩
    · exact ⟨bg'', hbg'', rfl, fun _ => rfl, fun g t hg => h.players id' bg'' g t hbg'' hg⟩
  refine ⟨h.pos, fun id' bg'' hbg'' => ?_, h.known, fun type g id' type' t bg'' hg hbg'' => ?_, h.data,
    fun g d bg'' hd hbg'' => ?_, fun id' bg'' t g hbg'' => ?_, h.apart,
    fun id' bg'' g t hbg'' hg => ?_, fun id' bg'' t hbg'' => ?_, h.small, h.blank⟩
  · obtain ⟨bg, hbg, -⟩ := hold id' bg'' hbg''
    exact h.live id' bg hbg
  · obtain ⟨bg, hbg, htype, -⟩ := hold id' bg'' hbg''
    exact htype.trans (h.kind _ _ _ _ _ _ hg hbg)
  · obtain ⟨bg, hbg, htype, -⟩ := hold _ bg'' hbg''
    exact htype.trans (h.dataKind g d bg hd hbg)
  · obtain ⟨bg, hbg, htype, -⟩ := hold id' bg'' hbg''
    rw [htype]
    exact h.member id' bg t g hbg
  · obtain ⟨bg, hbg, htype, -, hplayers⟩ := hold id' bg'' hbg''
    rw [htype]
    exact hplayers g t hg
  · obtain ⟨bg, hbg, -, hinvited, -⟩ := hold id' bg'' hbg''
    rw [hinvited]
    exact h.count id' bg t hbg

/-! ## Leaving, accepting, arriving -/

theorem current_some {guid : Nat} (h : b.current guid = some (id, bg)) :
    ∃ t, b.bgData guid = some ⟨id, bg.type, t⟩ ∧ b.battles id = some bg := by
  unfold current at h
  obtain ⟨d, hd, h⟩ := bind_eq_some_iff.mp h
  obtain ⟨bg', hbg', he⟩ := map_eq_some_iff.mp h
  cases he
  obtain ⟨hbg, htype⟩ := getBattleGround_some.mp hbg'
  refine ⟨d.team, ?_, hbg⟩
  rw [hd, htype]

section

variable (h : Ledger T b)
include h

theorem Ledger.current_of {guid : Nat} {d : BgData}
    (hd : b.bgData guid = some d) (hbg : b.battles d.instanceId = some bg) :
    b.current guid = some (d.instanceId, bg) := by
  unfold current
  rw [hd, bind_some, getBattleGround_some.mpr ⟨hbg, h.dataKind guid d bg hd hbg⟩]
  rfl

/-- A participant leaves. -/
theorem Ledger.leave {guid : Nat} {t : BgTeam}
    (hcurrent : b.current guid = some (id, bg)) (ht : bg.players.lookup guid = some t) :
    Ledger T (b.removePlayerAtLeave id bg guid) := by
  obtain ⟨t', hd, hbg⟩ := current_some hcurrent
  have hdata := h.players id bg guid t hbg ht
  have h0 := Nat.pos_iff_ne_zero.mp (h.live id bg hbg).1
  have hmem : guid ∈ b.counted id t := (h.member id bg t guid hbg).mpr (Or.inr hdata)
  have hgone : ∀ g d, Function.update b.bgData guid none g = some d → b.bgData g = some d := by
    intro g d hg
    rw [update_apply] at hg
    split_ifs at hg
    exact hg
  unfold removePlayerAtLeave
  simp only [ht]
  refine h.lower id guid rfl (fun _ _ _ hx => hx) hgone (fun id' bg' t' g hbg' => ?_)
    (fun id' t' => ?_) (fun id' bg' t' hbg' => ?_) fun id' bg' hbg' => ?_
  · unfold Claims
    show T bg'.type g = _ ∨ Function.update b.bgData guid none g = _ ↔ _
    rw [update_apply]
    by_cases hg : g = guid
    · subst hg
      rw [if_pos rfl, hdata]
      by_cases hid : id' = id
      · subst hid
        refine iff_of_false ?_ fun hc => hc.2 ⟨rfl, rfl⟩
        rintro (hc | hc)
        · exact h.apart _ _ _ _ _ _ hc h0 hdata rfl
        · cases hc
      · simp [hid]
        intro he
        exact absurd he.symm hid
    · rw [if_neg hg]
      exact ⟨fun hc => ⟨hc, fun he => hg he.2⟩, And.left⟩
  · show (if id' = id then (b.counted id' t').erase guid else b.counted id' t') ⊆ _
    split_ifs
    · exact erase_subset _ _
    · exact subset_rfl
  · show (if id' = id then (b.counted id' t').erase guid else b.counted id' t') = _
    split_ifs with hid
    · rw [hid]
    · rfl
  · change Function.update b.battles _ _ id' = some bg' at hbg'
    rw [update_apply] at hbg'
    split_ifs at hbg' with hid
    · obtain rfl := some_inj.mp hbg'
      refine ⟨bg, hid ▸ hbg, rfl, fun t' => ?_, fun g t' hg => ?_⟩
      · have hinv := h.invited_sub hbg hmem t'
        simpa [hid] using hinv
      · have hne : g ≠ guid := by
          rintro rfl
          rw [AList.lookup_erase] at hg
          cases hg
        rw [AList.lookup_erase_ne hne] at hg
        exact ⟨hg, update_of_ne hne _ _⟩
    · refine ⟨bg', hbg', rfl, fun t' => ?_, fun g t' hg => ⟨hg, ?_⟩⟩
      · rw [if_neg fun hc => hid hc.1]
        rfl
      · refine update_of_ne ?_ _ _
        rintro rfl
        have hother := h.players id' bg' g t' hbg' hg
        rw [hdata] at hother
        exact hid (congrArg BgData.instanceId (some_inj.mp hother)).symm

/-- Who has left, or was nowhere, can accept an invitation. -/
theorem Ledger.accept {type : BgType} {guid : Nat} {t : BgTeam}
    (hticket : T type guid = some (id, type, t)) (hbg : b.battles id = some bg)
    (hcurrent : b.current guid = none) :
    Ledger (Function.update T type (Function.update (T type) guid none))
      { b with bgData := Function.update b.bgData guid (some ⟨id, type, t⟩) } := by
  have h0 := Nat.pos_iff_ne_zero.mp (h.live id bg hbg).1
  have hkind := h.kind _ _ _ _ _ _ hticket hbg
  have hT : ∀ type' g, Function.update T type (Function.update (T type) guid none) type' g =
      if type' = type ∧ g = guid then none else T type' g := by
    intro type' g
    rw [update_apply]
    split_ifs with ht hg hg
    · rw [update_apply, if_pos hg.2]
    · rw [update_apply, if_neg fun hg' => hg ⟨ht, hg'⟩, ht]
    · exact absurd hg.1 ht
    · rfl
  generalize Function.update T type (Function.update (T type) guid none) = T' at hT
  have hkeep : ∀ type' g x, T' type' g = some x → T type' g = some x ∧ ¬ (type' = type ∧ g = guid) := by
    intro type' g x hx
    rw [hT] at hx
    split_ifs at hx with hg
    exact ⟨hx, hg⟩
  have hdata : ∀ g d, Function.update b.bgData guid (some ⟨id, type, t⟩) g = some d →
      (g = guid ∧ d = ⟨id, type, t⟩) ∨ (g ≠ guid ∧ b.bgData g = some d) := by
    intro g d hd
    rw [update_apply] at hd
    split_ifs at hd with hg
    · exact Or.inl ⟨hg, (some_inj.mp hd).symm⟩
    · exact Or.inr ⟨hg, hd⟩
  -- He is in no battleground that exists.
  have hnowhere : ∀ d bg', b.bgData guid = some d → b.battles d.instanceId ≠ some bg' := by
    intro d bg' hd hbg'
    rw [h.current_of hd hbg'] at hcurrent
    cases hcurrent
  refine ⟨h.pos, h.live, fun type' g id' type'' t' hg => h.known _ _ _ _ _ (hkeep _ _ _ hg).1,
    fun type' g id' type'' t' bg' hg hbg' => h.kind _ _ _ _ _ _ (hkeep _ _ _ hg).1 hbg',
    fun g d hd => ?_, fun g d bg' hd hbg' => ?_, fun id' bg' t' g hbg' => ?_,
    fun type' g id' type'' t' d hg hid hd => ?_, fun id' bg' g t' hbg' hg => ?_, h.count, h.small,
    h.blank⟩
  · rcases hdata g d hd with ⟨rfl, rfl⟩ | ⟨-, hd⟩
    · exact (h.live id bg hbg).2
    · exact h.data g d hd
  · rcases hdata g d hd with ⟨rfl, rfl⟩ | ⟨-, hd⟩
    · rw [hbg] at hbg'
      cases hbg'
      exact hkind
    · exact h.dataKind g d bg' hd hbg'
  · show g ∈ b.counted id' t' ↔ T' bg'.type g = _ ∨ Function.update b.bgData guid _ g = _
    rw [h.member id' bg' t' g hbg', hT, update_apply]
    by_cases hg : g = guid
    · subst hg
      rw [if_pos rfl]
      have hno : b.bgData g ≠ some ⟨id', bg'.type, t'⟩ := fun hd => hnowhere _ bg' hd hbg'
      by_cases htype : bg'.type = type
      · rw [if_pos ⟨htype, rfl⟩, htype, hticket]
        simp only [htype ▸ hno, or_false, false_or, some.injEq, Prod.mk.injEq,
          BgData.mk.injEq, reduceCtorEq]
      · rw [if_neg fun hc => htype hc.1]
        simp only [hno, or_false]
        refine ⟨Or.inl, fun hc => hc.resolve_right fun he => ?_⟩
        exact htype (congrArg BgData.type (some_inj.mp he)).symm
    · rw [if_neg fun hc => hg hc.2, if_neg hg]
  · obtain ⟨hg, hne⟩ := hkeep _ _ _ hg
    rcases hdata g d hd with ⟨rfl, rfl⟩ | ⟨-, hd⟩
    · rintro rfl
      exact hne ⟨(h.kind _ _ _ _ _ _ hg hbg).symm.trans hkind, rfl⟩
    · exact h.apart _ _ _ _ _ _ hg hid hd
  · have hd := h.players id' bg' g t' hbg' hg
    show Function.update b.bgData guid _ g = _
    rw [update_apply]
    split_ifs with hgu
    · rw [hgu] at hd
      exact absurd hbg' (hnowhere _ bg' hd)
    · exact hd

/-- A participant has a place already. -/
theorem Ledger.arrive (guid : Nat) : Ledger T (b.arrive guid) := by
  unfold Battles.arrive
  split
  case h_1 d id bg pl hd hcurrent hpl =>
    split_ifs
    · obtain ⟨t, hd', hbg⟩ := current_some hcurrent
      rw [hd] at hd'
      cases hd'
      refine h.replace hbg rfl (fun _ => rfl) fun g t' hg => ?_
      by_cases hgu : g = guid
      · subst hgu
        rw [AList.lookup_insert] at hg
        cases hg
        exact hd
      · rw [AList.lookup_insert_ne hgu] at hg
        exact h.players id bg g t' hbg hg
    · exact h
  case h_2 => exact h

/-- What is left of a battleground that does not exist any more -/
theorem Ledger.arriveElsewhere {guid : Nat} (hcurrent : b.current guid = none) :
    Ledger T (b.arriveElsewhere guid) := by
  unfold Battles.arriveElsewhere
  split
  case h_1 => exact h
  case h_2 d hd =>
    have hdead : ∀ bg, b.battles d.instanceId ≠ some bg := by
      intro bg hbg
      rw [h.current_of hd hbg] at hcurrent
      cases hcurrent
    refine h.lower d.instanceId guid rfl (fun _ _ _ hx => hx) (fun g d' hg => ?_)
      (fun id bg t g hbg => ?_) (fun id t => ?_) (fun id bg t hbg => ?_) fun id bg hbg =>
        ⟨bg, hbg, rfl, fun t => ?_, fun g t hg => ⟨hg, ?_⟩⟩
    · change Function.update b.bgData guid none g = some d' at hg
      rw [update_apply] at hg
      split_ifs at hg
      exact hg
    · have hid : id ≠ d.instanceId := fun hid => hdead bg (hid ▸ hbg)
      unfold Claims
      show T bg.type g = _ ∨ Function.update b.bgData guid none g = _ ↔ _
      rw [update_apply]
      split_ifs with hg
      · subst hg
        rw [hd]
        simp [hid]
        rintro rfl
        exact absurd rfl hid
      · exact ⟨fun hc => ⟨hc, fun he => hg he.2⟩, And.left⟩
    · show (if id = d.instanceId then (b.counted id t).erase guid else b.counted id t) ⊆ _
      split_ifs
      · exact erase_subset _ _
      · exact subset_rfl
    · show (if id = d.instanceId then (b.counted id t).erase guid else b.counted id t) = _
      split_ifs with hid
      · rw [hid]
      · rfl
    · have hid : id ≠ d.instanceId := fun hid => hdead bg (hid ▸ hbg)
      rw [if_neg fun hc => hid hc.1]
      rfl
    · refine update_of_ne ?_ _ _
      rintro rfl
      have hother := h.players id bg g t hbg hg
      rw [hd] at hother
      have hid := congrArg BgData.instanceId (some_inj.mp hother)
      exact hdead bg (hid ▸ hbg)

end

/-! ## The battlegrounds themselves -/

section

variable (h : Ledger T b)
include h

theorem Ledger.create (type : BgType) (maxPlayersPerTeam : UInt32) :
    Ledger T { b.setBattle b.nextInstance (some { type, maxPlayersPerTeam }) with
      nextInstance := b.nextInstance + 1 } := by
  have hold : ∀ id bg, Function.update b.battles b.nextInstance
      (some { type, maxPlayersPerTeam }) id = some bg →
      (id = b.nextInstance ∧ bg = { type, maxPlayersPerTeam }) ∨
        (id ≠ b.nextInstance ∧ b.battles id = some bg) := by
    intro id bg hbg
    rw [update_apply] at hbg
    split_ifs at hbg with hid
    · exact Or.inl ⟨hid, (some_inj.mp hbg).symm⟩
    · exact Or.inr ⟨hid, hbg⟩
  refine ⟨Nat.succ_pos _, fun id bg hbg => ?_, fun type' g id type'' t hg => ?_,
    fun type' g id type'' t bg hg hbg => ?_, fun g d hd => Nat.lt_succ_of_lt (h.data g d hd),
    fun g d bg hd hbg => ?_, fun id bg t g hbg => ?_, h.apart, fun id bg g t hbg hg => ?_,
    fun id bg t hbg => ?_, h.small, fun id t hid => h.blank id t (Nat.le_of_succ_le hid)⟩
  · rcases hold id bg hbg with ⟨rfl, -⟩ | ⟨-, hbg⟩
    · exact ⟨h.pos, Nat.lt_succ_self _⟩
    · obtain ⟨hpos, hlt⟩ := h.live id bg hbg
      exact ⟨hpos, Nat.lt_succ_of_lt hlt⟩
  · obtain ⟨htype, hlt⟩ := h.known _ _ _ _ _ hg
    exact ⟨htype, Nat.lt_succ_of_lt hlt⟩
  · rcases hold id bg hbg with ⟨rfl, -⟩ | ⟨-, hbg⟩
    · exact absurd (h.known _ _ _ _ _ hg).2 (Nat.lt_irrefl _)
    · exact h.kind _ _ _ _ _ _ hg hbg
  · rcases hold _ bg hbg with ⟨hid, -⟩ | ⟨-, hbg⟩
    · exact absurd hid (Nat.ne_of_lt (h.data g d hd))
    · exact h.dataKind g d bg hd hbg
  · rcases hold id bg hbg with ⟨rfl, rfl⟩ | ⟨-, hbg⟩
    · show g ∈ b.counted b.nextInstance t ↔ T type g = _ ∨ b.bgData g = _
      rw [h.blank _ t (Nat.le_refl _)]
      refine iff_of_false (notMem_empty g) ?_
      rintro (hg | hd)
      · exact Nat.lt_irrefl _ (h.known _ _ _ _ _ hg).2
      · exact Nat.lt_irrefl _ (h.data g _ hd)
    · exact h.member id bg t g hbg
  · rcases hold id bg hbg with ⟨rfl, rfl⟩ | ⟨-, hbg⟩
    · cases hg
    · exact h.players id bg g t hbg hg
  · rcases hold id bg hbg with ⟨rfl, rfl⟩ | ⟨-, hbg⟩
    · show (0 : UInt32).toNat = (b.counted b.nextInstance t).card
      rw [h.blank _ t (Nat.le_refl _)]
      rfl
    · exact h.count id bg t hbg

theorem Ledger.world (w : BgWorld) : Ledger T { b with world := w } :=
  { h with }

/-- A battleground is deleted, and those who take part in it are in none. -/
theorem Ledger.delete (bg : BgBattle) {data : Nat → Option BgData}
    (hdata : ∀ g, data g = b.bgData g ∨
      (data g = none ∧ ∃ t, b.bgData g = some ⟨id, bg.type, t⟩)) :
    Ledger T { b.setBattle id none with
      bgData := data
      counted := Function.update b.counted id fun _ => ∅ } := by
  have hold : ∀ id' bg', Function.update b.battles id none id' = some bg' →
      id' ≠ id ∧ b.battles id' = some bg' := by
    intro id' bg' hbg'
    rw [update_apply] at hbg'
    split_ifs at hbg' with hid
    exact ⟨hid, hbg'⟩
  have hkeep : ∀ g d, data g = some d → b.bgData g = some d := by
    intro g d hd
    rcases hdata g with hsame | ⟨hnone, -⟩
    · exact hsame.symm.trans hd
    · rw [hnone] at hd
      cases hd
  have hother : ∀ id' type t g, id' ≠ id →
      (data g = some ⟨id', type, t⟩ ↔ b.bgData g = some ⟨id', type, t⟩) := by
    intro id' type t g hid
    rcases hdata g with hsame | ⟨hnone, t', hd⟩
    · rw [hsame]
    · rw [hnone, hd]
      refine iff_of_false (fun hc => by cases hc) fun hc => hid ?_
      exact (congrArg BgData.instanceId (some_inj.mp hc)).symm
  have hcounted : ∀ id' t, id' ≠ id →
      Function.update b.counted id (fun _ => ∅) id' t = b.counted id' t := fun id' t hid => by
    rw [update_of_ne hid]
  have hsub : ∀ id' t, Function.update b.counted id (fun _ => ∅) id' t ⊆ b.counted id' t := by
    intro id' t
    by_cases hid : id' = id
    · rw [hid, update_self]
      exact empty_subset _
    · rw [hcounted id' t hid]
  refine ⟨h.pos, fun id' bg' hbg' => h.live id' bg' (hold id' bg' hbg').2, h.known,
    fun type g id' type' t bg' hg hbg' => h.kind _ _ _ _ _ _ hg (hold id' bg' hbg').2,
    fun g d hd => h.data g d (hkeep g d hd),
    fun g d bg' hd hbg' => h.dataKind g d bg' (hkeep g d hd) (hold _ bg' hbg').2,
    fun id' bg' t g hbg' => ?_,
    fun type g id' type' t d hg h0 hd => h.apart _ _ _ _ _ _ hg h0 (hkeep g d hd),
    fun id' bg' g t hbg' hg => ?_, fun id' bg' t hbg' => ?_,
    fun id' t g hg => h.small id' t g (hsub id' t hg), fun id' t hid' => ?_⟩
  · obtain ⟨hid, hbg'⟩ := hold id' bg' hbg'
    show g ∈ Function.update b.counted id (fun _ => ∅) id' t ↔ _ ∨ data g = _
    rw [hcounted id' t hid, hother id' _ t g hid]
    exact h.member id' bg' t g hbg'
  · obtain ⟨hid, hbg'⟩ := hold id' bg' hbg'
    exact (hother id' _ t g hid).mpr (h.players id' bg' g t hbg' hg)
  · obtain ⟨hid, hbg'⟩ := hold id' bg' hbg'
    show _ = (Function.update b.counted id (fun _ => ∅) id' t).card
    rw [hcounted id' t hid]
    exact h.count id' bg' t hbg'
  · have hempty := h.blank id' t hid'
    exact subset_empty.mp (hempty ▸ hsub id' t)

theorem Ledger.updateBattle (id : Nat) (isOver : Bool) :
    Ledger T (b.updateBattle id isOver) := by
  unfold Battles.updateBattle
  split
  case h_1 => exact h
  case h_2 bg hbg =>
    split_ifs
    · refine (h.delete bg fun g => ?_).world _
      by_cases hg : g ∈ bg.players
      · obtain ⟨t, ht⟩ := isSome_iff_exists.mp (AList.lookup_isSome.mpr hg)
        exact Or.inr ⟨if_pos hg, t, h.players id bg g t hbg ht⟩
      · exact Or.inl (if_neg hg)
    · exact h.delete bg fun _ => Or.inl rfl
    · exact h

theorem Ledger.setStatus (id : Nat) (status : BgStatus) (s : BgSetup) :
    Ledger T (b.step s (.setStatus id status)) := by
  unfold Battles.step
  dsimp only
  split
  case h_1 => exact h
  case h_2 bg hbg => exact h.replace hbg rfl (fun _ => rfl) fun g t hg => h.players id bg g t hbg hg

end

/-! ## Inviting a group -/

theorem foldl_increase (t : BgTeam) (l : List Nat) (hbg : b.battles id = some bg) :
    ∃ b', l.foldl (fun b g => b.increaseInvitedCount id t g) b = b' ∧
      b'.world = b.world ∧ b'.nextInstance = b.nextInstance ∧ b'.bgData = b.bgData ∧
      b'.battles = Function.update b.battles id (some { bg with
        invited := Function.update bg.invited t (bg.invited t + ofNat l.length) }) ∧
      ∀ id' t', b'.counted id' t' =
        if id' = id ∧ t' = t then b.counted id' t' ∪ l.toFinset else b.counted id' t' := by
  induction l generalizing b bg with
  | nil =>
    refine ⟨b, rfl, rfl, rfl, rfl, ?_, fun id' t' => ?_⟩
    · have hzero : bg.invited t + ofNat 0 = bg.invited t := add_zero _
      rw [List.length_nil, hzero, update_eq_self, update_eq_self_iff.mpr hbg.symm]
    · split_ifs
      · simp
      · rfl
  | cons g l ih =>
    rw [List.foldl_cons]
    have hone : b.increaseInvitedCount id t g = { b.setBattle id (some { bg with
        invited := Function.update bg.invited t (bg.invited t + 1) }) with
        counted := fun id' t' =>
          if id' = id ∧ t' = t then insert g (b.counted id' t') else b.counted id' t' } := by
      unfold increaseInvitedCount
      rw [hbg]
    have hbg' : (b.increaseInvitedCount id t g).battles id = some { bg with
        invited := Function.update bg.invited t (bg.invited t + 1) } := by
      rw [hone]
      exact update_self ..
    obtain ⟨b', hb', hworld, hnext, hdata, hbattles, hcounted⟩ := ih hbg'
    refine ⟨b', hb', ?_, ?_, ?_, ?_, fun id' t' => ?_⟩
    · rw [hworld, hone]
      rfl
    · rw [hnext, hone]
      rfl
    · rw [hdata, hone]
      rfl
    · rw [hbattles, hone]
      show Function.update (Function.update _ _ _) _ _ = _
      rw [update_idem]
      simp only [update_self, update_idem, List.length_cons]
      rw [add_assoc, Nat.add_comm l.length 1, ofNat_add]
      rfl
    · rw [hcounted, hone]
      simp only
      split_ifs
      · rw [List.toFinset_cons, insert_union, union_insert]
      · rfl

/-- The members of a group are told, and nobody of them is in a battleground. -/
theorem Ledger.invite (h : Ledger T b) {type : BgType} {t : BgTeam}
    {l : List Nat} (hbg : b.battles id = some bg) (htype : bg.type = type) (hl : l.Nodup)
    (hT : ∀ type' g, T' type' g =
      if type' = type ∧ g ∈ l then some (id, type, t) else T type' g)
    (hfree : ∀ g ∈ l, ∃ x, T type g = some (0, x)) (hout : ∀ g ∈ l, b.bgData g = none)
    (hsmall : ∀ g ∈ l, 0 < g ∧ g < 4294967296) :
    Ledger T' (l.foldl (fun b g => b.increaseInvitedCount id t g) b) := by
  obtain ⟨hpos, hnextId⟩ := h.live id bg hbg
  have h0 := Nat.pos_iff_ne_zero.mp hpos
  obtain ⟨b', hb', -, hnext, hdata, hbattles, hcounted⟩ := foldl_increase t l hbg
  rw [hb']
  have hold : ∀ id' bg', b'.battles id' = some bg' → ∃ bg'', b.battles id' = some bg'' ∧
      bg'.type = bg''.type ∧ bg'.players = bg''.players := by
    intro id' bg' hbg'
    rw [hbattles, update_apply] at hbg'
    split_ifs at hbg' with hid
    · obtain rfl := some_inj.mp hbg'
      exact ⟨bg, hid ▸ hbg, rfl, rfl⟩
    · exact ⟨bg', hbg', rfl, rfl⟩
  have hticket : ∀ type' g x, T' type' g = some x → (type' = type ∧ g ∈ l ∧ x = (id, type, t)) ∨
      (¬ (type' = type ∧ g ∈ l) ∧ T type' g = some x) := by
    intro type' g x hx
    rw [hT] at hx
    split_ifs at hx with hg
    · exact Or.inl ⟨hg.1, hg.2, (some_inj.mp hx).symm⟩
    · exact Or.inr ⟨hg, hx⟩
  have hnew : ∀ g ∈ l, ∀ t', g ∉ b.counted id t' := by
    intro g hg t' hmem
    rw [h.member id bg t' g hbg, htype, hout g hg] at hmem
    obtain ⟨x, hx⟩ := hfree g hg
    rw [hx] at hmem
    rcases hmem with hmem | hmem
    · exact h0 (congrArg Prod.fst (some_inj.mp hmem)).symm
    · cases hmem
  have hsmall' : ∀ id' t', ∀ g ∈ b'.counted id' t', 0 < g ∧ g < 4294967296 := by
    intro id' t' g hg
    rw [hcounted] at hg
    split_ifs at hg
    · rcases mem_union.mp hg with hg | hg
      · exact h.small id' t' g hg
      · exact hsmall g (List.mem_toFinset.mp hg)
    · exact h.small id' t' g hg
  refine ⟨hnext ▸ h.pos, fun id' bg' hbg' => ?_, fun type' g id' type'' t' hg => ?_,
    fun type' g id' type'' t' bg' hg hbg' => ?_, fun g d hd => ?_, fun g d bg' hd hbg' => ?_,
    fun id' bg' t' g hbg' => ?_, fun type' g id' type'' t' d hg hid hd => ?_,
    fun id' bg' g t' hbg' hg => ?_, fun id' bg' t' hbg' => ?_, hsmall', fun id' t' hid' => ?_⟩
  · obtain ⟨bg'', hbg'', -⟩ := hold id' bg' hbg'
    rw [hnext]
    exact h.live id' bg'' hbg''
  · rw [hnext]
    rcases hticket _ _ _ hg with ⟨rfl, -, he⟩ | ⟨-, hg⟩
    · cases he
      exact ⟨rfl, hnextId⟩
    · exact h.known _ _ _ _ _ hg
  · obtain ⟨bg'', hbg'', hkind, -⟩ := hold id' bg' hbg'
    rw [hkind]
    rcases hticket _ _ _ hg with ⟨rfl, -, he⟩ | ⟨-, hg⟩
    · cases he
      rw [hbg] at hbg''
      cases hbg''
      exact htype
    · exact h.kind _ _ _ _ _ _ hg hbg''
  · rw [hnext]
    rw [hdata] at hd
    exact h.data g d hd
  · obtain ⟨bg'', hbg'', hkind, -⟩ := hold _ bg' hbg'
    rw [hdata] at hd
    exact hkind.trans (h.dataKind g d bg'' hd hbg'')
  · obtain ⟨bg'', hbg'', hkind, -⟩ := hold id' bg' hbg'
    have hmember := h.member id' bg'' t' g hbg''
    rw [hkind, hcounted, hT, hdata]
    by_cases hg : bg''.type = type ∧ g ∈ l
    · rw [if_pos hg, hout g hg.2]
      have hcounted' : g ∉ b.counted id' t' := by
        rw [hmember, hg.1, hout g hg.2]
        obtain ⟨x, hx⟩ := hfree g hg.2
        rw [hx]
        rintro (hc | hc)
        · have hzero := congrArg Prod.fst (some_inj.mp hc)
          exact Nat.pos_iff_ne_zero.mp (h.live id' bg'' hbg'').1 hzero.symm
        · cases hc
      split_ifs with hid
      · obtain ⟨rfl, rfl⟩ := hid
        refine iff_of_true ?_ (Or.inl (by rw [hg.1]))
        exact mem_union_right _ (List.mem_toFinset.mpr hg.2)
      · refine iff_of_false hcounted' ?_
        rintro (hc | hc)
        · have he := some_inj.mp hc
          exact hid ⟨(congrArg Prod.fst he).symm, (congrArg (fun x => x.2.2) he).symm⟩
        · cases hc
    · rw [if_neg hg, ← hmember]
      split_ifs with hid
      · obtain ⟨rfl, rfl⟩ := hid
        rw [hbg] at hbg''
        cases hbg''
        have hgl : g ∉ l := fun hgl => hg ⟨htype, hgl⟩
        simp [hgl]
      · rfl
  · rw [hdata] at hd
    rcases hticket _ _ _ hg with ⟨rfl, hgl, -⟩ | ⟨-, hg⟩
    · rw [hout g hgl] at hd
      cases hd
    · exact h.apart _ _ _ _ _ _ hg hid hd
  · obtain ⟨bg'', hbg'', hkind, hplayers⟩ := hold id' bg' hbg'
    rw [hdata, hkind]
    rw [hplayers] at hg
    exact h.players id' bg'' g t' hbg'' hg
  · have hlt := card_lt_of_small (hsmall' id' t')
    rw [hcounted] at hlt ⊢
    rw [hbattles, update_apply] at hbg'
    split_ifs at hbg' with hid
    · obtain rfl := some_inj.mp hbg'
      subst hid
      by_cases ht : t' = t
      · subst ht
        rw [if_pos ⟨rfl, rfl⟩] at hlt ⊢
        have hdisjoint : Disjoint (b.counted id' t') l.toFinset := by
          rw [disjoint_right]
          exact fun g hg => hnew g (List.mem_toFinset.mp hg) t'
        rw [card_union_of_disjoint hdisjoint, List.toFinset_card_of_nodup hl] at hlt ⊢
        have hcount := h.count id' bg t' hbg
        simp only [update_self]
        rw [UInt32.toNat_add, hcount, UInt32.toNat_ofNat']
        omega
      · rw [if_neg fun hc => ht hc.2]
        simp only [update_of_ne ht]
        exact h.count id' bg t' hbg
    · rw [if_neg fun hc => hid hc.1]
      exact h.count id' bg' t' hbg'
  · rw [hnext] at hid'
    rw [hcounted, if_neg (fun hc => by omega)]
    exact h.blank id' t' hid'

end Operations

end Battles

end Windrunner
