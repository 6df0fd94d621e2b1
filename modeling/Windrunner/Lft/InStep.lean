import Windrunner.Lft.Rounds

/-!
# Offers and the queue

A player who is in an offer should still be queued for it, and not be asked for his role again. The
queue does not see to that. The sweep of an update takes everybody out who is not in the world; a
player who leaves takes all with him who were queued under the same leader; and a leader who joins
asks his party, whoever of them is already queued, in an offer or asked by somebody else.

* `InStep`: the statement. `Synced` is the invariant it follows from.
* `Apart`: what must not happen at a call. `inStep_of_run`: then it holds after every run.
-/

namespace Windrunner.LftManager

open Lib SortedMap Option

variable {w : LftWorld} {s s' : LftManager} {instanceName : Text} {g id : Nat} {offer : Offer}

/-- An entry of the queue that fits the place in the offer. -/
def Serves (offer : Offer) (role : UInt8) (q : QueuedPlayer) : Prop :=
  q.roleMask &&& role ≠ 0 ∧ offer.instanceName ∈ q.instances

/-- Who is in an offer is queued for it, and is a member of no role check. -/
def InStep (s : LftManager) : Prop :=
  ∀ id offer, s.offers.find id = some offer → ∀ g role, offer.roles.find g = some role →
    (∃ q, s.queue.find g = some q ∧ Serves offer role q) ∧
      ∀ leader rolecheck, s.rolechecks.find leader = some rolecheck → g ∉ rolecheck.members

/-! ## The invariant -/

/-- No member of a role check is queued, or a member of another one. -/
structure Waiting (s : LftManager) : Prop where
  unqueued : ∀ leader c, s.rolechecks.find leader = some c → ∀ g ∈ c.members,
    s.queue.find g = none
  disjoint : ∀ leader c leader' c', s.rolechecks.find leader = some c →
    s.rolechecks.find leader' = some c' → leader ≠ leader' → ∀ g ∈ c.members, g ∉ c'.members

/-- Who is in an offer is queued for it. -/
def Queued (s : LftManager) : Prop :=
  ∀ id offer, s.offers.find id = some offer → ∀ g role, offer.roles.find g = some role →
    ∃ q, s.queue.find g = some q ∧ Serves offer role q

structure Synced (s : LftManager) : Prop where
  booked : Booked s
  queued : Queued s
  waiting : Waiting s

/-- An empty queue is in step with no offers. -/
theorem Synced.empty : Synced {} :=
  ⟨Booked.empty, fun _ _ h => (nomatch h), fun _ _ h => (nomatch h), fun _ _ _ _ h => (nomatch h)⟩

/-- The invariant says more: a member of a role check is not queued, and who is in an offer is. -/
theorem Synced.inStep (h : Synced s) : InStep s := by
  intro id offer ho g role hg
  obtain ⟨q, hq, hserves⟩ := h.queued id offer ho g role hg
  refine ⟨⟨q, hq, hserves⟩, fun leader c hc hmem => ?_⟩
  rw [h.waiting.unqueued leader c hc g hmem] at hq
  cases hq

namespace Waiting

/-- Role checks go, or are rewritten with the same members, and the queue loses entries. -/
theorem less (h : Waiting s) (hqueue : ∀ g, s.queue.find g = none → s'.queue.find g = none)
    (hrolechecks : ∀ l c, s'.rolechecks.find l = some c →
      ∃ c0, s.rolechecks.find l = some c0 ∧ c0.members = c.members) : Waiting s' := by
  refine ⟨fun l c hc g hg => ?_, fun l c l' c' hc hc' hne g hg => ?_⟩
  · obtain ⟨c0, h0, he⟩ := hrolechecks l c hc
    exact hqueue g (h.unqueued l c0 h0 g (he ▸ hg))
  · obtain ⟨c0, h0, he⟩ := hrolechecks l c hc
    obtain ⟨c0', h0', he'⟩ := hrolechecks l' c' hc'
    rw [← he']
    exact h.disjoint l c0 l' c0' h0 h0' hne g (he ▸ hg)

end Waiting

namespace Queued

/-- The offers are some of those that were open, and the entries of their players still there. -/
theorem less (h : Queued s)
    (hoffers : ∀ id o, s'.offers.find id = some o → ∃ o0, s.offers.find id = some o0 ∧
      o0.roles = o.roles ∧ o0.instanceName = o.instanceName ∧
        ∀ g, o0.roles.contains g = true → s'.queue.find g = s.queue.find g) : Queued s' := by
  intro id o ho g role hg
  obtain ⟨o0, h0, hroles, hinst, hsame⟩ := hoffers id o ho
  rw [← hroles] at hg
  obtain ⟨q, hq, hserves⟩ := h id o0 h0 g role hg
  have hin : o0.roles.contains g = true := isSome_iff_exists.mpr ⟨role, hg⟩
  refine ⟨q, (hsame g hin).trans hq, ?_⟩
  unfold Serves at hserves ⊢
  rw [← hinst]
  exact hserves

end Queued

/-! ## Moves -/

namespace Synced

/-- An offer ends, and nobody else's entry changes. -/
theorem release (h : Synced s) (ho : s.offers.find id = some offer)
    (hoffers : s'.offers = s.offers.erase id) (hplayers : ∀ g, s'.playerOffers.find g =
      if offer.roles.contains g then none else s.playerOffers.find g)
    (hothers : ∀ g, offer.roles.contains g = false → s'.queue.find g = s.queue.find g)
    (hnone : ∀ g, s.queue.find g = none → s'.queue.find g = none)
    (hrolechecks : s'.rolechecks = s.rolechecks) : Synced s' := by
  refine ⟨h.booked.release ho hoffers hplayers, h.queued.less fun id' o ho' => ?_,
    h.waiting.less hnone fun l c hc => ⟨c, hrolechecks ▸ hc, rfl⟩⟩
  rw [hoffers, find_erase] at ho'
  split at ho'
  case isTrue => cases ho'
  case isFalse hne =>
    refine ⟨o, ho', rfl, rfl, fun g hg => hothers g ?_⟩
    rw [Bool.eq_false_iff]
    -- a player of two offers would have made them one
    exact fun hin => hne (h.booked.unique ho' ho hg hin)

/-- A cancelled offer takes its own players along and nobody else. -/
theorem cancel (h : Synced s) {requeue : Bool} {remove : Nat} {others : Bool} :
    Synced (s.cancelOffer requeue remove others id) := by
  cases ho : s.offers.find id with
  | none =>
    unfold cancelOffer
    rw [ho]
    exact h
  | some offer =>
    obtain ⟨hr, hoffers⟩ := cancelOffer_some requeue remove others ho
    exact h.release ho hoffers hr.playerOffers hr.others (fun g hg => (hr.keeps g).none hg)
      hr.rolechecks

/-- Rewriting an offer leaves its players and its instance. -/
theorem rewrite (h : Synced s) (ho : s.offers.find id = some offer) {offer' : Offer}
    (hroles : offer'.roles = offer.roles) (hinst : offer'.instanceName = offer.instanceName)
    (haccepted : ∀ g ∈ offer'.accepted, offer.roles.contains g = true) :
    Synced { s with offers := s.offers.insert id offer' } := by
  refine ⟨h.booked.rewrite ho hroles haccepted rfl rfl, h.queued.less fun id' o ho' => ?_,
    h.waiting.less (fun _ hg => hg) fun _ c hc => ⟨c, hc, rfl⟩⟩
  dsimp only at ho'
  rw [find_insert] at ho'
  split at ho'
  case isTrue he =>
    obtain rfl := some.inj ho'
    exact ⟨offer, he ▸ ho, hroles.symm, hinst.symm, fun _ _ => rfl⟩
  case isFalse => exact ⟨o, ho', rfl, rfl, fun _ _ => rfl⟩

/-- A role check of players who are not queued and not asked elsewhere. -/
theorem checked (h : Synced s) {leader : Nat} {rolecheck : PendingRolecheck}
    (hfree : ∀ g ∈ rolecheck.members, s.queue.find g = none ∧
      ∀ l c, s.rolechecks.find l = some c → l ≠ leader → g ∉ c.members)
    (hc : Checked w s leader rolecheck s') : Synced s' := by
  refine ⟨h.booked.checked hc, ?_, ?_⟩
  · -- nobody in an offer is among the members
    rcases hc with rfl | rfl
    · exact h.queued
    · obtain ⟨queue, order, he, hsame, -⟩ := foldl_enqueue (w := w) rolecheck rolecheck.members
        { s with rolechecks := s.rolechecks.erase leader }
      rw [he]
      intro id o ho g role hg
      obtain ⟨q, hq, hserves⟩ := h.queued id o ho g role hg
      refine ⟨q, (hsame g fun hmem => ?_).trans hq, hserves⟩
      rw [(hfree g hmem).1] at hq
      cases hq
  · -- a kept role check may meet the others, one that is done only leaves them
    rcases hc with rfl | rfl
    · refine ⟨fun l c hc g hg => ?_, fun l c l' c' hc hc' hne g hg => ?_⟩
      · dsimp only at hc
        rw [find_insert] at hc
        split at hc
        case isTrue =>
          obtain rfl := some.inj hc
          exact (hfree g hg).1
        case isFalse => exact h.waiting.unqueued l c hc g hg
      · dsimp only at hc hc'
        rw [find_insert] at hc hc'
        split at hc
        case isTrue hl =>
          obtain rfl := some.inj hc
          rw [if_neg fun hl' => hne (hl.trans hl'.symm)] at hc'
          exact (hfree g hg).2 l' c' hc' fun hl' => hne (hl.trans hl'.symm)
        case isFalse hl =>
          split at hc'
          case isTrue =>
            obtain rfl := some.inj hc'
            exact fun hmem => (hfree g hmem).2 l c hc hl hg
          case isFalse => exact h.waiting.disjoint l c l' c' hc hc' hne g hg
    · obtain ⟨queue, order, he, hsame, -⟩ := foldl_enqueue (w := w) rolecheck rolecheck.members
        { s with rolechecks := s.rolechecks.erase leader }
      rw [he]
      have hfind : ∀ l c, (s.rolechecks.erase leader).find l = some c →
          l ≠ leader ∧ s.rolechecks.find l = some c := by
        intro l c hc
        rw [find_erase] at hc
        split at hc
        case isTrue => cases hc
        case isFalse hl => exact ⟨hl, hc⟩
      refine ⟨fun l c hc g hg => ?_, fun l c l' c' hc hc' hne g hg => ?_⟩
      · obtain ⟨hl, hc⟩ := hfind l c hc
        refine (hsame g fun hmem => (hfree g hmem).2 l c hc hl hg).trans ?_
        exact h.waiting.unqueued l c hc g hg
      · exact h.waiting.disjoint l c l' c' (hfind l c hc).2 (hfind l' c' hc').2 hne g hg

/-- After `CleanupPlayer` the player is out of everything. -/
theorem cleanup (h : Synced s) (player : Nat) :
    Synced (s.cleanupPlayer player) ∧ (s.cleanupPlayer player).queue.find player = none ∧
      (∀ l c, (s.cleanupPlayer player).rolechecks.find l = some c →
        s.rolechecks.find l = some c ∧ player ∉ c.members) ∧
      ∀ g, s.queue.find g = none → (s.cleanupPlayer player).queue.find g = none := by
  obtain ⟨s1, hs1, he⟩ := cleanupPlayer_cases s player
  have hdrop : ∀ g, (s.queue.erase player).find g = if g = player then none else s.queue.find g :=
    fun g => find_erase ..
  have hless : ∀ g, s.queue.find g = none → (s.queue.erase player).find g = none := by
    intro g hg
    rw [hdrop, hg, ite_self]
  have hs : Synced s1 ∧ s1.rolechecks = s.rolechecks ∧
      ∀ g, (s.queue.erase player).find g = none → s1.queue.find g = none := by
    -- in no offer: nobody's place is lost with the entry; in one: it is cancelled first
    rcases hs1 with ⟨hno, rfl⟩ | ⟨id, hid, rfl⟩
    · refine ⟨⟨h.booked.congr rfl rfl, h.queued.less fun id o ho => ?_,
        h.waiting.less hless fun _ c hc => ⟨c, hc, rfl⟩⟩, rfl, fun _ hg => hg⟩
      refine ⟨o, ho, rfl, rfl, fun g hg => (hdrop g).trans (if_neg ?_)⟩
      rintro rfl
      rw [(h.booked.linked g id).mpr ⟨o, ho, hg⟩] at hno
      cases hno
    · obtain ⟨offer, ho, hin⟩ := (h.booked.linked player id).mp hid
      obtain ⟨hr, hoffers⟩ := cancelOffer_some (s := { s with queue := s.queue.erase player })
        true player true ho
      refine ⟨h.release ho hoffers hr.playerOffers (fun g hg => ?_)
        (fun g hg => (hr.keeps g).none (hless g hg)) hr.rolechecks, hr.rolechecks,
        fun g hg => (hr.keeps g).none hg⟩
      refine (hr.others g hg).trans ((hdrop g).trans (if_neg ?_))
      rintro rfl
      rw [hin] at hg
      cases hg
  obtain ⟨hsync, hrolechecks, hnone⟩ := hs
  rw [he]
  have hfind : ∀ l c, (s1.rolechecks.filter fun _ c => !c.members.contains player).find l = some c →
      s1.rolechecks.find l = some c ∧ player ∉ c.members := by
    intro l c hc
    rw [find_filter] at hc
    obtain ⟨hc, hnot⟩ := filter_eq_some_iff.mp hc
    refine ⟨hc, fun hmem => ?_⟩
    rw [List.contains_iff_mem.mpr hmem] at hnot
    cases hnot
  refine ⟨⟨hsync.booked.congr rfl rfl, hsync.queued,
    hsync.waiting.less (fun _ hg => hg) fun l c hc => ⟨c, (hfind l c hc).1, rfl⟩⟩,
    hnone player ((hdrop player).trans (if_pos rfl)), fun l c hc => ?_,
    fun g hg => hnone g (hless g hg)⟩
  obtain ⟨hc, hnot⟩ := hfind l c hc
  exact ⟨hrolechecks ▸ hc, hnot⟩

/-- A new offer is for players who are queued for it, and it changes none of their entries but for
the assigned role. -/
theorem make (h : Synced s) {roles : SortedMap Nat UInt8}
    (hfree : s.offers.find s.nextOfferId.toNat = none)
    (hsel : selectPlayers w s instanceName = some roles) :
    Synced (makeOffer s instanceName roles) := by
  obtain ⟨-, havail⟩ := selectPlayers_spec hsel
  have hm := makeOffer_made s instanceName roles
  have hentry : ∀ {g q}, s.queue.find g = some q →
      ∃ role, (makeOffer s instanceName roles).queue.find g =
        some { q with assignedRole := role } := by
    intro g q hq
    cases hg : roles.contains g with
    | true => exact hm.players g q hg hq
    | false => exact ⟨q.assignedRole, (hm.others g hg).trans hq⟩
  refine ⟨h.booked.make hfree hsel, fun id o ho g role hg => ?_, h.waiting.less (fun g hg => ?_) ?_⟩
  · rw [hm.offers, find_insert] at ho
    split at ho
    case isTrue =>
      obtain rfl := some.inj ho
      obtain ⟨-, -, q, hq, hinst, hmask⟩ := havail g role hg
      obtain ⟨role', hq'⟩ := hentry hq
      exact ⟨_, hq', hmask, hinst⟩
    case isFalse =>
      obtain ⟨q, hq, hserves⟩ := h.queued id o ho g role hg
      obtain ⟨role', hq'⟩ := hentry hq
      exact ⟨_, hq', hserves⟩
  · refine (hm.others g ?_).trans hg
    rw [Bool.eq_false_iff]
    intro hin
    obtain ⟨role, hrole⟩ := isSome_iff_exists.mp hin
    obtain ⟨-, -, q, hq, -⟩ := havail g role hrole
    rw [hg] at hq
    cases hq
  · rw [hm.rolechecks]
    exact fun l c hc => ⟨c, hc, rfl⟩

end Synced

/-! ## Updates -/

/-- During an update the offers in `l` are still to be ticked: of these, only those whose time is
not up have their players in the queue. -/
structure Ticking (diff : Nat) (l : List Nat) (s : LftManager) : Prop where
  booked : Booked s
  queued : ∀ id o, s.offers.find id = some o → (id ∈ l → diff < o.timer) →
    ∀ g role, o.roles.find g = some role → ∃ q, s.queue.find g = some q ∧ Serves o role q
  waiting : Waiting s

/-- An offer whose time is up is cancelled with its players, any other keeps them. -/
theorem Ticking.tick {diff : Nat} {l : List Nat} (hl : (id :: l).Nodup)
    (h : Ticking diff (id :: l) s) : Ticking diff l (tickOffer diff s id) := by
  obtain ⟨hid, -⟩ := List.nodup_cons.mp hl
  refine ⟨h.booked.tick diff id, ?_, ?_⟩
  · unfold tickOffer
    split
    case h_1 hnone =>
      intro id' o ho hup
      refine h.queued id' o ho fun hmem => ?_
      rcases List.mem_cons.mp hmem with rfl | hmem
      · rw [hnone] at ho
        cases ho
      · exact hup hmem
    case h_2 offer hoffer =>
      split
      case isTrue hle =>
        obtain ⟨hr, hoffers⟩ := cancelOffer_some true 0 false
          hoffer
        intro id' o ho hup g role hg
        rw [hoffers, find_erase] at ho
        split at ho
        case isTrue => cases ho
        case isFalse hne =>
          have hin : o.roles.contains g = true := isSome_iff_exists.mpr ⟨role, hg⟩
          have hout : offer.roles.contains g = false := by
            rw [Bool.eq_false_iff]
            -- no player of another offer loses his entry
            exact fun hc => hne (h.booked.unique ho hoffer hin hc)
          rw [hr.others g hout]
          refine h.queued id' o ho (fun hmem => ?_) g role hg
          exact hup ((List.mem_cons.mp hmem).resolve_left hne)
      case isFalse hlt =>
        intro id' o ho hup g role hg
        dsimp only at ho
        rw [find_insert] at ho
        split at ho
        case isTrue he =>
          obtain rfl := some.inj ho
          exact h.queued id offer hoffer (fun _ => Nat.lt_of_not_le hlt) g role hg
        case isFalse hne =>
          refine h.queued id' o ho (fun hmem => ?_) g role hg
          exact hup ((List.mem_cons.mp hmem).resolve_left hne)
  · unfold tickOffer
    split
    case h_1 => exact h.waiting
    case h_2 offer hoffer =>
      split
      case isTrue =>
        obtain ⟨hr, -⟩ := cancelOffer_some true 0 false hoffer
        refine h.waiting.less (fun g hg => (hr.keeps g).none hg) ?_
        rw [hr.rolechecks]
        exact fun l c hc => ⟨c, hc, rfl⟩
      case isFalse => exact h.waiting.less (fun _ hg => hg) fun _ c hc => ⟨c, hc, rfl⟩

/-- After the last one everybody in an offer is queued. -/
theorem Ticking.run {diff : Nat} {l : List Nat} (hl : l.Nodup) (h : Ticking diff l s) :
    Synced (l.foldl (tickOffer diff) s) := by
  induction l generalizing s with
  | nil => exact ⟨h.booked, fun id o ho => h.queued id o ho fun hmem => (nomatch hmem), h.waiting⟩
  | cons a l ih => exact ih (List.nodup_cons.mp hl).2 (h.tick hl)

/-! ## Calls -/

/-- The members of the party, but for the leader himself, are not queued, and no role check asks
them that does not ask him, too. -/
def PartyFree (s : LftManager) (w : LftWorld) (player : Nat) : Prop :=
  ∀ g ∈ getPartyMembers w player, g ≠ player → s.queue.find g = none ∧
    ∀ x ∈ s.rolechecks.entries, g ∈ x.2.members → player ∈ x.2.members

instance (s : LftManager) (w : LftWorld) (player : Nat) : Decidable (s.PartyFree w player) := by
  unfold PartyFree
  infer_instance

/-- If the player leaves the queue himself, none of those who were queued under the same leader is
in an offer. -/
def PartyLeaves (s : LftManager) (player : Nat) : Prop :=
  (∀ x ∈ s.rolechecks.entries, player ∉ x.2.members) → s.playerOffers.find player = none →
    ∀ q ∈ s.queue.find player, ∀ x ∈ s.queue.entries,
      x.2.block x.1 = q.block player → s.playerOffers.find x.1 = none

instance (s : LftManager) (player : Nat) : Decidable (s.PartyLeaves player) := by
  unfold PartyLeaves
  infer_instance

/-- The players of the offers whose time is not up are in the world. -/
def PlayersPresent (s : LftManager) (w : LftWorld) (diff : Nat) : Prop :=
  ∀ x ∈ s.offers.entries, diff < x.2.timer → ∀ g ∈ x.2.roles.keys, w.isInWorld g = true

instance (s : LftManager) (w : LftWorld) (diff : Nat) : Decidable (s.PlayersPresent w diff) := by
  unfold PlayersPresent
  infer_instance

/-- A request is made for a party that is free, who leaves the queue takes nobody out of an offer,
and at an update everybody is there whose offer goes on. -/
def Apart (s : LftManager) (i : LftWorld × Input) : Prop :=
  match i.2 with
  | .queueJoin player fields =>
    (requestedInstances i.1 player fields).isSome = true → s.PartyFree i.1 player
  | .queuePlayer player requested roleMask =>
    (validRequest i.1 player requested roleMask).isSome = true → s.PartyFree i.1 player
  | .leaveQueue player => s.PartyLeaves player
  | .update diff => s.PlayersPresent i.1 diff
  | _ => True

instance (s : LftManager) : DecidablePred s.Apart := fun (w, i) => by
  unfold Apart
  cases i <;> infer_instance

/-- A request that passes its checks is one the condition speaks of. -/
theorem Asks.partyFree {i : Input} {player : Nat} {instances : List Text}
    (h : Asks w i player instances) (ha : s.Apart (w, i)) : s.PartyFree w player := by
  cases h with
  | join h =>
    refine ha ?_
    rw [h]
    rfl
  | module h =>
    refine ha ?_
    rw [h]
    rfl

/-- One move keeps everything in step, if it takes nobody's entry out of an offer. -/
theorem Synced.moves (h : Synced s) {i : Input} (ha : s.Apart (w, i)) (hm : Moves w s i s') :
    Synced s' := by
  cases hm with
  | idle => exact h
  | @party _ player rolecheck _ hask hmembers hc =>
    obtain ⟨hclean, hplayer, hrolechecks, hnone⟩ := h.cleanup player
    refine hclean.checked (fun g hg => ?_) hc
    rw [hmembers] at hg
    -- the leader has been cleaned up; the others were free by `PartyFree`
    by_cases he : g = player
    · rw [he]
      exact ⟨hplayer, fun l c hl _ => (hrolechecks l c hl).2⟩
    · obtain ⟨hq, hasked⟩ := hask.partyFree ha g hg he
      refine ⟨hnone g hq, fun l c hl _ hmem => ?_⟩
      obtain ⟨hl, hnot⟩ := hrolechecks l c hl
      exact hnot (hasked (l, c) (mem_entries_iff.mpr hl) hmem)
  | @solo _ player instances roleMask hask =>
    obtain ⟨hclean, hplayer, hrolechecks, -⟩ := h.cleanup player
    have hsame : ∀ g, g ≠ player →
        (enqueuePlayer w (s.cleanupPlayer player) player player instances roleMask).queue.find g =
          (s.cleanupPlayer player).queue.find g := by
      intro g hg
      unfold enqueuePlayer
      dsimp only
      rw [find_insert, if_neg hg]
    refine ⟨hclean.booked.congr rfl rfl, fun id o ho g role hg => ?_, ?_⟩
    · obtain ⟨q, hq, hserves⟩ := hclean.queued id o ho g role hg
      refine ⟨q, (hsame g ?_).trans hq, hserves⟩
      rintro rfl
      rw [hplayer] at hq
      cases hq
    · refine ⟨fun l c hc g hg => (hsame g ?_).trans (hclean.waiting.unqueued l c hc g hg),
        hclean.waiting.disjoint⟩
      rintro rfl
      exact (hrolechecks l c hc).2 hg
  | @answer _ leader rolecheck rolecheck' _ hfind hc hmembers hinst =>
    refine h.checked (fun g hg => ?_) hc
    rw [hmembers] at hg
    refine ⟨h.waiting.unqueued leader rolecheck hfind g hg, fun l c hl hne => ?_⟩
    exact h.waiting.disjoint leader rolecheck l c hfind hl (Ne.symm hne) g hg
  | accept hp ho =>
    obtain ⟨hroles, haccepted⟩ := h.booked.accept_roles hp ho
    exact h.rewrite ho hroles rfl haccepted
  | refuse hp ho =>
    obtain ⟨hroles, haccepted⟩ := h.booked.accept_roles hp ho
    exact (h.rewrite ho hroles rfl haccepted).cancel
  | @complete _ player id offer hp ho =>
    obtain ⟨hroles, haccepted⟩ := h.booked.accept_roles hp ho
    have hs := h.rewrite ho hroles rfl haccepted
    refine hs.release ((find_insert ..).trans (if_pos rfl)) rfl (fun g => ?_)
      (fun g hg => ?_) (fun g hg => ?_) rfl
    · rw [find_foldl_erase]
      simp only [mem_keys_iff]
    · rw [find_foldl_erase, if_neg fun hmem => ?_]
      rw [mem_keys_iff.mp hmem] at hg
      cases hg
    · rw [find_foldl_erase]
      dsimp only at hg
      rw [hg, ite_self]
  | leaveRolecheck =>
    refine ⟨h.booked.congr rfl rfl, h.queued,
      h.waiting.less (fun _ hg => hg) fun _ c hc => ⟨c, find_erase_some hc, rfl⟩⟩
  | leaveOffer => exact h.cancel
  | @leaveParty player q hno hfree hq =>
    -- who is queued under the same leader is in no offer, by `PartyLeaves`
    have hkept : ∀ g other, s.queue.find g = some other →
        (∃ id, s.playerOffers.find g = some id) → other.block g ≠ q.block player := by
      rintro g other hg ⟨id, hid⟩ hblock
      have := ha (fun x hx => hno x.1 x.2 (mem_entries_iff.mp hx)) hfree q hq (g, other)
        (mem_entries_iff.mpr hg) hblock
      rw [this] at hid
      cases hid
    refine ⟨h.booked.congr rfl rfl, fun id o ho g role hg => ?_,
      h.waiting.less (fun g hg => ?_) fun _ c hc => ⟨c, hc, rfl⟩⟩
    · obtain ⟨q', hq', hserves⟩ := h.queued id o ho g role hg
      have hin : o.roles.contains g = true := isSome_iff_exists.mpr ⟨role, hg⟩
      refine ⟨q', ?_, hserves⟩
      rw [find_filter, hq']
      refine filter_eq_some_iff.mpr ⟨rfl, ?_⟩
      exact decide_eq_true (hkept g q' hq' ⟨id, (h.booked.linked g id).mpr ⟨o, ho, hin⟩⟩)
    · rw [find_filter, hg]
      rfl
  | logout => exact (h.cleanup _).1
  | @tick diff =>
    -- the sweep takes out who is away; by `PlayersPresent` nobody of an offer that goes on
    refine Ticking.run s.offers.keys_nodup ⟨h.booked.congr rfl rfl, ?_,
      h.waiting.less (fun g hg => ?_) fun l c hc => ?_⟩
    · intro id o ho hup g role hg
      obtain ⟨q, hq, hserves⟩ := h.queued id o ho g role hg
      have hin : o.roles.contains g = true := isSome_iff_exists.mpr ⟨role, hg⟩
      have hkey : id ∈ s.offers.keys :=
        mem_keys_iff.mpr (isSome_iff_exists.mpr ⟨o, ho⟩)
      have hworld := ha (id, o) (mem_entries_iff.mpr ho) (hup hkey) g
        (mem_keys_iff.mpr hin)
      refine ⟨q, ?_, hserves⟩
      rw [find_filter, hq]
      exact filter_eq_some_iff.mpr ⟨rfl, hworld⟩
    · rw [find_filter, hg]
      rfl
    · rw [find_mapVal, find_filter] at hc
      obtain ⟨c0, h0, rfl⟩ := map_eq_some_iff.mp hc
      exact ⟨c0, (filter_eq_some_iff.mp h0).1, rfl⟩

/-- The search that may follow only binds players who are queued for it. -/
theorem Synced.step (h : Synced s) {i : LftWorld × Input} (hfresh : s.IdsFresh i)
    (ha : s.Apart i) : Synced (s.step i) := by
  obtain ⟨w, i⟩ := i
  obtain ⟨s', hm, he | he⟩ := step_cases s w i
  · rw [he]
    exact h.moves ha hm
  · rw [he]
    exact tryMakeOffers_keeps (fun hs hfree hsel => hs.make hfree hsel) (h.moves ha hm)
      (hm.lets.idsFree hfresh)

/-- In every run in which the parties that join are free, nobody takes others out of an offer by
leaving the queue, everybody is there at the updates whose offer goes on, and the ids that are
handed out are free, the offers and the queue are in step. -/
theorem inStep_of_run {is : List (LftWorld × Input)}
    (h : AlongRun LftManager.step (fun s i => s.IdsFresh i ∧ s.Apart i) {} is) :
    InStep (run LftManager.step {} is) :=
  (run_keeps (fun _ _ hs hi => hs.step hi.1 hi.2) Synced.empty h).inStep

/-! ## Runs -/

/-- Five players who have an offer. -/
def fiveRun : List (LftWorld × Input) := (List.range' 1 5).map queueCall

def fiveRoles : SortedMap Nat UInt8 :=
  [1, 2, 3, 4, 5].foldl (fun roles guid => roles.insert guid (roleOf guid)) ∅

/-- The world with a party of two, who are led by the first. -/
def withParty (leader member : Nat) : LftWorld :=
  { druids with getGroup := fun guid =>
      if [leader, member].contains guid then some ⟨some 1, leader, false, [leader, member]⟩
      else none }

def joinCall (leader member : Nat) : LftWorld × Input :=
  (withParty leader member, .queueJoin leader [[], ragefire, ['t']])

def answerCall (guid : Nat) (role : Char) : LftWorld × Input :=
  (druids, .rolecheckResponse guid [[], [role]])

/-- A party of two is queued beside the offer; one of them leaves, and time goes by. -/
theorem fiveRun_inStep : InStep (run LftManager.step {} (fiveRun ++
    [joinCall 6 7, answerCall 6 't', answerCall 7 'h', (druids, .leaveQueue 7),
      (druids, .update 1000), (druids, .offerAccept 3)])) :=
  inStep_of_run (by decide +kernel)

/-- The first player of the offer is on his way to another map when the queue is swept. -/
def sweptRun : List (LftWorld × Input) :=
  fiveRun ++ [({ druids with isInWorld := fun guid => guid ≠ 1 }, .update 50)]

/-- The first player of the offer has joined the party of a sixth one, who has it queued. -/
def askedRun : List (LftWorld × Input) := fiveRun ++ [joinCall 6 1]

/-- After the first run player 1 is in the offer and not in the queue, after the second one he is in
the offer and asked for his role. -/
theorem sweptRun_not_inStep :
    ¬ InStep (run LftManager.step {} sweptRun) ∧ ¬ InStep (run LftManager.step {} askedRun) := by
  have hroles : fiveRoles.find 1 = some roleTank := by decide +kernel
  constructor
  · intro h
    have ho : (run LftManager.step {} sweptRun).offers.find 1 =
        some ⟨ragefire, fiveRoles, [], 89950⟩ := by decide +kernel
    obtain ⟨⟨q, hq, -⟩, -⟩ := h 1 _ ho 1 roleTank hroles
    have hnone : (run LftManager.step {} sweptRun).queue.find 1 = none := by decide +kernel
    rw [hnone] at hq
    cases hq
  · intro h
    have ho : (run LftManager.step {} askedRun).offers.find 1 =
        some ⟨ragefire, fiveRoles, [], 90000⟩ := by decide +kernel
    obtain ⟨-, hout⟩ := h 1 _ ho 1 roleTank hroles
    have hcheck : (run LftManager.step {} askedRun).rolechecks.find 6 =
        some { leaderGuid := 6, members := [6, 1], instances := [ragefire], timer := 90000 } := by
      decide +kernel
    exact hout 6 _ hcheck (by decide)

end Windrunner.LftManager
