import Windrunner.Battleground.Tally

/-!
# The counters over a run

What an update does to the queue after the sweep is invitations and nothing else that a ticket tells
of (`induct_update`). With the sweep (`ledger_sweep`) this gives the update, and with the operations of
the battlegrounds a step (`step_balanced`).
-/

namespace Windrunner

open Lib Function Option

/-! ## What an update does -/

namespace BgOutcome

variable {P : BgOutcome → Prop} {cfg : BgConfig} {m : BgMoment}

/-- The group infos and the players of the queue are the same; groups may have been moved. -/
def SameGroups (q q' : BgQueue) : Prop := q'.infos = q.infos ∧ q'.queuedPlayers = q.queuedPlayers

theorem sameGroups_shuffleNormal (call b : Nat) (upTo : Option Nat) (q : BgQueue) :
    SameGroups q (shuffleNormal m call b upTo q) := ⟨rfl, rfl⟩

theorem sameGroups_avShuffle (type : BgType) (b : Nat) (q : BgQueue) :
    SameGroups q (avShuffle cfg m type b q) := by
  unfold avShuffle
  split_ifs
  · exact sameGroups_shuffleNormal ..
  · exact ⟨rfl, rfl⟩

variable (cfg m) in
theorem sameGroups_moveToNormal (b minPlayers : Nat) (q : BgQueue) (t : BgTeam) :
    SameGroups q (BgQueue.moveToNormal cfg m b minPlayers q t) := by
  unfold BgQueue.moveToNormal
  split
  · exact ⟨rfl, rfl⟩
  · split_ifs <;> exact ⟨rfl, rfl⟩

variable (cfg m) in
theorem sameGroups_checkPremadeMatch (b minPlayers maxPlayers : Nat) (q : BgQueue)
    (pools : SelectionPools) :
    SameGroups q (q.checkPremadeMatch cfg m b minPlayers maxPlayers pools).2.2 := by
  unfold BgQueue.checkPremadeMatch
  simp only
  split_ifs
  · exact ⟨rfl, rfl⟩
  · obtain ⟨hi, hp⟩ := sameGroups_moveToNormal cfg m b minPlayers q .alliance
    obtain ⟨hi', hp'⟩ := sameGroups_moveToNormal cfg m b minPlayers
      (BgQueue.moveToNormal cfg m b minPlayers q .alliance) .horde
    exact ⟨hi'.trans hi, hp'.trans hp⟩

section Induct

variable (hgroups : ∀ o q, SameGroups o.queue q → P o → P { o with queue := q })
  (hstarted : ∀ o l, P o → P { o with started := l })
  (hinvite : ∀ o i id, ((∃ r ∈ m.running, r.instanceId = id) ∨ ∃ n, m.newInstance n = some id) →
    P o → P (o.inviteGroupToBG m id i))

include hinvite in
theorem induct_inviteAllGroups (pools : SelectionPools) {id : Nat}
    (hid : (∃ r ∈ m.running, r.instanceId = id) ∨ ∃ n, m.newInstance n = some id) {o : BgOutcome}
    (h : P o) : P (o.inviteAllGroups m pools id) :=
  List.foldlRecOn (motive := P) _ _ h fun o ho i _ => hinvite o i id hid ho

variable (cfg) in
include hgroups hinvite in
theorem induct_refill (type : BgType) (b : Nat) {o : BgOutcome} (h : P o) :
    P (refill cfg m type b o) := by
  unfold refill fillRunning
  refine List.foldlRecOn (motive := P) _ _ ?_ fun o ho r hr =>
    induct_inviteAllGroups hinvite _ (Or.inl ⟨r, hr, rfl⟩) ho
  split_ifs
  · exact hgroups o _ (sameGroups_shuffleNormal ..) h
  · exact h

include hstarted hinvite in
theorem induct_normalMatches (b minPlayers maxPlayers : Nat) (tries : List Nat)
    (pools : SelectionPools) {o : BgOutcome} (h : P o) :
    P (normalMatches cfg m b minPlayers maxPlayers tries pools o) := by
  induction tries generalizing pools o with
  | nil => exact h
  | cons n rest ih =>
    unfold normalMatches
    split
    · exact ih _ h
    · split
      · exact h
      case h_2 id hid =>
        refine ih _ (induct_inviteAllGroups hinvite _ (Or.inr ⟨n, hid⟩) ?_)
        exact hstarted o _ h

include hgroups hstarted hinvite in
theorem induct_makeMatches (b minPlayers maxPlayers tries : Nat) {o : BgOutcome} (h : P o) :
    P (makeMatches cfg m b minPlayers maxPlayers tries o) := by
  unfold makeMatches
  have hsame := sameGroups_checkPremadeMatch cfg m b minPlayers maxPlayers o.queue fun _ => {}
  simp only
  split
  · next heq =>
    rw [heq] at hsame
    exact induct_normalMatches hstarted hinvite _ _ _ _ _ (hgroups o _ hsame h)
  · split
    · exact h
    case h_2 id hid =>
      refine induct_normalMatches hstarted hinvite _ _ _ _ _
        (induct_inviteAllGroups hinvite _ (Or.inr ⟨0, hid⟩) ?_)
      exact hstarted o _ h

variable (cfg) in
include hgroups hstarted hinvite in
/-- After the sweep there are only invitations, to battlegrounds that are running or new. -/
theorem induct_update (tmpl : Option BgTemplate) (q : BgQueue) (type : BgType) (b : Nat)
    (h : P (removeExpired m q.queuedPlayers.entries.length { queue := q })) :
    P (q.update cfg tmpl m type b) := by
  unfold BgQueue.update
  simp only
  split_ifs
  · exact h
  · have hrefill := induct_refill cfg hgroups hinvite type b h
    cases tmpl with
    | none => exact hrefill
    | some tmpl =>
      refine induct_makeMatches hgroups hstarted hinvite _ _ _ _ ?_
      exact hgroups _ _ (sameGroups_avShuffle type b _) hrefill

end Induct

end BgOutcome

namespace Battles

variable {T : BgType → Nat → Option BgTicket} {b : Battles}

/-! ## The sweep -/

/-- The counters may have changed, and nothing else. -/
structure SameData (b b' : Battles) : Prop where
  world : b'.world = b.world
  bgData : b'.bgData = b.bgData
  kinds : ∀ id, (b'.battles id).map (·.type) = (b.battles id).map (·.type)

theorem SameData.refl (b : Battles) : SameData b b := ⟨rfl, rfl, fun _ => rfl⟩

theorem SameData.trans {b₁ b₂ b₃ : Battles} (h : SameData b₁ b₂) (h' : SameData b₂ b₃) :
    SameData b₁ b₃ :=
  ⟨h'.world.trans h.world, h'.bgData.trans h.bgData, fun id => (h'.kinds id).trans (h.kinds id)⟩

theorem kinds_update {battles : Nat → Option BgBattle} {id : Nat} {bg bg' : BgBattle}
    (hbg : battles id = some bg) (htype : bg'.type = bg.type) (id' : Nat) :
    (Function.update battles id (some bg') id').map (·.type) = (battles id').map (·.type) := by
  rw [update_apply]
  split_ifs with hid
  · rw [hid, hbg, map_some, map_some, htype]
  · rfl

theorem sameData_decreaseFor (q : BgQueue) (guid : Nat) : SameData b (b.decreaseFor q guid) := by
  unfold Battles.decreaseFor
  split
  · exact .refl b
  · simp only
    split_ifs
    · exact .refl b
    · unfold decreaseInvitedCount
      split
      · exact ⟨rfl, rfl, fun _ => rfl⟩
      case h_2 bg hbg =>
        refine ⟨rfl, rfl, fun id => kinds_update (getBattleGround_some.mp hbg).1 ?_ id⟩
        rfl

theorem sameData_increaseInvitedCount (id : Nat) (t : BgTeam) (guid : Nat) :
    SameData b (b.increaseInvitedCount id t guid) := by
  unfold increaseInvitedCount
  split
  · exact .refl b
  case h_2 bg hbg =>
    refine ⟨rfl, rfl, fun id' => kinds_update hbg ?_ id'⟩
    rfl

/-- The counting changes no player's data. -/
theorem sameData_increaseInvited (q : BgQueue) (invited : List (Nat × Nat)) :
    SameData b (b.increaseInvited q invited) :=
  List.foldlRecOn (motive := SameData b) invited _ (.refl b) fun _ h _ _ =>
    h.trans (sameData_increaseInvitedCount ..)

/-- Those who leave in the sweep give back their places. -/
theorem ledger_sweep (m : BgMoment) (type : BgType) (fuel : Nat) (o : BgOutcome)
    (h : Ledger T b) (hT : T type = o.queue.ticketOf) (hw : o.queue.Wired) :
    Ledger (Function.update T type (BgOutcome.removeExpired m fuel o).queue.ticketOf)
        (decreaseExpired m fuel o.queue b) ∧
      SameData b (decreaseExpired m fuel o.queue b) ∧
      (BgOutcome.removeExpired m fuel o).invited = o.invited ∧
      ∀ g x, (BgOutcome.removeExpired m fuel o).queue.ticketOf g = some x →
        o.queue.ticketOf g = some x := by
  induction fuel generalizing o b T with
  | zero =>
    refine ⟨?_, .refl b, rfl, fun _ _ hx => hx⟩
    show Ledger (Function.update T type o.queue.ticketOf) b
    rw [← hT, update_eq_self]
    exact h
  | succ fuel ih =>
    unfold BgOutcome.removeExpired decreaseExpired
    cases o.queue.queuedPlayers.entries.find? fun x => BgOutcome.expired m o.queue x.2 with
    | none =>
      refine ⟨?_, .refl b, rfl, fun _ _ hx => hx⟩
      show Ledger (Function.update T type o.queue.ticketOf) b
      rw [← hT, update_eq_self]
      exact h
    | some x =>
      obtain ⟨guid, pl⟩ := x
      have hremove := BgQueue.ticketOf_removePlayer hw guid
      have hone := h.decreaseFor guid (congrFun hT guid)
      rw [hT, ← hremove] at hone
      have hnext := ih { o with
        queue := o.queue.removePlayer guid
        dropped := if pl.online then o.dropped ++ [guid] else o.dropped } hone
        (Function.update_self ..) (BgQueue.wired_removePlayer hw guid)
      obtain ⟨hledger, hsame, hinvited, hticket⟩ := hnext
      rw [update_idem] at hledger
      refine ⟨hledger, (sameData_decreaseFor o.queue guid).trans hsame, hinvited, fun g x hx => ?_⟩
      have hx' := hticket g x hx
      change (o.queue.removePlayer guid).ticketOf g = some x at hx'
      rw [hremove, update_apply] at hx'
      split_ifs at hx'
      exact hx'

/-! ## An update -/

/-- Each player whose group has been invited is told. -/
def Told (m : BgMoment) (q q' : BgQueue) : Prop :=
  ∀ x ∈ q'.queuedPlayers.entries, ∀ ticket ∈ q.ticketOf x.1, ∀ ticket' ∈ q'.ticketOf x.1,
    ticket.1 = 0 → ticket'.1 ≠ 0 → (m.player x.1).any BgPresence.invitable = true

instance (m : BgMoment) (q q' : BgQueue) : Decidable (Told m q q') := by
  unfold Told
  infer_instance

theorem getBattleGround_congr {b' : Battles} (h : SameData b b') {id : Nat} {type : BgType}
    (hsome : (b.getBattleGround id type).isSome) :
    ∃ bg, b'.battles id = some bg ∧ bg.type = type := by
  obtain ⟨bg, hbg⟩ := isSome_iff_exists.mp hsome
  obtain ⟨hbg, htype⟩ := getBattleGround_some.mp hbg
  have hkind := h.kinds id
  rw [hbg, map_some, map_eq_some_iff] at hkind
  obtain ⟨bg', hbg', htype'⟩ := hkind
  exact ⟨bg', hbg', htype'.trans htype⟩

/-- A player who can be invited has a guid, and is in no battleground. -/
theorem sees_invitable {m : BgMoment} {g : Nat}
    (h : ((b.sees m).player g).any BgPresence.invitable = true) :
    (0 < g ∧ g < 4294967296) ∧ b.bgData g = none := by
  unfold sees at h
  simp only at h
  split_ifs at h with hg
  · cases h
  · refine ⟨by omega, ?_⟩
    cases hm : m.player g with
    | none =>
      rw [hm] at h
      cases h
    | some p =>
      rw [hm, map_some, any_some] at h
      unfold BgPresence.invitable at h
      simp only [Bool.and_eq_true, Bool.not_eq_true', isSome_eq_false_iff,
        isNone_iff_eq_none] at h
      exact h.2

theorem teamOf_eq {q : BgQueue} {g id : Nat} {type : BgType} {t : BgTeam}
    (h : q.ticketOf g = some (id, type, t)) : teamOf q g = t := by
  unfold BgQueue.ticketOf at h
  obtain ⟨i, hi, he⟩ := map_eq_some_iff.mp h
  unfold teamOf
  rw [hi]
  exact congrArg (fun x => x.2.2) he

/-- Invitations are counted one after the other. -/
theorem increaseInvited_append (q : BgQueue) (l l' : List (Nat × Nat)) :
    b.increaseInvited q (l ++ l') = (b.increaseInvited q l).increaseInvited q l' :=
  List.foldl_append

theorem increaseInvited_map (q : BgQueue) (l : List Nat) (id : Nat) {t : BgTeam}
    (h : ∀ g ∈ l, teamOf q g = t) : b.increaseInvited q (l.map (·, id)) =
      l.foldl (fun b g => b.increaseInvitedCount id t g) b := by
  unfold increaseInvited
  rw [List.foldl_map]
  refine List.foldl_ext _ _ _ fun b g hg => ?_
  rw [h g hg]

/-- What is kept while the groups are invited, from the queue `q₁` after the sweep and `b₁`. -/
structure Inviting (T : BgType → Nat → Option BgTicket) (type : BgType) (m : BgMoment)
    (q q₁ : BgQueue) (b₁ : Battles) (o : BgOutcome) : Prop where
  groupOf : o.queue.groupOf = q₁.groupOf
  playersOf : ∀ i, o.queue.playersOf i = q₁.playersOf i
  uninvited : ∀ i, (o.queue.info i).isInvitedToBGInstanceGUID = 0 →
    (q₁.info i).isInvitedToBGInstanceGUID = 0
  team : ∀ g id type' t, o.queue.ticketOf g = some (id, type', t) → teamOf q g = t
  ledger : Told m q₁ o.queue →
    Ledger (Function.update T type o.queue.ticketOf) (b₁.increaseInvited q o.invited)

theorem inviting_groups {type : BgType} {m : BgMoment} {q q₁ : BgQueue} {o : BgOutcome}
    {q' : BgQueue} (hsame : BgOutcome.SameGroups o.queue q') (h : Inviting T type m q q₁ b o) :
    Inviting T type m q q₁ b { o with queue := q' } := by
  obtain ⟨hinfos, hplayers⟩ := hsame
  have hgroup : q'.groupOf = o.queue.groupOf := by
    unfold BgQueue.groupOf
    rw [hplayers]
  have hinfo : q'.info = o.queue.info := by
    unfold BgQueue.info
    rw [hinfos]
  have hticket := BgQueue.ticketOf_congr hgroup hinfos
  refine ⟨hgroup.trans h.groupOf, fun i => ?_, fun i hi => h.uninvited i ?_,
    fun g id type' t hg => h.team g id type' t ?_, fun htold => ?_⟩
  · show (q'.info i).players = _
    rw [hinfo]
    exact h.playersOf i
  · rw [← hinfo]
    exact hi
  · rw [← hticket]
    exact hg
  · show Ledger (Function.update T type q'.ticketOf) _
    rw [hticket]
    refine h.ledger ?_
    unfold Told at htold ⊢
    rw [← hplayers, ← hticket]
    exact htold

theorem mem_entries_of_groupOf {q : BgQueue} {g i : Nat} (h : q.groupOf g = some i) :
    ∃ x ∈ q.queuedPlayers.entries, x.1 = g := by
  unfold BgQueue.groupOf at h
  obtain ⟨pl, hpl, -⟩ := map_eq_some_iff.mp h
  exact ⟨⟨g, pl⟩, AList.mem_lookup_iff.mp hpl, rfl⟩

theorem inviting_invite {type : BgType} {m : BgMoment} {q q₁ : BgQueue} {o : BgOutcome}
    (hw : q₁.Wired) {b₀ : Battles} (hdata : b.bgData = b₀.bgData) (i id : Nat) (h0 : id ≠ 0)
    (hid : ∃ bg, b.battles id = some bg ∧ bg.type = type)
    (h : Inviting T type (b₀.seesBattles m type) q q₁ b o) :
    Inviting T type (b₀.seesBattles m type) q q₁ b
      (o.inviteGroupToBG (b₀.seesBattles m type) id i) := by
  unfold BgOutcome.inviteGroupToBG
  cases hi : o.queue.infos i with
  | none => exact h
  | some gi =>
    simp only
    split_ifs with hinvited
    · exact h
    have hzero := Classical.not_not.mp hinvited
    have hinfo : o.queue.info i = gi := by
      unfold BgQueue.info
      rw [hi]
      rfl
    have hmem : ∀ g, o.queue.groupOf g = some i ↔ g ∈ gi.players := by
      intro g
      rw [h.groupOf, hw.member g i, ← h.playersOf i]
      unfold BgQueue.playersOf
      rw [hinfo]
    set gi' := { gi with
      isInvitedToBGInstanceGUID := id
      removeInviteTime := (b₀.seesBattles m type).now + inviteAcceptWaitTime } with hgi'
    set q' := o.queue.setInfo i (some gi') with hq'
    have hinfo' : ∀ k, q'.info k = if k = i then gi' else o.queue.info k := fun k =>
      BgQueue.info_setInfo ..
    have hticket : ∀ g, q'.ticketOf g =
        if g ∈ gi.players then some (id, gi.bgTypeId, gi.groupTeam) else o.queue.ticketOf g := by
      intro g
      unfold BgQueue.ticketOf
      have hgroup : q'.groupOf = o.queue.groupOf := rfl
      rw [hgroup]
      split_ifs with hg
      · rw [(hmem g).mpr hg, map_some, hinfo', if_pos rfl]
        rfl
      · cases hgi : o.queue.groupOf g with
        | none => rfl
        | some k =>
          have hk : k ≠ i := by
            rintro rfl
            exact hg ((hmem g).mp hgi)
          rw [map_some, map_some, hinfo', if_neg hk]
    have hold : ∀ g ∈ gi.players, o.queue.ticketOf g = some (0, gi.bgTypeId, gi.groupTeam) := by
      intro g hg
      rw [BgQueue.ticketOf_eq ((hmem g).mpr hg), hinfo]
      unfold GroupQueueInfo.ticket
      rw [hzero]
    have hteam : ∀ g ∈ gi.players, teamOf q g = gi.groupTeam := fun g hg =>
      h.team g _ _ _ (hold g hg)
    refine ⟨h.groupOf, fun k => ?_, fun k hk => ?_, fun g id' type' t hg => ?_, fun htold => ?_⟩
    · rw [← h.playersOf k]
      unfold BgQueue.playersOf
      show (q'.info k).players = _
      rw [hinfo']
      split_ifs with hk
      · rw [hk, hinfo]
      · rfl
    · change (q'.info k).isInvitedToBGInstanceGUID = 0 at hk
      rw [hinfo'] at hk
      split_ifs at hk
      · exact absurd hk h0
      · exact h.uninvited k hk
    · change q'.ticketOf g = _ at hg
      rw [hticket] at hg
      split_ifs at hg with hgp
      · cases hg
        exact hteam g hgp
      · exact h.team g _ _ _ hg
    · -- the members are told
      have hinvitable : ∀ g ∈ gi.players,
          ((b₀.seesBattles m type).player g).any BgPresence.invitable = true := by
        intro g hg
        obtain ⟨x, hx, rfl⟩ := mem_entries_of_groupOf ((hmem g).mpr hg)
        have hgroup : q₁.groupOf x.1 = some i := by
          rw [← h.groupOf]
          exact (hmem x.1).mpr hg
        refine htold x hx _ (BgQueue.ticketOf_eq hgroup) (id, gi.bgTypeId, gi.groupTeam) ?_ ?_ h0
        · show q'.ticketOf x.1 = _
          rw [hticket, if_pos hg]
        · exact h.uninvited i (by rw [hinfo, hzero])
      have hledger := h.ledger fun x hx ticket ht ticket' ht' hzero' hone => by
        by_cases hg : x.1 ∈ gi.players
        · exact hinvitable x.1 hg
        · refine htold x hx ticket ht ticket' ?_ hzero' hone
          show q'.ticketOf x.1 = _
          rw [hticket, if_neg hg]
          exact ht'
      obtain ⟨-, hsame, hkinds⟩ := sameData_increaseInvited (b := b) q o.invited
      obtain ⟨bg, hbg, htype⟩ := hid
      have hbg' := hkinds id
      rw [hbg, map_some, map_eq_some_iff] at hbg'
      obtain ⟨bg', hbg', htype'⟩ := hbg'
      rw [List.filter_eq_self.mpr hinvitable, increaseInvited_append,
        increaseInvited_map q gi.players id hteam]
      have hkind : ∀ g ∈ gi.players, gi.bgTypeId = type := by
        intro g hg
        have hknown := hledger.known type g 0 gi.bgTypeId gi.groupTeam
        rw [Function.update_self] at hknown
        exact (hknown (hold g hg)).1
      have hdistinct : gi.players.Nodup := by
        have hnodup := hw.distinct i
        rw [← h.playersOf i] at hnodup
        unfold BgQueue.playersOf at hnodup
        rw [hinfo] at hnodup
        exact hnodup
      refine hledger.invite hbg' (htype'.trans htype) hdistinct (fun type' g => ?_)
        (fun g hg => ?_) (fun g hg => ?_) fun g hg => (sees_invitable (hinvitable g hg)).1
      · show Function.update T type q'.ticketOf type' g = _
        rw [update_apply, update_apply]
        by_cases ht : type' = type
        · rw [if_pos ht, if_pos ht, hticket]
          by_cases hg : g ∈ gi.players
          · rw [if_pos hg, if_pos ⟨ht, hg⟩, hkind g hg]
          · rw [if_neg hg, if_neg fun hc => hg hc.2]
        · rw [if_neg ht, if_neg ht, if_neg fun hc => ht hc.1]
      · rw [Function.update_self]
        exact ⟨_, hold g hg⟩
      · rw [hsame, hdata]
        exact (sees_invitable (hinvitable g hg)).2

/-- What ticket a player has in a queue -/
def tickets (w : BgWorld) : BgType → Nat → Option BgTicket := fun type => (w.queues type).ticketOf

theorem tickets_setQueue (w : BgWorld) (type : BgType) (q : BgQueue) :
    tickets (w.setQueue type q) = Function.update (tickets w) type q.ticketOf := by
  funext type'
  show (Function.update w.queues type q type').ticketOf = _
  rw [update_apply, update_apply]
  split_ifs <;> rfl

theorem isSome_seesBattles {m : BgMoment} {type : BgType} {id : Nat}
    (h : (∃ r ∈ (b.seesBattles m type).running, r.instanceId = id) ∨
      ∃ n, (b.seesBattles m type).newInstance n = some id) :
    (b.getBattleGround id type).isSome := by
  rcases h with ⟨r, hr, rfl⟩ | ⟨n, hn⟩
  · obtain ⟨r', -, hr'⟩ := List.mem_filterMap.mp hr
    unfold running at hr'
    obtain ⟨bg, hbg, rfl⟩ := map_eq_some_iff.mp hr'
    rw [hbg]
    rfl
  · exact (filter_eq_some_iff.mp hn).2

/-- An update counts whom it invites, each in the battleground he is invited to. -/
theorem ledger_update (s : BgSetup) (m : BgMoment) (type : BgType) (bracket : Nat)
    (hw : b.world.AllWired) (h : Ledger (tickets b.world) b)
    (htold : Told (b.seesBattles m type) (b.world.queues type)
      ((b.world.queues type).update s.cfg (s.template type) (b.seesBattles m type) type
        bracket).queue) :
    Ledger (tickets (b.update s m type bracket).world) (b.update s m type bracket) := by
  set m' := b.seesBattles m type with hm'
  set q := b.world.queues type with hq
  have hsweep := ledger_sweep m' type q.queuedPlayers.entries.length { queue := q } h rfl (hw type)
  set o₁ := BgOutcome.removeExpired m' q.queuedPlayers.entries.length { queue := q } with ho₁
  set b₁ := decreaseExpired m' q.queuedPlayers.entries.length q b with hb₁
  obtain ⟨hledger, hsame, hinvited, hticket⟩ := hsweep
  have hwired : o₁.queue.Wired := BgOutcome.wired_removeExpired m' _ (hw type)
  have hstart : Inviting (tickets b.world) type m' q o₁.queue b₁ o₁ := by
    refine ⟨rfl, fun _ => rfl, fun i hi => hi, fun g id type' t hg => ?_, fun _ => ?_⟩
    · exact teamOf_eq (hticket g _ hg)
    · rw [hinvited]
      exact hledger
  have hend := BgOutcome.induct_update s.cfg
    (P := Inviting (tickets b.world) type m' q o₁.queue b₁)
    (fun o q' hsame ho => inviting_groups hsame ho)
    (fun o l ho => { ho with })
    (fun o i id hid ho => by
      obtain ⟨bg, hbg, htype⟩ := getBattleGround_congr hsame (isSome_seesBattles hid)
      exact inviting_invite hwired hsame.bgData i id
        (Nat.pos_iff_ne_zero.mp (hledger.live id bg hbg).1) ⟨bg, hbg, htype⟩ ho)
    (s.template type) q type bracket hstart
  have hmain := hend.ledger fun x hx ticket ht ticket' ht' =>
    htold x hx ticket (hticket x.1 ticket ht) ticket' ht'
  have htickets : tickets (b.update s m type bracket).world =
      Function.update (tickets b.world) type
        (q.update s.cfg (s.template type) m' type bracket).queue.ticketOf := by
    have hworld : (b₁.increaseInvited q
        (q.update s.cfg (s.template type) m' type bracket).invited).world = b.world :=
      (sameData_increaseInvited q _).world.trans hsame.world
    show tickets (BgWorld.updateQueue s m' (b₁.increaseInvited q
      (q.update s.cfg (s.template type) m' type bracket).invited).world type bracket) = _
    rw [hworld, ← tickets_setQueue]
    funext type'
    unfold tickets BgWorld.updateQueue
    simp only
    rw [BgWorld.queues_foldl_mapPlayer (fun x : Nat × Nat => x.1),
      BgWorld.queues_foldl_mapPlayer (fun guid : Nat => guid)]
  rw [htickets]
  exact hmain.world _

/-! ## The other operations of the queues -/

section Queues

variable {s : BgSetup} {m : BgMoment} {w : BgWorld}

variable (s m w) in
theorem queues_port (guid : Nat) (p : BgPortPacket) :
    (w.handleBattleFieldPort s m guid p).queues = match w.portsTo s m guid p with
      | none => w.queues
      | some _ => Function.update w.queues p.bgType ((w.queues p.bgType).removePlayer guid) := by
  unfold BgWorld.handleBattleFieldPort BgWorld.portsTo
  cases m.player guid with
  | none => rfl
  | some me =>
    cases w.players guid with
    | none => rfl
    | some pl =>
      cases (w.queues p.bgType).groupOf guid with
      | none => rfl
      | some i =>
        simp only
        by_cases hno : ¬ pl.inBattleGroundQueue ∨
            (((w.queues p.bgType).info i).isInvitedToBGInstanceGUID = 0 ∧ p.action = 1) ∨
            ¬ (p.bgFound ∨ (p.action = 0 ∧ (s.template p.bgType).isSome))
        · rw [if_pos hno, if_pos hno]
        · rw [if_neg hno, if_neg hno]
          rcases BgWorld.portAction m me ((w.queues p.bgType).info i) p with _ | n
          · rfl
          · obtain _ | _ | n := n
            · rfl
            · simp only
              split_ifs
              · cases p.currentBg <;> rfl
              · rfl
            · rfl

/-- Who enters has been invited, to a battleground that exists. -/
theorem portsTo_some {guid : Nat} {p : BgPortPacket} {gi : GroupQueueInfo} {enters : Bool}
    (h : w.portsTo s m guid p = some (gi, enters)) :
    ∃ i, (w.queues p.bgType).groupOf guid = some i ∧ (w.queues p.bgType).info i = gi ∧
      (enters = true → gi.isInvitedToBGInstanceGUID ≠ 0 ∧ p.bgFound = true) := by
  unfold BgWorld.portsTo at h
  split at h
  case h_2 => cases h
  case h_1 me pl i hme hpl hi =>
    refine ⟨i, hi, ?_⟩
    simp only at h
    by_cases hno : ¬ pl.inBattleGroundQueue ∨
        (((w.queues p.bgType).info i).isInvitedToBGInstanceGUID = 0 ∧ p.action = 1) ∨
        ¬ (p.bgFound ∨ (p.action = 0 ∧ (s.template p.bgType).isSome))
    · rw [if_pos hno] at h
      cases h
    rw [if_neg hno] at h
    split at h
    case h_1 hact =>
      split_ifs at h
      cases h
      refine ⟨rfl, fun _ => ?_⟩
      have haction : p.action = 1 := by
        unfold BgWorld.portAction at hact
        by_cases ha : p.action = 1
        · exact ha
        · rw [if_pos ha] at hact
          exact some_inj.mp hact
      refine ⟨fun h0 => hno (Or.inr (Or.inl ⟨h0, haction⟩)), ?_⟩
      refine Classical.byContradiction fun hfound => hno (Or.inr (Or.inr ?_))
      rintro (hf | ⟨ha, -⟩)
      · exact hfound hf
      · rw [haction] at ha
        cases ha
    case h_2 =>
      cases h
      exact ⟨rfl, fun he => by cases he⟩
    case h_3 => cases h

theorem tickets_removed {w' : BgWorld} {type : BgType} {guid : Nat} (hw : w.AllWired)
    (h : w'.queues = Function.update w.queues type ((w.queues type).removePlayer guid)) :
    tickets w' = Function.update (tickets w) type (Function.update (tickets w type) guid none) := by
  have hset := tickets_setQueue w type ((w.queues type).removePlayer guid)
  rw [BgQueue.ticketOf_removePlayer (hw type)] at hset
  refine Eq.trans ?_ hset
  unfold tickets BgWorld.setQueue
  rw [h]

/-- A join is not an invitation. -/
theorem tickets_enter {e : BgWorld.Entry} (hw : w.AllWired) (hw' : (w.enter s e).AllWired)
    (type : BgType) (g : Nat) : tickets (w.enter s e) type g = tickets w type g ∨
      (tickets w type g = none ∧ ∃ t, tickets (w.enter s e) type g = some (0, type, t)) := by
  have hw'' := hw' type
  unfold tickets
  rw [BgWorld.queues_enter, update_apply] at hw'' ⊢
  split_ifs at hw'' ⊢ with ht
  · subst ht
    exact (BgWorld.admits_enter s hw e).ticketOf (hw _) hw'' g
  · exact Or.inl rfl

theorem tickets_playerLoggedIn (guid level : Nat) :
    tickets (w.playerLoggedIn guid level) = tickets w := by
  unfold BgWorld.playerLoggedIn
  have hstart : tickets { w with players := Function.update w.players guid (some { level }) } =
      tickets w := rfl
  refine List.foldlRecOn (motive := fun w' => tickets w' = tickets w) _ _ hstart
    fun w' h type _ => ?_
  simp only
  split
  · exact h
  · refine Eq.trans ?_ h
    refine (tickets_setQueue w' type _).trans ?_
    rw [BgQueue.ticketOf_playerLoggedIn]
    exact update_eq_self type (tickets w')

/-- What the first request does to the queues -/
theorem tickets_processRequest (hw : w.AllWired) (hk : w.Kept s (.processRequest m)) :
    match w.requestRemoval with
    | some (guid, type) => tickets (w.processRequest s m) =
        Function.update (tickets w) type (Function.update (tickets w type) guid none)
    | none => ∀ type g, tickets (w.processRequest s m) type g = tickets w type g ∨
        (tickets w type g = none ∧
          ∃ t, tickets (w.processRequest s m) type g = some (0, type, t)) := by
  have hwired := hw.processRequest hk
  unfold BgWorld.requestRemoval
  unfold BgWorld.processRequest at hwired ⊢
  cases hreq : w.requests with
  | nil => exact fun _ _ => Or.inl rfl
  | cons r rest =>
    rw [hreq] at hwired
    cases r with
    | inviteRemoval guid instanceId type removeTime =>
      simp only [BgWorld.processQueueInviteRemoval]
      by_cases hc : w.inQueue type guid ∧
          (w.queues type).isPlayerInvited guid instanceId removeTime
      · rw [if_pos hc]
        simp only
        split_ifs with hc'
        · exact tickets_removed hw rfl
        · exact absurd hc hc'
      · rw [if_neg hc]
        simp only
        split_ifs with hc'
        · exact absurd hc' hc
        · exact fun _ _ => Or.inl rfl
    | playerLogout guid type =>
      refine fun type' g => Or.inl ?_
      refine (congrFun (congrFun (tickets_setQueue _ type _) type') g).trans ?_
      rw [BgQueue.ticketOf_playerLoggedOut]
      exact congrFun (congrFun (update_eq_self type (tickets w)) type') g
    | bracketCleanup guid type bracket =>
      simp only [BgWorld.processQueueBracketCleanup]
      cases (w.queues type).groupOf guid with
      | none => exact fun _ _ => Or.inl rfl
      | some i =>
        simp only
        by_cases hc : some ((w.queues type).info i).bracketId = bracket
        · rw [if_pos hc, if_pos hc]
          exact tickets_removed hw rfl
        · rw [if_neg hc, if_neg hc]
          exact fun _ _ => Or.inl rfl
    | arenaJoin guid queuedAsGroup =>
      simp only at hwired ⊢
      cases he : w.requestEntry s m with
      | none => exact fun _ _ => Or.inl rfl
      | some e =>
        rw [he] at hwired
        exact tickets_enter (w := { w with requests := rest }) hw hwired

end Queues

/-! ## A step -/

/-- A player leaves only the battleground in which he takes part. -/
def Arrived (b : Battles) (guid : Nat) : Prop :=
  ∀ x ∈ b.current guid, guid ∈ x.2.players

instance (b : Battles) (guid : Nat) : Decidable (b.Arrived guid) := by
  unfold Arrived
  infer_instance

/-- A player who leaves takes one off his team, and is in no battleground. -/
theorem ledger_leave (h : Ledger T b) {guid : Nat} (ha : b.Arrived guid) :
    Ledger T (b.leaveBattleground guid) ∧ (b.leaveBattleground guid).current guid = none ∧
      (b.leaveBattleground guid).world.queues = b.world.queues ∧
      ∀ id bg, b.battles id = some bg →
        ∃ bg', (b.leaveBattleground guid).battles id = some bg' := by
  unfold leaveBattleground
  cases hcurrent : b.current guid with
  | none => exact ⟨h, hcurrent, rfl, fun id bg hbg => ⟨bg, hbg⟩⟩
  | some x =>
    obtain ⟨id, bg⟩ := x
    obtain ⟨t, ht⟩ := isSome_iff_exists.mp (AList.lookup_isSome.mpr (ha _ hcurrent))
    refine ⟨h.leave hcurrent ht, ?_, ?_, fun id' bg' hbg' => ?_⟩
    · unfold removePlayerAtLeave
      simp only [ht]
      show (Function.update b.bgData guid none guid).bind _ = none
      rw [Function.update_self]
      rfl
    · unfold removePlayerAtLeave
      simp only [ht]
      rfl
    · unfold removePlayerAtLeave
      simp only [ht]
      show ∃ bg', Function.update b.battles id _ id' = some bg'
      rw [update_apply]
      split_ifs
      · exact ⟨_, rfl⟩
      · exact ⟨bg', hbg'⟩

/-- The condition on a step -/
def Allowed (s : BgSetup) (b : Battles) : Input → Prop
  | .join m guid p => b.world.Kept s (.join (b.sees m) guid p)
  | .processRequest m => b.world.Kept s (.processRequest (b.sees m))
  | .update m type bracket => Told (b.seesBattles m type) (b.world.queues type)
      ((b.world.queues type).update s.cfg (s.template type) (b.seesBattles m type) type
        bracket).queue
  | .port m guid p =>
    (b.world.portsTo s (b.sees m) guid (b.seesPacket guid p)).any (·.2) = true → b.Arrived guid
  | .logout guid pending => (b.land guid pending).Arrived guid
  | .leave guid => b.Arrived guid
  | .arriveElsewhere guid => b.current guid = none
  | _ => True

instance (s : BgSetup) (b : Battles) : DecidablePred (b.Allowed s) := fun i => by
  unfold Allowed
  cases i <;> infer_instance

/-- What holds between two steps -/
def Balanced (b : Battles) : Prop := b.world.AllWired ∧ Ledger (tickets b.world) b

theorem balanced_of_queues {b' : Battles} (hw : b.world.AllWired)
    (h : Ledger (tickets b.world) b') (hqueues : b'.world.queues = b.world.queues) :
    b'.Balanced := by
  unfold Balanced BgWorld.AllWired tickets at *
  rw [hqueues]
  exact ⟨hw, h⟩

theorem balanced_queueStep {s : BgSetup} {i : BgWorld.Input} (h : b.Balanced)
    (hqueues : (b.world.step s i).queues = b.world.queues) : (b.queueStep s i).Balanced :=
  balanced_of_queues h.1 (h.2.world _) hqueues

theorem arrive_world (b : Battles) (guid : Nat) : (b.arrive guid).world = b.world := by
  unfold Battles.arrive
  split
  · split_ifs <;> rfl
  · rfl

theorem land_world (b : Battles) (guid : Nat) (pending : Bool) :
    (b.land guid pending).world = b.world := by
  unfold land
  split_ifs
  · exact b.arrive_world guid
  · rfl

/-- Who arrives has a place already. -/
theorem ledger_land (h : Ledger T b) (guid : Nat) (pending : Bool) :
    Ledger T (b.land guid pending) := by
  unfold land
  split_ifs
  · exact h.arrive guid
  · exact h

/-- A player leaves a queue and gives back his place. -/
theorem balanced_removed {s : BgSetup} {guid : Nat} {type : BgType} {i : BgWorld.Input}
    (hw' : (b.world.step s i).AllWired) (hl : Ledger (tickets b.world) b)
    (htickets : tickets (b.world.step s i) = Function.update (tickets b.world) type
      (Function.update (tickets b.world type) guid none)) :
    ((b.decreaseFor (b.world.queues type) guid).queueStep s i).Balanced := by
  have hworld := (sameData_decreaseFor (b := b) (b.world.queues type) guid).world
  have hone := hl.decreaseFor (q := b.world.queues type) guid rfl
  unfold queueStep
  rw [hworld]
  refine ⟨hw', ?_⟩
  show Ledger (tickets (b.world.step s i)) _
  rw [htickets]
  exact hone.world _

theorem port_balanced {s : BgSetup} {m : BgMoment} {guid : Nat} {p : BgPortPacket}
    (h : b.Balanced) (ha : b.Allowed s (.port m guid p)) : (b.port s m guid p).Balanced := by
  obtain ⟨hw, hl⟩ := h
  have hw' := BgWorld.step_wired (s := s) b.world (.port (b.sees m) guid (b.seesPacket guid p)) hw
    nofun
  have hqueues := queues_port s (b.sees m) b.world guid (b.seesPacket guid p)
  unfold Battles.port
  simp only
  cases hto : b.world.portsTo s (b.sees m) guid (b.seesPacket guid p) with
  | none => exact ⟨hw, hl⟩
  | some x =>
    obtain ⟨gi, enters⟩ := x
    rw [hto] at hqueues
    have htickets := tickets_removed hw hqueues
    obtain ⟨i, hi, hgi, henters⟩ := portsTo_some hto
    cases enters with
    | false => exact balanced_removed hw' hl htickets
    | true =>
      obtain ⟨h0, hfound⟩ := henters rfl
      have harrived : b.Arrived guid := ha (by rw [hto]; rfl)
      set b₁ := b.queueStep s (.port (b.sees m) guid (b.seesPacket guid p)) with hb₁
      have hl₁ : Ledger (tickets b.world) b₁ := hl.world _
      obtain ⟨hleave, hcurrent, hsame, hexists⟩ := ledger_leave hl₁ harrived
      have hticket : tickets b.world p.bgType guid = some gi.ticket := by
        rw [← hgi]
        exact BgQueue.ticketOf_eq hi
      have htype : gi.bgTypeId = p.bgType := (hl.known _ _ _ _ _ hticket).1
      have hbattle : ∃ bg, b.battles gi.isInvitedToBGInstanceGUID = some bg := by
        unfold seesPacket at hfound
        simp only at hfound
        change ((b.world.queues p.bgType).groupOf guid).any _ = true at hfound
        have hi' : (b.world.queues p.bgType).groupOf guid = some i := hi
        have hgi' : (b.world.queues p.bgType).info i = gi := hgi
        rw [hi', any_some, hgi'] at hfound
        obtain ⟨bg, hbg⟩ := isSome_iff_exists.mp hfound
        exact ⟨bg, (getBattleGround_some.mp hbg).1⟩
      obtain ⟨bg, hbg⟩ := hbattle
      obtain ⟨bg', hbg'⟩ := hexists _ bg hbg
      unfold GroupQueueInfo.ticket at hticket
      rw [htype] at hticket
      have haccept := hleave.accept hticket hbg' hcurrent
      refine ⟨fun type => ?_, ?_⟩
      · show ((b₁.leaveBattleground guid).world.queues type).Wired
        rw [hsame]
        exact hw' type
      · have hfinal : tickets (b₁.leaveBattleground guid).world = Function.update (tickets b.world)
            p.bgType (Function.update (tickets b.world p.bgType) guid none) := by
          refine Eq.trans ?_ htickets
          unfold tickets
          rw [hsame]
          rfl
        show Ledger (tickets (b₁.leaveBattleground guid).world) _
        rw [hfinal]
        exact haccept

/-- Every step keeps the sums. -/
theorem step_balanced (s : BgSetup) (b : Battles) (i : Input) (h : b.Balanced)
    (ha : b.Allowed s i) : (b.step s i).Balanced := by
  obtain ⟨hw, hl⟩ := h
  cases i with
  | join m guid p =>
    have hw' := BgWorld.step_wired b.world (.join (b.sees m) guid p) hw ha
    refine ⟨hw', (hl.world _).enter fun type g => ?_⟩
    show tickets (b.world.step s (.join (b.sees m) guid p)) type g = _ ∨
      (_ ∧ ∃ t, tickets (b.world.step s (.join (b.sees m) guid p)) type g = _)
    unfold BgWorld.step at hw' ⊢
    dsimp only at hw' ⊢
    cases he : b.world.battlemasterEntry s (b.sees m) guid p with
    | none => exact Or.inl rfl
    | some e =>
      rw [he] at hw'
      exact tickets_enter hw hw' type g
  | addToArenaQueue guid queuedAsGroup =>
    show (b.queueStep s (.addToArenaQueue guid queuedAsGroup)).Balanced
    have hqueues : (b.world.step s (.addToArenaQueue guid queuedAsGroup)).queues =
        b.world.queues := by
      show (b.world.addToArenaQueue guid queuedAsGroup).queues = _
      unfold BgWorld.addToArenaQueue
      split_ifs <;> rfl
    exact balanced_queueStep ⟨hw, hl⟩ hqueues
  | port m guid p => exact port_balanced ⟨hw, hl⟩ ha
  | inviteTimeout guid instanceId type removeTime => exact ⟨hw, hl.world _⟩
  | logout guid pending =>
    obtain ⟨hl', -, hqueues, -⟩ := ledger_leave (ledger_land hl guid pending) ha
    refine balanced_queueStep (b := (b.land guid pending).leaveBattleground guid) ?_ ?_
    · rw [land_world] at hqueues
      exact balanced_of_queues hw hl' hqueues
    · show (((b.land guid pending).leaveBattleground guid).world.playerLoggedOut guid).queues = _
      unfold BgWorld.playerLoggedOut
      split <;> rfl
  | login guid level =>
    have hw' := BgWorld.step_wired (s := s) b.world (.login guid level) hw
      fun _ h => by cases h
    refine ⟨hw', ?_⟩
    show Ledger (tickets (b.world.playerLoggedIn guid level)) _
    rw [tickets_playerLoggedIn]
    exact hl.world _
  | giveLevel guid level =>
    refine balanced_queueStep (b := b) ⟨hw, hl⟩ ?_
    show (b.world.giveLevel s guid level).queues = _
    unfold BgWorld.giveLevel
    split <;> rfl
  | leave guid =>
    obtain ⟨hl', -, hqueues, -⟩ := ledger_leave hl ha
    exact balanced_of_queues hw hl' hqueues
  | arrive guid =>
    exact balanced_of_queues hw (hl.arrive guid) (congrArg BgWorld.queues (b.arrive_world guid))
  | arriveElsewhere guid =>
    have hworld : (b.arriveElsewhere guid).world = b.world := by
      unfold Battles.arriveElsewhere
      split <;> rfl
    exact balanced_of_queues hw (hl.arriveElsewhere ha) (congrArg BgWorld.queues hworld)
  | processRequest m =>
    have hw' := BgWorld.step_wired b.world (.processRequest (b.sees m)) hw ha
    have htickets := tickets_processRequest hw ha
    show (b.processRequest s m).Balanced
    unfold Battles.processRequest
    simp only
    cases hr : b.world.requestRemoval with
    | none =>
      rw [hr] at htickets
      exact ⟨hw', (hl.world _).enter htickets⟩
    | some x =>
      obtain ⟨guid, type⟩ := x
      rw [hr] at htickets
      exact balanced_removed hw' hl htickets
  | update m type bracket =>
    have hworld := (sameData_increaseInvited (b := decreaseExpired (b.seesBattles m type)
      (b.world.queues type).queuedPlayers.entries.length (b.world.queues type) b)
      (b.world.queues type) ((b.world.queues type).update s.cfg (s.template type)
        (b.seesBattles m type) type bracket).invited).world.trans
      (ledger_sweep (b.seesBattles m type) type
        (b.world.queues type).queuedPlayers.entries.length { queue := b.world.queues type } hl rfl
        (hw type)).2.1.world
    refine ⟨?_, ledger_update s m type bracket hw hl ha⟩
    show (BgWorld.step s _ (.update (b.seesBattles m type) type bracket)).AllWired
    rw [hworld]
    exact BgWorld.step_wired b.world (.update (b.seesBattles m type) type bracket) hw
      fun _ h => by cases h
  | create type maxPlayersPerTeam => exact ⟨hw, hl.create type maxPlayersPerTeam⟩
  | setStatus instanceId status =>
    have hworld : (b.step s (.setStatus instanceId status)).world = b.world := by
      unfold Battles.step
      dsimp only
      split <;> rfl
    exact balanced_of_queues hw (hl.setStatus instanceId status s)
      (congrArg BgWorld.queues hworld)
  | updateBattle instanceId isOver =>
    refine balanced_of_queues hw (hl.updateBattle instanceId isOver) ?_
    show (b.updateBattle instanceId isOver).world.queues = _
    unfold Battles.updateBattle
    split
    · rfl
    · split_ifs
      · exact BgWorld.queues_foldl_mapPlayer (fun guid => guid) _ _ _
      · rfl
      · rfl

/-- The counters of each battleground are the numbers of the players who are counted, and what is free
is what is left of `MaxPlayersPerTeam`. -/
structure Tallied (b : Battles) : Prop where
  count : ∀ id bg t, b.battles id = some bg → (bg.invited t).toNat = (b.counted id t).card
  free : ∀ id bg t, b.battles id = some bg → bg.status = .waitJoin ∨ bg.status = .inProgress →
    (bg.getFreeSlotsForTeam t).toNat = bg.maxPlayersPerTeam.toNat - (b.counted id t).card

theorem Ledger.tallied (h : Ledger T b) : b.Tallied := by
  refine ⟨h.count, fun id bg t hbg hstatus => ?_⟩
  unfold BgBattle.getFreeSlotsForTeam
  rw [if_pos hstatus, ← h.count id bg t hbg]
  split_ifs with hlt
  · exact UInt32.toNat_sub_of_le _ _ (UInt32.le_of_lt hlt)
  · rw [UInt32.lt_iff_toNat_lt] at hlt
    show 0 = _
    omega

/-- In every run in which all who are invited are told, and leave a battleground only after they have
arrived, the counters are right. A logout lets the player arrive whose teleport is pending. -/
theorem run_tallied (s : BgSetup) (is : List Input) (h : AlongRun (step s) (Allowed s) {} is) :
    (run (step s) {} is).Tallied := by
  have hstart : Balanced {} := ⟨fun _ => BgQueue.wired_empty, ledger_empty⟩
  have hend : (run (step s) {} is).Balanced :=
    run_keeps (fun b i hb hi => step_balanced s b i hb hi) hstart h
  exact hend.2.tallied

/-- Two players are invited to a battleground that is running; one enters it and logs out on his way,
the other refuses. -/
theorem run_tallied_invited :
    let s : BgSetup := { template := fun _ => some ⟨1, 10, 10⟩, team := fun _ => .horde }
    let m : BgMoment := { player := fun _ => some {}, running := [⟨1, 1, false, 0, 0⟩] }
    let is : List Input := [.login 1 20, .login 2 20, .join m 1 { bgType := .ws },
      .join m 2 { bgType := .ws }, .create .ws 10, .update m .ws 1, .port m 1 ⟨.ws, 1, true, false,
      false, none⟩, .port m 2 ⟨.ws, 0, true, false, false, none⟩, .logout 1 true]
    (run (step s) {} is).Tallied := by
  intro s m is
  exact run_tallied s is (by decide +kernel)

/-- A player who is offline is invited without being counted. When he has been offline for too long,
the counter goes below zero, and the battleground has no free places any more. -/
theorem offline_not_tallied : ¬ ∀ (s : BgSetup) (is : List Input),
    (run (step s) {} is).Tallied := by
  intro h
  let m : BgMoment := { player := fun _ => some {}, running := [⟨1, 1, false, 0, 0⟩] }
  have hrun := h { template := fun _ => some ⟨1, 10, 10⟩, team := fun _ => .horde }
    [.login 1 20, .join m 1 { bgType := .ws }, .logout 1 false, .processRequest m, .create .ws 10,
      .update m .ws 1, .update { m with now := 70000, running := [] } .ws 1]
  have hall : ∀ b : Battles, b.Tallied → (b.battles 1).all fun bg =>
      decide ((bg.invited .horde).toNat = (b.counted 1 .horde).card) := by
    intro b hb
    cases hbg : b.battles 1 with
    | none => rfl
    | some bg => exact decide_eq_true (hb.count 1 bg .horde hbg)
  have hcounter := hall _ hrun
  revert hcounter
  decide +kernel

end Battles

end Windrunner
