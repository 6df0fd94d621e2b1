import Windrunner.Battleground.Seats

/-!
# Who is online in the queues

A logout is told to the queues when the mailbox is drained, a login at once. `Holds` says what is
known of one player and one queue: they agree, or a request that waits in the mailbox will see to
it. Every step keeps it (`step_tracked`) as long as nobody logs in

* while a queue without a slot number (`loginQueues`) has him,
* or while a logout of his waits.
-/

namespace Windrunner

open Lib List Function
open Option hiding mem_map

instance : Fintype BgType where
  elems := {.av, .ws, .ab, .br, .sv}
  complete type := by cases type <;> decide

/-! ## The world -/

namespace BgWorld

open BgQueue

variable {s : BgSetup} {m : BgMoment} {w w' : BgWorld} {guid g : Nat} {type t : BgType}

theorem queues_setQueue (type : BgType) (q : BgQueue) (t : BgType) :
    (w.setQueue type q).queues t = if t = type then q else w.queues t := update_apply ..

theorem isSome_mapPlayer (f : BgPlayer → BgPlayer) :
    ((w.mapPlayer guid f).players g).isSome = (w.players g).isSome := by
  show (update w.players guid ((w.players guid).map f) g).isSome = _
  rw [update_apply]
  split_ifs with hg
  · rw [hg, isSome_map]
  · rfl

/-- A change to one player that keeps the queue he is in. -/
theorem inQueue_mapPlayer {f : BgPlayer → BgPlayer} (h : w.inQueue t g = true)
    (hf : g = guid → ∀ pl, pl.inQueue t = true → (f pl).inQueue t = true) :
    (w.mapPlayer guid f).inQueue t g = true := by
  unfold BgWorld.inQueue at h ⊢
  show (update w.players guid ((w.players guid).map f) g).any _ = true
  rw [update_apply]
  split_ifs with hg
  · subst hg
    rw [Option.any_map]
    cases hpl : w.players g with
    | none =>
      rw [hpl] at h
      cases h
    | some pl =>
      rw [hpl] at h
      exact hf rfl pl h
  · exact h

section Fold

variable {α : Type} (who : α → Nat) (f : α → BgPlayer → BgPlayer)

theorem requests_foldl_mapPlayer (l : List α) (w : BgWorld) :
    (l.foldl (fun w a => w.mapPlayer (who a) (f a)) w).requests = w.requests :=
  foldlRecOn (motive := fun w' : BgWorld => w'.requests = w.requests) l _ rfl
    fun _ h _ _ => h

theorem isSome_foldl_mapPlayer (l : List α) (w : BgWorld) :
    ((l.foldl (fun w a => w.mapPlayer (who a) (f a)) w).players g).isSome =
      (w.players g).isSome :=
  foldlRecOn (motive := fun w' : BgWorld => (w'.players g).isSome = (w.players g).isSome) l _
    rfl fun _ h a _ => (isSome_mapPlayer (f a)).trans h

theorem inQueue_foldl_mapPlayer {l : List α} {w : BgWorld} (h : w.inQueue t g = true)
    (hf : ∀ a ∈ l, g = who a → ∀ pl, pl.inQueue t = true → (f a pl).inQueue t = true) :
    (l.foldl (fun w a => w.mapPlayer (who a) (f a)) w).inQueue t g = true :=
  foldlRecOn (motive := fun w' : BgWorld => w'.inQueue t g = true) l _ h
    fun _ h a ha => inQueue_mapPlayer h (hf a ha)

end Fold

/-- The request may bring the player's place in the queue up to date. -/
def Concerns (guid : Nat) (type : BgType) (r : BgRequest) : Prop :=
  r = .playerLogout guid type ∨ ∃ bracket, r = .bracketCleanup guid type bracket

/-- A player and his seat agree, or a request that waits will see to it. -/
structure Holds (w : BgWorld) (guid : Nat) (type : BgType) : Prop where
  quiet : (w.players guid).isSome → .playerLogout guid type ∉ w.requests
  offline : w.players guid = none → ∀ bracket, (w.queues type).seat guid = some (true, bracket) →
    .playerLogout guid type ∈ w.requests ∨ .bracketCleanup guid type (some bracket) ∈ w.requests
  online : (w.players guid).isSome → ∀ x, (w.queues type).seat guid = some x → x.1 = true ∧
    (w.inQueue type guid ∨ .bracketCleanup guid type (some x.2) ∈ w.requests)

/-- Nothing happens to the player, but that he leaves the queue. -/
theorem Holds.frame (h : w.Holds g t) (honline : (w'.players g).isSome = (w.players g).isSome)
    (hrequests : ∀ r, Concerns g t r → (r ∈ w'.requests ↔ r ∈ w.requests))
    (hseat : (w'.queues t).seat g = none ∨ ((w'.queues t).seat g = (w.queues t).seat g ∧
      (w.inQueue t g = true → w'.inQueue t g = true))) : w'.Holds g t := by
  have hlogout := hrequests (.playerLogout g t) (Or.inl rfl)
  have hcleanup := fun bracket => hrequests (.bracketCleanup g t bracket) (Or.inr ⟨bracket, rfl⟩)
  refine ⟨fun hg => ?_, fun hg bracket hs => ?_, fun hg x hs => ?_⟩
  · rw [hlogout]
    exact h.quiet (honline ▸ hg)
  · rcases hseat with hnone | ⟨hsame, -⟩
    · rw [hnone] at hs
      cases hs
    · rw [hlogout, hcleanup]
      refine h.offline (not_isSome_iff_eq_none.mp ?_) bracket (hsame ▸ hs)
      rw [← honline, hg]
      exact Bool.false_ne_true
  · rcases hseat with hnone | ⟨hsame, hslot⟩
    · rw [hnone] at hs
      cases hs
    · obtain ⟨hmark, hplace⟩ := h.online (honline ▸ hg) x (hsame ▸ hs)
      refine ⟨hmark, hplace.imp hslot fun hc => ?_⟩
      rw [hcleanup]
      exact hc

/-- A request of another kind is put off. -/
theorem Holds.request (h : w.Holds g t) {r : BgRequest} (hr : ¬ Concerns g t r) :
    (w.request r).Holds g t := by
  refine h.frame rfl (fun r' hc => ?_) (Or.inr ⟨rfl, id⟩)
  show r' ∈ w.requests ++ [r] ↔ _
  rw [mem_append, mem_singleton]
  exact or_iff_left fun he => hr (he ▸ hc)

/-- The first request is of no use for the seat. -/
theorem Holds.tail (h : w.Holds g t) {r : BgRequest} {rest : List BgRequest}
    (hr : w.requests = r :: rest) (hlogout : r ≠ .playerLogout g t)
    (hcleanup : ∀ x, (w.queues t).seat g = some x → r ≠ .bracketCleanup g t (some x.2)) :
    BgWorld.Holds { w with requests := rest } g t := by
  have hmem : ∀ r', r ≠ r' → r' ∈ w.requests → r' ∈ rest := by
    intro r' hne hm
    rw [hr] at hm
    exact (mem_cons.mp hm).resolve_left (Ne.symm hne)
  refine ⟨fun hsome hm => h.quiet hsome ?_, fun hnone bracket hs => ?_, fun hsome x hs => ?_⟩
  · rw [hr]
    exact mem_cons_of_mem _ hm
  · exact (h.offline hnone bracket hs).imp (hmem _ hlogout) (hmem _ (hcleanup _ hs))
  · obtain ⟨hmark, hplace⟩ := h.online hsome x hs
    exact ⟨hmark, hplace.imp_right (hmem _ (hcleanup x hs))⟩

/-- The queue does not have the player. -/
theorem Holds.of_none (h : w.Holds g t) (honline : w'.players g = w.players g)
    (hrequests : ∀ r, r ∈ w'.requests → r ∈ w.requests) (hseat : (w'.queues t).groupOf g = none) :
    w'.Holds g t := by
  rw [← seat_eq_none] at hseat
  refine ⟨fun hsome hm => h.quiet (honline ▸ hsome) (hrequests _ hm), fun _ bracket hs => ?_,
    fun _ x hs => ?_⟩
  · rw [hseat] at hs
    cases hs
  · rw [hseat] at hs
    cases hs

/-! ## Leaving a queue -/

/-- Who leaves a queue is not in it, and the others hold as they did. -/
theorem Holds.removeFromQueue (hw : w.AllWired) (h : w.Holds g t) (type : BgType) (guid : Nat) :
    (w.removeFromQueue type guid).Holds g t := by
  refine h.frame rfl (fun _ _ => Iff.rfl) ?_
  rw [BgWorld.removeFromQueue, queues_setQueue]
  split_ifs with ht
  · rw [seat_removePlayer (hw type), ht]
    split_ifs
    · exact Or.inl rfl
    · exact Or.inr ⟨rfl, id⟩
  · exact Or.inr ⟨rfl, id⟩

/-- The slot of a queue that does not have the player becomes free. -/
theorem Holds.removeId (h : w.Holds g t) (hnone : (w.queues type).groupOf guid = none) :
    (w.mapPlayer guid (·.removeBattleGroundQueueId type)).Holds g t := by
  refine h.frame (isSome_mapPlayer _) (fun _ _ => Iff.rfl) ?_
  by_cases hgt : g = guid ∧ t = type
  · obtain ⟨rfl, rfl⟩ := hgt
    exact Or.inl (seat_eq_none.mpr hnone)
  · refine Or.inr ⟨rfl, fun hq => inQueue_mapPlayer hq fun hg pl hpl => ?_⟩
    exact BgPlayer.inQueue_remove hpl fun ht => hgt ⟨hg, ht⟩

theorem groupOf_removeFromQueue : ((w.removeFromQueue type guid).queues type).groupOf guid = none := by
  rw [BgWorld.removeFromQueue, queues_setQueue, if_pos rfl, groupOf_removePlayer, if_pos rfl]

/-- The player leaves the queue, and its slot becomes free. -/
theorem Holds.leave (hw : w.AllWired) (h : w.Holds g t) (type : BgType) (guid : Nat) :
    ((w.mapPlayer guid (·.removeBattleGroundQueueId type)).removeFromQueue type guid).Holds g t :=
  (h.removeFromQueue hw type guid).removeId groupOf_removeFromQueue

/-! ## Joining a queue -/

/-- He is online, is not in the queue as far as he knows, and has a free slot. -/
def Admitted (w : BgWorld) (type : BgType) (guid : Nat) : Prop :=
  ∃ pl, w.players guid = some pl ∧ pl.inQueue type = false ∧ 0 < pl.freeSlots

/-- A check that lets a list through has let through each of it. -/
theorem forall_of_foldlM {ε α β : Type} {f : β → α → Except ε β} {P : α → Prop}
    (hf : ∀ acc a acc', f acc a = .ok acc' → P a) {l : List α} {acc out : β}
    (h : l.foldlM f acc = .ok out) : ∀ a ∈ l, P a := by
  induction l generalizing acc with
  | nil => exact nofun
  | cons a l ih =>
    rw [foldlM_cons] at h
    cases ha : f acc a with
    | error e =>
      rw [ha] at h
      cases h
    | ok acc' =>
      rw [ha] at h
      exact forall_mem_cons.mpr ⟨hf acc a acc' ha, ih h⟩

theorem ok_of_toOption {ε α : Type} {x : Except ε α} {a : α} (h : x.toOption = some a) :
    x = .ok a := by
  cases x with
  | error e => cases h
  | ok b => rw [some_inj.mp h]

/-- Who passes the checks has a free place. -/
theorem admitted_canJoinQueue {minPlayers maxPlayers leader : Nat}
    {bracket : Option (Option Nat)} {grp : BgGroup} {excluded : List Nat}
    (h : (w.canJoinQueue s m type minPlayers maxPlayers leader bracket grp).toOption =
      some excluded) : ∀ guid ∈ grp.members, w.Admitted type guid := by
  have hok := ok_of_toOption h
  unfold canJoinQueue at hok
  split_ifs at hok
  refine forall_of_foldlM (fun acc a acc' ha => ?_) hok
  cases hp : m.player a with
  | none =>
    rw [hp] at ha
    cases ha
  | some p =>
    cases hpl : w.players a with
    | none =>
      rw [hp, hpl] at ha
      cases ha
    | some pl =>
      simp only [hp, hpl] at ha
      split_ifs at ha with hteam hqueue hjoin hfree <;> try cases ha
      all_goals
        refine ⟨pl, hpl, Bool.eq_false_iff.mpr hqueue, ?_⟩
        exact BgPlayer.freeSlots_of_hasFree (by simpa using hfree)

theorem admitted_members {l : List Nat} {excluded : List Nat}
    (h : ∀ guid ∈ l, w.Admitted type guid) :
    ∀ guid ∈ l.filter (· ∉ excluded), w.Admitted type guid :=
  fun guid hm => h guid (mem_filter.mp hm).1

/-- So has everybody who joins at a battlemaster. -/
theorem admitted_battlemasterEntry {p : BgJoinPacket} {e : Entry}
    (h : w.battlemasterEntry s m guid p = some e) :
    ∀ g ∈ e.guids, w.Admitted e.join.bgTypeId g := by
  unfold battlemasterEntry at h
  obtain ⟨me, -, h⟩ := bind_eq_some_iff.mp h
  obtain ⟨pl, hpl, h⟩ := bind_eq_some_iff.mp h
  simp only at h
  split at h
  · cases h
  · obtain ⟨bg, -, h⟩ := bind_eq_some_iff.mp h
    obtain ⟨bracket, -, h⟩ := bind_eq_some_iff.mp h
    split at h
    · obtain ⟨grp, -, h⟩ := bind_eq_some_iff.mp h
      obtain ⟨excluded, hjoin, h⟩ := bind_eq_some_iff.mp h
      obtain rfl := some_inj.mp h
      exact admitted_members (admitted_canJoinQueue hjoin)
    · split_ifs at h with hc
      obtain rfl := some_inj.mp h
      simp only [not_or, Bool.not_eq_true] at hc
      intro g hg
      obtain rfl := mem_singleton.mp hg
      exact ⟨pl, hpl, hc.2.1, BgPlayer.freeSlots_of_hasFree (by simpa using hc.2.2)⟩

/-- Or for an arena. -/
theorem admitted_arenaEntry {asGroup : Bool} {e : Entry}
    (h : w.arenaEntry s m guid asGroup = some e) :
    ∀ g ∈ e.guids, w.Admitted e.join.bgTypeId g := by
  unfold arenaEntry at h
  obtain ⟨me, -, h⟩ := bind_eq_some_iff.mp h
  obtain ⟨pl, hpl, h⟩ := bind_eq_some_iff.mp h
  split at h
  · cases h
  case isFalse hc =>
    obtain ⟨bracket, -, h⟩ := bind_eq_some_iff.mp h
    simp only at h
    split at h
    · obtain rfl := some_inj.mp h
      simp only [not_or, Bool.not_eq_true] at hc
      intro g hg
      obtain rfl := mem_singleton.mp hg
      exact ⟨pl, hpl, hc.2.2.2.2.1, BgPlayer.freeSlots_of_hasFree (by simpa using hc.2.2.2.2.2)⟩
    · obtain ⟨excluded, hjoin, h⟩ := bind_eq_some_iff.mp h
      obtain rfl := some_inj.mp h
      exact admitted_members (admitted_canJoinQueue hjoin)

/-- An admitted player who gets the queue id has it. -/
theorem inQueue_foldl_add {l : List Nat} (hg : g ∈ l) (h : w.Admitted type g) :
    (l.foldl (fun w guid => w.mapPlayer guid (·.addBattleGroundQueueId type)) w).inQueue type g =
      true := by
  induction l generalizing w with
  | nil => cases hg
  | cons a l ih =>
    rw [foldl_cons]
    by_cases ha : g = a
    · subst ha
      obtain ⟨pl, hpl, -, hfree⟩ := h
      refine inQueue_foldl_mapPlayer (fun guid => guid) _ ?_ fun _ _ _ pl hpl =>
        BgPlayer.inQueue_add hpl type
      show (update w.players g ((w.players g).map _) g).any _ = true
      rw [update_self, hpl]
      exact BgPlayer.inQueue_add_free hfree type
    · refine ih ((mem_cons.mp hg).resolve_left ha) ?_
      obtain ⟨pl, hpl, hrest⟩ := h
      refine ⟨pl, ?_, hrest⟩
      show update w.players a _ g = _
      rw [update_of_ne ha]
      exact hpl

/-- A join gives a seat that is marked as online to those whom it lets in, and to nobody else. -/
theorem seat_enter (hw : w.AllWired) (e : Entry) (g : Nat) (t : BgType) :
    ((w.enter s e).queues t).seat g = (w.queues t).seat g ∨
      ((t = e.join.bgTypeId ∧ g ∈ e.guids) ∧
        ∃ bracket, ((w.enter s e).queues t).seat g = some (true, bracket)) := by
  rw [queues_enter, update_apply]
  split_ifs with ht
  · subst ht
    have hlookup : (w.entered s e).queuedPlayers.lookup g =
          (w.queues e.join.bgTypeId).queuedPlayers.lookup g ∨ (g ∈ e.guids ∧
        ∃ i, (w.entered s e).queuedPlayers.lookup g = some { groupInfo := i }) := by
      unfold Entry.guids entered
      cases e.grp with
      | none =>
        simp only
        rw [lookup_addSolo]
        split_ifs with hg
        · exact Or.inr ⟨mem_singleton.mpr hg, _, rfl⟩
        · exact Or.inl rfl
      | some grp =>
        rcases lookup_addGroup s.cfg.groupLimit e.leader grp e.excluded g with hsame | ⟨hg, hnew⟩
        · exact Or.inl hsame
        · exact Or.inr ⟨mem_filter.mpr ⟨hg.1, by simpa using hg.2⟩, hnew⟩
    rcases hlookup with hsame | ⟨hg, i, hnew⟩
    · refine Or.inl (seat_congr hsame fun i hi => ?_)
      obtain ⟨gi, -, hlt⟩ := infos_of_groupOf (hw _) hi
      unfold info
      rw [(admits_enter s hw e).old i hlt]
    · refine Or.inr ⟨⟨rfl, hg⟩, ((w.entered s e).info i).bracketId, ?_⟩
      unfold seat
      rw [hnew]
      rfl
  · exact Or.inl rfl

/-- Who enters a queue has a place for it. -/
theorem Holds.enter (hw : w.AllWired) (h : w.Holds g t) {e : Entry}
    (he : ∀ guid ∈ e.guids, w.Admitted e.join.bgTypeId guid) : (w.enter s e).Holds g t := by
  have hrequests : (w.enter s e).requests = w.requests :=
    requests_foldl_mapPlayer (fun guid => guid) _ _ _
  have honline : ((w.enter s e).players g).isSome = (w.players g).isSome :=
    isSome_foldl_mapPlayer (fun guid => guid) _ _ _
  rcases seat_enter (s := s) hw e g t with hsame | ⟨⟨rfl, hg⟩, bracket, hseat⟩
  · refine h.frame honline (fun r _ => by rw [hrequests]) (Or.inr ⟨hsame, fun hq => ?_⟩)
    exact inQueue_foldl_mapPlayer (fun guid => guid) _ hq fun _ _ _ pl hpl =>
      BgPlayer.inQueue_add hpl _
  · obtain ⟨pl, hpl, -⟩ := he g hg
    have hsome : (w.players g).isSome := by
      rw [hpl]
      rfl
    refine ⟨fun _ => ?_, fun hnone => ?_, fun _ x hx => ?_⟩
    · rw [hrequests]
      exact h.quiet hsome
    · rw [← honline, hnone] at hsome
      cases hsome
    · rw [hseat] at hx
      obtain rfl := some_inj.mp hx
      exact ⟨rfl, Or.inl (inQueue_foldl_add hg (he g hg))⟩

/-! ## Logout, login, level -/

/-- A logout marks the player, and asks for his removal later. -/
theorem Holds.playerLoggedOut (h : w.Holds g t) (guid : Nat) :
    (w.playerLoggedOut guid).Holds g t := by
  unfold BgWorld.playerLoggedOut
  cases hpl : w.players guid with
  | none => exact h
  | some pl =>
    have hmem : ∀ r, r ∈ w.requests ++ (queueIds pl).map (.playerLogout guid) ↔
        r ∈ w.requests ∨ ∃ type ∈ queueIds pl, .playerLogout guid type = r := by
      intro r
      rw [mem_append, mem_map]
    by_cases hg : g = guid
    · subst hg
      refine ⟨fun hsome => ?_, fun _ bracket hseat => ?_, fun hsome => ?_⟩
      · simp only [update_self] at hsome
        cases hsome
      · -- each of his queue ids is put off
        obtain ⟨-, hplace⟩ := h.online (by rw [hpl]; rfl) _ hseat
        rcases hplace with hqueue | hcleanup
        · refine Or.inl ((hmem _).mpr (Or.inr ⟨t, ?_, rfl⟩))
          unfold BgWorld.inQueue at hqueue
          rw [hpl] at hqueue
          obtain ⟨slot, hslot, htype⟩ := BgPlayer.inQueue_iff.mp hqueue
          exact mem_filterMap.mpr ⟨slot, hslot, htype⟩
        · exact Or.inr ((hmem _).mpr (Or.inl hcleanup))
      · simp only [update_self] at hsome
        cases hsome
    · have hsame : update w.players guid none g = w.players g :=
        update_of_ne hg ..
      refine h.frame (congrArg isSome hsame) (fun r hr => (hmem r).trans ?_)
        (Or.inr ⟨rfl, fun hq => ?_⟩)
      · refine or_iff_left ?_
        rintro ⟨type, -, rfl⟩
        rcases hr with hr | ⟨bracket, hr⟩
        · exact hg (BgRequest.playerLogout.inj hr).1.symm
        · cases hr
      · unfold BgWorld.inQueue at hq ⊢
        simp only
        rw [hsame]
        exact hq

/-- What a login does to one queue. -/
def loginQueue (guid : Nat) (w : BgWorld) (type : BgType) : BgWorld :=
  let q := w.queues type
  match q.groupOf guid with
  | none => w
  | some i =>
    (w.setQueue type (q.playerLoggedIn guid)).mapPlayer guid fun pl =>
      let pl := pl.addBattleGroundQueueId type
      if (q.info i).isInvitedToBGInstanceGUID = 0 then pl
      else pl.setInvite type (q.info i).isInvitedToBGInstanceGUID

theorem seat_loginQueue (guid : Nat) (w : BgWorld) (type : BgType) (g : Nat) (t : BgType) :
    ((loginQueue guid w type).queues t).seat g = if t = type ∧ g = guid then
      ((w.queues t).seat g).map fun x => (true, x.2) else (w.queues t).seat g := by
  unfold loginQueue
  simp only
  cases hgroup : (w.queues type).groupOf guid with
  | none =>
    split_ifs with hc
    · obtain ⟨rfl, rfl⟩ := hc
      rw [seat_eq_none.mpr hgroup]
      rfl
    · rfl
  | some i =>
    show ((w.setQueue type _).queues t).seat g = _
    rw [queues_setQueue]
    by_cases ht : t = type
    · rw [if_pos ht, seat_playerLoggedIn, ht]
      by_cases hg : g = guid
      · rw [if_pos hg, if_pos ⟨rfl, hg⟩, hg]
      · rw [if_neg hg, if_neg fun hc => hg hc.2]
    · rw [if_neg ht, if_neg fun hc => ht hc.1]

theorem players_loginQueue (guid : Nat) (w : BgWorld) (type : BgType) {pl : BgPlayer}
    (hpl : w.players guid = some pl) (hfree : 0 < pl.freeSlots) :
    ∃ pl', (loginQueue guid w type).players guid = some pl' ∧
      pl.freeSlots ≤ pl'.freeSlots + 1 ∧
      (∀ t, pl.inQueue t = true → pl'.inQueue t = true) ∧
      ((w.queues type).seat guid ≠ none → pl'.inQueue type = true) := by
  unfold loginQueue
  simp only
  cases hgroup : (w.queues type).groupOf guid with
  | none =>
    exact ⟨pl, hpl, Nat.le_succ _, fun _ => id, fun hseat => absurd (seat_eq_none.mpr hgroup) hseat⟩
  | some i =>
    refine ⟨_, (update_self ..).trans (congrArg (Option.map _) hpl), ?_⟩
    have hslots := pl.freeSlots_add type
    simp only
    split_ifs
    · exact ⟨hslots, fun t ht => BgPlayer.inQueue_add ht type,
        fun _ => BgPlayer.inQueue_add_free hfree type⟩
    · rw [BgPlayer.freeSlots_setInvite]
      refine ⟨hslots, fun t ht => ?_, fun _ => ?_⟩
      · rw [BgPlayer.inQueue_setInvite]
        exact BgPlayer.inQueue_add ht type
      · rw [BgPlayer.inQueue_setInvite]
        exact BgPlayer.inQueue_add_free hfree type

/-- The queues are gone through one after the other, and there are slots for all of them. -/
theorem foldl_loginQueue (guid : Nat) (l : List BgType) {w : BgWorld} {pl : BgPlayer}
    (hpl : w.players guid = some pl) (hfree : l.length ≤ pl.freeSlots) :
    ∃ pl', (l.foldl (loginQueue guid) w).players guid = some pl' ∧
      (∀ t, pl.inQueue t = true → pl'.inQueue t = true) ∧
      (∀ t ∉ l, ((l.foldl (loginQueue guid) w).queues t).seat guid = (w.queues t).seat guid) ∧
      ∀ t ∈ l, ∀ x, ((l.foldl (loginQueue guid) w).queues t).seat guid = some x →
        x.1 = true ∧ pl'.inQueue t = true := by
  induction l generalizing w pl with
  | nil => exact ⟨pl, hpl, fun _ => id, fun _ _ => rfl, nofun⟩
  | cons type l ih =>
    rw [length_cons] at hfree
    obtain ⟨pl₁, hpl₁, hfree₁, hkeep₁, hadd₁⟩ := players_loginQueue guid w type hpl (by omega)
    obtain ⟨pl', hpl', hkeep, hrest, hseats⟩ := ih hpl₁ (by omega)
    rw [foldl_cons]
    refine ⟨pl', hpl', fun t ht => hkeep t (hkeep₁ t ht), fun t ht => ?_, fun t ht x hx => ?_⟩
    · obtain ⟨hne, hnot⟩ := ne_and_not_mem_of_not_mem_cons ht
      rw [hrest t hnot, seat_loginQueue, if_neg fun hc => hne hc.1]
    · by_cases hl : t ∈ l
      · exact hseats t hl x hx
      · obtain rfl := (mem_cons.mp ht).resolve_right hl
        rw [hrest t hl, seat_loginQueue, if_pos ⟨rfl, rfl⟩] at hx
        obtain ⟨y, hy, rfl⟩ := map_eq_some_iff.mp hx
        refine ⟨rfl, hkeep t (hadd₁ ?_)⟩
        rw [hy]
        exact some_ne_none y

theorem requests_foldl_loginQueue (guid : Nat) (l : List BgType) (w : BgWorld) :
    (l.foldl (loginQueue guid) w).requests = w.requests := by
  refine foldlRecOn (motive := fun w' : BgWorld => w'.requests = w.requests) l _ rfl
    fun w' h type _ => ?_
  unfold loginQueue
  simp only
  split <;> exact h

/-- Nothing happens to the others. -/
theorem foldl_loginQueue_ne (l : List BgType) (w : BgWorld) (hg : g ≠ guid) :
    (l.foldl (loginQueue guid) w).players g = w.players g ∧
      ∀ t, ((l.foldl (loginQueue guid) w).queues t).seat g = (w.queues t).seat g := by
  refine foldlRecOn (motive := fun w' : BgWorld => w'.players g = w.players g ∧
    ∀ t, (w'.queues t).seat g = (w.queues t).seat g) l _ ⟨rfl, fun _ => rfl⟩ fun w' h type _ => ?_
  refine ⟨?_, fun t => ?_⟩
  · rw [← h.1]
    unfold loginQueue
    simp only
    split
    · rfl
    · exact update_of_ne hg ..
  · rw [← h.2 t, seat_loginQueue, if_neg fun hc => hg hc.2]

/-- A login gives back the places of the queues it goes through. -/
theorem Holds.playerLoggedIn (h : w.Holds g t) {guid : Nat}
    (hseat : ∀ type, type ∉ loginQueues → (w.queues type).groupOf guid = none)
    (hlogout : ∀ type, .playerLogout guid type ∉ w.requests) (level : Nat) :
    (w.playerLoggedIn guid level).Holds g t := by
  set w₀ : BgWorld := { w with players := update w.players guid (some { level }) } with hw₀
  show (loginQueues.foldl (loginQueue guid) w₀).Holds g t
  have hrequests := requests_foldl_loginQueue guid loginQueues w₀
  by_cases hg : g = guid
  · subst hg
    have hplayer : w₀.players g = some { level } := update_self ..
    obtain ⟨pl', hpl', -, hrest, hseats⟩ := foldl_loginQueue g loginQueues hplayer (Nat.le_refl 3)
    refine ⟨fun _ => ?_, fun hnone => ?_, fun _ x hx => ?_⟩
    · rw [hrequests]
      exact hlogout t
    · rw [hpl'] at hnone
      cases hnone
    · by_cases ht : t ∈ loginQueues
      · obtain ⟨hmark, hqueue⟩ := hseats t ht x hx
        refine ⟨hmark, Or.inl ?_⟩
        unfold BgWorld.inQueue
        rw [hpl']
        exact hqueue
      · rw [hrest t ht] at hx
        exact absurd (hx.symm.trans (seat_eq_none.mpr (hseat t ht))) (some_ne_none x)
  · obtain ⟨hplayers, hseats⟩ := foldl_loginQueue_ne loginQueues w₀ hg
    have hsame : (loginQueues.foldl (loginQueue guid) w₀).players g = w.players g :=
      hplayers.trans (update_of_ne hg ..)
    refine h.frame (congrArg isSome hsame) (fun r _ => by rw [hrequests])
      (Or.inr ⟨hseats t, fun hq => ?_⟩)
    unfold BgWorld.inQueue at hq ⊢
    rw [hsame]
    exact hq

/-- The queue ids of another bracket are taken away; that of `t` stays when it is not one of them. -/
theorem inQueue_foldl_remove {l : List BgType} {pl : BgPlayer} (h : pl.inQueue t = true)
    (ht : t ∉ l) : (l.foldl BgPlayer.removeBattleGroundQueueId pl).inQueue t = true :=
  foldlRecOn (motive := fun pl : BgPlayer => pl.inQueue t = true) l _ h
    fun _ h _ htype => BgPlayer.inQueue_remove h fun he => ht (he ▸ htype)

/-- A level that moves him out of his bracket asks for his removal. -/
theorem Holds.giveLevel (h : w.Holds g t) {guid level : Nat}
    (hbracket : ∀ pl ∈ w.players guid, ∀ type, ∀ x ∈ (w.queues type).seat guid,
      s.bracketFromLevel type level ≠ s.bracketFromLevel type pl.level →
      s.bracketFromLevel type pl.level = some x.2) : (w.giveLevel s guid level).Holds g t := by
  unfold BgWorld.giveLevel
  cases hpl : w.players guid with
  | none => exact h
  | some pl =>
    simp only
    set left := (queueIds pl).filter fun type =>
      s.bracketFromLevel type level != s.bracketFromLevel type pl.level with hleft
    have hmem : ∀ r, r ∈ w.requests ++ left.map (fun type =>
        .bracketCleanup guid type (s.bracketFromLevel type pl.level)) ↔ r ∈ w.requests ∨
        ∃ type ∈ left, .bracketCleanup guid type (s.bracketFromLevel type pl.level) = r := by
      intro r
      rw [mem_append, mem_map]
    by_cases hg : g = guid
    · subst hg
      have hsome : (w.players g).isSome := by
        rw [hpl]
        rfl
      refine ⟨fun _ hr => ?_, fun hnone => ?_, fun _ x hx => ?_⟩
      · rcases (hmem _).mp hr with hr | ⟨type, -, hr⟩
        · exact h.quiet hsome hr
        · cases hr
      · simp only [update_self] at hnone
        cases hnone
      · obtain ⟨hmark, hplace⟩ := h.online hsome x hx
        refine ⟨hmark, ?_⟩
        rcases hplace with hqueue | hcleanup
        · by_cases ht : t ∈ left
          · -- the queue is left when the request is processed
            have hne := (mem_filter.mp ht).2
            rw [← hbracket pl hpl t x hx (by simpa using hne)]
            exact Or.inr ((hmem _).mpr (Or.inr ⟨t, ht, rfl⟩))
          · refine Or.inl ?_
            unfold BgWorld.inQueue at hqueue ⊢
            rw [hpl] at hqueue
            simp only [update_self]
            exact inQueue_foldl_remove hqueue ht
        · exact Or.inr ((hmem _).mpr (Or.inl hcleanup))
    · have hsame : update w.players guid
          (some { left.foldl BgPlayer.removeBattleGroundQueueId pl with level }) g = w.players g :=
        update_of_ne hg ..
      refine h.frame (congrArg isSome hsame) (fun r hr => (hmem r).trans ?_)
        (Or.inr ⟨rfl, fun hq => ?_⟩)
      · refine or_iff_left ?_
        rintro ⟨type, -, rfl⟩
        rcases hr with hr | ⟨bracket, hr⟩
        · cases hr
        · exact hg (BgRequest.bracketCleanup.inj hr).1.symm
      · unfold BgWorld.inQueue at hq ⊢
        simp only
        rw [hsame]
        exact hq

/-! ## Requests and updates -/

theorem bracketId_of_seat {q : BgQueue} {i : Nat} {x : Bool × Nat} (hs : q.seat g = some x)
    (hi : q.groupOf g = some i) : (q.info i).bracketId = x.2 := by
  unfold seat at hs
  unfold groupOf at hi
  obtain ⟨pl, hpl, rfl⟩ := map_eq_some_iff.mp hs
  rw [hpl] at hi
  obtain rfl := some_inj.mp hi
  rfl

theorem Holds.bracketCleanup (hw : w.AllWired) (h : w.Holds g t) {bracket : Option Nat}
    {rest : List BgRequest} (hr : w.requests = .bracketCleanup guid type bracket :: rest) :
    (processQueueBracketCleanup { w with requests := rest } guid type bracket).Holds g t := by
  have hrest : ∀ r, r ∈ rest → r ∈ w.requests := fun r hm => hr ▸ mem_cons_of_mem _ hm
  have hw' : ({ w with requests := rest } : BgWorld).AllWired := hw
  unfold processQueueBracketCleanup
  by_cases hc : guid = g ∧ type = t
  · obtain ⟨rfl, rfl⟩ := hc
    split
    · next hgroup => exact h.of_none rfl hrest hgroup
    · next i hgroup =>
      split
      · exact h.of_none rfl hrest groupOf_removeFromQueue
      · -- the request is stale
        next hstale =>
        refine h.tail hr (fun h => by cases h) fun x hs he => hstale ?_
        rw [← bracketId_of_seat hs hgroup] at he
        exact (BgRequest.bracketCleanup.inj he).2.2.symm
  · have h' : BgWorld.Holds { w with requests := rest } g t := by
      refine h.tail hr (fun h => by cases h) fun x _ he => hc ?_
      exact ⟨(BgRequest.bracketCleanup.inj he).1, (BgRequest.bracketCleanup.inj he).2.1⟩
    split
    · exact h'
    · split
      · exact h'.removeFromQueue hw' type guid
      · exact h'

theorem Holds.logoutRequest (h : w.Holds g t) {rest : List BgRequest} (now : UInt32)
    (hr : w.requests = .playerLogout guid type :: rest) :
    (setQueue { w with requests := rest } type
      ((w.queues type).playerLoggedOut guid now)).Holds g t := by
  by_cases hc : guid = g ∧ type = t
  · obtain ⟨rfl, rfl⟩ := hc
    -- he is offline, and is marked as such
    have hnone : ¬ (w.players guid).isSome := by
      refine fun hsome => h.quiet hsome ?_
      rw [hr]
      exact mem_cons_self
    refine ⟨fun hsome => absurd hsome hnone, fun _ bracket hs => ?_,
      fun hsome => absurd hsome hnone⟩
    rw [queues_setQueue, if_pos rfl, seat_playerLoggedOut, if_pos rfl] at hs
    obtain ⟨x, -, hx⟩ := map_eq_some_iff.mp hs
    cases hx
  · have h' := h.tail hr (fun he => hc (BgRequest.playerLogout.inj he)) nofun
    refine h'.frame rfl (fun _ _ => Iff.rfl) (Or.inr ⟨?_, id⟩)
    rw [queues_setQueue]
    split_ifs with ht
    · rw [seat_playerLoggedOut, if_neg fun hg => hc ⟨hg.symm, ht.symm⟩, ht]
    · rfl

/-- A request that is due removes who it was made for. -/
theorem Holds.processRequest (hw : w.AllWired) (h : w.Holds g t) :
    (w.processRequest s m).Holds g t := by
  unfold BgWorld.processRequest
  cases hr : w.requests with
  | nil => exact h
  | cons r rest =>
    have hw' : ({ w with requests := rest } : BgWorld).AllWired := hw
    cases r with
    | inviteRemoval guid instanceId type removeTime =>
      have h' := h.tail hr nofun nofun
      show (processQueueInviteRemoval { w with requests := rest } guid instanceId type
        removeTime).Holds g t
      unfold processQueueInviteRemoval
      split
      · exact h'.leave hw' type guid
      · exact h'
    | playerLogout guid type => exact h.logoutRequest m.now hr
    | bracketCleanup guid type bracket => exact h.bracketCleanup hw hr
    | arenaJoin guid asGroup =>
      have h' := h.tail hr nofun nofun
      simp only [tail_cons]
      cases he : w.requestEntry s m with
      | none => exact h'
      | some e =>
        refine h'.enter hw' ?_
        unfold requestEntry at he
        rw [hr] at he
        exact admitted_arenaEntry he

/-- An update only invites and drops. -/
theorem Holds.updateQueue (hw : w.AllWired) (h : w.Holds g t) (type : BgType) (bracket : Nat) :
    (w.updateQueue s m type bracket).Holds g t := by
  unfold BgWorld.updateQueue
  simp only
  set o := (w.queues type).update s.cfg (s.template type) m type bracket with ho
  refine h.frame ?_ (fun r _ => ?_) ?_
  · rw [isSome_foldl_mapPlayer (fun x : Nat × Nat => x.1),
      isSome_foldl_mapPlayer (fun guid : Nat => guid)]
    rfl
  · rw [requests_foldl_mapPlayer (fun x : Nat × Nat => x.1),
      requests_foldl_mapPlayer (fun guid : Nat => guid)]
    rfl
  · rw [queues_foldl_mapPlayer (fun x : Nat × Nat => x.1),
      queues_foldl_mapPlayer (fun guid : Nat => guid), queues_setQueue]
    have hslot : (t = type → g ∉ o.dropped) → w.inQueue t g = true → BgWorld.inQueue
        (o.invited.foldl (fun w x => w.mapPlayer x.1 (·.setInvite type x.2))
          (o.dropped.foldl (fun w guid => w.mapPlayer guid (·.removeBattleGroundQueueId type))
            (w.setQueue type o.queue))) t g = true := by
      intro hdropped hq
      refine inQueue_foldl_mapPlayer (fun x : Nat × Nat => x.1) _ ?_ fun x _ _ pl hpl => ?_
      · refine inQueue_foldl_mapPlayer (fun guid : Nat => guid) _ hq fun guid hm hg pl hpl => ?_
        exact BgPlayer.inQueue_remove hpl fun ht => hdropped ht (hg ▸ hm)
      · rw [BgPlayer.inQueue_setInvite]
        exact hpl
    split_ifs with ht
    · rcases BgOutcome.seat_update s.cfg (s.template type) m type bracket (hw type) g with
        hnone | ⟨hsame, hdropped⟩
      · exact Or.inl hnone
      · rw [ht]
        exact Or.inr ⟨hsame, ht ▸ hslot fun _ => hdropped⟩
    · exact Or.inr ⟨rfl, hslot fun he => absurd he ht⟩

/-! ## Runs -/

/-- What the inputs have to meet: a join lets in nobody who is in the queue still; who logs in is in
no queue without a slot number, and no logout of his waits; a battleground that is left is not that
of a queue the player is in; and a group is of the bracket of its players. -/
def Allowed (s : BgSetup) (w : BgWorld) (i : Input) : Prop :=
  w.Kept s i ∧ match i with
  | .login guid _ =>
    (∀ type, type ∉ loginQueues → (w.queues type).groupOf guid = none) ∧
      ∀ type, .playerLogout guid type ∉ w.requests
  | .leaveBattleground guid type => (w.queues type).groupOf guid = none
  | .port _ guid p => p.action = 1 → ∀ type ∈ p.currentBg,
      type ≠ p.bgType → (w.queues type).groupOf guid = none
  | .giveLevel guid level => ∀ pl ∈ w.players guid, ∀ type, ∀ x ∈ (w.queues type).seat guid,
      s.bracketFromLevel type level ≠ s.bracketFromLevel type pl.level →
      s.bracketFromLevel type pl.level = some x.2
  | _ => True

instance (s : BgSetup) (w : BgWorld) : DecidablePred (w.Allowed s) := fun i => by
  unfold Allowed
  cases i <;> infer_instance

/-- Every player and every queue agree, up to what waits. -/
structure Tracked (w : BgWorld) : Prop where
  wired : w.AllWired
  holds : ∀ guid type, w.Holds guid type

theorem tracked_empty : Tracked {} where
  wired _ := wired_empty
  holds _ _ := ⟨nofun, nofun, nofun⟩

/-- Who ports or refuses leaves the queue with his place. -/
theorem Holds.port (hw : w.AllWired) (h : w.Holds g t) {p : BgPortPacket}
    (ha : p.action = 1 → ∀ type ∈ p.currentBg,
      type ≠ p.bgType → (w.queues type).groupOf guid = none) :
    (w.handleBattleFieldPort s m guid p).Holds g t := by
  unfold handleBattleFieldPort
  split
  case h_2 => exact h
  case h_1 me pl i _ _ _ =>
    simp only
    split
    · exact h
    · split
      case h_1 haction =>
        split
        · cases hcurrent : p.currentBg with
          | none => exact h.removeFromQueue hw p.bgType guid
          | some type =>
            refine (h.removeFromQueue hw p.bgType guid).removeId ?_
            by_cases ht : type = p.bgType
            · rw [ht]
              exact groupOf_removeFromQueue
            · rw [BgWorld.removeFromQueue, queues_setQueue, if_neg ht]
              refine ha ?_ type hcurrent ht
              unfold portAction at haction
              split_ifs at haction with hone <;> first | exact hone | simp_all
        · exact h
      case h_2 => exact h.leave hw p.bgType guid
      case h_3 => exact h

/-- What one step keeps -/
theorem step_tracked {s : BgSetup} (w : BgWorld) (i : Input) (h : w.Tracked)
    (ha : w.Allowed s i) : (step s w i).Tracked := by
  obtain ⟨hk, ha⟩ := ha
  refine ⟨step_wired w i h.wired hk, fun g t => ?_⟩
  have hg := h.holds g t
  cases i with
  | join m guid p =>
    simp only [step]
    cases he : w.battlemasterEntry s m guid p with
    | none => exact hg
    | some e => exact hg.enter h.wired (admitted_battlemasterEntry he)
  | addToArenaQueue guid asGroup =>
    show (w.addToArenaQueue guid asGroup).Holds g t
    unfold addToArenaQueue
    split_ifs
    · exact hg
    · exact hg.request (by rintro (hc | ⟨_, hc⟩) <;> cases hc)
  | port m guid p => exact hg.port h.wired ha
  | inviteTimeout guid instanceId type removeTime =>
    exact hg.request (by rintro (hc | ⟨_, hc⟩) <;> cases hc)
  | logout guid => exact hg.playerLoggedOut guid
  | login guid level => exact hg.playerLoggedIn ha.1 ha.2 level
  | giveLevel guid level => exact hg.giveLevel ha
  | leaveBattleground guid type => exact hg.removeId ha
  | processRequest m => exact hg.processRequest h.wired
  | update m type bracket => exact hg.updateQueue h.wired type bracket

/-- The seats are up to date: a player is marked as online exactly when he is, he has the queue id
of each queue he is in, stays in it through an update, and is not let in again. -/
structure Present (s : BgSetup) (w : BgWorld) : Prop where
  online_iff : ∀ type guid pl, (w.queues type).queuedPlayers.lookup guid = some pl →
    (pl.online = true ↔ (w.players guid).isSome)
  holdsId : ∀ type guid i, (w.queues type).groupOf guid = some i → (w.players guid).isSome →
    w.inQueue type guid
  stays : ∀ m type bracket guid i, (w.queues type).groupOf guid = some i →
    (w.players guid).isSome → BgOutcome.hasEnded m ((w.queues type).info i) = false →
    ((step s w (.update m type bracket)).queues type).groupOf guid = some i
  notTwice : ∀ e, (∃ m guid p, w.battlemasterEntry s m guid p = some e) ∨
      (∃ m guid asGroup, w.arenaEntry s m guid asGroup = some e) →
    ∀ guid ∈ e.guids, (w.queues e.join.bgTypeId).groupOf guid = none

/-- With no request left everybody queued has a place. -/
theorem Tracked.present (h : w.Tracked) (s : BgSetup) (hempty : w.requests = []) :
    w.Present s := by
  have honline : ∀ type guid x, (w.players guid).isSome → (w.queues type).seat guid = some x →
      x.1 = true ∧ w.inQueue type guid := by
    intro type guid x hsome hs
    obtain ⟨hmark, hplace⟩ := (h.holds guid type).online hsome x hs
    rw [hempty] at hplace
    exact ⟨hmark, hplace.resolve_right not_mem_nil⟩
  have hid : ∀ type guid i, (w.queues type).groupOf guid = some i → (w.players guid).isSome →
      w.inQueue type guid := by
    intro type guid i hi hsome
    cases hs : (w.queues type).seat guid with
    | none =>
      rw [seat_eq_none.mp hs] at hi
      cases hi
    | some x => exact (honline type guid x hsome hs).2
  refine ⟨fun type guid pl hpl => ?_, hid, fun m type bracket guid i hi hsome hended => ?_,
    fun e he guid hm => ?_⟩
  · have hs := seat_of_lookup hpl
    constructor
    · intro hmark
      rw [hmark] at hs
      by_contra hnone
      have hwaits := (h.holds guid type).offline (not_isSome_iff_eq_none.mp hnone) _ hs
      rw [hempty] at hwaits
      exact hwaits.elim not_mem_nil not_mem_nil
    · exact fun hsome => (honline type guid _ hsome hs).1
  · obtain ⟨pl, hpl, rfl⟩ := map_eq_some_iff.mp hi
    have hmark := (honline type guid _ hsome (seat_of_lookup hpl)).1
    have hstays := BgOutcome.lookup_removeExpired m
      (w.queues type).queuedPlayers.entries.length (o := { queue := w.queues type })
      (h.wired type) hpl hmark hended
    obtain ⟨hplayers, -⟩ := BgOutcome.update_seats s.cfg (s.template type) m (w.queues type) type
      bracket
    show ((w.updateQueue s m type bracket).queues type).groupOf guid = _
    unfold BgWorld.updateQueue
    simp only
    rw [queues_foldl_mapPlayer (fun x : Nat × Nat => x.1),
      queues_foldl_mapPlayer (fun guid : Nat => guid), queues_setQueue, if_pos rfl]
    unfold groupOf
    rw [hplayers, hstays]
    rfl
  · have hadmitted : w.Admitted e.join.bgTypeId guid := by
      rcases he with ⟨m, leader, p, he⟩ | ⟨m, leader, asGroup, he⟩
      · exact admitted_battlemasterEntry he guid hm
      · exact admitted_arenaEntry he guid hm
    obtain ⟨pl, hpl, hqueue, -⟩ := hadmitted
    cases hi : (w.queues e.join.bgTypeId).groupOf guid with
    | none => rfl
    | some i =>
      have hin := hid _ guid i hi (by rw [hpl]; rfl)
      unfold BgWorld.inQueue at hin
      rw [hpl] at hin
      exact absurd (hqueue.symm.trans hin) Bool.false_ne_true

/-- When nobody logs in to a queue that does not learn of it, nor before his logout has been told to
the queues, the seats are up to date whenever the mailbox is empty. -/
theorem run_present (s : BgSetup) (is : List Input) (h : AlongRun (step s) (Allowed s) {} is)
    (hempty : (run (step s) {} is).requests = []) : (run (step s) {} is).Present s :=
  (run_keeps (fun w i hw hi => step_tracked w i hw hi) tracked_empty h).present s hempty

/-- A player goes away and comes back, to the same queue. -/
theorem run_present_back :
    let s : BgSetup := { template := fun _ => some ⟨4, 10, 10⟩, team := fun _ => .horde }
    let m : BgMoment := { player := fun _ => some {} }
    let is : List Input := [.login 1 20, .join m 1 { bgType := .ws }, .logout 1,
      .processRequest m, .update m .ws 1, .login 1 20]
    (run (step s) {} is).Present s := by
  intro s m is
  exact run_present s is (by decide +kernel) (by decide +kernel)

/-- A login looks into the first three of the five queues: a player who comes back to the fifth is marked
as offline there. -/
theorem login_not_present : ¬ ∀ (s : BgSetup) (is : List Input),
    (run (step s) {} is).requests = [] → (run (step s) {} is).Present s := by
  intro h
  let m : BgMoment := { player := fun _ => some {} }
  have hpresent := h { template := fun _ => some ⟨4, 10, 10⟩, team := fun _ => .horde }
    [.login 1 60, .join m 1 { bgType := .sv }, .logout 1, .processRequest m, .login 1 60]
    (by decide +kernel)
  have hid := hpresent.holdsId .sv 1 0 (by decide +kernel) (by decide +kernel)
  revert hid
  decide +kernel

end BgWorld

end Windrunner
