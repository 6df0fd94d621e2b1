import Windrunner.Headless.Registry

/-!
# Logins

Whatever the manager is asked to do, and in whatever order the login queries are answered, the
sessions and players are sound (`sound_run`). So in every run (`sessions_right`) no character is in
both maps, a session of `start` is in one entry or has been deleted once, it completes at most one
login, no character has two players, and an answer that no entry asked for changes nothing.
-/

namespace Windrunner

open Lib List SortedMap Option

namespace LoginWorld

variable {w : LoginWorld} {guid : PlayerGuid} {entry : SessionEntry} {sid accountId : Nat}
  {facts : LoginFacts} {holder : LoginQueryHolder} {s : WorldSession}

/-- A character that may be started has no entry. -/
theorem entryOf_of_validateStart (h : w.validateStart facts accountId guid = .started) :
    w.entryOf guid = none := by
  have hdup : (w.sessions.contains guid || w.pendingSessions.contains guid) = false := by
    -- with an entry in either map the outcome is `duplicate` at the latest
    by_contra hdup
    rw [Bool.not_eq_false] at hdup
    unfold validateStart at h
    simp only [hdup, if_true] at h
    grind
  rw [Bool.or_eq_false_iff] at hdup
  unfold entryOf
  rw [isSome_eq_false_iff.mp hdup.1 |> isNone_iff_eq_none.mp,
    isSome_eq_false_iff.mp hdup.2 |> isNone_iff_eq_none.mp]
  rfl

/-- Stopping a session does not undo that it was started. -/
theorem started_stop (save : Bool) : (w.stop guid save).1.started = w.started := by
  have hactive : (w.destroyActive guid save).started = w.started := by
    unfold destroyActive
    split <;> rfl
  have hpending : (w.destroyPending guid).started = w.started := by
    unfold destroyPending
    split <;> rfl
  unfold stop
  split_ifs
  · exact hactive
  · exact hpending
  · rfl

/-- Nor does making room for a network login. -/
theorem started_makeRoom (w : LoginWorld) (guid : PlayerGuid) (yield : Option Bool) :
    (w.makeRoom guid yield).1.started = w.started := by
  have hyield : (w.onBotLoginYield guid yield).started = w.started := by
    cases yield with
    | none => rfl
    | some save => exact started_stop save
  unfold makeRoom
  split_ifs
  · exact (started_stop false).trans hyield
  · exact hyield

namespace Sound

/-! ## Sending the login query -/

/-- A token is drawn from the counter and touches no session. -/
theorem takeToken (hw : w.Sound) (token : UInt64) : (w.takeToken token).Sound := by
  unfold LoginWorld.takeToken
  split_ifs
  · exact { hw with }
  · exact hw

theorem heap_takeToken (w : LoginWorld) (token : UInt64) : (w.takeToken token).heap = w.heap := by
  unfold LoginWorld.takeToken
  split_ifs <;> rfl

section

variable (hw : w.Sound)
include hw

/-- A session that has not completed a headless login may start to load. -/
theorem loginPlayer
    (hfirst : (w.heap.transportOf sid).isSome → sid ∉ w.heap.headlessLogins) (token : UInt64)
    (dispatch : Dispatch) : (w.loginPlayer sid guid token dispatch).1.Sound := by
  unfold LoginWorld.loginPlayer
  split
  case h_1 => exact hw
  case h_2 s hs =>
    have hnot : sid ∉ w.heap.headlessLogins :=
      hfirst (by rw [SessionHeap.transportOf_of_find hs]; rfl)
    -- a session may only load when no headless login is noted for it yet
    have hload : (w.heap.modifySession sid (.loading guid (w.requestToken token))).Whole :=
      hw.heap.modifySession (fun _ => rfl) (fun _ => rfl) (fun _ _ hmem => absurd hmem hnot)
    have hsame : SessionHeap.SameSessions w.heap
        (w.heap.modifySession sid (.loading guid (w.requestToken token))) :=
      SessionHeap.sameSessions_modifySession fun _ => rfl
    have htoken := hw.takeToken token
    split_ifs
    · exact hw
    · exact htoken
    · -- the query could not be sent, and the loading mark is taken off again
      refine htoken.onHeap (f := fun h => (h.modifySession sid _).modifySession sid _) ?_ ?_
      · rw [heap_takeToken]
        exact hload.modifySession (fun _ => rfl) (fun _ => rfl) (fun _ _ _ => rfl)
      · rw [heap_takeToken]
        exact hsame.trans (SessionHeap.sameSessions_modifySession fun _ => rfl)
    · -- the query is out; its holder is no part of what is claimed
      have hsent := htoken.onHeap
        (f := fun h => h.modifySession sid (.loading guid (w.requestToken token)))
        (by rw [heap_takeToken]; exact hload) (by rw [heap_takeToken]; exact hsame)
      exact { hsent with }

/-- A start that fails takes back the session it has created. -/
theorem start (dispatch : Dispatch) :
    (w.start facts accountId guid dispatch).1.Sound := by
  unfold LoginWorld.start
  split
  case h_2 => exact hw
  case h_1 hvalid =>
    have hlogin : ((w.created accountId guid).loginPlayer w.heap.fresh guid
        (nextToken w.nextRequestToken) dispatch).1.Sound :=
      -- the new session has never completed a login
      (hw.created accountId (entryOf_of_validateStart hvalid)).loginPlayer
        (fun _ hmem => lt_irrefl _ (hw.heap.login_lt _ hmem)) _ dispatch
    split
    case h_1 heq =>
      rw [heq] at hlogin
      exact hlogin
    case h_2 heq =>
      rw [heq] at hlogin
      exact hlogin.destroyPending

/-- A session that is none of `start` has no headless login to its name. -/
theorem notLogin (hsid : sid ∉ w.started)
    (hlive : (w.heap.transportOf sid).isSome) : sid ∉ w.heap.headlessLogins := by
  obtain ⟨s, hs, -⟩ := map_eq_some_iff.mp (eq_some_of_isSome hlive)
  -- a login noted for it would make it a headless one, and those are all of `start`
  intro hmem
  refine hsid (hw.filed sid ?_).1
  rw [SessionHeap.transportOf_of_find hs, (hw.heap.loaded sid s hs hmem).2]

/-- A module may stop the session it is asked to yield. -/
theorem onBotLoginYield (yield : Option Bool) :
    (w.onBotLoginYield guid yield).Sound := by
  cases yield with
  | none => exact hw
  | some save => exact hw.stop save

/-- A session that is stopped for a network login is stopped like any other. -/
theorem makeRoom (guid : PlayerGuid) (yield : Option Bool) :
    (w.makeRoom guid yield).1.Sound := by
  unfold LoginWorld.makeRoom
  split_ifs
  · exact (hw.onBotLoginYield yield).stop false
  · exact hw.onBotLoginYield yield

/-- A client's login starts a query for its own session only. -/
theorem handlePlayerLoginOpcode (yield : Option Bool) (dispatch : Dispatch) :
    (w.handlePlayerLoginOpcode facts accountId guid yield dispatch).Sound := by
  unfold LoginWorld.handlePlayerLoginOpcode
  split
  case h_1 => exact hw
  case h_2 sid hsid =>
    split
    case h_1 => exact hw
    case h_2 s hs =>
      split_ifs
      · exact hw
      · exact hw
      · have hroom := hw.makeRoom guid yield
        split
        case h_1 heq =>
          rw [heq] at hroom
          exact hroom
        case h_2 w' heq =>
          rw [heq] at hroom
          have hstarted : w'.started = w.started := by
            rw [← started_makeRoom w guid yield, heq]
          -- the manager's sessions are no network sessions, so this one has no headless login
          have hforeign : sid ∉ w'.started := by
            rw [hstarted]
            exact (hw.network accountId sid hsid).2
          exact hroom.loginPlayer (hroom.notLogin hforeign) 0 dispatch

end

/-! ## Answers -/

/-- A refused login only ends the loading. -/
theorem refuseLogin (hw : w.Sound) : (w.refuseLogin sid).Sound :=
  hw.onHeap (hw.heap.modifySession (fun _ => rfl) (fun _ => rfl) (fun _ _ _ => rfl))
    (SessionHeap.sameSessions_modifySession fun _ => rfl)

/-- A reclaim that succeeds takes the manager's entry of the player's session away. -/
theorem reclaimForNetwork_cases {w' : LoginWorld} {target pid : Nat}
    (h : w.reclaimForNetwork guid sid target accountId = some w')
    (hplayer : w.heap.playerOf sid = some pid) :
    ∃ entry, w.sessions.find guid = some entry ∧ entry.session = sid ∧
      w' = { w.eraseActive guid with
        heap := (w.heap.movePlayer pid sid target).deleteSession sid } := by
  unfold LoginWorld.reclaimForNetwork at h
  rw [hplayer] at h
  split at h
  case h_1 entry pid' he hpid =>
    cases hpid
    split_ifs at h with hcond
    simp only [Bool.or_eq_true, not_or] at hcond
    refine ⟨entry, he, ?_, (some.inj h).symm⟩
    simpa using hcond.1.1.2
  case h_2 => cases h

/-- Whoever has the player, it comes to the session that asked. -/
theorem takeOver (hw : w.Sound) {pid : Nat} (hs : w.heap.sessions.find sid = some s)
    (hload : s.playerLoading = true) (hidle : s.player = none) :
    (w.takeOver sid s guid pid).Sound := by
  unfold LoginWorld.takeOver
  split_ifs
  · exact hw.refuseLogin
  split
  case h_1 => exact hw.refuseLogin
  case h_2 p hp =>
    split
    case h_1 => exact hw.refuseLogin
    case h_2 previous hprevious =>
      split_ifs
      · exact hw.refuseLogin
      · split
        case h_1 => exact hw.refuseLogin
        -- a headless owner is reclaimed: its entry goes and its session is deleted
        case h_2 w' hreclaim =>
          obtain ⟨entry, he, hes, rfl⟩ := reclaimForNetwork_cases hreclaim (hw.heap.owned pid p hp)
          have htake := hw.heap.reclaimPlayer hs hload hidle hp
          have hmove : SessionHeap.SameSessions w.heap (w.heap.movePlayer pid p.session sid) :=
            SessionHeap.sameSessions_movePlayer
          have hdone : ∀ h, SessionHeap.SameSessions h (h.completeLogin sid pid) :=
            fun _ => SessionHeap.sameSessions_completeLogin
          refine hw.remove (entryOf_of_active he) htake ?_ ?_ ?_
            (fun _ => entryOf_eraseActive hw.apart he) hw.apart.eraseActive rfl rfl rfl
          · intro x
            rw [hes]
            exact ((hdone _).transportOf x).trans (SessionHeap.transportOf_deleteSession.trans
              (by rw [hmove.transportOf]))
          · rw [hes]
            exact (hdone _).deleted.trans (SessionHeap.deleted_deleteSession.trans
              (by rw [hmove.deleted]))
          · exact (hmove.fresh.trans SessionHeap.fresh_deleteSession).trans (hdone _).fresh
      · -- another network session of the account only loses its player
        exact hw.onHeap (hw.heap.takePlayer hs hload hidle hp)
          (SessionHeap.sameSessions_movePlayer.trans SessionHeap.sameSessions_completeLogin)

/-- A login makes a `Player`, takes one that is there, or is refused. -/
theorem handlePlayerLogin (hw : w.Sound) (sid : Nat) (loads inWorld : Bool) :
    (w.handlePlayerLogin sid holder loads inWorld).Sound := by
  unfold LoginWorld.handlePlayerLogin
  split
  case h_1 => exact hw
  case h_2 s hs =>
    split
    case isTrue => exact hw
    split
    case isTrue => exact hw.refuseLogin
    case isFalse hready =>
      simp only [Bool.or_eq_true, Bool.not_eq_true', not_or, Bool.not_eq_false,
        not_isSome_iff_eq_none] at hready
      split
      case h_1 => exact hw.takeOver hs hready.2 hready.1
      case h_2 =>
        split_ifs with hfind
        · exact hw.refuseLogin
        · -- no `Player` is registered for the character, so a second one cannot come to be
          exact hw.onHeap (hw.heap.loginNew hs hready.2 hready.1
            (not_isSome_iff_eq_none.mp hfind) loads inWorld)
            SessionHeap.sameSessions_loginNew

/-- An entry moves to `sessions`. -/
theorem promoted (hw : w.Sound) (he : w.pendingSessions.find guid = some entry) :
    LoginWorld.Sound { w.erasePending guid with sessions := w.sessions.insert guid entry } := by
  refine hw.sameHeap rfl ?_ ?_ rfl rfl rfl
  · intro g
    unfold entryOf LoginWorld.erasePending
    simp only
    rw [find_insert, find_erase]
    split_ifs with hg
    · rw [hg]
      exact (entryOf_of_pending hw.apart he).symm
    · rfl
  · intro g e e' he1 he2
    have he2' : (w.pendingSessions.erase guid).find g = some e' := he2
    have he1' : (w.sessions.insert guid entry).find g = some e := he1
    rw [find_erase] at he2'
    rw [find_insert] at he1'
    split_ifs at he1' he2'
    exact hw.apart g e e' he1' he2'

/-- What the answer finds is an entry of the character, and belongs to it. -/
theorem entry_of_findEntry (h : w.findEntry holder = some entry) :
    (w.sessions.find holder.guid = some entry ∨
      w.pendingSessions.find holder.guid = some entry) ∧
        w.matchesEntry holder entry = true := by
  unfold findEntry at h
  rcases or_eq_some_iff.mp h with h | ⟨-, h⟩
  · exact ⟨.inl (filter_eq_some_iff.mp h).1, (filter_eq_some_iff.mp h).2⟩
  · exact ⟨.inr (filter_eq_some_iff.mp h).1, (filter_eq_some_iff.mp h).2⟩

/-- An answer moves its entry to `sessions` once. -/
theorem promoteAnswered (hw : w.Sound) (h : w.findEntry holder = some entry)
    (hnot : ¬ (w.pendingSessions.contains holder.guid && w.sessions.contains holder.guid) = true) :
    (w.promoteAnswered holder.guid entry).Sound := by
  unfold LoginWorld.promoteAnswered
  split_ifs with hpending
  · rw [hpending, Bool.true_and] at hnot
    -- a pending entry that is also active was shut out
    rcases (entry_of_findEntry h).1 with he | he
    · exact absurd (isSome_iff_exists.mpr ⟨entry, he⟩) hnot
    · exact hw.promoted he
  · exact hw

/-- The manager's answer stops the session, drops it, or logs its player in. -/
theorem handleLoginCallback (hw : w.Sound) (loads inWorld : Bool) :
    (w.handleLoginCallback facts holder loads inWorld).Sound := by
  unfold LoginWorld.handleLoginCallback
  split
  case isTrue => exact hw
  split
  case h_1 => exact hw
  case h_2 entry hentry =>
    split
    case isTrue => exact hw.stopForAccount true
    split
    case isTrue => exact hw.stop false
    split
    case h_1 =>
      split_ifs
      · exact hw.stop false
      · exact hw
    case h_2 =>
      split_ifs with hboth
      · -- the branch of the source for a character in both maps is never taken
        rw [Bool.and_eq_true] at hboth
        obtain ⟨e, he⟩ := isSome_iff_exists.mp hboth.1
        obtain ⟨e', he'⟩ := isSome_iff_exists.mp hboth.2
        exact (hw.apart _ _ _ he' he).elim
      · exact (hw.promoteAnswered hentry hboth).handlePlayerLogin entry.session loads inWorld

/-- Whoever is answered, the holder is used up first. -/
theorem answer (hw : w.Sound) (i : Nat) (loads inWorld : Bool) :
    (w.answer i facts loads inWorld).Sound := by
  unfold LoginWorld.answer
  split
  case h_1 => exact hw
  case h_2 holder _ =>
    have hw' : LoginWorld.Sound { w with holders := w.holders.eraseIdx i } := { hw with }
    unfold handlePlayerLoginCallback
    split
    case isTrue => exact hw'.handleLoginCallback loads inWorld
    split
    case h_1 => exact hw'
    case h_2 sid _ =>
      split_ifs
      · exact hw'.handlePlayerLogin sid loads inWorld
      · exact hw'

/-! ## The manager's update -/

/-- A pending entry becomes active, or is destroyed where the player is there already. -/
theorem promote (hw : w.Sound) (guid : PlayerGuid) : (w.promote guid).Sound := by
  unfold LoginWorld.promote
  split
  case h_1 => exact hw
  case h_2 entry he =>
    split_ifs
    · have hdestroy : w.destroyPending guid =
          (w.erasePending guid).destroySession entry false false := by
        unfold LoginWorld.destroyPending
        rw [he]
      rw [← hdestroy]
      exact hw.destroyPending
    · exact hw.promoted he

/-- A session with nothing to wait for, or that asks to go, is destroyed. -/
theorem updateSession (hw : w.Sound) (guid : PlayerGuid) : (w.updateSession guid).Sound := by
  unfold LoginWorld.updateSession
  split
  case h_1 => exact hw
  case h_2 entry he =>
    split
    case h_1 => exact hw
    case h_2 =>
      split_ifs
      · have hdestroy : w.destroyActive guid true =
            (w.eraseActive guid).destroySession entry true true := by
          unfold LoginWorld.destroyActive
          rw [he]
        rw [← hdestroy]
        exact hw.destroyActive true
      · exact hw

/-! ## Network sessions -/

/-- A session that is none of `start` is deleted. -/
theorem deleteForeign (hw : w.Sound) (hsid : w.Foreign sid) {networkSessions : SortedMap Nat Nat}
    {disconnectedSessions : List Nat}
    (hnetwork : ∀ accountId sid, networkSessions.find accountId = some sid → w.Foreign sid)
    (hdisconnected : ∀ sid ∈ disconnectedSessions, w.Foreign sid) :
    LoginWorld.Sound { w with
      heap := w.heap.deleteSession sid, networkSessions, disconnectedSessions } := by
  have hne : ∀ {x}, x ∈ w.started → x ≠ sid := by
    rintro x hx rfl
    exact hsid.2 hx
  have hforeign : ∀ {x}, w.Foreign x → LoginWorld.Foreign { w with
      heap := w.heap.deleteSession sid, networkSessions, disconnectedSessions } x :=
    fun h => ⟨lt_of_lt_of_le h.1 SessionHeap.fresh_deleteSession, h.2⟩
  -- the entries only speak of sessions of `start`, and this is none of them
  refine hw.keep (hw.heap.deleteSession hsid.1) ?_ ?_ SessionHeap.fresh_deleteSession
    (fun _ => rfl) hw.apart rfl (fun account x h => hforeign (hnetwork account x h))
    (fun x h => hforeign (hdisconnected x h))
  · intro x hx
    constructor
    · exact SessionHeap.transportOf_deleteSession.trans (if_neg (hne hx))
    · show (w.heap.deleteSession sid).deleted.count x = _
      rw [SessionHeap.deleted_deleteSession, count_cons_of_ne (hne hx).symm]
  · intro x hx
    have hx' : (w.heap.deleteSession sid).transportOf x = some .headless := hx
    rw [SessionHeap.transportOf_deleteSession] at hx'
    split_ifs at hx'
    exact (hw.filed x hx').1

/-- A network session that goes is kept for a while, or deleted. -/
theorem closeSession (hw : w.Sound) (accountId : Nat) (stopped : Bool) :
    (w.closeSession accountId stopped).Sound := by
  unfold LoginWorld.closeSession
  split
  case h_1 => exact hw
  case h_2 sid hsid =>
    have hnetwork : ∀ account x, (w.networkSessions.erase accountId).find account = some x →
        w.Foreign x := by
      intro account x hx
      rw [find_erase] at hx
      split_ifs at hx
      exact hw.network account x hx
    split_ifs
    · refine { hw with network := hnetwork, disconnected := fun x hx => ?_ }
      rcases mem_cons.mp hx with rfl | hx
      · exact hw.network accountId x hsid
      · exact hw.disconnected x hx
    · exact hw.deleteForeign (hw.network accountId sid hsid) hnetwork hw.disconnected

/-- A new network session has an address that no session of `start` has. -/
theorem insertSession (hw : w.Sound) (accountId : Nat) : (w.insertSession accountId).Sound := by
  have htransport : ∀ x, (w.insertSession accountId).heap.transportOf x =
      if x = w.heap.fresh then some .network else w.heap.transportOf x :=
    fun x => SessionHeap.transportOf_newSession ..
  have hforeign : ∀ {x}, w.Foreign x → (w.insertSession accountId).Foreign x :=
    fun h => ⟨Nat.lt_succ_of_lt h.1, h.2⟩
  refine hw.keep (hw.heap.newSession _ _) (fun x hx => ⟨?_, rfl⟩) (fun x hx => ?_)
    (Nat.le_succ _) (fun _ => rfl) hw.apart rfl (fun account x hx => ?_)
    (fun x hx => hforeign (hw.disconnected x hx))
  · rw [htransport, if_neg (ne_of_lt (hw.started_lt x hx))]
  · rw [htransport] at hx
    split_ifs at hx
    · cases hx
    · exact (hw.filed x hx).1
  · -- the new session itself, or one the account had before
    have hx' : (w.networkSessions.insert accountId w.heap.fresh).find account = some x := hx
    rw [find_insert] at hx'
    split_ifs at hx'
    · cases hx'
      exact ⟨Nat.lt_succ_self _, fun hmem => lt_irrefl _ (hw.started_lt _ hmem)⟩
    · exact hforeign (hw.network account x hx')

/-- The account's older session is closed first. -/
theorem addSession (hw : w.Sound) (accountId : Nat) (stopped : Bool) :
    (w.addSession accountId stopped).Sound := by
  unfold LoginWorld.addSession
  split_ifs
  · exact hw
  · exact (hw.closeSession accountId stopped).insertSession accountId

/-- What waits in the disconnected list is deleted once. -/
theorem updateDisconnected (hw : w.Sound) (sid : Nat) (timeUp : Bool) :
    (w.updateDisconnected sid timeUp).Sound := by
  unfold LoginWorld.updateDisconnected
  split_ifs with hcond
  · exact hw.deleteForeign (hw.disconnected sid hcond.1) hw.network
      fun x hx => hw.disconnected x (mem_of_mem_erase hx)
  · exact hw

end Sound

/-! ## Runs -/

/-- Every call keeps the world sound. -/
theorem sound_step (hw : w.Sound) (op : LoginOp) : (w.step op).Sound := by
  cases op with
  | start facts accountId guid dispatch => exact hw.start dispatch
  | stop guid save => exact hw.stop save
  | stopForAccount accountId save => exact hw.stopForAccount save
  -- the loops of the manager go over the keys that were there at their start
  | promotePending => exact hw.foldl (fun _ guid h => h.promote guid) _
  | update => exact hw.foldl (fun _ guid h => h.updateSession guid) _
  | shutdown => exact hw.shutdown
  | playerLogin facts accountId guid yield dispatch =>
    exact hw.handlePlayerLoginOpcode yield dispatch
  | answer i facts loads inWorld => exact hw.answer i loads inWorld
  | addSession accountId stopped => exact hw.addSession accountId stopped
  | closeSession accountId stopped => exact hw.closeSession accountId stopped
  | updateDisconnected sid timeUp => exact hw.updateDisconnected sid timeUp
  | logout sid save =>
    exact hw.onHeap (f := fun h => h.logoutPlayer sid save) (hw.heap.logoutPlayer save)
      SessionHeap.sameSessions_logoutPlayer
  | setInWorld pid inWorld =>
    exact hw.onHeap (f := fun h => h.setInWorld pid inWorld) (hw.heap.setInWorld inWorld)
      ⟨fun _ => rfl, rfl, le_rfl⟩

/-- At the start there is nothing. -/
theorem sound_empty : Sound ({} : LoginWorld) where
  heap := .empty
  apart := fun _ _ _ he => by cases he
  held := fun _ _ he => by cases he
  unique := fun _ _ _ _ he => by cases he
  filed := fun _ hs => by cases hs
  ended := fun _ hs => by cases hs
  started_lt := fun _ hs => by cases hs
  network := fun _ _ hs => by cases hs
  disconnected := fun _ hs => by cases hs

/-- So whatever has happened, the world is sound. -/
theorem sound_run (ops : List LoginOp) : (run step ({} : LoginWorld) ops).Sound :=
  run_invariant (I := Sound) (fun _ op h => sound_step h op) sound_empty ops

/-- How many entries the session is in. -/
def entriesOf (w : LoginWorld) (sid : Nat) : Nat :=
  (w.sessions.entries ++ w.pendingSessions.entries).countP (·.2.session = sid)

/-- What is listed in either map is the character's entry. -/
theorem mem_entries {x : PlayerGuid × SessionEntry} (hw : w.Sound)
    (hx : x ∈ w.sessions.entries ++ w.pendingSessions.entries) : w.entryOf x.1 = some x.2 := by
  rcases mem_append.mp hx with hx | hx
  · exact entryOf_of_active (mem_entries_iff.mp hx)
  · exact entryOf_of_pending hw.apart (mem_entries_iff.mp hx)

/-- No two entries have the same session. -/
theorem sessions_nodup (hw : w.Sound) :
    ((w.sessions.entries ++ w.pendingSessions.entries).map (·.2.session)).Nodup := by
  refine pairwise_map.mpr (pairwise_append.mpr ⟨?_, ?_, ?_⟩)
  · refine w.sessions.keys_pairwise.imp_of_mem fun hx hy hne heq => hne ?_
    exact hw.unique _ _ _ _ (mem_entries hw (mem_append_left _ hx))
      (mem_entries hw (mem_append_left _ hy)) heq
  · refine w.pendingSessions.keys_pairwise.imp_of_mem fun hx hy hne heq => hne ?_
    exact hw.unique _ _ _ _ (mem_entries hw (mem_append_right _ hx))
      (mem_entries hw (mem_append_right _ hy)) heq
  · -- one entry in each map: the same character would be in both
    intro x hx y hy heq
    have hkey := hw.unique _ _ _ _ (mem_entries hw (mem_append_left _ hx))
      (mem_entries hw (mem_append_right _ hy)) heq
    have hy' := mem_entries_iff.mp hy
    rw [← hkey] at hy'
    exact hw.apart _ _ _ (mem_entries_iff.mp hx) hy'

/-- The live headless sessions are those of the entries. -/
theorem mem_sessions_iff (hw : w.Sound) :
    sid ∈ (w.sessions.entries ++ w.pendingSessions.entries).map (·.2.session) ↔
      w.heap.transportOf sid = some .headless := by
  constructor
  · intro hmem
    obtain ⟨x, hx, rfl⟩ := mem_map.mp hmem
    exact hw.held x.1 x.2 (mem_entries hw hx)
  · intro hlive
    obtain ⟨-, guid, entry, he, rfl⟩ := hw.filed sid hlive
    refine mem_map.mpr ⟨(guid, entry), ?_, rfl⟩
    unfold entryOf at he
    rcases or_eq_some_iff.mp he with h | ⟨-, h⟩
    · exact mem_append_left _ (mem_entries_iff.mpr h)
    · exact mem_append_right _ (mem_entries_iff.mpr h)

/-- A session is in one entry while it lives, and then in none. -/
theorem entriesOf_eq (hw : w.Sound) :
    w.entriesOf sid = if w.heap.transportOf sid = some .headless then 1 else 0 := by
  have hcount : w.entriesOf sid =
      ((w.sessions.entries ++ w.pendingSessions.entries).map (·.2.session)).count sid := by
    unfold entriesOf
    rw [count_eq_countP, countP_map]
    exact countP_congr fun x _ => by simp
  rw [hcount, (sessions_nodup hw).count]
  exact if_congr (mem_sessions_iff hw) rfl rfl

/-- The character, account and token of the answer are those of a current request: of an entry, or
of the account's network session. -/
def Asked (w : LoginWorld) (holder : LoginQueryHolder) : Prop :=
  match holder.transport with
  | .headless => ∃ guid entry, (w.sessions.find guid = some entry ∨
      w.pendingSessions.find guid = some entry) ∧ entry.characterGuid = holder.guid ∧
      entry.accountId = holder.accountId ∧ entry.requestToken = holder.requestToken
  | .network => ∃ sid s, w.networkSessions.find holder.accountId = some sid ∧
      w.heap.sessions.find sid = some s ∧ s.loginRequestGuid = holder.guid ∧
      s.loginRequestToken = holder.requestToken

/-- The manager looks for an entry of that character, account and token. -/
theorem handleLoginCallback_of_not_asked (htransport : holder.transport = .headless)
    (h : ¬ w.Asked holder) (loads inWorld : Bool) :
    w.handleLoginCallback facts holder loads inWorld = w := by
  unfold Asked at h
  rw [htransport] at h
  unfold handleLoginCallback
  split
  case isTrue => rfl
  split
  case h_1 => rfl
  case h_2 entry hentry =>
    obtain ⟨hfind, hmatch⟩ := Sound.entry_of_findEntry hentry
    unfold matchesEntry at hmatch
    simp only [Bool.and_eq_true, decide_eq_true_eq] at hmatch
    obtain ⟨⟨⟨haccount, hguid⟩, htoken⟩, -⟩ := hmatch
    exact absurd ⟨holder.guid, entry, hfind, hguid, haccount, htoken⟩ h

/-- An answer that nobody waits for changes nothing. -/
theorem handlePlayerLoginCallback_of_not_asked (h : ¬ w.Asked holder) (loads inWorld : Bool) :
    w.handlePlayerLoginCallback facts holder loads inWorld = w := by
  unfold handlePlayerLoginCallback
  split
  case isTrue htransport => exact handleLoginCallback_of_not_asked htransport h loads inWorld
  case isFalse htransport =>
    have hnetwork : holder.transport = .network := by
      cases ht : holder.transport with
      | network => rfl
      | headless => exact absurd ht htransport
    unfold Asked at h
    rw [hnetwork] at h
    split
    case h_1 => rfl
    case h_2 sid hsid =>
      split_ifs with hrequest
      · obtain ⟨s, hs, hask⟩ := (Option.any_eq_true ..).mp hrequest
        unfold WorldSession.isLoginRequest at hask
        simp only [Bool.and_eq_true, decide_eq_true_eq] at hask
        exact absurd ⟨sid, s, hsid, hs, hask.1.1, hask.2⟩ h
      · rfl

/-- What holds of the sessions and players of a run. -/
structure Right (w : LoginWorld) : Prop where
  apart : ∀ guid, ¬ (w.sessions.contains guid ∧ w.pendingSessions.contains guid)
  /-- Each session of `start` is in one entry, or has been deleted once. -/
  oneEntry : ∀ sid ∈ w.started, w.entriesOf sid + w.heap.deleted.count sid = 1
  oneLogin : ∀ sid ∈ w.started, w.heap.headlessLogins.count sid ≤ 1
  onePlayer : ∀ pid pid' p p', w.heap.players.find pid = some p →
    w.heap.players.find pid' = some p' → p.guid = p'.guid → pid = pid'
  noTwins : w.heap.twins = []
  stale : ∀ facts holder loads inWorld, ¬ w.Asked holder →
    w.handlePlayerLoginCallback facts holder loads inWorld = w

theorem Sound.right (hw : w.Sound) : w.Right where
  apart := by
    rintro guid ⟨hactive, hpending⟩
    obtain ⟨entry, he⟩ := isSome_iff_exists.mp hactive
    obtain ⟨entry', he'⟩ := isSome_iff_exists.mp hpending
    exact hw.apart guid entry entry' he he'
  oneEntry := by
    intro sid hsid
    rw [entriesOf_eq hw]
    -- alive and never deleted, or gone and deleted once
    rcases hw.ended sid hsid with ⟨hlive, hcount⟩ | ⟨hgone, hcount⟩
    · rw [if_pos hlive, hcount]
    · rw [if_neg (by rw [hgone]; simp), hcount]
  oneLogin := fun sid _ => nodup_iff_count.mp hw.heap.once sid
  onePlayer := by
    intro pid pid' p p' hp hp' hguid
    -- both `Player`s would be the one registered for the guid
    have hreg := hw.heap.registered pid p hp
    rw [hguid, hw.heap.registered pid' p' hp'] at hreg
    exact (some.inj hreg).symm
  noTwins := hw.heap.noTwins
  stale := fun _ _ loads inWorld h => handlePlayerLoginCallback_of_not_asked h loads inWorld

/-- In every run the sessions and players are right. -/
theorem sessions_right (ops : List LoginOp) : (run step ({} : LoginWorld) ops).Right :=
  (sound_run ops).right

end LoginWorld

end Windrunner
