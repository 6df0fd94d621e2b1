import Windrunner.Lib.SortedMap

/-!
# Sessions and players as objects

`SessionHeap` holds the `WorldSession` and `Player` objects by their addresses, and the
`HashMapHolder` of the players by guid. A deletion is recorded in `deleted`, a completed login of a
headless session in `headlessLogins`, and the creation of a second `Player` of one character in
`twins`.

`SessionHeap.Sound` is what holds of the objects at any time: every `Player` is the one its guid is
registered with, no session points to a `Player` of another session, no live session has been
deleted, and a headless session that has completed its login is not loading.
-/

namespace Windrunner

open Lib SortedMap Option

inductive SessionTransport
  | network | headless
  deriving DecidableEq

/-- A player's guid is its counter: `HIGHGUID_PLAYER` is 0, and `ClampPlayerGuid` cuts the guid of a
packet down to the counter. -/
abbrev PlayerGuid := Nat

structure WorldSession where
  transport : SessionTransport
  accountId : Nat
  player : Option Nat := none
  playerLoading : Bool := false
  headlessLoginRequested : Bool := false
  loginRequestGuid : PlayerGuid := 0
  loginRequestToken : UInt64 := 0
  deriving DecidableEq

/-- What is kept of a `Player`: its guid, the session it belongs to, and `IsInWorld`. -/
structure PlayerObject where
  guid : PlayerGuid
  session : Nat
  inWorld : Bool := false
  deriving DecidableEq

structure LoginQueryHolder where
  accountId : Nat
  guid : PlayerGuid
  transport : SessionTransport
  requestToken : UInt64
  deriving DecidableEq

/-- What is written of a character when its session ends. -/
inductive CharacterWrite
  | saved (guid : PlayerGuid)
  | offline (guid : PlayerGuid)
  deriving DecidableEq

structure SessionHeap where
  sessions : SortedMap Nat WorldSession := ∅
  players : SortedMap Nat PlayerObject := ∅
  /-- `HashMapHolder<Player>` -/
  playerMap : SortedMap PlayerGuid Nat := ∅
  /-- The next address. -/
  fresh : Nat := 0
  writes : List CharacterWrite := []
  deleted : List Nat := []
  headlessLogins : List Nat := []
  twins : List PlayerGuid := []
  deriving DecidableEq

namespace WorldSession

def isHeadless (s : WorldSession) : Bool := s.transport = .headless

def isLoginRequest (s : WorldSession) (holder : LoginQueryHolder) : Bool :=
  s.loginRequestGuid = holder.guid && s.transport = holder.transport &&
    s.loginRequestToken = holder.requestToken

def notLoading (s : WorldSession) : WorldSession := { s with playerLoading := false }

def dispatchFailed (s : WorldSession) : WorldSession :=
  { s with playerLoading := false, headlessLoginRequested := false }

def loading (guid : PlayerGuid) (token : UInt64) (s : WorldSession) : WorldSession :=
  { s with
    loginRequestGuid := guid
    loginRequestToken := token
    playerLoading := true
    headlessLoginRequested := s.isHeadless }

def withPlayer (pid : Nat) (s : WorldSession) : WorldSession :=
  { s with player := some pid, playerLoading := false, headlessLoginRequested := false }

def withoutPlayer (s : WorldSession) : WorldSession := { s with player := none }

/-- The return value of `Update` for a headless session; the packets it processes are steps of
their own. -/
def update (s : WorldSession) : Bool :=
  !(s.player.isNone && !s.playerLoading && s.headlessLoginRequested)

end WorldSession

namespace SessionHeap

variable {h : SessionHeap} {sid x pid : Nat} {guid : PlayerGuid}

def transportOf (h : SessionHeap) (sid : Nat) : Option SessionTransport :=
  (h.sessions.find sid).map (·.transport)

def playerOf (h : SessionHeap) (sid : Nat) : Option Nat := (h.sessions.find sid).bind (·.player)

/-- `HashMapHolder<Player>::Find`, also `FindPlayerNotInWorld`. -/
def findPlayerNotInWorld (h : SessionHeap) (guid : PlayerGuid) : Option Nat := h.playerMap.find guid

def isInWorld (h : SessionHeap) (pid : Nat) : Bool := (h.players.find pid).any (·.inWorld)

def findPlayer (h : SessionHeap) (guid : PlayerGuid) : Option Nat :=
  (h.findPlayerNotInWorld guid).filter h.isInWorld

def modifySession (h : SessionHeap) (sid : Nat) (f : WorldSession → WorldSession) : SessionHeap :=
  { h with sessions := h.sessions.modify sid f }

/-- `new WorldSession`, at the address `h.fresh`. -/
def newSession (h : SessionHeap) (transport : SessionTransport) (accountId : Nat) : SessionHeap :=
  { h with
    sessions := h.sessions.insert h.fresh { transport, accountId }
    fresh := h.fresh + 1 }

/-- `Map::DeleteFromWorld` -/
def deleteFromWorld (h : SessionHeap) (pid : Nat) : SessionHeap :=
  match h.players.find pid with
  | none => h
  | some p => { h with players := h.players.erase pid, playerMap := h.playerMap.erase p.guid }

/-- Only a player in the world is saved. -/
def savePlayer (h : SessionHeap) (pid : Nat) (save : Bool) : SessionHeap :=
  match h.players.find pid with
  | none => h
  | some p => if save && p.inWorld then { h with writes := .saved p.guid :: h.writes } else h

def logoutPlayer (h : SessionHeap) (sid : Nat) (save : Bool) : SessionHeap :=
  match h.playerOf sid with
  | none => h
  | some pid => ((h.savePlayer pid save).deleteFromWorld pid).modifySession sid
      WorldSession.withoutPlayer

/-- `UPDATE characters SET online = 0`, where it is asked for. -/
def clearOnline (h : SessionHeap) (guid : PlayerGuid) (clear : Bool) : SessionHeap :=
  if clear then { h with writes := .offline guid :: h.writes } else h

/-- The memory of a session is given back. -/
def free (h : SessionHeap) (sid : Nat) : SessionHeap :=
  { h with sessions := h.sessions.erase sid, deleted := sid :: h.deleted }

/-- `delete session`: the destructor logs out the player there still is. -/
def deleteSession (h : SessionHeap) (sid : Nat) : SessionHeap := (h.logoutPlayer sid true).free sid

/-- `new Player(session)`, at the address `h.fresh`, for the character `guid`. -/
def newPlayer (h : SessionHeap) (sid : Nat) (guid : PlayerGuid) : SessionHeap :=
  { h with
    players := h.players.insert h.fresh { guid, session := sid }
    fresh := h.fresh + 1
    twins := if h.players.entries.any (·.2.guid = guid) then guid :: h.twins else h.twins }

/-- `delete` of a `Player` that was never registered. -/
def deletePlayer (h : SessionHeap) (pid : Nat) : SessionHeap :=
  { h with players := h.players.erase pid }

/-- `Map::Add` and `ObjectAccessor::AddObject` of a loaded player. -/
def addPlayer (h : SessionHeap) (pid : Nat) (guid : PlayerGuid) (inWorld : Bool) : SessionHeap :=
  { h with
    players := h.players.modify pid fun p => { p with inWorld }
    playerMap := h.playerMap.insert guid pid }

/-- The session has its player, and the login is over. -/
def completeLogin (h : SessionHeap) (sid pid : Nat) : SessionHeap :=
  { h.modifySession sid (WorldSession.withPlayer pid) with
    headlessLogins :=
      if h.transportOf sid = some .headless then sid :: h.headlessLogins else h.headlessLogins }

/-- `HandlePlayerLogin` from where a new `Player` is made. -/
def loginNew (h : SessionHeap) (sid : Nat) (guid : PlayerGuid) (loads inWorld : Bool) :
    SessionHeap :=
  if loads then
    ((h.newPlayer sid guid).addPlayer h.fresh guid inWorld).completeLogin sid h.fresh
  else ((h.newPlayer sid guid).deletePlayer h.fresh).modifySession sid WorldSession.notLoading

/-- `Player::SetSession(target)` and `SetPlayer(nullptr)` of the session it had. -/
def movePlayer (h : SessionHeap) (pid sid target : Nat) : SessionHeap :=
  { h.modifySession sid WorldSession.withoutPlayer with
    players := h.players.modify pid fun p => { p with session := target } }

/-- The player enters or leaves the world, as a far teleport has it do. -/
def setInWorld (h : SessionHeap) (pid : Nat) (inWorld : Bool) : SessionHeap :=
  { h with players := h.players.modify pid fun p => { p with inWorld } }

/-! ## What each operation does to the sessions -/

/-- No session has come or gone, and none has changed its transport. -/
structure SameSessions (h h' : SessionHeap) : Prop where
  transportOf : ∀ sid, h'.transportOf sid = h.transportOf sid
  deleted : h'.deleted = h.deleted
  fresh : h.fresh ≤ h'.fresh

theorem SameSessions.refl (h : SessionHeap) : SameSessions h h := ⟨fun _ => rfl, rfl, le_rfl⟩

theorem SameSessions.trans {h h' h'' : SessionHeap} (h1 : SameSessions h h')
    (h2 : SameSessions h' h'') : SameSessions h h'' where
  transportOf := fun sid => (h2.transportOf sid).trans (h1.transportOf sid)
  deleted := h2.deleted.trans h1.deleted
  fresh := h1.fresh.trans h2.fresh

theorem find_modifySession (h : SessionHeap) (sid : Nat) (f : WorldSession → WorldSession)
    (x : Nat) : (h.modifySession sid f).sessions.find x =
      if x = sid then (h.sessions.find x).map f else h.sessions.find x :=
  find_modify ..

theorem transportOf_modifySession {f : WorldSession → WorldSession}
    (hf : ∀ s, (f s).transport = s.transport) :
    (h.modifySession sid f).transportOf x = h.transportOf x := by
  unfold transportOf
  rw [find_modifySession]
  split_ifs
  · cases h.sessions.find x with
    | none => rfl
    | some s => exact congrArg some (hf s)
  · rfl

theorem sameSessions_modifySession {f : WorldSession → WorldSession}
    (hf : ∀ s, (f s).transport = s.transport) : SameSessions h (h.modifySession sid f) :=
  ⟨fun _ => transportOf_modifySession hf, rfl, le_rfl⟩

/-- A new session has the transport it is made with. -/
theorem transportOf_newSession (transport : SessionTransport) (accountId : Nat) :
    (h.newSession transport accountId).transportOf x =
      if x = h.fresh then some transport else h.transportOf x := by
  unfold transportOf newSession
  simp only
  rw [find_insert]
  split_ifs
  · rfl
  · rfl

/-- Only the freed session is gone. -/
theorem transportOf_free :
    (h.free sid).transportOf x = if x = sid then none else h.transportOf x := by
  unfold transportOf free
  simp only
  rw [find_erase]
  split_ifs
  · rfl
  · rfl

theorem sameSessions_deleteFromWorld : SameSessions h (h.deleteFromWorld pid) := by
  unfold deleteFromWorld
  split
  · exact .refl h
  · exact ⟨fun _ => rfl, rfl, le_rfl⟩

theorem sameSessions_savePlayer {save : Bool} : SameSessions h (h.savePlayer pid save) := by
  unfold savePlayer
  split
  · exact .refl h
  · split_ifs
    · exact ⟨fun _ => rfl, rfl, le_rfl⟩
    · exact .refl h

/-- A logout changes no session but for its player. -/
theorem sameSessions_logoutPlayer {save : Bool} : SameSessions h (h.logoutPlayer sid save) := by
  unfold logoutPlayer
  split
  · exact .refl h
  · exact (sameSessions_savePlayer.trans sameSessions_deleteFromWorld).trans
      (sameSessions_modifySession fun _ => rfl)

theorem sameSessions_clearOnline {clear : Bool} : SameSessions h (h.clearOnline guid clear) := by
  unfold clearOnline
  split_ifs
  · exact ⟨fun _ => rfl, rfl, le_rfl⟩
  · exact .refl h

theorem sameSessions_completeLogin : SameSessions h (h.completeLogin sid pid) :=
  have hsame : SameSessions h (h.modifySession sid (WorldSession.withPlayer pid)) :=
    sameSessions_modifySession fun _ => rfl
  ⟨hsame.transportOf, rfl, le_rfl⟩

/-- A login makes a `Player` and no session. -/
theorem sameSessions_loginNew {loads inWorld : Bool} :
    SameSessions h (h.loginNew sid guid loads inWorld) := by
  have hnew : SameSessions h (h.newPlayer sid guid) := ⟨fun _ => rfl, rfl, Nat.le_succ _⟩
  unfold loginNew
  split_ifs
  · have hadd : SameSessions (h.newPlayer sid guid)
        ((h.newPlayer sid guid).addPlayer h.fresh guid inWorld) := ⟨fun _ => rfl, rfl, le_rfl⟩
    exact (hnew.trans hadd).trans sameSessions_completeLogin
  · have hdelete : SameSessions (h.newPlayer sid guid)
        ((h.newPlayer sid guid).deletePlayer h.fresh) := ⟨fun _ => rfl, rfl, le_rfl⟩
    exact (hnew.trans hdelete).trans (sameSessions_modifySession fun _ => rfl)

/-- Taking a player over moves no session. -/
theorem sameSessions_movePlayer {target : Nat} : SameSessions h (h.movePlayer pid sid target) :=
  have hsame : SameSessions h (h.modifySession sid WorldSession.withoutPlayer) :=
    sameSessions_modifySession fun _ => rfl
  ⟨hsame.transportOf, rfl, le_rfl⟩

theorem deleted_deleteSession : (h.deleteSession sid).deleted = sid :: h.deleted :=
  congrArg (sid :: ·) sameSessions_logoutPlayer.deleted

/-- The destructor's logout touches no other session. -/
theorem transportOf_deleteSession :
    (h.deleteSession sid).transportOf x = if x = sid then none else h.transportOf x := by
  unfold deleteSession
  rw [transportOf_free, sameSessions_logoutPlayer.transportOf]

theorem fresh_deleteSession : h.fresh ≤ (h.deleteSession sid).fresh :=
  sameSessions_logoutPlayer.fresh

theorem transportOf_of_find {s : WorldSession} (hs : h.sessions.find sid = some s) :
    h.transportOf sid = some s.transport := by
  unfold transportOf
  rw [hs]
  rfl

/-! ## What holds of the objects -/

structure Sound (h : SessionHeap) : Prop where
  session_lt : ∀ sid s, h.sessions.find sid = some s → sid < h.fresh
  player_lt : ∀ pid p, h.players.find pid = some p → pid < h.fresh
  registered : ∀ pid p, h.players.find pid = some p → h.playerMap.find p.guid = some pid
  known : ∀ guid pid, h.playerMap.find guid = some pid →
    ∃ p, h.players.find pid = some p ∧ p.guid = guid
  linked : ∀ sid s pid, h.sessions.find sid = some s → s.player = some pid →
    ∃ p, h.players.find pid = some p ∧ p.session = sid
  deleted_lt : ∀ sid ∈ h.deleted, sid < h.fresh
  live : ∀ sid s, h.sessions.find sid = some s → sid ∉ h.deleted
  login_lt : ∀ sid ∈ h.headlessLogins, sid < h.fresh
  loaded : ∀ sid s, h.sessions.find sid = some s → sid ∈ h.headlessLogins →
    s.playerLoading = false ∧ s.transport = .headless
  once : h.headlessLogins.Nodup
  noTwins : h.twins = []

namespace Sound

theorem empty : Sound {} where
  session_lt := fun _ _ hs => by cases hs
  player_lt := fun _ _ hp => by cases hp
  registered := fun _ _ hp => by cases hp
  known := fun _ _ hp => by cases hp
  linked := fun _ _ _ hs => by cases hs
  deleted_lt := fun _ hs => by cases hs
  live := fun _ _ hs => by cases hs
  login_lt := fun _ hs => by cases hs
  loaded := fun _ _ hs => by cases hs
  once := .nil
  noTwins := rfl

section

variable (hh : h.Sound)
include hh

/-- A session keeps its transport, does not come to a player, and does not start to load. -/
theorem modifySession {f : WorldSession → WorldSession} (ht : ∀ s, (f s).transport = s.transport)
    (hp : ∀ s pid, (f s).player = some pid → s.player = some pid)
    (hl : ∀ s, s.playerLoading = false → sid ∈ h.headlessLogins → (f s).playerLoading = false) :
    (h.modifySession sid f).Sound := by
  have hfind : ∀ x s, (h.modifySession sid f).sessions.find x = some s →
      ∃ s', h.sessions.find x = some s' ∧ (s = s' ∨ x = sid ∧ s = f s') := by
    intro x s hs
    rw [find_modifySession] at hs
    split_ifs at hs with hx
    · obtain ⟨s', hs', rfl⟩ := map_eq_some_iff.mp hs
      exact ⟨s', hs', .inr ⟨hx, rfl⟩⟩
    · exact ⟨s, hs, .inl rfl⟩
  refine { hh with session_lt := ?_, linked := ?_, live := ?_, loaded := ?_ }
  · intro x s hs
    obtain ⟨s', hs', -⟩ := hfind x s hs
    exact hh.session_lt x s' hs'
  · intro x s pid hs hsp
    obtain ⟨s', hs', rfl | ⟨-, rfl⟩⟩ := hfind x s hs
    · exact hh.linked x s pid hs' hsp
    · exact hh.linked x s' pid hs' (hp s' pid hsp)
  · intro x s hs
    obtain ⟨s', hs', -⟩ := hfind x s hs
    exact hh.live x s' hs'
  · intro x s hs hx
    obtain ⟨s', hs', rfl | ⟨rfl, rfl⟩⟩ := hfind x s hs
    · exact hh.loaded x s hs' hx
    · obtain ⟨hload, htr⟩ := hh.loaded x s' hs' hx
      exact ⟨hl s' hload hx, (ht s').trans htr⟩

/-- The next address goes up. -/
theorem advance : Sound { h with fresh := h.fresh + 1 } :=
  { hh with
    session_lt := fun x s hs => Nat.lt_succ_of_lt (hh.session_lt x s hs)
    player_lt := fun pid p hp => Nat.lt_succ_of_lt (hh.player_lt pid p hp)
    deleted_lt := fun x hx => Nat.lt_succ_of_lt (hh.deleted_lt x hx)
    login_lt := fun x hx => Nat.lt_succ_of_lt (hh.login_lt x hx) }

/-- The players keep their guids, and a session's player stays its own. -/
theorem replacePlayers {players : SortedMap Nat PlayerObject}
    (hguid : ∀ x, (players.find x).map (·.guid) = (h.players.find x).map (·.guid))
    (hlinked : ∀ sid s pid, h.sessions.find sid = some s → s.player = some pid →
      ∃ p, players.find pid = some p ∧ p.session = sid) : Sound { h with players } := by
  have hold : ∀ x q, players.find x = some q → ∃ q', h.players.find x = some q' ∧ q'.guid = q.guid := by
    intro x q hq
    have hx := hguid x
    rw [hq] at hx
    exact map_eq_some_iff.mp hx.symm
  refine { hh with player_lt := ?_, registered := ?_, known := ?_, linked := hlinked }
  · intro x q hq
    obtain ⟨q', hq', -⟩ := hold x q hq
    exact hh.player_lt x q' hq'
  · intro x q hq
    obtain ⟨q', hq', hg⟩ := hold x q hq
    rw [← hg]
    exact hh.registered x q' hq'
  · intro guid x hx
    obtain ⟨q, hq, rfl⟩ := hh.known guid x hx
    have hmap := hguid x
    rw [hq] at hmap
    exact map_eq_some_iff.mp hmap

/-- A new session has no player and is at an address never used. -/
theorem newSession (transport : SessionTransport) (accountId : Nat) :
    (h.newSession transport accountId).Sound := by
  have hfind : ∀ x s, (h.newSession transport accountId).sessions.find x = some s →
      x = h.fresh ∧ s.player = none ∨ h.sessions.find x = some s := by
    intro x s hs
    unfold SessionHeap.newSession at hs
    simp only at hs
    rw [find_insert] at hs
    split_ifs at hs with hx
    · cases hs
      exact .inl ⟨hx, rfl⟩
    · exact .inr hs
  refine { hh.advance with session_lt := ?_, linked := ?_, live := ?_, loaded := ?_ }
  · intro x s hs
    rcases hfind x s hs with ⟨rfl, -⟩ | hs
    · exact Nat.lt_succ_self _
    · exact hh.advance.session_lt x s hs
  · intro x s pid hs hsp
    rcases hfind x s hs with ⟨-, hnone⟩ | hs
    · rw [hnone] at hsp
      cases hsp
    · exact hh.linked x s pid hs hsp
  · intro x s hs hx
    rcases hfind x s hs with ⟨rfl, -⟩ | hs
    · -- the address is new, so it is not among the deleted ones
      exact lt_irrefl _ (hh.deleted_lt _ hx)
    · exact hh.live x s hs hx
  · intro x s hs hx
    rcases hfind x s hs with ⟨rfl, -⟩ | hs
    · exact absurd (hh.login_lt _ hx) (lt_irrefl _)
    · exact hh.loaded x s hs hx

/-- The freed session was the only one at its address. -/
theorem free (hsid : sid < h.fresh) : (h.free sid).Sound := by
  have hfind : ∀ x s, (h.free sid).sessions.find x = some s →
      x ≠ sid ∧ h.sessions.find x = some s := by
    intro x s hs
    unfold SessionHeap.free at hs
    simp only at hs
    rw [find_erase] at hs
    split_ifs at hs with hx
    exact ⟨hx, hs⟩
  refine { hh with
    session_lt := fun x s hs => hh.session_lt x s (hfind x s hs).2
    linked := fun x s pid hs => hh.linked x s pid (hfind x s hs).2
    deleted_lt := ?_
    live := ?_
    loaded := fun x s hs => hh.loaded x s (hfind x s hs).2 }
  · intro x hx
    rcases List.mem_cons.mp hx with rfl | hx
    · exact hsid
    · exact hh.deleted_lt x hx
  · intro x s hs hx
    obtain ⟨hne, hs⟩ := hfind x s hs
    rcases List.mem_cons.mp hx with rfl | hx
    · exact hne rfl
    · exact hh.live x s hs hx

theorem savePlayer (save : Bool) : (h.savePlayer pid save).Sound := by
  unfold SessionHeap.savePlayer
  split
  · exact hh
  · split_ifs
    · exact { hh with }
    · exact hh

theorem clearOnline (clear : Bool) : (h.clearOnline guid clear).Sound := by
  unfold SessionHeap.clearOnline
  split_ifs
  · exact { hh with }
  · exact hh

/-- A `Player` that no session points to may be deleted. -/
theorem deleteFromWorld (hfree : ∀ sid s, h.sessions.find sid = some s → s.player ≠ some pid) :
    (h.deleteFromWorld pid).Sound := by
  unfold SessionHeap.deleteFromWorld
  split
  case h_1 => exact hh
  case h_2 p hp =>
    refine { hh with player_lt := ?_, registered := ?_, known := ?_, linked := ?_ }
    · intro x q hq
      rw [find_erase] at hq
      split_ifs at hq
      exact hh.player_lt x q hq
    · intro x q hq
      rw [find_erase] at hq
      split_ifs at hq with hx
      have hreg := hh.registered x q hq
      -- another player with this guid would be registered at the same address
      have hne : q.guid ≠ p.guid := by
        intro heq
        rw [heq, hh.registered pid p hp] at hreg
        exact hx (some.inj hreg).symm
      show (h.playerMap.erase p.guid).find q.guid = some x
      rw [find_erase, if_neg hne]
      exact hreg
    · intro guid x hx
      rw [find_erase] at hx
      split_ifs at hx with hguid
      obtain ⟨q, hq, rfl⟩ := hh.known guid x hx
      have hne : x ≠ pid := by
        rintro rfl
        rw [hp] at hq
        cases hq
        exact hguid rfl
      refine ⟨q, ?_, rfl⟩
      rw [find_erase, if_neg hne]
      exact hq
    · intro sid s x hs hsx
      obtain ⟨q, hq, hqs⟩ := hh.linked sid s x hs hsx
      have hne : x ≠ pid := by
        rintro rfl
        exact hfree sid s hs hsx
      refine ⟨q, ?_, hqs⟩
      rw [find_erase, if_neg hne]
      exact hq

end

/-- The session lets go of its player before or after the player is deleted. -/
theorem deleteFromWorld_modifySession (f : WorldSession → WorldSession) :
    (h.deleteFromWorld pid).modifySession sid f = (h.modifySession sid f).deleteFromWorld pid := by
  unfold SessionHeap.deleteFromWorld
  show _ = match h.players.find pid with
    | none => _
    | some _ => _
  cases h.players.find pid <;> rfl

theorem sessions_savePlayer {save : Bool} : (h.savePlayer pid save).sessions = h.sessions := by
  unfold SessionHeap.savePlayer
  split
  · rfl
  · split_ifs <;> rfl

section

variable (hh : h.Sound)
include hh

/-- A session is logged out: the `Player` goes, and so does the only pointer to it. -/
theorem logoutPlayer (save : Bool) : (h.logoutPlayer sid save).Sound := by
  unfold SessionHeap.logoutPlayer
  split
  case h_1 => exact hh
  case h_2 pid hpid =>
    have hsave : (h.savePlayer pid save).Sound := hh.savePlayer save
    obtain ⟨s, hs, hsp⟩ := bind_eq_some_iff.mp hpid
    obtain ⟨p, hp, hps⟩ := hh.linked sid s pid hs hsp
    rw [deleteFromWorld_modifySession]
    refine (hsave.modifySession (f := WorldSession.withoutPlayer) (fun _ => rfl)
      (fun _ _ h => by cases h) (fun _ hl _ => hl)).deleteFromWorld ?_
    intro x t ht htp
    rw [find_modifySession, sessions_savePlayer] at ht
    split_ifs at ht with hx
    · obtain ⟨t', -, rfl⟩ := map_eq_some_iff.mp ht
      cases htp
    · obtain ⟨q, hq, hqs⟩ := hh.linked x t pid ht htp
      rw [hp] at hq
      cases hq
      exact hx (hqs.symm.trans hps)

/-- A `Player` changes its session, and the one it had lets go of it. -/
theorem movePlayer {p : PlayerObject} (target : Nat)
    (hp : h.players.find pid = some p) (hps : p.session = sid) :
    (h.movePlayer pid sid target).Sound := by
  have hdrop : (h.modifySession sid WorldSession.withoutPlayer).Sound :=
    hh.modifySession (fun _ => rfl) (fun _ _ h => by cases h) (fun _ hl _ => hl)
  refine hdrop.replacePlayers (fun x => ?_) fun x s y hs hsy => ?_
  · show ((h.players.modify pid _).find x).map _ = (h.players.find x).map _
    rw [find_modify]
    split_ifs
    · rw [map_map]
      rfl
    · rfl
  · obtain ⟨q, hq, hqs⟩ := hdrop.linked x s y hs hsy
    have hne : y ≠ pid := by
      rintro rfl
      have hxs : x = sid := by
        rw [← hqs, ← hps, some.inj ((show h.players.find y = some q from hq).symm.trans hp)]
      rw [find_modifySession, if_pos hxs] at hs
      obtain ⟨t, -, rfl⟩ := map_eq_some_iff.mp hs
      cases hsy
    refine ⟨q, ?_, hqs⟩
    show (h.players.modify pid _).find y = _
    rw [find_modify, if_neg hne]
    exact hq

/-- A login completes: the session was loading, and the `Player` is its own. -/
theorem completeLogin {s : WorldSession} {p : PlayerObject}
    (hs : h.sessions.find sid = some s) (hload : s.playerLoading = true)
    (hp : h.players.find pid = some p) (hps : p.session = sid) :
    (h.completeLogin sid pid).Sound := by
  have hfirst : sid ∉ h.headlessLogins := by
    intro hmem
    rw [(hh.loaded sid s hs hmem).1] at hload
    cases hload
  have hfind : ∀ x t, (h.completeLogin sid pid).sessions.find x = some t →
      ∃ t', h.sessions.find x = some t' ∧
        (x ≠ sid ∧ t = t' ∨ x = sid ∧ t = t'.withPlayer pid) := by
    intro x t ht
    have ht' : (h.modifySession sid (WorldSession.withPlayer pid)).sessions.find x = some t := ht
    rw [find_modifySession] at ht'
    split_ifs at ht' with hx
    · obtain ⟨t', hfind, rfl⟩ := map_eq_some_iff.mp ht'
      exact ⟨t', hfind, .inr ⟨hx, rfl⟩⟩
    · exact ⟨t, ht', .inl ⟨hx, rfl⟩⟩
  have hlogins : ∀ x ∈ (h.completeLogin sid pid).headlessLogins,
      x ∈ h.headlessLogins ∨ x = sid ∧ s.transport = .headless := by
    intro x hx
    unfold SessionHeap.completeLogin at hx
    simp only [transportOf_of_find hs, some.injEq] at hx
    split_ifs at hx with ht
    · rcases List.mem_cons.mp hx with rfl | hx
      · exact .inr ⟨rfl, ht⟩
      · exact .inl hx
    · exact .inl hx
  refine { hh with session_lt := ?_, linked := ?_, live := ?_, login_lt := ?_, loaded := ?_, once := ?_ }
  · intro x t ht
    obtain ⟨t', ht', -⟩ := hfind x t ht
    exact hh.session_lt x t' ht'
  · intro x t y ht hty
    obtain ⟨t', ht', ⟨-, rfl⟩ | ⟨rfl, rfl⟩⟩ := hfind x t ht
    · exact hh.linked x t y ht' hty
    · cases hty
      exact ⟨p, hp, hps⟩
  · intro x t ht
    obtain ⟨t', ht', -⟩ := hfind x t ht
    exact hh.live x t' ht'
  · intro x hx
    rcases hlogins x hx with hx | ⟨rfl, -⟩
    · exact hh.login_lt x hx
    · exact hh.session_lt x s hs
  · intro x t ht hx
    obtain ⟨t', ht', ⟨hne, rfl⟩ | ⟨rfl, rfl⟩⟩ := hfind x t ht
    · rcases hlogins x hx with hx | ⟨rfl, -⟩
      · exact hh.loaded x t ht' hx
      · exact absurd rfl hne
    · rcases hlogins x hx with hx | ⟨-, hheadless⟩
      · exact absurd hx hfirst
      · rw [hs] at ht'
        cases ht'
        exact ⟨rfl, hheadless⟩
  · unfold SessionHeap.completeLogin
    simp only
    split_ifs
    · exact List.nodup_cons.mpr ⟨hfirst, hh.once⟩
    · exact hh.once

theorem setInWorld (inWorld : Bool) : (h.setInWorld pid inWorld).Sound := by
  have hfind : ∀ x, (h.players.modify pid fun p => { p with inWorld }).find x =
      if x = pid then (h.players.find x).map fun p => { p with inWorld } else h.players.find x :=
    fun x => find_modify ..
  refine hh.replacePlayers (fun x => ?_) fun x s y hs hsy => ?_
  · rw [hfind]
    split_ifs
    · rw [map_map]
      rfl
    · rfl
  · obtain ⟨q, hq, hqs⟩ := hh.linked x s y hs hsy
    rw [hfind, hq]
    split_ifs
    · exact ⟨_, rfl, hqs⟩
    · exact ⟨q, rfl, hqs⟩

/-- A character with no registered `Player` has no `Player` at all. -/
theorem no_player (hnone : h.playerMap.find guid = none) {p : PlayerObject}
    (hp : h.players.find pid = some p) : p.guid ≠ guid := by
  rintro rfl
  rw [hh.registered pid p hp] at hnone
  cases hnone

theorem twins_newPlayer (sid : Nat) (hnone : h.playerMap.find guid = none) :
    (h.newPlayer sid guid).twins = [] := by
  have hany : ¬ h.players.entries.any (·.2.guid = guid) = true := by
    intro hany
    obtain ⟨⟨pid, p⟩, hmem, hguid⟩ := List.any_eq_true.mp hany
    exact hh.no_player hnone (mem_entries_iff.mp hmem) (of_decide_eq_true hguid)
  unfold SessionHeap.newPlayer
  simp only
  rw [if_neg hany]
  exact hh.noTwins

/-- A new `Player` is registered for a character that has none. -/
theorem addPlayer_newPlayer (sid : Nat) (hnone : h.playerMap.find guid = none) (inWorld : Bool) :
    ((h.newPlayer sid guid).addPlayer h.fresh guid inWorld).Sound ∧
      ((h.newPlayer sid guid).addPlayer h.fresh guid inWorld).players.find h.fresh =
        some { guid, session := sid, inWorld } := by
  have hfresh : ∀ x q, h.players.find x = some q → x ≠ h.fresh := by
    rintro x q hq rfl
    exact lt_irrefl _ (hh.player_lt _ q hq)
  have hplayers : ∀ x, ((h.newPlayer sid guid).addPlayer h.fresh guid inWorld).players.find x =
      if x = h.fresh then some { guid, session := sid, inWorld } else h.players.find x := by
    intro x
    unfold SessionHeap.addPlayer SessionHeap.newPlayer
    simp only
    rw [find_modify, find_insert]
    split_ifs <;> rfl
  have hmap : ∀ g, ((h.newPlayer sid guid).addPlayer h.fresh guid inWorld).playerMap.find g =
      if g = guid then some h.fresh else h.playerMap.find g :=
    fun g => find_insert ..
  refine ⟨{ hh.advance with player_lt := ?_, registered := ?_, known := ?_, linked := ?_, noTwins := ?_ },
    by rw [hplayers, if_pos rfl]⟩
  · intro x q hq
    rw [hplayers] at hq
    split_ifs at hq with hx
    · rw [hx]
      exact Nat.lt_succ_self _
    · exact hh.advance.player_lt x q hq
  · intro x q hq
    rw [hplayers] at hq
    split_ifs at hq with hx
    · cases hq
      rw [hmap, if_pos rfl, hx]
    · rw [hmap, if_neg (hh.no_player hnone hq)]
      exact hh.registered x q hq
  · intro g x hx
    rw [hmap] at hx
    split_ifs at hx with hg
    · cases hx
      exact ⟨_, by rw [hplayers, if_pos rfl], hg.symm⟩
    · obtain ⟨q, hq, hguid⟩ := hh.known g x hx
      exact ⟨q, by rw [hplayers, if_neg (hfresh x q hq)]; exact hq, hguid⟩
  · intro x s y hs hsy
    obtain ⟨q, hq, hqs⟩ := hh.linked x s y hs hsy
    exact ⟨q, by rw [hplayers, if_neg (hfresh y q hq)]; exact hq, hqs⟩
  · exact hh.twins_newPlayer sid hnone

/-- A `Player` whose character does not load is deleted again. -/
theorem deletePlayer_newPlayer (hnone : h.playerMap.find guid = none) :
    ((h.newPlayer sid guid).deletePlayer h.fresh).Sound := by
  have hplayers : ∀ x, ((h.newPlayer sid guid).deletePlayer h.fresh).players.find x =
      h.players.find x := by
    intro x
    unfold SessionHeap.deletePlayer SessionHeap.newPlayer
    simp only
    rw [find_erase, find_insert]
    split_ifs with hx
    · cases hfind : h.players.find x with
      | none => rfl
      | some q =>
        rw [hx] at hfind
        exact absurd (hh.player_lt _ q hfind) (lt_irrefl _)
    · rfl
  have hsound := hh.advance.replacePlayers (fun x => congrArg _ (hplayers x)) fun x s y hs hsy => by
    rw [hplayers]
    exact hh.linked x s y hs hsy
  exact { hsound with noTwins := hh.twins_newPlayer sid hnone }

/-- A login whose character has no `Player` makes one, or none. -/
theorem loginNew {s : WorldSession} (hs : h.sessions.find sid = some s)
    (hload : s.playerLoading = true) (hnone : h.playerMap.find guid = none)
    (loads inWorld : Bool) : (h.loginNew sid guid loads inWorld).Sound := by
  unfold SessionHeap.loginNew
  split_ifs
  · obtain ⟨hadd, hfind⟩ := hh.addPlayer_newPlayer sid hnone inWorld
    exact hadd.completeLogin hs hload hfind rfl
  · exact (hh.deletePlayer_newPlayer hnone).modifySession (fun _ => rfl) (fun _ _ h => h)
      (fun _ _ _ => rfl)

end

end Sound

/-- A session without a player is only freed. -/
theorem deleteSession_of_idle (hidle : h.playerOf sid = none) :
    h.deleteSession sid = h.free sid := by
  unfold deleteSession logoutPlayer
  rw [hidle]

/-- Moreover, a `Player` is the one its session points to. -/
structure Whole (h : SessionHeap) : Prop extends Sound h where
  owned : ∀ pid p, h.players.find pid = some p → h.playerOf p.session = some pid

theorem playerOf_modifySession {f : WorldSession → WorldSession}
    (hf : ∀ s, (f s).player = s.player) : (h.modifySession sid f).playerOf x = h.playerOf x := by
  unfold playerOf
  rw [find_modifySession]
  split_ifs
  · cases h.sessions.find x with
    | none => rfl
    | some s => exact hf s
  · rfl

theorem playerOf_modifySession_const {f : WorldSession → WorldSession} {player : Option Nat}
    (hf : ∀ s, (f s).player = player) : (h.modifySession sid f).playerOf x =
      if x = sid then (h.sessions.find x).bind fun _ => player else h.playerOf x := by
  unfold playerOf
  rw [find_modifySession]
  split_ifs
  · cases h.sessions.find x with
    | none => rfl
    | some s => exact hf s
  · rfl

theorem playerOf_free : (h.free sid).playerOf x = if x = sid then none else h.playerOf x := by
  unfold playerOf free
  simp only
  rw [find_erase]
  split_ifs <;> rfl

theorem playerOf_clearOnline {clear : Bool} :
    (h.clearOnline guid clear).playerOf x = h.playerOf x := by
  unfold clearOnline
  split_ifs <;> rfl

theorem playerOf_completeLogin : (h.completeLogin sid pid).playerOf x =
    if x = sid then (h.sessions.find x).bind fun _ => some pid else h.playerOf x :=
  playerOf_modifySession_const fun _ => rfl

theorem players_savePlayer {save : Bool} : (h.savePlayer pid save).players = h.players := by
  unfold savePlayer
  split
  · rfl
  · split_ifs <;> rfl

theorem sessions_deleteFromWorld : (h.deleteFromWorld pid).sessions = h.sessions := by
  unfold deleteFromWorld
  split <;> rfl

/-- One `Player` is gone. -/
theorem players_deleteFromWorld :
    (h.deleteFromWorld pid).players.find x = if x = pid then none else h.players.find x := by
  unfold deleteFromWorld
  split
  case h_1 hnone =>
    split_ifs with hx
    · rw [hx]
      exact hnone
    · rfl
  case h_2 => exact find_erase ..

/-- After a logout the session has no player, and every other session still has its own. -/
theorem playerOf_logoutPlayer {save : Bool} :
    (h.logoutPlayer sid save).playerOf x = if x = sid then none else h.playerOf x := by
  unfold logoutPlayer
  split
  case h_1 hnone =>
    split_ifs with hx
    · rw [hx]
      exact hnone
    · rfl
  case h_2 pid hpid =>
    rw [playerOf_modifySession_const (f := WorldSession.withoutPlayer) fun _ => rfl]
    split_ifs
    · exact bind_fun_none _
    · unfold playerOf
      rw [sessions_deleteFromWorld, Sound.sessions_savePlayer]

/-- After a logout the session's player is gone, and every other one is there. -/
theorem players_logoutPlayer {save : Bool} : (h.logoutPlayer sid save).players.find x =
    if h.playerOf sid = some x then none else h.players.find x := by
  unfold logoutPlayer
  split
  case h_1 hnone => rw [hnone, if_neg (by simp)]
  case h_2 pid hpid =>
    show ((h.savePlayer pid save).deleteFromWorld pid).players.find x = _
    rw [players_deleteFromWorld, players_savePlayer, hpid]
    simp only [some.injEq, eq_comm (a := x)]

namespace Whole

theorem empty : Whole {} where
  toSound := .empty
  owned := fun _ _ hp => by cases hp

section

variable (hh : h.Whole)
include hh

theorem modifySession {f : WorldSession → WorldSession}
    (ht : ∀ s, (f s).transport = s.transport) (hp : ∀ s, (f s).player = s.player)
    (hl : ∀ s, s.playerLoading = false → sid ∈ h.headlessLogins → (f s).playerLoading = false) :
    (h.modifySession sid f).Whole where
  toSound := hh.toSound.modifySession ht (fun s pid h => (hp s).symm.trans h) hl
  owned := by
    intro pid p hfind
    rw [playerOf_modifySession hp]
    exact hh.owned pid p hfind

theorem newSession (transport : SessionTransport) (accountId : Nat) :
    (h.newSession transport accountId).Whole where
  toSound := hh.toSound.newSession transport accountId
  owned := by
    intro pid p hp
    have hplayer := hh.owned pid p hp
    obtain ⟨s, hs, -⟩ := bind_eq_some_iff.mp hplayer
    have hne : p.session ≠ h.fresh := ne_of_lt (hh.session_lt _ s hs)
    unfold SessionHeap.newSession playerOf
    simp only
    rw [find_insert, if_neg hne]
    exact hplayer

theorem logoutPlayer (save : Bool) : (h.logoutPlayer sid save).Whole where
  toSound := hh.toSound.logoutPlayer save
  owned := by
    intro pid p hp
    rw [players_logoutPlayer] at hp
    split_ifs at hp with hsid
    have hplayer := hh.owned pid p hp
    have hne : p.session ≠ sid := by
      rintro rfl
      exact hsid hplayer
    rw [playerOf_logoutPlayer, if_neg hne]
    exact hplayer

theorem clearOnline (clear : Bool) : (h.clearOnline guid clear).Whole where
  toSound := hh.toSound.clearOnline clear
  owned := by
    intro pid p hp
    rw [playerOf_clearOnline]
    have hplayers : (h.clearOnline guid clear).players = h.players := by
      unfold SessionHeap.clearOnline
      split_ifs <;> rfl
    rw [hplayers] at hp
    exact hh.owned pid p hp

/-- A session without a player is deleted. -/
theorem free (hsid : sid < h.fresh) (hidle : h.playerOf sid = none) :
    (h.free sid).Whole where
  toSound := hh.toSound.free hsid
  owned := by
    intro pid p hp
    have hplayer := hh.owned pid p hp
    have hne : p.session ≠ sid := by
      rintro rfl
      rw [hidle] at hplayer
      cases hplayer
    rw [playerOf_free, if_neg hne]
    exact hplayer

theorem deleteSession (hsid : sid < h.fresh) : (h.deleteSession sid).Whole :=
  (hh.logoutPlayer true).free (lt_of_lt_of_le hsid sameSessions_logoutPlayer.fresh)
    (by rw [playerOf_logoutPlayer, if_pos rfl])

theorem setInWorld (inWorld : Bool) : (h.setInWorld pid inWorld).Whole where
  toSound := hh.toSound.setInWorld inWorld
  owned := by
    intro x p hp
    unfold SessionHeap.setInWorld at hp
    simp only at hp
    rw [find_modify] at hp
    split_ifs at hp
    · obtain ⟨q, hq, rfl⟩ := map_eq_some_iff.mp hp
      exact hh.owned x q hq
    · exact hh.owned x p hp

end

/-- A login that gives `sid` its player leaves every `Player` with its session, if `pid` is the only
one that was without. -/
theorem owned_completeLogin {s : WorldSession} (hs : h.sessions.find sid = some s)
    (hplayers : ∀ x q, h.players.find x = some q →
      x = pid ∧ q.session = sid ∨ q.session ≠ sid ∧ h.playerOf q.session = some x) (x : Nat)
    (q : PlayerObject) (hq : (h.completeLogin sid pid).players.find x = some q) :
    (h.completeLogin sid pid).playerOf q.session = some x := by
  rw [playerOf_completeLogin]
  -- the player that was without a session, or one that has its own
  rcases hplayers x q hq with ⟨rfl, hqs⟩ | ⟨hne, hx⟩
  · rw [if_pos hqs, hqs, hs]
    rfl
  · rw [if_neg hne]
    exact hx

theorem loginNew (hh : h.Whole) {s : WorldSession} (hs : h.sessions.find sid = some s)
    (hload : s.playerLoading = true) (hidle : s.player = none)
    (hnone : h.playerMap.find guid = none) (loads inWorld : Bool) :
    (h.loginNew sid guid loads inWorld).Whole where
  toSound := hh.toSound.loginNew hs hload hnone loads inWorld
  owned := by
    have hother : ∀ x q, h.players.find x = some q → q.session ≠ sid := by
      rintro x q hq rfl
      have hplayer := hh.owned x q hq
      unfold playerOf at hplayer
      rw [hs] at hplayer
      rw [show s.player = some x from hplayer] at hidle
      cases hidle
    unfold SessionHeap.loginNew
    split_ifs
    · refine owned_completeLogin (h := (h.newPlayer sid guid).addPlayer h.fresh guid inWorld) hs ?_
      intro x q hq
      unfold SessionHeap.addPlayer SessionHeap.newPlayer at hq
      simp only at hq
      rw [find_modify, find_insert] at hq
      split_ifs at hq with hx
      · cases hq
        exact .inl ⟨hx, rfl⟩
      · exact .inr ⟨hother x q hq, hh.owned x q hq⟩
    · intro x q hq
      have hq' : ((h.newPlayer sid guid).deletePlayer h.fresh).players.find x = some q := hq
      unfold SessionHeap.deletePlayer SessionHeap.newPlayer at hq'
      simp only at hq'
      rw [find_erase, find_insert] at hq'
      split_ifs at hq' with hx
      rw [playerOf_modifySession (f := WorldSession.notLoading) fun _ => rfl]
      exact hh.owned x q hq'

/-- While a `Player` moves to `sid`, every other one is with its session. -/
theorem owned_movePlayer (hh : h.Whole) {p : PlayerObject} (hp : h.players.find pid = some p)
    (hidle : h.playerOf sid = none) (x : Nat) (q : PlayerObject)
    (hq : (h.movePlayer pid p.session sid).players.find x = some q) :
    x = pid ∧ q.session = sid ∨ q.session ≠ sid ∧ q.session ≠ p.session ∧
      (h.movePlayer pid p.session sid).playerOf q.session = some x := by
  unfold SessionHeap.movePlayer at hq
  simp only at hq
  rw [find_modify] at hq
  split_ifs at hq with hx
  · obtain ⟨q', -, rfl⟩ := map_eq_some_iff.mp hq
    exact .inl ⟨hx, rfl⟩
  · have hplayer := hh.owned x q hq
    have hne : q.session ≠ p.session := by
      intro heq
      rw [heq, hh.owned pid p hp] at hplayer
      exact hx (some.inj hplayer).symm
    refine .inr ⟨?_, hne, ?_⟩
    · intro heq
      rw [heq, hidle] at hplayer
      cases hplayer
    · show (h.modifySession p.session WorldSession.withoutPlayer).playerOf q.session = some x
      rw [playerOf_modifySession_const (f := WorldSession.withoutPlayer) fun _ => rfl, if_neg hne]
      exact hplayer

variable {s : WorldSession} {p : PlayerObject}

theorem find_movePlayer (hne : p.session ≠ sid) (hs : h.sessions.find sid = some s)
    (hp : h.players.find pid = some p) :
    (h.movePlayer pid p.session sid).sessions.find sid = some s ∧
      (h.movePlayer pid p.session sid).players.find pid = some { p with session := sid } := by
  constructor
  · show (h.modifySession p.session WorldSession.withoutPlayer).sessions.find sid = some s
    rw [find_modifySession, if_neg hne.symm]
    exact hs
  · show (h.players.modify pid _).find pid = _
    rw [find_modify, if_pos rfl, hp]
    rfl

section

variable (hh : h.Whole) (hs : h.sessions.find sid = some s) (hload : s.playerLoading = true)
  (hidle : s.player = none) (hp : h.players.find pid = some p)
include hh hs hload hidle hp

/-- A session takes a player from another network session. -/
theorem takePlayer :
    ((h.movePlayer pid p.session sid).completeLogin sid pid).Whole := by
  have hidle' : h.playerOf sid = none := by
    unfold playerOf
    rw [hs]
    exact hidle
  have hne : p.session ≠ sid := by
    intro heq
    rw [← heq, hh.owned pid p hp] at hidle'
    cases hidle'
  obtain ⟨hs', hp'⟩ := find_movePlayer hne hs hp
  refine ⟨(hh.toSound.movePlayer sid hp rfl).completeLogin hs' hload hp' rfl,
    owned_completeLogin hs' fun x q hq => ?_⟩
  exact (hh.owned_movePlayer hp hidle' x q hq).imp_right fun h => ⟨h.1, h.2.2⟩

/-- A session takes a player from a session that is deleted. -/
theorem reclaimPlayer :
    (((h.movePlayer pid p.session sid).deleteSession p.session).completeLogin sid pid).Whole := by
  have hidle' : h.playerOf sid = none := by
    unfold playerOf
    rw [hs]
    exact hidle
  have hplayer := hh.owned pid p hp
  have hne : p.session ≠ sid := by
    intro heq
    rw [← heq, hplayer] at hidle'
    cases hidle'
  obtain ⟨hs', hp'⟩ := find_movePlayer hne hs hp
  obtain ⟨t, ht, -⟩ := bind_eq_some_iff.mp hplayer
  have hmove := hh.toSound.movePlayer sid hp rfl
  have hgone : (h.movePlayer pid p.session sid).playerOf p.session = none := by
    show (h.modifySession p.session WorldSession.withoutPlayer).playerOf p.session = none
    rw [playerOf_modifySession_const (f := WorldSession.withoutPlayer) fun _ => rfl, if_pos rfl]
    exact bind_fun_none _
  rw [deleteSession_of_idle hgone]
  have hfree := hmove.free (hh.session_lt _ t ht)
  have hs'' : ((h.movePlayer pid p.session sid).free p.session).sessions.find sid = some s := by
    unfold SessionHeap.free
    simp only
    rw [find_erase, if_neg hne.symm]
    exact hs'
  refine ⟨hfree.completeLogin hs'' hload hp' rfl, owned_completeLogin hs'' fun x q hq => ?_⟩
  rcases hh.owned_movePlayer hp hidle' x q hq with hx | ⟨hsid, hprev, hx⟩
  · exact .inl hx
  · refine .inr ⟨hsid, ?_⟩
    rw [playerOf_free, if_neg hprev]
    exact hx

end

end Whole

end SessionHeap

end Windrunner
