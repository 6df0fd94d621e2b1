import Mathlib.Algebra.Group.Nat.Defs
import Windrunner.Headless.Objects

/-!
# The manager of the headless sessions

A module starts a session without a client for a character (`start`): the session waits in
`pendingSessions` while the character's data are read, is moved to `sessions` by `promotePending` or
by the answer of the query, and logs its player in when the answer comes (`handleLoginCallback`). A
real client always wins: its login (`handlePlayerLoginOpcode`) stops a session that still loads, and
takes the player of one that is active (`reclaimForNetwork`).

`LoginWorld.step` is one of these calls, an answer of any query that is still out, or what else the
world does to the sessions and players.
-/

namespace Windrunner

open Lib

inductive HeadlessSessionState
  | notFound | pending | loading | active
  deriving DecidableEq

inductive HeadlessSessionStartResult
  | started | invalidAccount | invalidCharacter | characterLocked | characterNotOwned | duplicate
  | conflictingPlayer | queryDispatchFailed | accountBanned
  deriving DecidableEq

structure SessionEntry where
  session : Nat
  accountId : Nat
  characterGuid : PlayerGuid
  requestToken : UInt64
  deriving DecidableEq

/-- What a login asks the account manager, the object manager and the world. -/
structure LoginFacts where
  hasName : Nat → Bool
  isAccountBanned : Nat → Bool
  isCharacterLocked : PlayerGuid → Bool
  /-- The account in the character's cached data, if it has any. -/
  account : PlayerGuid → Option Nat

/-- How the login query fares: whether the holder can be filled, and whether it can be sent. -/
structure Dispatch where
  filled : Bool
  sent : Bool
  deriving DecidableEq

structure LoginWorld where
  heap : SessionHeap := {}
  sessions : SortedMap PlayerGuid SessionEntry := ∅
  pendingSessions : SortedMap PlayerGuid SessionEntry := ∅
  nextRequestToken : UInt64 := 0
  /-- `World::m_sessions`: the network sessions by account. -/
  networkSessions : SortedMap Nat Nat := ∅
  disconnectedSessions : List Nat := []
  /-- The counter in `NextLoginRequestToken`. -/
  nextLoginRequestToken : UInt64 := 0
  /-- The queries that have not been answered. -/
  holders : List LoginQueryHolder := []
  /-- The sessions that `start` has created. -/
  started : List Nat := []
  deriving DecidableEq

/-- A token is never 0. -/
def nextToken (token : UInt64) : UInt64 := if token + 1 = 0 then 1 else token + 1

def isPlayerGuid (guid : PlayerGuid) : Bool := guid ≠ 0 && guid < 2 ^ 32

namespace LoginWorld

variable {w : LoginWorld}

def onHeap (w : LoginWorld) (f : SessionHeap → SessionHeap) : LoginWorld :=
  { w with heap := f w.heap }

/-! ## Starting and stopping -/

/-- A network session is loading the character. -/
def networkLoading (w : LoginWorld) (guid : PlayerGuid) : Bool :=
  w.networkSessions.entries.any fun x => (w.heap.sessions.find x.2).any fun s =>
    s.transport = .network && s.playerLoading && s.loginRequestGuid = guid

def validateStart (w : LoginWorld) (facts : LoginFacts) (accountId : Nat) (guid : PlayerGuid) :
    HeadlessSessionStartResult :=
  if !isPlayerGuid guid then .invalidCharacter
  else if accountId = 0 then .invalidAccount
  else if !facts.hasName accountId then .invalidAccount
  else if facts.isAccountBanned accountId then .accountBanned
  else if facts.isCharacterLocked guid then .characterLocked
  else match facts.account guid with
    | none => .invalidCharacter
    | some owner =>
      if owner ≠ accountId then .characterNotOwned
      else if w.sessions.contains guid || w.pendingSessions.contains guid then .duplicate
      else if w.networkLoading guid then .conflictingPlayer
      else if (w.heap.findPlayerNotInWorld guid).isSome then .conflictingPlayer
      else .started

/-- The token a login is sent with: 0 stands for one of the session's own. -/
def requestToken (w : LoginWorld) (token : UInt64) : UInt64 :=
  if token = 0 then nextToken w.nextLoginRequestToken else token

def takeToken (w : LoginWorld) (token : UInt64) : LoginWorld :=
  if token = 0 then { w with nextLoginRequestToken := nextToken w.nextLoginRequestToken } else w

def loginPlayer (w : LoginWorld) (sid : Nat) (guid : PlayerGuid) (token : UInt64)
    (dispatch : Dispatch) : LoginWorld × Bool :=
  match w.heap.sessions.find sid with
  | none => (w, false)
  | some s =>
    if s.playerLoading || s.player.isSome then (w, false)
    else if !dispatch.filled then (w.takeToken token, false)
    else if !dispatch.sent then
      ((w.takeToken token).onHeap fun h =>
        (h.modifySession sid (.loading guid (w.requestToken token))).modifySession sid
          WorldSession.dispatchFailed, false)
    else
      ({ (w.takeToken token).onHeap fun h =>
          h.modifySession sid (.loading guid (w.requestToken token)) with
        holders := w.holders ++ [⟨s.accountId, guid, s.transport, w.requestToken token⟩] }, true)

def destroySession (w : LoginWorld) (entry : SessionEntry) (save clearCharacterOnline : Bool) :
    LoginWorld :=
  w.onHeap fun h => ((h.logoutPlayer entry.session save).clearOnline entry.characterGuid
    clearCharacterOnline).deleteSession entry.session

/-- The session of `start`, filed under its character. -/
def created (w : LoginWorld) (accountId : Nat) (guid : PlayerGuid) : LoginWorld :=
  { w with
    heap := w.heap.newSession .headless accountId
    nextRequestToken := nextToken w.nextRequestToken
    pendingSessions := w.pendingSessions.insert guid
      ⟨w.heap.fresh, accountId, guid, nextToken w.nextRequestToken⟩
    started := w.heap.fresh :: w.started }

def erasePending (w : LoginWorld) (guid : PlayerGuid) : LoginWorld :=
  { w with pendingSessions := w.pendingSessions.erase guid }

def eraseActive (w : LoginWorld) (guid : PlayerGuid) : LoginWorld :=
  { w with sessions := w.sessions.erase guid }

def destroyPending (w : LoginWorld) (guid : PlayerGuid) : LoginWorld :=
  match w.pendingSessions.find guid with
  | none => w
  | some entry => (w.erasePending guid).destroySession entry false false

def destroyActive (w : LoginWorld) (guid : PlayerGuid) (save : Bool) : LoginWorld :=
  match w.sessions.find guid with
  | none => w
  | some entry => (w.eraseActive guid).destroySession entry save true

/-- The key is new, as `validateStart` has seen, so that `emplace` inserts. -/
def start (w : LoginWorld) (facts : LoginFacts) (accountId : Nat) (guid : PlayerGuid)
    (dispatch : Dispatch) : LoginWorld × HeadlessSessionStartResult :=
  match w.validateStart facts accountId guid with
  | .started =>
    match (w.created accountId guid).loginPlayer w.heap.fresh guid (nextToken w.nextRequestToken)
        dispatch with
    | (w', true) => (w', .started)
    | (w', false) => (w'.destroyPending guid, .queryDispatchFailed)
  | refused => (w, refused)

def stop (w : LoginWorld) (guid : PlayerGuid) (save : Bool) : LoginWorld × Bool :=
  if w.sessions.contains guid then (w.destroyActive guid save, true)
  else if w.pendingSessions.contains guid then (w.destroyPending guid, true)
  else (w, false)

/-- The characters of an account's entries. -/
def charactersOf (m : SortedMap PlayerGuid SessionEntry) (accountId : Nat) : List PlayerGuid :=
  (m.filter fun _ entry => entry.accountId = accountId).keys

def stopPendingForAccount (w : LoginWorld) (accountId : Nat) : LoginWorld :=
  (charactersOf w.pendingSessions accountId).foldl destroyPending w

def stopActiveForAccount (w : LoginWorld) (accountId : Nat) (save : Bool) : LoginWorld :=
  (charactersOf w.sessions accountId).foldl (destroyActive · · save) w

def stopForAccount (w : LoginWorld) (accountId : Nat) (save : Bool) : LoginWorld :=
  (w.stopPendingForAccount accountId).stopActiveForAccount accountId save

def getState (w : LoginWorld) (guid : PlayerGuid) : HeadlessSessionState :=
  if w.pendingSessions.contains guid then .pending
  else match w.sessions.find guid with
    | none => .notFound
    | some entry => match w.heap.sessions.find entry.session with
      | none => .loading
      | some s => if s.player.isSome && !s.playerLoading then .active else .loading

/-! ## Answers -/

def matchesEntry (w : LoginWorld) (holder : LoginQueryHolder) (entry : SessionEntry) : Bool :=
  entry.accountId = holder.accountId && entry.characterGuid = holder.guid &&
    entry.requestToken = holder.requestToken &&
    w.heap.transportOf entry.session = some holder.transport

def findEntry (w : LoginWorld) (holder : LoginQueryHolder) : Option SessionEntry :=
  ((w.sessions.find holder.guid).filter (w.matchesEntry holder)).or
    ((w.pendingSessions.find holder.guid).filter (w.matchesEntry holder))

/-- The player of a headless session is given to `replacement`, and the session deleted. -/
def reclaimForNetwork (w : LoginWorld) (guid : PlayerGuid) (sid replacement accountId : Nat) :
    Option LoginWorld :=
  match w.sessions.find guid, w.heap.playerOf sid with
  | some entry, some pid =>
    if replacement = sid || entry.session ≠ sid || entry.accountId ≠ accountId ||
        w.heap.transportOf sid ≠ some .headless then none
    else some <| ((w.onHeap fun h => h.movePlayer pid sid replacement).eraseActive guid).onHeap
      fun h => h.deleteSession sid
  | _, _ => none

/-- The end of a login that is refused; a kick closes the socket, and the session goes later. -/
def refuseLogin (w : LoginWorld) (sid : Nat) : LoginWorld :=
  w.onHeap fun h => h.modifySession sid WorldSession.notLoading

/-- The character is in the world already, as the `Player` `pid`. -/
def takeOver (w : LoginWorld) (sid : Nat) (s : WorldSession) (guid : PlayerGuid) (pid : Nat) :
    LoginWorld :=
  if s.isHeadless then w.refuseLogin sid
  else match w.heap.players.find pid with
    | none => w.refuseLogin sid
    | some p => match w.heap.sessions.find p.session with
      | none => w.refuseLogin sid
      | some previous =>
        if previous.accountId ≠ s.accountId then w.refuseLogin sid
        else if previous.isHeadless then
          match w.reclaimForNetwork guid p.session sid s.accountId with
          | none => w.refuseLogin sid
          | some w' => w'.onHeap fun h => h.completeLogin sid pid
        else w.onHeap fun h => (h.movePlayer pid p.session sid).completeLogin sid pid

/-- `WorldSession::HandlePlayerLogin`; `loads` is the result of `LoadFromDB`, and `inWorld` whether
the player is in the world at the end. -/
def handlePlayerLogin (w : LoginWorld) (sid : Nat) (holder : LoginQueryHolder)
    (loads inWorld : Bool) : LoginWorld :=
  match w.heap.sessions.find sid with
  | none => w
  | some s =>
    if !s.isLoginRequest holder || holder.accountId ≠ s.accountId then w
    else if s.player.isSome || !s.playerLoading then w.refuseLogin sid
    else match w.heap.findPlayer holder.guid with
      | some pid => w.takeOver sid s holder.guid pid
      | none =>
        if (w.heap.findPlayerNotInWorld holder.guid).isSome then w.refuseLogin sid
        else w.onHeap fun h => h.loginNew sid holder.guid loads inWorld

/-- The entry of `handleLoginCallback` becomes an active one, if it is not yet. -/
def promoteAnswered (w : LoginWorld) (guid : PlayerGuid) (entry : SessionEntry) : LoginWorld :=
  if w.pendingSessions.contains guid then
    { w.erasePending guid with sessions := w.sessions.insert guid entry }
  else w

/-- `HeadlessSessionMgr::HandleLoginCallback` -/
def handleLoginCallback (w : LoginWorld) (facts : LoginFacts) (holder : LoginQueryHolder)
    (loads inWorld : Bool) : LoginWorld :=
  if holder.transport ≠ .headless then w
  else match w.findEntry holder with
    | none => w
    | some entry =>
      if facts.isAccountBanned holder.accountId then w.stopForAccount holder.accountId true
      else if facts.isCharacterLocked holder.guid ||
          facts.account holder.guid ≠ some holder.accountId then
        (w.stop holder.guid false).1
      else match w.heap.findPlayerNotInWorld holder.guid with
        | some livePlayer =>
          if w.heap.playerOf entry.session ≠ some livePlayer then (w.stop holder.guid false).1
          else w
        | none =>
          if w.pendingSessions.contains holder.guid && w.sessions.contains holder.guid then
            (w.erasePending holder.guid).destroySession entry false false
          else (w.promoteAnswered holder.guid entry).handlePlayerLogin entry.session holder loads
            inWorld

/-- `CharacterHandler::HandlePlayerLoginCallback` -/
def handlePlayerLoginCallback (w : LoginWorld) (facts : LoginFacts) (holder : LoginQueryHolder)
    (loads inWorld : Bool) : LoginWorld :=
  if holder.transport = .headless then w.handleLoginCallback facts holder loads inWorld
  else match w.networkSessions.find holder.accountId with
    | none => w
    | some sid =>
      if (w.heap.sessions.find sid).any (·.isLoginRequest holder) then
        w.handlePlayerLogin sid holder loads inWorld
      else w

/-- What a module does in `OnBotLoginYield`: it may stop the character's session. -/
def onBotLoginYield (w : LoginWorld) (guid : PlayerGuid) (yield : Option Bool) : LoginWorld :=
  yield.elim w fun save => (w.stop guid save).1

/-- A headless session that was loading when the request came is stopped; the request fails when it
is there no longer. -/
def makeRoom (w : LoginWorld) (guid : PlayerGuid) (yield : Option Bool) : LoginWorld × Bool :=
  if w.getState guid = .pending || w.getState guid = .loading then
    (w.onBotLoginYield guid yield).stop guid false
  else (w.onBotLoginYield guid yield, true)

/-- The client of `accountId` asks to log `guid` in. -/
def handlePlayerLoginOpcode (w : LoginWorld) (facts : LoginFacts) (accountId : Nat)
    (guid : PlayerGuid) (yield : Option Bool) (dispatch : Dispatch) : LoginWorld :=
  match w.networkSessions.find accountId with
  | none => w
  | some sid => match w.heap.sessions.find sid with
    | none => w
    | some s =>
      if s.playerLoading || s.player.isSome || !isPlayerGuid guid ||
          facts.isCharacterLocked guid then w
      else if facts.account guid ≠ some s.accountId then w
      else match w.makeRoom guid yield with
        | (w', false) => w'
        | (w', true) => (w'.loginPlayer sid guid 0 dispatch).1

/-! ## The manager in the world's update -/

def promote (w : LoginWorld) (guid : PlayerGuid) : LoginWorld :=
  match w.pendingSessions.find guid with
  | none => w
  | some entry =>
    if w.sessions.contains guid || (w.heap.findPlayerNotInWorld guid).isSome then
      (w.erasePending guid).destroySession entry false false
    else { w.erasePending guid with sessions := w.sessions.insert guid entry }

def promotePending (w : LoginWorld) : LoginWorld := w.pendingSessions.keys.foldl promote w

def updateSession (w : LoginWorld) (guid : PlayerGuid) : LoginWorld :=
  match w.sessions.find guid with
  | none => w
  | some entry => match w.heap.sessions.find entry.session with
    | none => w
    | some s =>
      if s.player.isNone && !s.playerLoading || !s.update then
        (w.eraseActive guid).destroySession entry true true
      else w

def update (w : LoginWorld) : LoginWorld := w.sessions.keys.foldl updateSession w

def shutdownPending (w : LoginWorld) : LoginWorld :=
  w.pendingSessions.keys.foldl destroyPending w

def shutdown (w : LoginWorld) : LoginWorld :=
  w.shutdownPending.sessions.keys.foldl (destroyActive · · true) w.shutdownPending

/-! ## Network sessions -/

/-- A network session leaves `networkSessions`: `ForcePlayerLogoutDelay` keeps it for a while when
its player is in the world, and otherwise it is deleted. -/
def closeSession (w : LoginWorld) (accountId : Nat) (stopped : Bool) : LoginWorld :=
  match w.networkSessions.find accountId with
  | none => w
  | some sid =>
    if !stopped && (w.heap.playerOf sid).any w.heap.isInWorld then
      { w with
        networkSessions := w.networkSessions.erase accountId
        disconnectedSessions := sid :: w.disconnectedSessions }
    else
      { w with
        networkSessions := w.networkSessions.erase accountId
        heap := w.heap.deleteSession sid }

def insertSession (w : LoginWorld) (accountId : Nat) : LoginWorld :=
  { w with
    heap := w.heap.newSession .network accountId
    networkSessions := w.networkSessions.insert accountId w.heap.fresh }

/-- `World::AddSession_`: no session of the account may be loading. -/
def addSession (w : LoginWorld) (accountId : Nat) (stopped : Bool) : LoginWorld :=
  if ((w.networkSessions.find accountId).bind w.heap.sessions.find).any (·.playerLoading) then w
  else (w.closeSession accountId stopped).insertSession accountId

/-- `UpdateDisconnected`, and the deletion when it returns false. -/
def updateDisconnected (w : LoginWorld) (sid : Nat) (timeUp : Bool) : LoginWorld :=
  if sid ∈ w.disconnectedSessions ∧ (timeUp || !(w.heap.playerOf sid).any w.heap.isInWorld) then
    { w with
      heap := w.heap.deleteSession sid
      disconnectedSessions := w.disconnectedSessions.erase sid }
  else w

/-! ## Runs -/

inductive LoginOp
  | start (facts : LoginFacts) (accountId : Nat) (guid : PlayerGuid) (dispatch : Dispatch)
  | stop (guid : PlayerGuid) (save : Bool)
  | stopForAccount (accountId : Nat) (save : Bool)
  | promotePending
  | update
  | shutdown
  | playerLogin (facts : LoginFacts) (accountId : Nat) (guid : PlayerGuid) (yield : Option Bool)
      (dispatch : Dispatch)
  /-- The `i`th query that is still out is answered. -/
  | answer (i : Nat) (facts : LoginFacts) (loads inWorld : Bool)
  | addSession (accountId : Nat) (stopped : Bool)
  | closeSession (accountId : Nat) (stopped : Bool)
  | updateDisconnected (sid : Nat) (timeUp : Bool)
  /-- A session logs its player out, for whatever reason. -/
  | logout (sid : Nat) (save : Bool)
  | setInWorld (pid : Nat) (inWorld : Bool)

/-- One answer comes; its holder is gone with it. -/
def answer (w : LoginWorld) (i : Nat) (facts : LoginFacts) (loads inWorld : Bool) : LoginWorld :=
  match w.holders[i]? with
  | none => w
  | some holder => { w with holders := w.holders.eraseIdx i }.handlePlayerLoginCallback facts holder
      loads inWorld

def step (w : LoginWorld) : LoginOp → LoginWorld
  | .start facts accountId guid dispatch => (w.start facts accountId guid dispatch).1
  | .stop guid save => (w.stop guid save).1
  | .stopForAccount accountId save => w.stopForAccount accountId save
  | .promotePending => w.promotePending
  | .update => w.update
  | .shutdown => w.shutdown
  | .playerLogin facts accountId guid yield dispatch =>
    w.handlePlayerLoginOpcode facts accountId guid yield dispatch
  | .answer i facts loads inWorld => w.answer i facts loads inWorld
  | .addSession accountId stopped => w.addSession accountId stopped
  | .closeSession accountId stopped => w.closeSession accountId stopped
  | .updateDisconnected sid timeUp => w.updateDisconnected sid timeUp
  | .logout sid save => w.onHeap fun h => h.logoutPlayer sid save
  | .setInWorld pid inWorld => w.onHeap fun h => h.setInWorld pid inWorld

end LoginWorld

end Windrunner
