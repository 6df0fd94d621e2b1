import Windrunner.Battleground.Update

/-!
# Players in the battleground queues

A player who is online knows in three slots the queues he is in. The slots and `m_QueuedPlayers` of
the queues are two records of the same fact, and each is written without the other.

* `battlemasterEntry`, `arenaEntry`: the two ways into a queue.
* `handleBattleFieldPort`: out of it, or to the battleground.
* `playerLoggedOut`, `playerLoggedIn`, `giveLevel`: what happens to the slots besides.
* `processRequest`: what has been put off, until `BattleGroundMgr::Update` drains the mailbox. It
  updates the queues then, which here is a step for each of them.
-/

namespace Windrunner

structure BgSlot where
  queueType : Option BgType := none
  invitedToInstance : Nat := 0
  deriving DecidableEq, Repr

abbrev playerMaxBattlegroundQueues : Nat := 3

/-- A player who is online. -/
structure BgPlayer where
  level : Nat := 1
  /-- `m_bgBattleGroundQueueID` -/
  slots : List BgSlot := List.replicate playerMaxBattlegroundQueues {}
  deriving DecidableEq, Repr

inductive BgRequest where
  | inviteRemoval (guid instanceId : Nat) (queueType : BgType) (removeTime : UInt32)
  | playerLogout (guid : Nat) (queueType : BgType)
  | bracketCleanup (guid : Nat) (queueType : BgType) (bracket : Option Nat)
  | arenaJoin (guid : Nat) (queuedAsGroup : Bool)
  deriving DecidableEq, Repr

inductive BgJoinError where
  | groupNotEnough
  | groupTooMany
  | offlineMember
  | mixedFaction
  | memberAlreadyInQueue
  | groupDeserter
  | allQueuesUsed
  deriving DecidableEq, Repr

/-- `CMSG_BATTLEMASTER_JOIN`, and what it is checked against. -/
structure BgJoinPacket where
  bgType : BgType
  instanceId : Nat := 0
  joinAsGroup : Bool := false
  /-- There is a battlemaster, a portal or a tabard. -/
  allowed : Bool := true
  /-- `GetMaxPlayersPerTeam` of the battleground of `instanceId`, when there is one. -/
  instanceMax : Option Nat := none
  deriving DecidableEq, Repr

/-- `CMSG_BATTLEFIELD_PORT`, and what it is checked against. -/
structure BgPortPacket where
  bgType : BgType
  action : Nat
  /-- The battleground that the player is invited to exists. -/
  bgFound : Bool := true
  inCombat : Bool := false
  /-- The player's level is above that of the battleground. -/
  levelTooHigh : Bool := false
  /-- The battleground that he is in, and has taken part in. -/
  currentBg : Option BgType := none
  deriving DecidableEq, Repr

/-- What stays the same: the configuration, the templates and the players' teams. -/
structure BgSetup where
  cfg : BgConfig := {}
  template : BgType → Option BgTemplate
  team : Nat → BgTeam

structure BgWorld where
  queues : BgType → BgQueue := fun _ => {}
  players : Nat → Option BgPlayer := fun _ => none
  /-- `m_QueueRequests` -/
  requests : List BgRequest := []

/-- `GetBattleGroundBracketIdFromLevel`; no bracket below the least level. -/
def BgSetup.bracketFromLevel (s : BgSetup) (type : BgType) (level : Nat) : Option Nat :=
  (s.template type).bind fun bg =>
    if level < bg.minLevel then none
    else if bg.minLevel ≠ 0 then
      some (min ((level - bg.minLevel) / 10) (maxBattlegroundBrackets - 1))
    else if level = 1 then some 0
    else some (min (level / 10 + 1) (maxBattlegroundBrackets - 1))

namespace BgPlayer

variable (pl : BgPlayer)

/-- `GetBattleGroundQueueIndex` finds a slot. -/
def inQueue (type : BgType) : Bool := pl.slots.any (·.queueType == some type)

def inBattleGroundQueue : Bool := pl.slots.any (·.queueType.isSome)

def hasFreeBattleGroundQueueId (queuesCount : Nat) : Bool :=
  (pl.slots.take queuesCount).any (·.queueType.isNone)

def addBattleGroundQueueId (type : BgType) : BgPlayer :=
  match pl.slots.findIdx? fun s => s.queueType.isNone || s.queueType == some type with
  | none => pl
  | some i => { pl with slots := pl.slots.set i { queueType := some type } }

def removeBattleGroundQueueId (type : BgType) : BgPlayer :=
  match pl.slots.findIdx? (·.queueType == some type) with
  | none => pl
  | some i => { pl with slots := pl.slots.set i {} }

def setInvite (type : BgType) (instanceId : Nat) : BgPlayer :=
  { pl with slots := pl.slots.map fun s =>
      if s.queueType = some type then { s with invitedToInstance := instanceId } else s }

/-- `IsInvitedForBattleGroundQueueType` -/
def isInvited (type : BgType) : Bool :=
  (pl.slots.find? (·.queueType == some type)).any (·.invitedToInstance != 0)

end BgPlayer

namespace BgWorld

variable (s : BgSetup) (w : BgWorld) (m : BgMoment)

def setQueue (type : BgType) (q : BgQueue) : BgWorld :=
  { w with queues := Function.update w.queues type q }

/-- A player who is online is changed. -/
def mapPlayer (guid : Nat) (f : BgPlayer → BgPlayer) : BgWorld :=
  { w with players := Function.update w.players guid ((w.players guid).map f) }

def inQueue (type : BgType) (guid : Nat) : Bool :=
  (w.players guid).any (·.inQueue type)

def request (r : BgRequest) : BgWorld := { w with requests := w.requests ++ [r] }

/-! ## Joining -/

/-- `CanJoinBattleGroundQueue` and `CanJoinArenaQueue`. With a bracket, members of another one are
excluded. -/
def canJoinQueue (w : BgWorld) (type : BgType)
    (minPlayerCount maxPlayerCount : Nat) (leader : Nat) (bracket : Option (Option Nat))
    (grp : BgGroup) : Except BgJoinError (List Nat) :=
  if grp.membersCount < minPlayerCount then .error .groupNotEnough
  else if grp.membersCount > maxPlayerCount then .error .groupTooMany
  else if (m.player leader).isNone then .error .offlineMember
  else
    grp.members.foldlM (fun excluded guid =>
      match m.player guid, w.players guid with
      | some p, some pl =>
        if s.team guid ≠ s.team leader then .error .mixedFaction
        else
          let excluded :=
            if bracket.any (s.bracketFromLevel type pl.level != ·) then excluded ++ [guid]
            else excluded
          if pl.inQueue type then .error .memberAlreadyInQueue
          else if !p.canJoinToBattleground then .error .groupDeserter
          else if !pl.hasFreeBattleGroundQueueId s.cfg.queuesCount then .error .allQueuesUsed
          else if !s.cfg.tagInBattlegrounds && p.inBattleGround then .error .offlineMember
          else .ok excluded
      | _, _ => .error .offlineMember) []

/-- Who is let in by a join, and how. -/
structure Entry where
  leader : Nat
  grp : Option BgGroup
  excluded : List Nat
  join : BgJoin

/-- Those whom an entry queues. -/
def Entry.guids (e : Entry) : List Nat :=
  match e.grp with
  | none => [e.leader]
  | some grp => grp.members.filter (· ∉ e.excluded)

/-- `AddGroup`, and the queue id of each player. -/
def enter (e : Entry) : BgWorld :=
  let q := w.queues e.join.bgTypeId
  let q := match e.grp with
    | none => q.addSolo s.team e.join e.leader
    | some grp => q.addGroup s.team s.cfg.groupLimit e.join e.leader grp e.excluded
  e.guids.foldl (fun w guid => w.mapPlayer guid (·.addBattleGroundQueueId e.join.bgTypeId))
    (w.setQueue e.join.bgTypeId q)

/-- `HandleBattlemasterJoinOpcode`, up to the queue. -/
def battlemasterEntry (w : BgWorld) (guid : Nat) (p : BgJoinPacket) :
    Option Entry := do
  let type := p.bgType
  let me ← m.player guid
  let pl ← w.players guid
  if (type = .av ∧ p.joinAsGroup) ∨ ¬ p.allowed ∨ me.inBattleGround then none
  else
    let bg ← s.template type
    let bracket ← s.bracketFromLevel type pl.level
    let join : BgJoin :=
      { bgTypeId := type, bracketId := bracket, instanceId := p.instanceId, now := m.now }
    if p.joinAsGroup then
      let grp ← m.group guid
      let excluded ← (w.canJoinQueue s m type 0 (p.instanceMax.getD bg.maxPlayersPerTeam) guid
        (some (some bracket)) grp).toOption
      some { leader := guid, grp, excluded
             join := { join with
              isPremade := decide (s.cfg.premadeGroupWaitForMatch ≠ 0) &&
                decide (s.cfg.premadeQueueGroupMinSize ≤ grp.membersCount) } }
    else if ¬ me.canJoinToBattleground ∨ pl.inQueue type ∨
        ¬ pl.hasFreeBattleGroundQueueId s.cfg.queuesCount then none
    else some { leader := guid, grp := none, excluded := [], join }

/-- `ProcessQueueArenaJoin`, up to the queue. The arena is open to the highest level. -/
def arenaEntry (w : BgWorld) (guid : Nat) (queuedAsGroup : Bool) :
    Option Entry := do
  let me ← m.player guid
  let pl ← w.players guid
  if ¬ me.alive ∨ pl.level < s.cfg.maxPlayerLevel ∨ ¬ me.canJoinToBattleground ∨
      me.inBattleGround ∨ pl.inQueue .br ∨ ¬ pl.hasFreeBattleGroundQueueId s.cfg.queuesCount then none
  else
    let bracket ← s.bracketFromLevel .br pl.level
    let join : BgJoin := { bgTypeId := .br, bracketId := bracket, now := m.now }
    match (if queuedAsGroup then m.group guid else none) with
    | none => some { leader := guid, grp := none, excluded := [], join }
    | some grp =>
      let _ ← (w.canJoinQueue s m .br 3 3 grp.leader none grp).toOption
      some { leader := guid, grp := some grp, excluded := [], join }

/-- `ScheduleArenaQueueJoin`: a player asks once. -/
def addToArenaQueue (guid : Nat) (queuedAsGroup : Bool) : BgWorld :=
  if w.requests.any fun r => r == .arenaJoin guid true || r == .arenaJoin guid false then w
  else w.request (.arenaJoin guid queuedAsGroup)

/-! ## Leaving -/

def removeFromQueue (type : BgType) (guid : Nat) : BgWorld :=
  w.setQueue type ((w.queues type).removePlayer guid)

/-- The action of a packet after the checks, if it goes on. -/
def portAction (me : BgPresence) (gi : GroupQueueInfo) (p : BgPortPacket) :
    Option Nat :=
  if p.action ≠ 1 then some p.action
  else if p.inCombat then none
  else if !me.canJoinToBattleground || p.levelTooHigh ||
      m.ended gi.isInvitedToBGInstanceGUID p.bgType then some 0
  else some 1

def handleBattleFieldPort (w : BgWorld) (guid : Nat) (p : BgPortPacket) : BgWorld :=
  match m.player guid, w.players guid, (w.queues p.bgType).groupOf guid with
  | some me, some pl, some i =>
    let gi := (w.queues p.bgType).info i
    if ¬ pl.inBattleGroundQueue ∨ (gi.isInvitedToBGInstanceGUID = 0 ∧ p.action = 1) ∨
        ¬ (p.bgFound ∨ (p.action = 0 ∧ (s.template p.bgType).isSome)) then w
    else match portAction m me gi p with
      | some 1 =>
        if pl.isInvited p.bgType then
          let w := w.removeFromQueue p.bgType guid
          match p.currentBg with
          | none => w
          | some type => w.mapPlayer guid (·.removeBattleGroundQueueId type)
        else w
      | some 0 =>
        (w.mapPlayer guid (·.removeBattleGroundQueueId p.bgType)).removeFromQueue p.bgType guid
      | _ => w
  | _, _, _ => w

/-! ## Logout, login, level -/

def queueIds (pl : BgPlayer) : List BgType := pl.slots.filterMap (·.queueType)

def playerLoggedOut (guid : Nat) : BgWorld :=
  match w.players guid with
  | none => w
  | some pl =>
    { w with
      players := Function.update w.players guid none
      requests := w.requests ++ (queueIds pl).map (.playerLogout guid) }

/-- The queues with the numbers that slots have; the others do not know that he is back. -/
def loginQueues : List BgType :=
  [BgType.av, .ws, .ab, .br, .sv].filter (·.queueId ≤ playerMaxBattlegroundQueues)

def playerLoggedIn (guid level : Nat) : BgWorld :=
  loginQueues.foldl (fun w type =>
    let q := w.queues type
    match q.groupOf guid with
    | none => w
    | some i =>
      (w.setQueue type (q.playerLoggedIn guid)).mapPlayer guid fun pl =>
        let pl := pl.addBattleGroundQueueId type
        if (q.info i).isInvitedToBGInstanceGUID = 0 then pl
        else pl.setInvite type (q.info i).isInvitedToBGInstanceGUID)
    { w with players := Function.update w.players guid (some { level }) }

/-- The queues of another bracket are left: the slot at once, the queue when the request is
processed. -/
def giveLevel (guid level : Nat) : BgWorld :=
  match w.players guid with
  | none => w
  | some pl =>
    let left := (queueIds pl).filter fun type =>
      s.bracketFromLevel type level != s.bracketFromLevel type pl.level
    { w with
      players := Function.update w.players guid
        (some { left.foldl BgPlayer.removeBattleGroundQueueId pl with level })
      requests := w.requests ++ left.map fun type =>
        .bracketCleanup guid type (s.bracketFromLevel type pl.level) }

/-! ## Requests -/

def processQueueInviteRemoval (guid instanceId : Nat) (type : BgType)
    (removeTime : UInt32) : BgWorld :=
  if w.inQueue type guid ∧ (w.queues type).isPlayerInvited guid instanceId removeTime then
    (w.mapPlayer guid (·.removeBattleGroundQueueId type)).removeFromQueue type guid
  else w

/-- A request for another bracket is stale: the player is in the queue again. -/
def processQueueBracketCleanup (guid : Nat) (type : BgType) (bracket : Option Nat) :
    BgWorld :=
  match (w.queues type).groupOf guid with
  | none => w
  | some i =>
    if some ((w.queues type).info i).bracketId = bracket then w.removeFromQueue type guid else w

/-- Whom a request lets into a queue. -/
def requestEntry (w : BgWorld) : Option Entry :=
  match w.requests with
  | .arenaJoin guid queuedAsGroup :: _ => w.arenaEntry s m guid queuedAsGroup
  | _ => none

/-- The first request of the mailbox. -/
def processRequest (w : BgWorld) : BgWorld :=
  let rest := { w with requests := w.requests.tail }
  match w.requests with
  | .inviteRemoval guid instanceId type removeTime :: _ =>
    rest.processQueueInviteRemoval guid instanceId type removeTime
  | .playerLogout guid type :: _ =>
    rest.setQueue type ((rest.queues type).playerLoggedOut guid m.now)
  | .bracketCleanup guid type bracket :: _ => rest.processQueueBracketCleanup guid type bracket
  | .arenaJoin .. :: _ =>
    match w.requestEntry s m with
    | none => rest
    | some e => rest.enter s e
  | [] => w

/-! ## Steps -/

/-- `BattleGroundQueue::Update`, and what it does to players. -/
def updateQueue (w : BgWorld) (type : BgType) (bracket : Nat) :
    BgWorld :=
  let o := (w.queues type).update s.cfg (s.template type) m type bracket
  let w := w.setQueue type o.queue
  let w := o.dropped.foldl (fun w guid => w.mapPlayer guid (·.removeBattleGroundQueueId type)) w
  o.invited.foldl (fun w x => w.mapPlayer x.1 (·.setInvite type x.2)) w

inductive Input where
  | join (m : BgMoment) (guid : Nat) (p : BgJoinPacket)
  | addToArenaQueue (guid : Nat) (queuedAsGroup : Bool)
  | port (m : BgMoment) (guid : Nat) (p : BgPortPacket)
  /-- An invitation has not been taken in time. -/
  | inviteTimeout (guid instanceId : Nat) (type : BgType) (removeTime : UInt32)
  | logout (guid : Nat)
  | login (guid level : Nat)
  | giveLevel (guid level : Nat)
  /-- A participant leaves a battleground. -/
  | leaveBattleground (guid : Nat) (type : BgType)
  | processRequest (m : BgMoment)
  | update (m : BgMoment) (type : BgType) (bracket : Nat)

/-- Whom an input lets into a queue. -/
def entry : Input → Option Entry
  | .join m guid p => w.battlemasterEntry s m guid p
  | .processRequest m => w.requestEntry s m
  | _ => none

def step : Input → BgWorld
  | .join m guid p =>
    match w.battlemasterEntry s m guid p with
    | none => w
    | some e => w.enter s e
  | .addToArenaQueue guid queuedAsGroup => w.addToArenaQueue guid queuedAsGroup
  | .port m guid p => w.handleBattleFieldPort s m guid p
  | .inviteTimeout guid instanceId type removeTime =>
    w.request (.inviteRemoval guid instanceId type removeTime)
  | .logout guid => w.playerLoggedOut guid
  | .login guid level => w.playerLoggedIn guid level
  | .giveLevel guid level => w.giveLevel s guid level
  | .leaveBattleground guid type => w.mapPlayer guid (·.removeBattleGroundQueueId type)
  | .processRequest m => w.processRequest s m
  | .update m type bracket => w.updateQueue s m type bracket

end BgWorld

end Windrunner
