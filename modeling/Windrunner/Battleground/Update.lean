import Windrunner.Battleground.Queue
import Windrunner.Shared.Util

/-!
# Match making

`update` is called for one bracket of a queue. Players who have been offline for too long leave, the
running battlegrounds are filled, and then a match is looked for: first among the premade groups
(`checkPremadeMatch`), then among the normal ones (`checkNormalMatch`). Each team has a selection pool.

The pools are cleared before the first check and after a match. A check that fails leaves in the
pools what it has selected.
-/

namespace Windrunner

structure BgConfig where
  groupLimit : Nat := 40
  invitationType : Nat := 0
  premadeQueueGroupMinSize : Nat := 6
  premadeGroupWaitForMatch : UInt32 := 0
  randomize : Bool := false
  tagInBattlegrounds : Bool := true
  queuesCount : Nat := 3
  avMinPlayersInQueue : Nat := 0
  avInitialMaxPlayers : Nat := 0
  maxPlayerLevel : Nat := 60
  deriving DecidableEq, Repr

structure BgTemplate where
  minPlayersPerTeam : Nat
  maxPlayersPerTeam : Nat
  minLevel : Nat := 0
  deriving DecidableEq, Repr

/-- What is known of a player who is in the world. -/
structure BgPresence where
  alive : Bool := true
  inBattleGround : Bool := false
  taxiFlying : Bool := false
  connected : Bool := true
  loggingOut : Bool := false
  /-- He is not marked as a deserter. -/
  canJoinToBattleground : Bool := true
  deriving DecidableEq, Repr

/-- A battleground with free slots, of the type and the bracket of the update. -/
structure BgRunning where
  instanceId : Nat
  clientInstanceId : Nat
  isArena : Bool := false
  allianceFree : Nat
  hordeFree : Nat
  deriving DecidableEq, Repr

/-- What an update finds outside of the queue. -/
structure BgMoment where
  now : UInt32 := 0
  /-- `FindPlayer` -/
  player : Nat → Option BgPresence := fun _ => none
  /-- The group of a player. -/
  group : Nat → Option BgGroup := fun _ => none
  /-- The battleground of this id is in `STATUS_WAIT_LEAVE`. -/
  ended : Nat → BgType → Bool := fun _ _ => false
  running : List BgRunning := []
  /-- `std::shuffle`, each call with a seed of its own. -/
  shuffle : Nat → List Nat → List Nat := fun _ l => l
  shuffle_perm : ∀ n l, (shuffle n l).Perm l := by intros; rfl
  /-- `CreateNewBattleGround`, by the check that asks for it. -/
  newInstance : Nat → Option Nat := fun _ => none
  /-- What the two lists after those of the last bracket read as. -/
  beyond : Bool := true

def BgTeam.other : BgTeam → BgTeam
  | .alliance => .horde
  | .horde => .alliance

def BgRunning.free (bg : BgRunning) : BgTeam → Nat
  | .alliance => bg.allianceFree
  | .horde => bg.hordeFree

def BgPresence.busy (p : BgPresence) : Bool :=
  p.inBattleGround || p.taxiFlying || !p.connected || p.loggingOut

def BgPresence.invitable (p : BgPresence) : Bool :=
  p.connected && !p.loggingOut && !p.inBattleGround

/-! ## Selection pools -/

structure SelectionPool where
  selectedGroups : List Nat := []
  playerCount : Nat := 0
  deriving DecidableEq, Repr

/-- The selection pool of each team. -/
abbrev SelectionPools := BgTeam → SelectionPool

namespace BgQueue

def sizeOf (q : BgQueue) (i : Nat) : Nat := (q.playersOf i).length

/-- Somebody of the group cannot go to a battleground now. -/
def busyGroup (m : BgMoment) (q : BgQueue) (i : Nat) : Bool :=
  (q.playersOf i).any fun guid => (m.player guid).any BgPresence.busy

/-- The group may be selected when there is room for it. -/
def mayEnter (m : BgMoment) (q : BgQueue) (bgInstanceId i : Nat) : Bool :=
  (q.info i).isInvitedToBGInstanceGUID == 0 &&
    ((q.info i).desiredInstanceId == 0 || (q.info i).desiredInstanceId == bgInstanceId) &&
    !q.busyGroup m i

end BgQueue

namespace SelectionPool

/-- Returns whether more players can be invited, or the group has been added. -/
def addGroup (m : BgMoment) (q : BgQueue) (p : SelectionPool) (i desiredCount bgInstanceId : Nat) :
    Bool × SelectionPool :=
  if q.mayEnter m bgInstanceId i && decide (p.playerCount + q.sizeOf i ≤ desiredCount) then
    (true, ⟨p.selectedGroups ++ [i], p.playerCount + q.sizeOf i⟩)
  else (decide (p.playerCount < desiredCount), p)

/-- The last group of about the size, or the largest one. -/
def groupToKick (q : BgQueue) (groups : List Nat) (size : Nat) : Nat :=
  (groups.zipIdx.foldl (fun (found, kick) (i, n) =>
    if q.sizeOf i ≤ size + 1 ∧ size ≤ q.sizeOf i + 1 then (true, n)
    else if !found && decide (q.sizeOf (groups.getD kick 0) ≤ q.sizeOf i) then (found, n)
    else (found, kick)) (false, 0)).2

/-- Returns whether a new group should be looked for. -/
def kickGroup (q : BgQueue) (p : SelectionPool) (size : Nat) : Bool × SelectionPool :=
  if p.playerCount = 0 then (true, p)
  else
    let kick := groupToKick q p.selectedGroups size
    let kicked := q.sizeOf (p.selectedGroups.getD kick 0)
    (decide (size + 1 < kicked), ⟨p.selectedGroups.eraseIdx kick, p.playerCount - kicked⟩)

/-- Groups are added until one of them fills the pool to `minPlayers`. Returns the pool and what is
left of the list, from the group at which the loop has stopped. -/
def collect (m : BgMoment) (q : BgQueue) (wanted : Nat → Bool) (minPlayers maxPlayers : Nat) :
    List Nat → SelectionPool → SelectionPool × List Nat
  | [], p => (p, [])
  | i :: rest, p =>
    if wanted i then
      let p := (p.addGroup m q i maxPlayers 0).2
      if minPlayers ≤ p.playerCount then (p, i :: rest)
      else collect m q wanted minPlayers maxPlayers rest p
    else collect m q wanted minPlayers maxPlayers rest p

/-- Groups are added until the pool is full. -/
def topUp (m : BgMoment) (q : BgQueue) (wanted : Nat → Bool) (desiredCount bgInstanceId : Nat) :
    List Nat → SelectionPool → SelectionPool × List Nat
  | [], p => (p, [])
  | i :: rest, p =>
    if wanted i then
      match p.addGroup m q i desiredCount bgInstanceId with
      | (true, p) => topUp m q wanted desiredCount bgInstanceId rest p
      | (false, p) => (p, i :: rest)
    else topUp m q wanted desiredCount bgInstanceId rest p

end SelectionPool

namespace BgQueue

def normalGroups (q : BgQueue) (bracket : Nat) (t : BgTeam) : List Nat :=
  q.queuedGroups bracket (typeIndex false t)

def premadeGroups (q : BgQueue) (bracket : Nat) (t : BgTeam) : List Nat :=
  q.queuedGroups bracket (typeIndex true t)

def uninvited (q : BgQueue) (i : Nat) : Bool := (q.info i).isInvitedToBGInstanceGUID == 0

/-! ## A running battleground -/

/-- The pools, and of each list what has not been looked at. -/
structure Filling where
  pool : SelectionPools
  rest : BgTeam → List Nat

/-- What a team has free, beyond those selected. -/
def freeAfter (bg : BgRunning) (f : Filling) (t : BgTeam) : Int :=
  (bg.free t : Int) - ((f.pool t).playerCount : Int)

def Filling.addGroups (m : BgMoment) (q : BgQueue) (bg : BgRunning) (f : Filling) (t : BgTeam)
    (desiredCount : Nat) : Filling :=
  let (p, rest) :=
    (f.pool t).topUp m q (fun _ => true) desiredCount bg.clientInstanceId (f.rest t)
  ⟨Function.update f.pool t p, Function.update f.rest t rest⟩

def Filling.kick (q : BgQueue) (f : Filling) (t : BgTeam) (size : Nat) : Bool × Filling :=
  let (more, p) := (f.pool t).kickGroup q size
  (more, { f with pool := Function.update f.pool t p })

/-- One pass of the loop, for the team with less free slots. Returns whether the loop goes on. -/
def evenOut (m : BgMoment) (q : BgQueue) (bg : BgRunning) (f : Filling) (t : BgTeam) :
    Bool × Filling :=
  let mine := freeAfter bg f t
  let his := freeAfter bg f (t.other)
  let (more, f) := f.kick q t (his - mine).toNat
  let f := if more then f.addGroups m q bg t ((bg.free t : Int) - his).toNat else f
  if (f.pool t).playerCount = 0 then
    if (bg.free t : Int) ≤ his + 1 then (false, f)
    else (true, (f.kick q (t.other) (his - mine).toNat).2)
  else (true, f)

def evenLoop (m : BgMoment) (q : BgQueue) (bg : BgRunning) (differential : Nat) :
    Nat → Filling → Filling
  | 0, f => f
  | fuel + 1, f =>
    let ali := freeAfter bg f .alliance
    let horde := freeAfter bg f .horde
    if differential < (ali - horde).natAbs ∧
        (0 < (f.pool .horde).playerCount ∨ 0 < (f.pool .alliance).playerCount) then
      match q.evenOut m bg f (if ali < horde then .alliance else .horde) with
      | (true, f) => evenLoop m q bg differential fuel f
      | (false, f) => f
    else f

/-- How many groups there are, those not looked at twice: each pass of the loop has less. -/
def Filling.measure (f : Filling) : Nat :=
  2 * ((f.rest .alliance).length + (f.rest .horde).length) +
    ((f.pool .alliance).selectedGroups.length + (f.pool .horde).selectedGroups.length)

def fillPlayersToBG (cfg : BgConfig) (m : BgMoment) (q : BgQueue) (type : BgType) (bracket : Nat)
    (bg : BgRunning) : SelectionPools :=
  if bg.isArena then fun _ => {}
  else
    let f : Filling := ⟨fun _ => {}, q.normalGroups bracket⟩
    let f := f.addGroups m q bg .alliance bg.allianceFree
    let f := f.addGroups m q bg .horde bg.hordeFree
    if cfg.invitationType = 0 then f.pool
    else (evenLoop m q bg (if type = .av then 3 else 0) f.measure f).pool

/-! ## A new battleground -/

/-- The premade groups, and the normal groups of their size. -/
def premadePools (cfg : BgConfig) (m : BgMoment) (q : BgQueue) (bracket minPlayers maxPlayers : Nat)
    (pools : SelectionPools) : SelectionPools := fun t =>
  let large := fun i => q.uninvited i && decide (cfg.premadeQueueGroupMinSize ≤ q.sizeOf i)
  let p := ((pools t).collect m q large minPlayers maxPlayers (q.premadeGroups bracket t)).1
  (p.collect m q large minPlayers maxPlayers (q.normalGroups bracket t)).1

def enoughPlayers (pools : SelectionPools) (minPlayers : Nat) : Bool :=
  decide (minPlayers ≤ (pools .alliance).playerCount) &&
    decide (minPlayers ≤ (pools .horde).playerCount)

/-- The first premade group of a team has waited for too long, or is too small for a match. -/
def ripe (cfg : BgConfig) (m : BgMoment) (q : BgQueue) (minPlayers i : Nat) : Bool :=
  q.uninvited i && (decide ((q.info i).joinTime < m.now - cfg.premadeGroupWaitForMatch) ||
    decide (q.sizeOf i < minPlayers))

/-- It goes to the normal groups. -/
def moveToNormal (cfg : BgConfig) (m : BgMoment) (bracket minPlayers : Nat) (q : BgQueue)
    (t : BgTeam) : BgQueue :=
  match q.premadeGroups bracket t with
  | [] => q
  | i :: rest =>
    if q.ripe cfg m minPlayers i then
      (q.setGroups bracket (typeIndex false t) (q.normalGroups bracket t ++ [i])).setGroups bracket
        (typeIndex true t) rest
    else q

def checkPremadeMatch (cfg : BgConfig) (m : BgMoment) (q : BgQueue)
    (bracket minPlayers maxPlayers : Nat) (pools : SelectionPools) :
    Bool × SelectionPools × BgQueue :=
  let pools := q.premadePools cfg m bracket minPlayers maxPlayers pools
  if enoughPlayers pools minPlayers then (true, pools, q)
  else
    (false, pools, [BgTeam.alliance, .horde].foldl (moveToNormal cfg m bracket minPlayers) q)

/-- The loops of `checkNormalMatch` over the two lists. -/
def normalPools (m : BgMoment) (q : BgQueue) (bracket minPlayers maxPlayers : Nat)
    (pools : SelectionPools) (t : BgTeam) : SelectionPool × List Nat :=
  (pools t).collect m q q.uninvited minPlayers maxPlayers (q.normalGroups bracket t)

/-- The team with fewer players is given as many as the other one, if there are any, from behind the
group at which its loop stopped. Where that loop ran to the end of the list, the source increments a
past-the-end iterator, which is undefined; here nobody is added then. -/
def balance (m : BgMoment) (q : BgQueue) (found : BgTeam → SelectionPool × List Nat) :
    SelectionPools :=
  let j : BgTeam :=
    if (found .horde).1.playerCount < (found .alliance).1.playerCount then .horde else .alliance
  Function.update (fun t => (found t).1) j
    ((found j).1.topUp m q q.uninvited (found (j.other)).1.playerCount 0 (found j).2.tail).1

def difference (pools : SelectionPools) : Nat :=
  (((pools .horde).playerCount : Int) - ((pools .alliance).playerCount : Int)).natAbs

def checkNormalMatch (cfg : BgConfig) (m : BgMoment) (q : BgQueue)
    (bracket minPlayers maxPlayers : Nat) (pools : SelectionPools) : Bool × SelectionPools :=
  let found := q.normalPools m bracket minPlayers maxPlayers pools
  let pools := fun t => (found t).1
  if cfg.invitationType ≠ 0 ∧ enoughPlayers pools minPlayers then
    let pools := q.balance m found
    if 1 < difference pools then (false, pools) else (enoughPlayers pools minPlayers, pools)
  else (enoughPlayers pools minPlayers, pools)

end BgQueue

/-! ## An update -/

/-- A new battleground, and the queue in which its groups have been selected. -/
structure BgMatch where
  premade : Bool
  pools : SelectionPools
  queue : BgQueue
  minPlayers : Nat
  maxPlayers : Nat

/-- What an update has done: the players whose queue id is removed, and those who are invited, with
the battleground. -/
structure BgOutcome where
  queue : BgQueue
  dropped : List Nat := []
  invited : List (Nat × Nat) := []
  started : List BgMatch := []

namespace BgOutcome

def inviteGroupToBG (m : BgMoment) (instanceId : Nat) (o : BgOutcome) (i : Nat) : BgOutcome :=
  match o.queue.infos i with
  | none => o
  | some gi =>
    if gi.isInvitedToBGInstanceGUID ≠ 0 then o
    else
      { o with
        queue := o.queue.setInfo i (some { gi with
          isInvitedToBGInstanceGUID := instanceId, removeInviteTime := m.now + inviteAcceptWaitTime })
        invited := o.invited ++
          (gi.players.filter fun guid => (m.player guid).any BgPresence.invitable).map (·, instanceId) }

def inviteAllGroups (m : BgMoment) (pools : SelectionPools) (instanceId : Nat) (o : BgOutcome) :
    BgOutcome :=
  ((pools .alliance).selectedGroups ++ (pools .horde).selectedGroups).foldl
    (inviteGroupToBG m instanceId) o

/-- The player should not be in the queue any more. -/
def expired (m : BgMoment) (q : BgQueue) (pl : PlayerQueueInfo) : Bool :=
  let gi := q.info pl.groupInfo
  (!pl.online && decide (getMSTimeDiff pl.lastOnlineTime m.now > offlineBgQueueTime)) ||
    (decide (gi.isInvitedToBGInstanceGUID ≠ 0) && m.ended gi.isInvitedToBGInstanceGUID gi.bgTypeId)

/-- The loop starts again after each player it has removed. -/
def removeExpired (m : BgMoment) : Nat → BgOutcome → BgOutcome
  | 0, o => o
  | fuel + 1, o =>
    match o.queue.queuedPlayers.entries.find? fun x => expired m o.queue x.2 with
    | none => o
    | some ⟨guid, pl⟩ =>
      removeExpired m fuel { o with
        queue := o.queue.removePlayer guid
        dropped := if pl.online then o.dropped ++ [guid] else o.dropped }

/-- The check counts six lists of a bracket, which has four. -/
def isAllQueuesEmpty (m : BgMoment) (q : BgQueue) (bracket : Nat) : Bool :=
  ((List.range 4).all fun type => (q.queuedGroups bracket type).isEmpty) &&
    if bracket + 1 < maxBattlegroundBrackets then
      (List.range 2).all fun type => (q.queuedGroups (bracket + 1) type).isEmpty
    else m.beyond

/-- The normal lists of both teams are shuffled, up to a place. -/
def shuffleNormal (m : BgMoment) (call bracket : Nat) (upTo : Option Nat) (q : BgQueue) : BgQueue :=
  [BgTeam.alliance, .horde].foldl (fun q t =>
    let l := q.normalGroups bracket t
    let n := upTo.getD l.length
    q.setGroups bracket (BgQueue.typeIndex false t)
      (m.shuffle (call + t.index) (l.take n) ++ l.drop n)) q

/-- The battlegrounds that are running get players. -/
def fillRunning (cfg : BgConfig) (m : BgMoment) (type : BgType) (bracket : Nat) (o : BgOutcome) :
    BgOutcome :=
  m.running.foldl (fun o bg =>
    o.inviteAllGroups m (o.queue.fillPlayersToBG cfg m type bracket bg) bg.instanceId) o

/-- A new battleground with the groups of the pools. -/
def start (m : BgMoment) (mt : BgMatch) (instanceId : Nat) (o : BgOutcome) : BgOutcome :=
  { o with started := o.started ++ [mt] }.inviteAllGroups m mt.pools instanceId

def normalMatches (cfg : BgConfig) (m : BgMoment) (bracket minPlayers maxPlayers : Nat) :
    List Nat → SelectionPools → BgOutcome → BgOutcome
  | [], _, o => o
  | attempt :: rest, pools, o =>
    match o.queue.checkNormalMatch cfg m bracket minPlayers maxPlayers pools with
    | (false, pools) => normalMatches cfg m bracket minPlayers maxPlayers rest pools o
    | (true, pools) =>
      match m.newInstance attempt with
      | none => o
      | some instanceId =>
        normalMatches cfg m bracket minPlayers maxPlayers rest (fun _ => {})
          (o.start m ⟨false, pools, o.queue, minPlayers, maxPlayers⟩ instanceId)

/-- There is a match after the premade check, which may have selected groups. -/
def makeMatches (cfg : BgConfig) (m : BgMoment) (bracket minPlayers maxPlayers attempts : Nat)
    (o : BgOutcome) : BgOutcome :=
  let tries := (List.range attempts).map (· + 1)
  match o.queue.checkPremadeMatch cfg m bracket minPlayers maxPlayers fun _ => {} with
  | (false, pools, q) =>
    normalMatches cfg m bracket minPlayers maxPlayers tries pools { o with queue := q }
  | (true, pools, q) =>
    match m.newInstance 0 with
    | none => o
    | some instanceId =>
      normalMatches cfg m bracket minPlayers maxPlayers tries (fun _ => {})
        (o.start m ⟨true, pools, q, minPlayers, maxPlayers⟩ instanceId)

/-- There are as many groups in Alterac Valley as the configuration asks for. -/
def avEnough (cfg : BgConfig) (q : BgQueue) (bracket : Nat) : Bool :=
  [BgTeam.alliance, .horde].all fun t =>
    decide (cfg.avMinPlayersInQueue ≤ ((q.normalGroups bracket t).filter q.uninvited).length)

def attempts (cfg : BgConfig) (q : BgQueue) (type : BgType) (bracket : Nat) : Nat :=
  if type ≠ .av then 1
  else if cfg.avMinPlayersInQueue ≠ 0 ∧ avEnough cfg q bracket = false then 0
  else if cfg.avInitialMaxPlayers ≠ 0 then 2
  else 1

/-- `MaxPlayersPerTeam` -/
def maxPlayers (cfg : BgConfig) (q : BgQueue) (type : BgType) (tmpl : BgTemplate) (bracket : Nat) :
    Nat :=
  if type = .av ∧ cfg.avInitialMaxPlayers ≠ 0 ∧ attempts cfg q type bracket ≠ 0 then
    max cfg.avInitialMaxPlayers tmpl.minPlayersPerTeam
  else tmpl.maxPlayersPerTeam

/-- The first groups of Alterac Valley are shuffled. -/
def avShuffle (cfg : BgConfig) (m : BgMoment) (type : BgType) (bracket : Nat) (q : BgQueue) :
    BgQueue :=
  if type = .av ∧ cfg.avMinPlayersInQueue ≠ 0 ∧ avEnough cfg q bracket then
    shuffleNormal m 2 bracket (some cfg.avMinPlayersInQueue) q
  else q

/-- Until the running battlegrounds are full. -/
def refill (cfg : BgConfig) (m : BgMoment) (type : BgType) (bracket : Nat) (o : BgOutcome) :
    BgOutcome :=
  fillRunning cfg m type bracket
    (if cfg.randomize then { o with queue := shuffleNormal m 0 bracket none o.queue } else o)

end BgOutcome

open BgOutcome in
def BgQueue.update (cfg : BgConfig) (tmpl : Option BgTemplate) (m : BgMoment) (q : BgQueue)
    (type : BgType) (bracket : Nat) : BgOutcome :=
  let o := removeExpired m q.queuedPlayers.entries.length { queue := q }
  if isAllQueuesEmpty m o.queue bracket then o
  else
    let o := refill cfg m type bracket o
    match tmpl with
    | none => o
    | some tmpl =>
      makeMatches cfg m bracket tmpl.minPlayersPerTeam (maxPlayers cfg o.queue type tmpl bracket)
        (attempts cfg o.queue type bracket)
        { o with queue := avShuffle cfg m type bracket o.queue }

end Windrunner
