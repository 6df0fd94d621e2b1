import Windrunner.Battleground.World

/-!
# Battlegrounds and whom they have invited

A battleground counts for each team whom it has invited, and the queues go by what is left up to
`MaxPlayersPerTeam`. The counter goes up for a player who is invited, and down when he leaves the
queue (`decreaseFor`) or the battleground (`removePlayerAtLeave`); in between he accepts (`port`) and
arrives (`arrive`).

`counted` is a record of the model only: the players for whom the counter was raised, and who have
since neither refused, nor run out of time, nor been removed, nor left.
-/

namespace Windrunner

open Lib Function

inductive BgStatus where
  | waitQueue
  | waitJoin
  | inProgress
  | waitLeave
  deriving DecidableEq, Repr

structure BgBattle where
  type : BgType
  status : BgStatus := .waitJoin
  maxPlayersPerTeam : UInt32
  /-- `m_InvitedAlliance` and `m_InvitedHorde` -/
  invited : BgTeam → UInt32 := fun _ => 0
  players : FinMap Nat BgTeam := ∅

/-- `m_bgData` of a player who is in a battleground, or on his way to it -/
structure BgData where
  instanceId : Nat
  type : BgType
  team : BgTeam
  deriving DecidableEq, Repr

structure Battles where
  world : BgWorld := {}
  battles : Nat → Option BgBattle := fun _ => none
  nextInstance : Nat := 1
  bgData : Nat → Option BgData := fun _ => none
  counted : Nat → BgTeam → Finset Nat := fun _ _ => ∅

def BgBattle.getFreeSlotsForTeam (bg : BgBattle) (team : BgTeam) : UInt32 :=
  if bg.status = .waitJoin ∨ bg.status = .inProgress then
    if bg.invited team < bg.maxPlayersPerTeam then bg.maxPlayersPerTeam - bg.invited team else 0
  else 0

namespace BgWorld

/-- Where `CMSG_BATTLEFIELD_PORT` gets to: the group info of the player, and whether he enters the
battleground or leaves the queue. -/
def portsTo (s : BgSetup) (m : BgMoment) (w : BgWorld) (guid : Nat) (p : BgPortPacket) :
    Option (GroupQueueInfo × Bool) :=
  match m.player guid, w.players guid, (w.queues p.bgType).groupOf guid with
  | some me, some pl, some i =>
    let gi := (w.queues p.bgType).info i
    if ¬ pl.inBattleGroundQueue ∨ (gi.isInvitedToBGInstanceGUID = 0 ∧ p.action = 1) ∨
        ¬ (p.bgFound ∨ (p.action = 0 ∧ (s.template p.bgType).isSome)) then none
    else match portAction m me gi p with
      | some 1 => if pl.isInvited p.bgType then some (gi, true) else none
      | some 0 => some (gi, false)
      | _ => none
  | _, _, _ => none

/-- Whom the first request takes out of a queue -/
def requestRemoval (w : BgWorld) : Option (Nat × BgType) :=
  match w.requests with
  | .inviteRemoval guid instanceId type removeTime :: _ =>
    if w.inQueue type guid ∧ (w.queues type).isPlayerInvited guid instanceId removeTime then
      some (guid, type)
    else none
  | .bracketCleanup guid type bracket :: _ =>
    match (w.queues type).groupOf guid with
    | none => none
    | some i =>
      if some ((w.queues type).info i).bracketId = bracket then some (guid, type) else none
  | _ => none

end BgWorld

namespace Battles

variable (b : Battles)

def getBattleGround (instanceId : Nat) (type : BgType) : Option BgBattle :=
  (b.battles instanceId).filter (·.type = type)

def setBattle (instanceId : Nat) (bg : Option BgBattle) : Battles :=
  { b with battles := update b.battles instanceId bg }

def forget (instanceId guid : Nat) : Battles :=
  { b with counted := fun id team =>
      if id = instanceId then (b.counted id team).erase guid else b.counted id team }

/-! ## The counters -/

def increaseInvitedCount (instanceId : Nat) (team : BgTeam) (guid : Nat) : Battles :=
  match b.battles instanceId with
  | none => b
  | some bg =>
    { b.setBattle instanceId (some { bg with
        invited := update bg.invited team (bg.invited team + 1) }) with
      counted := fun id t =>
        if id = instanceId ∧ t = team then insert guid (b.counted id t) else b.counted id t }

def decreaseInvitedCount (instanceId : Nat) (type : BgType) (team : BgTeam) : Battles :=
  match b.getBattleGround instanceId type with
  | none => b
  | some bg => b.setBattle instanceId (some { bg with
      invited := update bg.invited team (bg.invited team - 1) })

/-- What `RemovePlayer(guid, true)` of a queue does to the battleground -/
def decreaseFor (q : BgQueue) (guid : Nat) : Battles :=
  match q.groupOf guid with
  | none => b
  | some i =>
    let gi := q.info i
    if gi.isInvitedToBGInstanceGUID = 0 then b
    else (b.decreaseInvitedCount gi.isInvitedToBGInstanceGUID gi.bgTypeId gi.groupTeam).forget
      gi.isInvitedToBGInstanceGUID guid

/-! ## Leaving -/

/-- `GetBattleGround` of a player, with its id -/
def current (guid : Nat) : Option (Nat × BgBattle) :=
  (b.bgData guid).bind fun d => (b.getBattleGround d.instanceId d.type).map (d.instanceId, ·)

/-- Only a participant gives his place back. -/
def removePlayerAtLeave (instanceId : Nat) (bg : BgBattle) (guid : Nat) : Battles :=
  let b := { b.forget instanceId guid with bgData := update b.bgData guid none }
  match bg.players.lookup guid with
  | none => b
  | some team =>
    { b.setBattle instanceId (some { bg with
        players := bg.players.erase guid
        invited := update bg.invited team (bg.invited team - 1) }) with
      world := b.world.mapPlayer guid (·.removeBattleGroundQueueId bg.type) }

def leaveBattleground (guid : Nat) : Battles :=
  match b.current guid with
  | none => b
  | some (instanceId, bg) => b.removePlayerAtLeave instanceId bg guid

/-- `HandleMoveWorldportAckOpcode` on the map of the battleground -/
def arrive (guid : Nat) : Battles :=
  match b.bgData guid, b.current guid, b.world.players guid with
  | some d, some (instanceId, bg), some pl =>
    if pl.slots.any (·.invitedToInstance == instanceId) then
      b.setBattle instanceId (some { bg with players := bg.players.insert guid d.team })
    else b
  | _, _, _ => b

/-- A logout first lets a player arrive whose far teleport to the battleground is pending. -/
def land (guid : Nat) (pending : Bool) : Battles := if pending then b.arrive guid else b

/-- `HandleMoveWorldportAckOpcode` on another map: what is left of a battleground is outdated. -/
def arriveElsewhere (guid : Nat) : Battles :=
  match b.bgData guid with
  | none => b
  | some d => { b.forget d.instanceId guid with bgData := update b.bgData guid none }

/-- `BattleGround::Update`: a battleground that is over is left by all and deleted, one to which
nobody is invited is deleted. -/
def updateBattle (instanceId : Nat) (isOver : Bool) : Battles :=
  match b.battles instanceId with
  | none => b
  | some bg =>
    if bg.status = .waitLeave ∧ isOver then
      { b.setBattle instanceId none with
        world := bg.players.keys.foldl (fun w guid =>
          w.mapPlayer guid (·.removeBattleGroundQueueId bg.type)) b.world
        bgData := fun guid => if guid ∈ bg.players then none else b.bgData guid
        counted := update b.counted instanceId fun _ => ∅ }
    else if bg.players = ∅ ∧ bg.invited .horde = 0 ∧ bg.invited .alliance = 0 then
      { b.setBattle instanceId none with
        counted := update b.counted instanceId fun _ => ∅ }
    else b

/-! ## What the queues see -/

/-- A player is found by a low guid, which has 32 bits. -/
def sees (m : BgMoment) : BgMoment :=
  { m with
    player := fun guid =>
      if guid = 0 ∨ 4294967296 ≤ guid ∨ b.world.players guid = none then none
      else (m.player guid).map fun p => { p with inBattleGround := (b.bgData guid).isSome }
    ended := fun instanceId type =>
      (b.getBattleGround instanceId type).any (·.status = .waitLeave) }

def running (type : BgType) (r : BgRunning) : Option BgRunning :=
  (b.getBattleGround r.instanceId type).map fun bg =>
    { r with
      allianceFree := (bg.getFreeSlotsForTeam .alliance).toNat
      hordeFree := (bg.getFreeSlotsForTeam .horde).toNat }

/-- A new battleground has been created before the update that finds the match for it. -/
def seesBattles (m : BgMoment) (type : BgType) : BgMoment :=
  { b.sees m with
    running := m.running.filterMap (b.running type)
    newInstance := fun n =>
      (m.newInstance n).filter fun instanceId => (b.getBattleGround instanceId type).isSome }

def seesPacket (guid : Nat) (p : BgPortPacket) : BgPortPacket :=
  { p with
    bgFound := ((b.world.queues p.bgType).groupOf guid).any fun i =>
      (b.getBattleGround ((b.world.queues p.bgType).info i).isInvitedToBGInstanceGUID
        p.bgType).isSome
    currentBg := none }

/-! ## Steps -/

def queueStep (s : BgSetup) (i : BgWorld.Input) : Battles := { b with world := b.world.step s i }

/-- Who accepts leaves the battleground in which he is. -/
def port (s : BgSetup) (m : BgMoment) (guid : Nat) (p : BgPortPacket) : Battles :=
  let p := b.seesPacket guid p
  match b.world.portsTo s (b.sees m) guid p with
  | none => b
  | some (gi, true) =>
    let b := (b.queueStep s (.port (b.sees m) guid p)).leaveBattleground guid
    let d : BgData := ⟨gi.isInvitedToBGInstanceGUID, p.bgType, gi.groupTeam⟩
    { b with bgData := update b.bgData guid (some d) }
  | some (_, false) =>
    (b.decreaseFor (b.world.queues p.bgType) guid).queueStep s (.port (b.sees m) guid p)

def processRequest (s : BgSetup) (m : BgMoment) : Battles :=
  let i := BgWorld.Input.processRequest (b.sees m)
  match b.world.requestRemoval with
  | none => b.queueStep s i
  | some (guid, type) => (b.decreaseFor (b.world.queues type) guid).queueStep s i

/-- The battlegrounds of those whom `removeExpired` takes out of the queue -/
def decreaseExpired (m : BgMoment) : Nat → BgQueue → Battles → Battles
  | 0, _, b => b
  | fuel + 1, q, b =>
    match q.queuedPlayers.entries.find? fun x => BgOutcome.expired m q x.2 with
    | none => b
    | some ⟨guid, _⟩ => decreaseExpired m fuel (q.removePlayer guid) (b.decreaseFor q guid)

/-- The team of the group info of a player -/
def teamOf (q : BgQueue) (guid : Nat) : BgTeam :=
  ((q.groupOf guid).map fun i => (q.info i).groupTeam).getD .alliance

def increaseInvited (q : BgQueue) (invited : List (Nat × Nat)) : Battles :=
  invited.foldl (fun b x => b.increaseInvitedCount x.2 (teamOf q x.1) x.1) b

def update (s : BgSetup) (m : BgMoment) (type : BgType) (bracket : Nat) : Battles :=
  let m := b.seesBattles m type
  let q := b.world.queues type
  let o := q.update s.cfg (s.template type) m type bracket
  let b' := decreaseExpired m q.queuedPlayers.entries.length q b
  (b'.increaseInvited q o.invited).queueStep s (.update m type bracket)

inductive Input where
  | join (m : BgMoment) (guid : Nat) (p : BgJoinPacket)
  | addToArenaQueue (guid : Nat) (queuedAsGroup : Bool)
  | port (m : BgMoment) (guid : Nat) (p : BgPortPacket)
  | inviteTimeout (guid instanceId : Nat) (type : BgType) (removeTime : UInt32)
  /-- With a far teleport to the battleground that is pending, or without one -/
  | logout (guid : Nat) (pending : Bool)
  | login (guid level : Nat)
  | giveLevel (guid level : Nat)
  | leave (guid : Nat)
  | arrive (guid : Nat)
  | arriveElsewhere (guid : Nat)
  | processRequest (m : BgMoment)
  | update (m : BgMoment) (type : BgType) (bracket : Nat)
  /-- `CreateNewBattleGround` -/
  | create (type : BgType) (maxPlayersPerTeam : UInt32)
  | setStatus (instanceId : Nat) (status : BgStatus)
  | updateBattle (instanceId : Nat) (isOver : Bool)

def step (s : BgSetup) (b : Battles) : Input → Battles
  | .join m guid p => b.queueStep s (.join (b.sees m) guid p)
  | .addToArenaQueue guid queuedAsGroup => b.queueStep s (.addToArenaQueue guid queuedAsGroup)
  | .port m guid p => b.port s m guid p
  | .inviteTimeout guid instanceId type removeTime =>
    b.queueStep s (.inviteTimeout guid instanceId type removeTime)
  | .logout guid pending =>
    ((b.land guid pending).leaveBattleground guid).queueStep s (.logout guid)
  | .login guid level => b.queueStep s (.login guid level)
  | .giveLevel guid level => b.queueStep s (.giveLevel guid level)
  | .leave guid => b.leaveBattleground guid
  | .arrive guid => b.arrive guid
  | .arriveElsewhere guid => b.arriveElsewhere guid
  | .processRequest m => b.processRequest s m
  | .update m type bracket => b.update s m type bracket
  | .create type maxPlayersPerTeam =>
    { b.setBattle b.nextInstance (some { type, maxPlayersPerTeam }) with
      nextInstance := b.nextInstance + 1 }
  | .setStatus instanceId status =>
    match b.battles instanceId with
    | none => b
    | some bg => b.setBattle instanceId (some { bg with status })
  | .updateBattle instanceId isOver => b.updateBattle instanceId isOver

end Battles

end Windrunner
