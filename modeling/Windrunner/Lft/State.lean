import Mathlib.Data.Char
import Mathlib.Data.List.Lex
import Windrunner.GuildBank.Text
import Windrunner.Lfg.State

/-!
# The dungeon finder

`LFTManager` keeps three maps: who is queued, which parties are still choosing their roles, and
which offers are open. A player waits in the queue until five fit together; the offer is completed
when all of them accept it, and taken back otherwise.

* `cancelOffer`, `cleanupPlayer`: how a player, or an offer, is let go of.
* `tryBuildOfferForInstance`, `tryMakeOffers`: the search for five players.
* `startRolecheck`, `enqueueRolecheck`: a party joins when all of its members have answered.
* `handleQueueJoin`, `handleRolecheckResponse`, `handleOfferAccept`, `queuePlayer`, `leaveQueue`,
  `acceptOffer`, `update`, `onPlayerLogout`: the entry points.
* `LftManager.step`: one call.

What an entry point reads of the characters and their groups is `LftWorld`, the world at the time
of the call. Guids are numbers, and 0 is the empty guid.
-/

namespace Windrunner

open Lib

/-! ## The world -/

/-- A group, as the manager finds it. One that it has just created has no `id` yet. -/
structure LftGroup where
  id : Option Nat := none
  leaderGuid : Nat := 0
  isRaidGroup : Bool := false
  memberSlots : List Nat := []
  deriving DecidableEq, Repr

structure LftWorld where
  /-- `GetPlayer`: the player is loaded and in the world. -/
  isInWorld : Nat → Bool := fun _ => true
  playerClass : Nat → PlayerClass := fun _ => .warrior
  team : Nat → UInt32 := fun _ => 0
  isHardcore : Nat → Bool := fun _ => false
  getGroup : Nat → Option LftGroup := fun _ => none
  /-- `CONFIG_BOOL_ALLOW_TWO_SIDE_INTERACTION_GROUP` -/
  allowTwoSideInteractionGroup : Bool := false
  /-- `HandleHardcoreInteraction` of the leader with the member is `Allowed`. -/
  hardcoreInteraction : Nat → Nat → Bool := fun _ _ => true
  isBotManaged : Nat → Bool := fun _ => false
  getBotRoles : Nat → UInt8 := fun _ => 0
  /-- `Group::Create` succeeds for the leader. -/
  create : Nat → Bool := fun _ => true
  /-- `Group::AddMember` succeeds for the member. -/
  addMember : Nat → Bool := fun _ => true

namespace LftManager

/-! ## Roles -/

/-- `LFT_ROLE_TANK` -/
abbrev roleTank : UInt8 := 1

/-- `LFT_ROLE_HEALER` -/
abbrev roleHealer : UInt8 := 2

/-- `LFT_ROLE_DAMAGE` -/
abbrev roleDamage : UInt8 := 4

def pickRole (roleMask : UInt8) (tankCount healerCount damageCount : Nat) : UInt8 :=
  if roleMask &&& roleTank ≠ 0 ∧ tankCount < 1 then roleTank
  else if roleMask &&& roleHealer ≠ 0 ∧ healerCount < 1 then roleHealer
  else if roleMask &&& roleDamage ≠ 0 ∧ damageCount < 3 then roleDamage
  else 0

def parseRoleMask (roles : Text) : UInt8 :=
  roles.foldl (fun mask role =>
    if role = 't' ∨ role = 'T' then mask ||| roleTank
    else if role = 'h' ∨ role = 'H' then mask ||| roleHealer
    else if role = 'd' ∨ role = 'D' then mask ||| roleDamage
    else mask) 0

def allowedRoleMask : PlayerClass → UInt8
  | .druid | .paladin | .shaman => roleTank ||| roleHealer ||| roleDamage
  | .hunter | .mage | .rogue | .warlock => roleDamage
  | .priest => roleHealer ||| roleDamage
  | .warrior => roleTank ||| roleDamage
  | .other => 0

def splitPreserveEmpty (value : Text) (delimiter : Char) : List Text := value.splitOn delimiter

/-- `GetSharedInstances`: each name once, without the empty one. -/
def getSharedInstances (requested : List Text) : List Text :=
  requested.foldl (fun instances i =>
    if i ≠ [] ∧ i ∉ instances then instances ++ [i] else instances) []

/-! ## State -/

structure QueuedPlayer where
  guid : Nat := 0
  queueLeaderGuid : Nat := 0
  team : UInt32 := 0
  isHardcore : Bool := false
  queueOrder : Nat := 0
  instances : List Text := []
  roleMask : UInt8 := 0
  assignedRole : UInt8 := 0
  deriving DecidableEq, Repr

structure PendingRolecheck where
  leaderGuid : Nat
  members : List Nat
  instances : List Text
  responses : SortedMap Nat UInt8 := ∅
  timer : Nat
  deriving DecidableEq

/-- `accepted` is a set; its order is not used. -/
structure Offer where
  instanceName : Text
  roles : SortedMap Nat UInt8
  accepted : List Nat := []
  timer : Nat
  deriving DecidableEq

end LftManager

/-- The maps are `m_queue`, `m_rolechecks`, `m_offers` and `m_playerOffers`. -/
structure LftManager where
  queue : SortedMap Nat LftManager.QueuedPlayer := ∅
  rolechecks : SortedMap Nat LftManager.PendingRolecheck := ∅
  offers : SortedMap Nat LftManager.Offer := ∅
  playerOffers : SortedMap Nat Nat := ∅
  nextOfferId : UInt32 := 1
  nextQueueOrder : Nat := 1
  deriving DecidableEq

namespace LftManager

abbrev rolecheckTimeout : Nat := 90000

/-- `LFT_OFFER_TIMEOUT` -/
abbrev offerTimeout : Nat := 90000

/-- The party an entry of the queue belongs to: the leader, or the player if there is none. -/
def QueuedPlayer.block (q : QueuedPlayer) (key : Nat) : Nat :=
  if q.queueLeaderGuid = 0 then key else q.queueLeaderGuid

/-! ## Offers that end -/

section Cancel

variable (requeueAccepted : Bool) (removeGuid : Nat) (requeueOthers : Bool)

/-- The loop of `CancelOffer`, for one member of the offer: he stays in the queue, with the role he
signed up for, or leaves it. -/
def releaseMember (offer : Offer) (s : LftManager) (guid : Nat) : LftManager :=
  let keepQueued := requeueAccepted && guid != removeGuid &&
    (requeueOthers || offer.accepted.contains guid)
  { s with
    playerOffers := s.playerOffers.erase guid
    queue :=
      if keepQueued then
        s.queue.modify guid fun q => { q with assignedRole := pickRole q.roleMask 0 0 0 }
      else s.queue.erase guid }

def cancelOffer (s : LftManager) (offerId : Nat) : LftManager :=
  match s.offers.find offerId with
  | none => s
  | some offer =>
    let s := offer.roles.keys.foldl
      (releaseMember requeueAccepted removeGuid requeueOthers offer) s
    { s with offers := s.offers.erase offerId }

end Cancel

/-- `CleanupPlayer`. The others of his offer stay queued; his role checks are cancelled. -/
def cleanupPlayer (s : LftManager) (guid : Nat) : LftManager :=
  let s := { s with queue := s.queue.erase guid }
  let s := match s.playerOffers.find guid with
    | none => s
    | some offerId => s.cancelOffer true guid true offerId
  { s with rolechecks := s.rolechecks.filter fun _ rolecheck => !rolecheck.members.contains guid }

/-! ## Offers that begin -/

section Make

variable (w : LftWorld)

def canPlayersGroup (leader member : Nat) : Bool :=
  (w.allowTwoSideInteractionGroup || w.team leader == w.team member) &&
    w.hardcoreInteraction leader member

def canQueuedPlayersGroup (seed candidate : QueuedPlayer) : Bool :=
  if w.isInWorld seed.guid && w.isInWorld candidate.guid then
    canPlayersGroup w seed.guid candidate.guid
  else if !w.allowTwoSideInteractionGroup && seed.team != candidate.team then false
  else seed.isHardcore == candidate.isHardcore

def getQueueOrder (s : LftManager) : List Nat :=
  (s.queue.entries.insertionSort fun a b =>
    a.2.queueOrder < b.2.queueOrder ∨ a.2.queueOrder = b.2.queueOrder ∧ a.1 ≤ b.1).map (·.1)

/-- The players selected so far, and how many of them take each role. -/
structure Selection where
  roles : SortedMap Nat UInt8 := ∅
  tanks : Nat := 0
  healers : Nat := 0
  damage : Nat := 0
  deriving DecidableEq

def Selection.size (c : Selection) : Nat := c.roles.entries.length

def Selection.add (c : Selection) (guid : Nat) (role : UInt8) : Selection where
  roles := c.roles.insert guid role
  tanks := if role = roleTank then c.tanks + 1 else c.tanks
  healers := if role = roleHealer then c.healers + 1 else c.healers
  damage := if role = roleDamage then c.damage + 1 else c.damage

variable (s : LftManager) (instanceName : Text) (seed : QueuedPlayer)

/-- What a player of a party must meet to be selected: he is not taken, not in an offer, queued for
the instance, and can be grouped with the first player. -/
def fits (selected : Selection) (guid : Nat) (q : QueuedPlayer) : Bool :=
  !selected.roles.contains guid && !s.playerOffers.contains guid &&
    q.instances.contains instanceName && canQueuedPlayersGroup w seed q

/-- The roles of a party, whose members are taken into the offer together or not at all. `c` is the
selection with the members before `guid`. -/
def placeMember (selected c : Selection) (guid : Nat) : Option Selection :=
  match s.queue.find guid with
  | none => none
  | some q =>
    if fits w s instanceName seed selected guid q then
      let role := pickRole q.roleMask c.tanks c.healers c.damage
      if role = 0 then none else some (c.add guid role)
    else none

/-- The members of the queue who belong to the party `leader`. -/
def blockOf (order : List Nat) (leader : Nat) : List Nat :=
  order.filter fun guid => (s.queue.find guid).any fun q => q.block guid == leader

/-- The loop over the candidates: the party of the candidate is added if all of it fits. -/
def addCandidate (order : List Nat) (selected : Selection) (candidate : Nat) : Selection :=
  if selected.size ≥ 5 then selected
  else
    match s.queue.find candidate with
    | none => selected
    | some q =>
      if fits w s instanceName seed selected candidate q then
        let block := blockOf s order (q.block candidate)
        match block.foldlM (placeMember w s instanceName seed selected) selected with
        | none => selected
        | some all => if block = [] ∨ all.size > 5 then selected else all
      else selected

/-- The five players and their roles, if there are five who fit together. -/
def selectPlayers : Option (SortedMap Nat UInt8) :=
  let order := getQueueOrder s
  order.findSome? fun seedGuid =>
    match s.queue.find seedGuid with
    | none => none
    | some seed =>
      if s.playerOffers.contains seedGuid || !seed.instances.contains instanceName then none
      else
        let c := order.foldl (addCandidate w s instanceName seed order) {}
        if c.tanks = 1 ∧ c.healers = 1 ∧ c.damage = 3 ∧ c.size = 5 then some c.roles else none

/-- One player is bound by the new offer. -/
def bindPlayer (offerId : Nat) (s : LftManager) (x : Nat × UInt8) : LftManager :=
  { s with
    queue := s.queue.insert x.1 { (s.queue.find x.1).getD {} with assignedRole := x.2 }
    playerOffers := s.playerOffers.insert x.1 offerId }

def makeOffer (roles : SortedMap Nat UInt8) : LftManager :=
  let offerId := s.nextOfferId.toNat
  let s := { s with
    nextOfferId := s.nextOfferId + 1
    offers := s.offers.insert offerId { instanceName, roles, timer := offerTimeout } }
  roles.entries.foldl (bindPlayer offerId) s

def tryBuildOfferForInstance : LftManager :=
  match selectPlayers w s instanceName with
  | none => s
  | some roles => makeOffer s instanceName roles

/-- The instances for which somebody waits who is not in an offer, in the order of a set. -/
def wantedInstances : List Text :=
  ((s.queue.entries.filter fun x => !s.playerOffers.contains x.1).flatMap
    (·.2.instances)).dedup.insertionSort (· ≤ ·)

def tryMakeOffers : LftManager :=
  (wantedInstances s).foldl (tryBuildOfferForInstance w) s

end Make

/-! ## Players who join -/

section Join

variable (w : LftWorld) (s : LftManager)

def enqueuePlayer (player leaderGuid : Nat) (instances : List Text) (roleMask : UInt8) :
    LftManager :=
  { s with
    nextQueueOrder := (s.nextQueueOrder + 1) % 2 ^ 64
    queue := s.queue.insert player
      { guid := player, queueLeaderGuid := leaderGuid, team := w.team player,
        isHardcore := w.isHardcore player, queueOrder := s.nextQueueOrder, instances, roleMask,
        assignedRole := pickRole roleMask 0 0 0 } }

/-- The loop of `EnqueueRolecheck`: who is in the world and has answered is queued. -/
def enqueueMember (rolecheck : PendingRolecheck) (s : LftManager) (guid : Nat) : LftManager :=
  if w.isInWorld guid then
    match rolecheck.responses.find guid with
    | none => s
    | some roles => enqueuePlayer w s guid rolecheck.leaderGuid rolecheck.instances roles
  else s

def enqueueRolecheck (rolecheck : PendingRolecheck) : LftManager :=
  tryMakeOffers w (rolecheck.members.foldl (enqueueMember w rolecheck) s)

def getPartyMembers (leader : Nat) : List Nat :=
  match w.getGroup leader with
  | none => [leader]
  | some group => group.memberSlots.filter w.isInWorld

/-- The answers of the managed bots, who are not asked. -/
def botResponses (members : List Nat) : SortedMap Nat UInt8 :=
  members.foldl (fun responses guid =>
    if w.isInWorld guid ∧ w.isBotManaged guid ∧ w.getBotRoles guid ≠ 0 then
      responses.insert guid (w.getBotRoles guid)
    else responses) ∅

/-- A role check that all members have answered is erased, and the members are queued; another one
is kept as it is now. -/
def finishRolecheck (leader : Nat) (rolecheck : PendingRolecheck) : LftManager :=
  if rolecheck.responses.entries.length = rolecheck.members.length then
    enqueueRolecheck w { s with rolechecks := s.rolechecks.erase leader } rolecheck
  else { s with rolechecks := s.rolechecks.insert leader rolecheck }

def startRolecheck (leader : Nat) (instances : List Text) : LftManager :=
  let members := getPartyMembers w leader
  finishRolecheck w s leader
    { leaderGuid := leader, members, instances, responses := botResponses w members,
      timer := rolecheckTimeout }

/-- A member of a raid cannot join, nor a member of a party who does not lead it. -/
def mayJoin (player : Nat) : Bool :=
  match w.getGroup player with
  | none => true
  | some group => !group.isRaidGroup && group.leaderGuid == player

/-- The checks of `HandleQueueJoin`: the instances that the player asks for. -/
def requestedInstances (player : Nat) (fields : List Text) : Option (List Text) :=
  if w.isBotManaged player then none
  else
    match fields with
    | _ :: requested :: roles :: _ =>
      if !mayJoin w player then none
      else
        let instances := getSharedInstances (splitPreserveEmpty requested ':')
        let roleMask := parseRoleMask roles &&& allowedRoleMask (w.playerClass player)
        if instances = [] ∨ roleMask = 0 then none else some instances
    | _ => none

def handleQueueJoin (player : Nat) (fields : List Text) : LftManager :=
  match requestedInstances w player fields with
  | none => s
  | some instances => startRolecheck w (s.cleanupPlayer player) player instances

/-- `HandleRolecheckResponse`: the first role check that waits for the player gets the answer. -/
def handleRolecheckResponse (player : Nat) (fields : List Text) : LftManager :=
  match fields with
  | _ :: roles :: _ =>
    let roleMask := parseRoleMask roles &&& allowedRoleMask (w.playerClass player)
    if roleMask = 0 then s
    else
      match s.rolechecks.entries.find? fun x => x.2.members.contains player with
      | none => s
      | some (leader, rolecheck) =>
        finishRolecheck w s leader
          { rolecheck with responses := rolecheck.responses.insert player roleMask }
  | _ => s

/-- The checks of `QueuePlayer`: the instances and the roles that the player is queued for. -/
def validRequest (player : Nat) (requested : List Text) (roleMask : UInt8) :
    Option (List Text × UInt8) :=
  if !w.isInWorld player || !mayJoin w player then none
  else
    let valid := getSharedInstances requested
    let effective := roleMask &&& allowedRoleMask (w.playerClass player)
    if valid = [] ∨ effective = 0 then none else some (valid, effective)

/-- `QueuePlayer`: a module queues a player. -/
def queuePlayer (player : Nat) (requested : List Text) (roleMask : UInt8) : LftManager :=
  match validRequest w player requested roleMask with
  | none => s
  | some (valid, effective) =>
    let s := s.cleanupPlayer player
    if (w.getGroup player).isSome then startRolecheck w s player valid
    else tryMakeOffers w (enqueuePlayer w s player player valid effective)

end Join

/-! ## Offers that are accepted -/

section Accept

variable (w : LftWorld) (s : LftManager)

/-- The group that leads the new party: the queue leader of the first member who has one, or else
the tank, or else the first member. -/
def leaderOf (offer : Offer) : Nat :=
  let leaders := offer.roles.keys.filterMap fun guid =>
    (s.queue.find guid).bind fun q => if q.queueLeaderGuid = 0 then none else some q.queueLeaderGuid
  let tanks := offer.roles.entries.filterMap fun x => if x.2 = roleTank then some x.1 else none
  (leaders ++ tanks ++ offer.roles.keys).headD 0

def isFull (group : LftGroup) : Bool :=
  group.memberSlots.length ≥ if group.isRaidGroup then 40 else 5

/-- The group that the players are added to: the one of the leader, or a new one. -/
def groupOfLeader (leader : Nat) : Option LftGroup :=
  if !w.isInWorld leader then none
  else
    match w.getGroup leader with
    | some group => some group
    | none =>
      if w.create leader then some { leaderGuid := leader, memberSlots := [leader] } else none

/-- `AddPlayerToGroup`: the group with the member, or `none` for the failure. The first call looks
for the group. -/
def addPlayerToGroup (leader : Nat) (group : Option LftGroup) (member : Nat) :
    Option (Option LftGroup) :=
  if !w.isInWorld member then none
  else
    match group.orElse fun _ => groupOfLeader w leader with
    | none => none
    | some group =>
      if group.memberSlots.contains member then some group
      else if (w.getGroup member).any fun g => g.id ≠ group.id then none
      else if w.isInWorld leader && !canPlayersGroup w leader member then none
      else if isFull group then none
      else if w.addMember member then
        some (some { group with memberSlots := group.memberSlots ++ [member] })
      else none

/-- `CompleteOffer`: the players leave the queue, with the party or without. -/
def completeOffer (offerId : Nat) : LftManager :=
  match s.offers.find offerId with
  | none => s
  | some offer =>
    match offer.roles.keys.foldlM (addPlayerToGroup w (leaderOf s offer)) none with
    | none => s.cancelOffer false 0 false offerId
    | some _ =>
      { s with
        queue := offer.roles.keys.foldl SortedMap.erase s.queue
        playerOffers := offer.roles.keys.foldl SortedMap.erase s.playerOffers
        offers := s.offers.erase offerId }

/-- The player accepts. The count of the roles looks every player who has accepted up with `[]`,
which makes an entry where there is none. -/
def Offer.accept (offer : Offer) (player : Nat) : Offer :=
  let accepted := offer.accepted.insert player
  { offer with
    accepted
    roles := accepted.foldl (fun roles guid =>
      if roles.contains guid then roles else roles.insert guid 0) offer.roles }

def handleOfferAccept (player : Nat) : LftManager :=
  match s.playerOffers.find player with
  | none => s
  | some offerId =>
    match s.offers.find offerId with
    | none => s
    | some offer =>
      let offer := offer.accept player
      let s := { s with offers := s.offers.insert offerId offer }
      if offer.accepted.length = offer.roles.entries.length then completeOffer w s offerId else s

/-- `AcceptOffer`: a module accepts for a player. -/
def acceptOffer (guid : Nat) : LftManager :=
  if guid = 0 then s
  else if !w.isInWorld guid then s
  else if !s.playerOffers.contains guid then s
  else handleOfferAccept w s guid

end Accept

/-! ## Players who leave -/

section Leave

variable (w : LftWorld) (s : LftManager)

/-- `LeaveQueue`: out of the first role check, or out of the offer, or out of the queue with all who
were queued under the same leader. -/
def leaveQueue (guid : Nat) : LftManager :=
  match s.rolechecks.entries.find? fun x => x.2.members.contains guid with
  | some (leader, _) => { s with rolechecks := s.rolechecks.erase leader }
  | none =>
    match s.playerOffers.find guid with
    | some offerId => tryMakeOffers w (s.cancelOffer true guid true offerId)
    | none =>
      match s.queue.find guid with
      | none => s
      | some q =>
        { s with queue := s.queue.filter fun key other => other.block key ≠ q.block guid }

def onPlayerLogout (guid : Nat) : LftManager := s.cleanupPlayer guid

/-- An offer whose time is up is cancelled, and who has accepted it stays queued; the others go on
waiting. -/
def tickOffer (diff : Nat) (s : LftManager) (offerId : Nat) : LftManager :=
  match s.offers.find offerId with
  | none => s
  | some offer =>
    if offer.timer ≤ diff then s.cancelOffer true 0 false offerId
    else { s with offers := s.offers.insert offerId { offer with timer := offer.timer - diff } }

def update (diff : Nat) : LftManager :=
  let s := { s with
    queue := s.queue.filter fun guid _ => w.isInWorld guid
    rolechecks := (s.rolechecks.filter fun _ (c : PendingRolecheck) => diff < c.timer).mapVal
      fun _ (c : PendingRolecheck) => { c with timer := c.timer - diff } }
  tryMakeOffers w (s.offers.keys.foldl (tickOffer diff) s)

end Leave

/-! ## Calls -/

inductive Input where
  | queueJoin (player : Nat) (fields : List Text)
  | rolecheckResponse (player : Nat) (fields : List Text)
  | offerAccept (player : Nat)
  | queuePlayer (player : Nat) (requested : List Text) (roleMask : UInt8)
  | acceptOffer (guid : Nat)
  | leaveQueue (guid : Nat)
  | logout (guid : Nat)
  | update (diff : Nat)
  deriving DecidableEq, Repr

/-- One call, in the world as it is then. -/
def step (s : LftManager) (i : LftWorld × Input) : LftManager :=
  match i.2 with
  | .queueJoin player fields => handleQueueJoin i.1 s player fields
  | .rolecheckResponse player fields => handleRolecheckResponse i.1 s player fields
  | .offerAccept player => handleOfferAccept i.1 s player
  | .queuePlayer player requested roleMask => queuePlayer i.1 s player requested roleMask
  | .acceptOffer guid => acceptOffer i.1 s guid
  | .leaveQueue guid => leaveQueue i.1 s guid
  | .logout guid => onPlayerLogout s guid
  | .update diff => update i.1 s diff

end LftManager

end Windrunner
