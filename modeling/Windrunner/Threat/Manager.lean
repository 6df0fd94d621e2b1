import Mathlib.Data.List.Sort
import Windrunner.Lib.Run

/-!
# Threat lists

A creature keeps a `HostileReference` for each unit that it hates: in the list of
`iThreatContainer` while the unit can be attacked, in that of `iThreatOfflineContainer` otherwise.
The references move themselves: a change of their status is an event that the `ThreatManager`
processes, `onlineStatusChanged`. A change of threat is one too, `threatChanged`, which decides
whether the list is to be sorted at the next choice of a victim.

References are pointers here: `refs` is the memory they point into, and a reference that has been
deleted is not in it. What the manager asks the world about the units is a `ThreatWorld`. A threat
against a unit is one against its owner too; the owner of a unit is older than the unit, so this
ends.
-/

namespace Windrunner

structure HostileReference where
  unitGuid : Nat
  threat : Rat := 0
  /-- `iTempThreatModifyer`, used for taunt -/
  tempThreatModifyer : Rat := 0
  /-- The link to the unit is not cut. -/
  valid : Bool := true
  online : Bool := true
  accessible : Bool := true
  deriving DecidableEq, Repr

structure ThreatManager where
  refs : Nat → Option HostileReference := fun _ => none
  nextRef : Nat := 0
  /-- the list of `iThreatContainer` -/
  online : List Nat := []
  dirty : Bool := false
  /-- the list of `iThreatOfflineContainer` -/
  offline : List Nat := []
  currentVictim : Option Nat := none

/-- What the manager of the creature `self` asks the world, about units by their guid. -/
structure ThreatWorld where
  self : Nat
  selfAlive : Bool := true
  alive : Nat → Bool := fun _ => true
  inMap : Nat → Bool := fun _ => true
  player : Nat → Bool := fun _ => false
  gameMaster : Nat → Bool := fun _ => false
  taxiFlying : Nat → Bool := fun _ => false
  /-- `ObjectAccessor::GetUnit` finds the unit. -/
  found : Nat → Bool := fun _ => true
  totem : Nat → Bool := fun _ => false
  /-- `SPELL_AURA_TRANSFER_TOTEM_THREAT` of a totem -/
  transferPercent : Nat → Int := fun _ => 0
  ownerOf : Nat → Option Nat := fun _ => none
  /-- The units in the order in which they have been created. -/
  age : Nat → Nat := id
  ownerOf_lt : ∀ u o, ownerOf u = some o → age o < age u := by simp
  outOfThreatArea : Nat → Bool := fun _ => false
  validAttackTarget : Nat → Bool := fun _ => true
  immuneToDamage : Nat → Bool := fun _ => false
  secondaryThreatTarget : Nat → Bool := fun _ => false
  attackerImmobilized : Bool := false
  withinChaseDistance : Nat → Bool := fun _ => true
  canReachWithMeleeAutoAttack : Nat → Bool := fun _ => true

/-- The creature 1, about which nothing is special -/
def ThreatWorld.creature1 : ThreatWorld := { self := 1 }

namespace ThreatManager

variable (w : ThreatWorld) (m : ThreatManager)

def set (id : Nat) (r : HostileReference) : ThreatManager :=
  { m with refs := fun i => if i = id then some r else m.refs i }

def threat (id : Nat) : Rat := ((m.refs id).map HostileReference.threat).getD 0

/-- `ThreatContainer::getReferenceByTarget`, in one of the lists -/
def getReferenceByTarget (l : List Nat) (guid : Nat) : Option Nat :=
  l.find? fun id => (m.refs id).any fun r => r.unitGuid = guid

/-! ## Events -/

/-- `UEV_THREAT_REF_THREAT_CHANGE` -/
def threatChanged (id : Nat) (value : Rat) : ThreatManager :=
  if (m.currentVictim = some id ∧ value < 0) ∨ (m.currentVictim ≠ some id ∧ 0 < value) then
    { m with dirty := true }
  else m

def victimGone (id : Nat) : ThreatManager :=
  if m.currentVictim = some id then { m with currentVictim := none, dirty := true } else m

/-- The victim is far below the threat of a reference that comes online. -/
def outdone (threat : Rat) : Bool :=
  match m.currentVictim with
  | some v => 11 / 10 * m.threat v < threat
  | none => false

/-- `UEV_THREAT_REF_ONLINE_STATUS` -/
def onlineStatusChanged (id : Nat) (r : HostileReference) : ThreatManager :=
  if r.online then
    { m with
      dirty := m.dirty || m.outdone r.threat
      online := m.online ++ [id]
      offline := m.offline.filter (· ≠ id) }
  else
    let m := m.victimGone id
    { m with online := m.online.filter (· ≠ id), offline := m.offline ++ [id] }

/-! ## Status of a reference -/

def setOnlineOfflineState (id : Nat) (isOnline : Bool) : ThreatManager :=
  match m.refs id with
  | none => m
  | some r =>
    if r.online = isOnline then m
    else
      let r := { r with online := isOnline, accessible := r.accessible && isOnline }
      (m.set id r).onlineStatusChanged id r

/-- `updateOnlineStatus`; a link that was cut is made again when the unit is found. -/
def updateOnlineStatus (id : Nat) : ThreatManager :=
  match m.refs id with
  | none => m
  | some r =>
    let r := { r with valid := r.valid || w.found r.unitGuid, accessible := false }
    (m.set id r).setOnlineOfflineState id (r.valid &&
      ((!w.player r.unitGuid || !w.gameMaster r.unitGuid) || !w.taxiFlying r.unitGuid))

/-- `invalidate`: the unit cuts the link. -/
def invalidate (id : Nat) : ThreatManager :=
  let m := m.setOnlineOfflineState id false
  match m.refs id with
  | none => m
  | some r => m.set id { r with valid := false }

/-- `removeReference`, and the `delete` that follows every call of it -/
def removeReference (id : Nat) : ThreatManager :=
  let m := (m.invalidate id).victimGone id
  match m.refs id with
  | none => m
  | some r =>
    let m := if r.online then { m with online := m.online.filter (· ≠ id) }
      else { m with offline := m.offline.filter (· ≠ id) }
    { m with refs := fun i => if i = id then none else m.refs i }

/-! ## Threat

A reference adds threat to the manager again, for the owner of the unit. `again` is
`HostileReference::addThreat` for that reference. -/

section Again

variable (again : ThreatManager → Nat → Rat → ThreatManager)

def addThreatDirectlyWith (victim : Nat) (threat : Rat) : ThreatManager :=
  if victim = w.self ∨ !w.alive victim ∨ !w.inMap victim then m
  else
    match m.getReferenceByTarget m.online victim with
    | some id => again m id threat
    | none =>
      match m.getReferenceByTarget m.offline victim with
      | some id => again m id threat
      | none =>
        let id := m.nextRef
        let m := { m.set id { unitGuid := victim } with nextRef := id + 1 }
        let m := again { m with online := m.online ++ [id] } id threat
        if w.player victim && w.gameMaster victim then m.setOnlineOfflineState id false else m

/-- `ThreatManager::addThreat`. `noThreat`: the spell has no threat attribute; `suppressed`: assist
threat while the creature is under hard crowd control; `calcThreat`
is `CalcThreat` of a threat. -/
def addThreatWith (victim : Nat) (threat : Rat) (noThreat suppressed : Bool)
    (calcThreat : Rat → Rat) : ThreatManager :=
  if victim = w.self then m
  else if w.player victim && w.gameMaster victim then m
  else if !w.alive victim || !w.selfAlive then m
  else if noThreat && (0 ≤ threat || (m.getReferenceByTarget m.online victim).isNone) then m
  else
    let threat := if suppressed then 0 else threat
    let total := if threat = 0 then 0 else calcThreat threat
    match if w.totem victim then w.ownerOf victim else none with
    | some owner =>
      if 0 < w.transferPercent victim then
        let transferred := total * w.transferPercent victim / 100
        let m := m.addThreatDirectlyWith w again owner transferred
        m.addThreatDirectlyWith w again victim (total - transferred)
      else m.addThreatDirectlyWith w again victim total
    | none => m.addThreatDirectlyWith w again victim total

end Again

/-- `HostileReference::addThreat`, for units with at most `n` owners one above the other -/
def addThreatToReference : Nat → ThreatManager → Nat → Rat → ThreatManager
  | 0, m, _, _ => m
  | n + 1, m, id, mod =>
    match m.refs id with
    | none => m
    | some r =>
      let m := m.set id { r with threat := r.threat + mod }
      let m := if r.online then m else m.updateOnlineStatus w id
      let m := if mod = 0 then m else m.threatChanged id mod
      match m.refs id with
      | none => m
      | some r =>
        if r.valid && 0 ≤ mod then
          match w.ownerOf r.unitGuid with
          | some owner =>
            if w.alive owner then
              m.addThreatWith w (addThreatToReference n) owner 0 false false fun threat => threat
            else m
          | none => m
        else m

/-- The owners above a unit are fewer than the units that are older. -/
def addThreatTo (id : Nat) (mod : Rat) : ThreatManager :=
  match m.refs id with
  | none => m
  | some r => addThreatToReference w (w.age r.unitGuid + 1) m id mod

def addThreatDirectly (victim : Nat) (threat : Rat) : ThreatManager :=
  m.addThreatDirectlyWith w (fun m => m.addThreatTo w) victim threat

def addThreat (victim : Nat) (threat : Rat) (noThreat suppressed : Bool)
    (calcThreat : Rat → Rat) : ThreatManager :=
  m.addThreatWith w (fun m => m.addThreatTo w) victim threat noThreat suppressed calcThreat

def addThreatPercent (id : Nat) (percent : Int) : ThreatManager :=
  m.addThreatTo w id (if percent = -100 then -m.threat id else m.threat id * percent / 100)

def modifyThreatPercent (victim : Nat) (percent : Int) : ThreatManager :=
  match m.getReferenceByTarget m.online victim with
  | none => m
  | some id => if percent < -100 then m.removeReference id else m.addThreatPercent w id percent

/-! ## Taunts -/

def setTempThreatModifier (id : Nat) (threat : Rat) : ThreatManager :=
  match m.refs id with
  | none => m
  | some r => (m.set id { r with tempThreatModifyer := threat }).addThreatTo w id threat

/-- `setTempThreat` adds nothing when there is nothing to add. -/
def setTempThreat (id : Nat) (threat : Rat) : ThreatManager :=
  match m.refs id with
  | none => m
  | some r =>
    let mod := threat - r.threat
    let m := m.set id { r with tempThreatModifyer := mod }
    if mod = 0 then m else m.addThreatTo w id mod

def resetTempThreat (id : Nat) : ThreatManager :=
  match m.refs id with
  | none => m
  | some r =>
    if r.tempThreatModifyer = 0 then m
    else
      let m := m.addThreatTo w id (-r.tempThreatModifyer)
      match m.refs id with
      | none => m
      | some r => m.set id { r with tempThreatModifyer := 0 }

/-- `HostileRefManager::addTempThreat`, for one of the references -/
def addTempThreat (id : Nat) (threat : Rat) (apply : Bool) : ThreatManager :=
  if apply then
    if (m.refs id).any fun r => r.tempThreatModifyer = 0 then m.setTempThreatModifier w id threat
    else m
  else m.resetTempThreat w id

def tauntApply (taunter : Nat) : ThreatManager :=
  match m.getReferenceByTarget m.online taunter, m.currentVictim with
  | some id, some v =>
    if m.threat id < m.threat v ∧ (m.refs id).any fun r => r.tempThreatModifyer = 0 then
      m.setTempThreat w id (m.threat v)
    else m
  | _, _ => m

def tauntFadeOut (taunter : Nat) : ThreatManager :=
  match m.getReferenceByTarget m.online taunter with
  | none => m
  | some id => m.resetTempThreat w id

/-! ## The victim -/

/-- What the choice of a victim asks about a reference. -/
structure Target where
  threat : Rat := 0
  outOfThreatArea : Bool := false
  validAttackTarget : Bool := true
  lowPriority : Bool := false
  canReachWithMeleeAutoAttack : Bool := false
  deriving DecidableEq, Repr

def target (id : Nat) : Target :=
  match m.refs id with
  | none => {}
  | some r => {
      threat := r.threat
      outOfThreatArea := w.outOfThreatArea r.unitGuid
      validAttackTarget := w.validAttackTarget r.unitGuid
      lowPriority := w.immuneToDamage r.unitGuid || w.secondaryThreatTarget r.unitGuid ||
        (w.attackerImmobilized && !w.withinChaseDistance r.unitGuid)
      canReachWithMeleeAutoAttack := w.canReachWithMeleeAutoAttack r.unitGuid }

inductive Scan where
  /-- The choice has ended, with no victim when a target is out of the threat area. -/
  | chosen (victim : Option Nat)
  /-- Nobody has been found, and this is left of the current victim. -/
  | nobody (currentVictim : Option Nat)
  deriving DecidableEq, Repr

/-- The loop of `selectNextVictim` in one of its two attempts. -/
def scan (t : Nat → Target) (allowLowPriorityTargets : Bool) : List Nat → Option Nat → Scan
  | [], currentVictim => .nobody currentVictim
  | id :: rest, currentVictim =>
    if (t id).outOfThreatArea then .chosen none
    else if !(t id).validAttackTarget || (!allowLowPriorityTargets && (t id).lowPriority) then
      -- The current victim is a second choice target.
      scan t allowLowPriorityTargets rest
        (if currentVictim = some id then none else currentVictim)
    else
      match currentVictim with
      | none => .chosen (some id)
      | some v =>
        if v = id ∨ (t id).threat ≤ 11 / 10 * (t v).threat then .chosen (some v)
        else if 13 / 10 * (t v).threat < (t id).threat ∨
            (11 / 10 * (t v).threat < (t id).threat ∧ (t id).canReachWithMeleeAutoAttack) then
          .chosen (some id)
        else scan t allowLowPriorityTargets rest currentVictim

def selectNextVictim (t : Nat → Target) (l : List Nat) (currentVictim : Option Nat) : Option Nat :=
  match scan t false l currentVictim with
  | .chosen victim => victim
  | .nobody currentVictim =>
    match scan t true l currentVictim with
    | .chosen victim => victim
    | .nobody _ => none

/-- The list, the most hated first; `std::list::sort` keeps the order of equal ones. -/
def sorted (l : List Nat) : List Nat := l.insertionSort fun a b => m.threat b ≤ m.threat a

/-- `ThreatContainer::update` -/
def update : ThreatManager :=
  { m with
    online := if m.dirty ∧ 1 < m.online.length then m.sorted m.online else m.online
    dirty := false }

def victimTarget : Option Nat :=
  match m.currentVictim with
  | none => none
  | some v => (m.refs v).bind fun r => if r.valid then some r.unitGuid else none

/-- `getHostileTarget`, and the unit that it returns -/
def getHostileTarget : ThreatManager × Option Nat :=
  let m := m.update
  let m := { m with currentVictim := selectNextVictim (m.target w) m.online m.currentVictim }
  (m, m.victimTarget)

def setCurrentVictimIfCan (victim : Nat) : ThreatManager :=
  match m.getReferenceByTarget m.online victim with
  | none => m
  | some id => { m with currentVictim := some id }

def clearReferences : ThreatManager :=
  { m with refs := fun _ => none, online := [], offline := [], currentVictim := none }

/-- What can be done with a manager and its references. -/
inductive Op where
  | addThreat (w : ThreatWorld) (victim : Nat) (threat : Rat) (noThreat suppressed : Bool)
      (calcThreat : Rat → Rat)
  | addThreatDirectly (w : ThreatWorld) (victim : Nat) (threat : Rat)
  | addThreatTo (w : ThreatWorld) (id : Nat) (mod : Rat)
  | addThreatPercent (w : ThreatWorld) (id : Nat) (percent : Int)
  | modifyThreatPercent (w : ThreatWorld) (victim : Nat) (percent : Int)
  | addTempThreat (w : ThreatWorld) (id : Nat) (threat : Rat) (apply : Bool)
  | tauntApply (w : ThreatWorld) (taunter : Nat)
  | tauntFadeOut (w : ThreatWorld) (taunter : Nat)
  | setOnlineOfflineState (id : Nat) (isOnline : Bool)
  | updateOnlineStatus (w : ThreatWorld) (id : Nat)
  | invalidate (id : Nat)
  | removeReference (id : Nat)
  | setCurrentVictimIfCan (victim : Nat)
  | getHostileTarget (w : ThreatWorld)
  | clearReferences

def step (m : ThreatManager) : Op → ThreatManager
  | .addThreat w victim threat noThreat suppressed calcThreat =>
    m.addThreat w victim threat noThreat suppressed calcThreat
  | .addThreatDirectly w victim threat => m.addThreatDirectly w victim threat
  | .addThreatTo w id mod => m.addThreatTo w id mod
  | .addThreatPercent w id percent => m.addThreatPercent w id percent
  | .modifyThreatPercent w victim percent => m.modifyThreatPercent w victim percent
  | .addTempThreat w id threat apply => m.addTempThreat w id threat apply
  | .tauntApply w taunter => m.tauntApply w taunter
  | .tauntFadeOut w taunter => m.tauntFadeOut w taunter
  | .setOnlineOfflineState id isOnline =>
    -- The unit sets the state of the references that are linked to it.
    if (m.refs id).any HostileReference.valid then m.setOnlineOfflineState id isOnline else m
  | .updateOnlineStatus w id => m.updateOnlineStatus w id
  | .invalidate id => m.invalidate id
  | .removeReference id => m.removeReference id
  | .setCurrentVictimIfCan victim => m.setCurrentVictimIfCan victim
  | .getHostileTarget w => (m.getHostileTarget w).1
  | .clearReferences => m.clearReferences

end ThreatManager

end Windrunner
