import Windrunner.Lib.SortedMap
import Windrunner.Lib.Run

/-!
# Reputation

A player has a standing and flags with every faction of the reputation list. The standing does not
count the base value of his race and class.

* `reputationToRank`: the rank of a reputation, base and standing together.
* `FactionState.setOneReputation`, `setVisible`, `setAtWar`, `setInactive`: writes to one faction.
* `FactionState.load`: the flags are built again from the defaults and the flags that were saved.
* `ReputationMgr.step`: a call on the manager. A relog is a save with a load after it.
-/

namespace Windrunner

open Lib

inductive ReputationRank where
  | hated
  | hostile
  | unfriendly
  | neutral
  | friendly
  | honored
  | revered
  | exalted
  deriving DecidableEq, Repr

namespace ReputationRank

def toNat : ReputationRank → Nat
  | hated => 0
  | hostile => 1
  | unfriendly => 2
  | neutral => 3
  | friendly => 4
  | honored => 5
  | revered => 6
  | exalted => 7

instance : LT ReputationRank := ⟨fun a b => a.toNat < b.toNat⟩

instance : LE ReputationRank := ⟨fun a b => a.toNat ≤ b.toNat⟩

instance (a b : ReputationRank) : Decidable (a < b) := inferInstanceAs (Decidable (a.toNat < b.toNat))

instance (a b : ReputationRank) : Decidable (a ≤ b) := inferInstanceAs (Decidable (a.toNat ≤ b.toNat))

end ReputationRank

abbrev reputationCap : Int32 := 42999
abbrev reputationBottom : Int32 := -42000

/-- The ranks with the `PointsInRank` of each, from the highest. -/
def pointsInRank : List (ReputationRank × Int32) :=
  [(.exalted, 1000), (.revered, 21000), (.honored, 12000), (.friendly, 6000), (.neutral, 3000),
    (.unfriendly, 3000), (.hostile, 3000), (.hated, 36000)]

/-- The loop of `ReputationToRank`, from `limit` down. -/
def rankBelow (standing : Int32) : Int32 → List (ReputationRank × Int32) → ReputationRank
  | _, [] => .hated
  | limit, (rank, points) :: ranks =>
    if standing ≥ limit - points then rank else rankBelow standing (limit - points) ranks

def reputationToRank (standing : Int32) : ReputationRank :=
  rankBelow standing (reputationCap + 1) pointsInRank

/-! ## Factions -/

/-- The bits of `FactionFlags`; `others` are the ones without a name. -/
@[ext] structure FactionFlags where
  visible : Bool := false
  atWar : Bool := false
  hidden : Bool := false
  invisibleForced : Bool := false
  peaceForced : Bool := false
  inactive : Bool := false
  rival : Bool := false
  others : UInt32 := 0
  deriving DecidableEq, Repr

/-- The value that a faction has for some races and classes. -/
structure ReputationBase where
  raceMask : UInt32 := 0
  classMask : UInt32 := 0
  value : Int32 := 0
  flags : FactionFlags := {}
  deriving DecidableEq, Repr

structure FactionEntry where
  id : Nat
  reputationListId : Int32
  base : List ReputationBase := []
  deriving DecidableEq, Repr

namespace FactionEntry

def canHaveReputation (e : FactionEntry) : Bool := e.reputationListId ≥ 0

def repListId (e : FactionEntry) : Nat := e.reputationListId.toUInt32.toNat

end FactionEntry

/-- The factions of the world, and the masks of the player. -/
structure FactionStore where
  entries : List FactionEntry
  raceMask : UInt32 := 0
  classMask : UInt32 := 0
  /-- `RepSpilloverTemplate`: the factions that get a share, up to a rank. -/
  spillover : Nat → List (Nat × ReputationRank) := fun _ => []
  ids : (entries.map (·.id)).Nodup
  /-- A place of the reputation list belongs to one faction. -/
  places : ∀ e ∈ entries, ∀ e' ∈ entries, e.canHaveReputation = true →
    e.reputationListId = e'.reputationListId → e = e'

namespace FactionStore

def getFactionEntry (s : FactionStore) (id : Nat) : Option FactionEntry :=
  s.entries.find? (·.id = id)

/-- `GetIndexFitTo` -/
def baseFitTo (s : FactionStore) (e : FactionEntry) : Option ReputationBase :=
  e.base.find? fun b => (b.raceMask == 0 || b.raceMask &&& s.raceMask != 0) &&
    (b.classMask == 0 || b.classMask &&& s.classMask != 0)

def getBaseReputation (s : FactionStore) (e : FactionEntry) : Int32 :=
  (s.baseFitTo e).elim 0 (·.value)

def getDefaultStateFlags (s : FactionStore) (e : FactionEntry) : FactionFlags :=
  (s.baseFitTo e).elim {} (·.flags)

end FactionStore

structure FactionState where
  id : Nat
  flags : FactionFlags
  standing : Int32 := 0
  needSave : Bool := true
  deriving DecidableEq, Repr

namespace FactionState

variable (st : FactionState)

/-- Neither hidden nor kept invisible. -/
def isShown : Bool := !(st.flags.invisibleForced || st.flags.hidden)

/-- `SetVisible` -/
def setVisible : FactionState :=
  if !st.isShown then st
  else if st.flags.visible then st
  else { st with flags.visible := true, needSave := true }

/-- `SetAtWar` of a faction that was found. -/
def setAtWar (atWar : Bool) : FactionState :=
  if st.flags.atWar && atWar then st
  else if atWar && st.flags.peaceForced && reputationToRank st.standing > .hated then st
  else { st with flags.atWar := atWar, needSave := true }

/-- `SetAtWar` by the place in the list. -/
def setAtWarById (on : Bool) : FactionState :=
  if !st.isShown then st else st.setAtWar on

def setInactive (inactive : Bool) : FactionState :=
  if inactive && (!st.isShown || !st.flags.visible) then st
  else if st.flags.inactive == inactive then st
  else { st with flags.inactive := inactive, needSave := true }

/-- The new reputation in `SetOneFactionReputation`. -/
def newReputation (base : Int32) (st : FactionState) (standing : Int32) (incremental : Bool) : Int32 :=
  let standing := if incremental then standing + (st.standing + base) else standing
  if standing > reputationCap then reputationCap
  else if standing < reputationBottom then reputationBottom
  else standing

/-- The flag of war follows the rank. -/
def followRank (rankOld rankNew : ReputationRank) : FactionState :=
  if rankNew = rankOld then st
  -- hostile: the flag is set, and locked for manual changes
  else if rankNew < .unfriendly ∧ rankNew < rankOld ∧ rankOld > .hostile then st.setAtWar true
  else if rankNew > .unfriendly ∧ rankNew > rankOld ∧ rankOld < .neutral then st.setAtWarById false
  else st

/-- `SetOneFactionReputation` of a faction that was found. -/
def setOneReputation (base : Int32) (st : FactionState) (standing : Int32)
    (incremental noBase : Bool) : FactionState :=
  let standing := newReputation base st standing incremental
  let rankOld := reputationToRank (st.standing + base)
  let rankNew := reputationToRank standing
  let st := { st with standing := if noBase then standing else standing - base, needSave := true }
  st.setVisible.followRank rankOld rankNew

/-- A row of `character_reputation` is applied, in `LoadFromDB`. -/
def load (base : Int32) (forced : Option ReputationRank) (st : FactionState) (standing : Int32)
    (dbFactionFlags : FactionFlags) : FactionState :=
  let st := { st with standing }
  let st := if dbFactionFlags.visible then st.setVisible else st
  let st := if dbFactionFlags.inactive then st.setInactive true else st
  let st := if dbFactionFlags.atWar then st.setAtWar true
    else if st.flags.visible then st.setAtWar false else st
  let rank := forced.getD (reputationToRank (base + st.standing))
  let st := if rank ≤ .hostile then st.setAtWar true else st
  if st.flags = dbFactionFlags then { st with needSave := false } else st

end FactionState

/-! ## The manager -/

structure ReputationMgr where
  /-- By the place in the list. -/
  factions : SortedMap Nat FactionState := ∅
  forcedReactions : Nat → Option ReputationRank := fun _ => none
  /-- `character_reputation`: standing and flags by faction. -/
  rows : SortedMap Nat (Int32 × FactionFlags) := ∅
  /-- The reputation with the faction was set. No step reads it. -/
  changed : Nat → Bool := fun _ => false
  /-- The rank sank to hostile or worse, and is still there. No step reads it. -/
  sunk : Nat → Bool := fun _ => false

namespace ReputationMgr

variable (s : FactionStore) (m : ReputationMgr)

/-- `Initialize` -/
def initFactions : SortedMap Nat FactionState :=
  (s.entries.filter (·.canHaveReputation)).foldl
    (fun m e => m.insert e.repListId { id := e.id, flags := s.getDefaultStateFlags e }) ∅

/-- A row of the result. -/
def loadRow (forced : Nat → Option ReputationRank)
    (m : SortedMap Nat FactionState) (id : Nat) (standing : Int32) (flags : FactionFlags) :
    SortedMap Nat FactionState :=
  match s.getFactionEntry id with
  | none => m
  | some e =>
    if e.canHaveReputation then
      m.modify e.repListId (·.load (s.getBaseReputation e) (forced id) standing flags)
    else m

def loadFromDB : ReputationMgr :=
  { m with
    factions := m.rows.entries.foldl
      (fun f x => loadRow s m.forcedReactions f x.1 x.2.1 x.2.2) (initFactions s) }

def saveToDB : ReputationMgr :=
  { m with
    rows := m.factions.entries.foldl (fun rows x =>
      if x.2.needSave then rows.insert x.2.id (x.2.standing, x.2.flags) else rows) m.rows
    factions := m.factions.mapVal fun _ st => { st with needSave := false } }

def modify (listId : Nat) (f : FactionState → FactionState) : ReputationMgr :=
  { m with factions := m.factions.modify listId f }

def getReputation (e : FactionEntry) : Int32 :=
  if e.canHaveReputation then
    (m.factions.find e.repListId).elim 0 fun st => s.getBaseReputation e + st.standing
  else 0

/-- `Player::GetReputationRank` -/
def getReputationRank (id : Nat) : ReputationRank :=
  reputationToRank ((s.getFactionEntry id).elim 0 (m.getReputation s))

def setOneFactionReputation (e : FactionEntry)
    (standing : Int32) (incremental noBase : Bool) : ReputationMgr :=
  match m.factions.find e.repListId with
  | none => m
  | some st =>
    let base := s.getBaseReputation e
    let rankOld := reputationToRank (st.standing + base)
    let rankNew := reputationToRank (st.newReputation base standing incremental)
    { m.modify e.repListId (·.setOneReputation base standing incremental noBase) with
      changed := Function.update m.changed e.repListId true
      sunk := Function.update m.sunk e.repListId
        (rankNew ≤ .hostile && (m.sunk e.repListId || rankOld > .hostile)) }

/-- The shares of the other factions. The amounts are computed in floating point. -/
def spill (s : FactionStore) (incremental noBase : Bool) :
    List (Nat × ReputationRank) → List Int32 → ReputationMgr → ReputationMgr
  | (id, rank) :: shares, amount :: amounts, m =>
    let m := match s.getFactionEntry id with
      | some e =>
        if m.getReputationRank s id ≤ rank then
          m.setOneFactionReputation s e amount incremental noBase
        else m
      | none => m
    spill s incremental noBase shares amounts m
  | _, _, m => m

def setReputation (e : FactionEntry) (standing : Int32)
    (incremental noSpillover noBase : Bool) (amounts : List Int32) : ReputationMgr :=
  let m := if noSpillover then m else spill s incremental noBase (s.spillover e.id) amounts m
  m.setOneFactionReputation s e standing incremental noBase

end ReputationMgr

inductive ReputationInput where
  | setReputation (id : Nat) (standing : Int32) (incremental noSpillover : Bool)
      (amounts : List Int32)
  /-- `CMSG_SET_FACTION_ATWAR` -/
  | setAtWar (listId : Nat) (flag : Bool)
  /-- `CMSG_SET_FACTION_INACTIVE` -/
  | setInactive (listId : Nat) (inactive : Bool)
  | save
  | relog
  deriving DecidableEq, Repr

namespace ReputationMgr

def step (s : FactionStore) (m : ReputationMgr) : ReputationInput → ReputationMgr
  | .setReputation id standing incremental noSpillover amounts =>
    match s.getFactionEntry id with
    | none => m
    | some e => m.setReputation s e standing incremental noSpillover false amounts
  | .setAtWar listId flag => m.modify listId (·.setAtWarById flag)
  | .setInactive listId inactive => m.modify listId (·.setInactive inactive)
  | .save => m.saveToDB
  | .relog => m.saveToDB.loadFromDB s

end ReputationMgr

end Windrunner
