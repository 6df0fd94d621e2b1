import Mathlib.Algebra.Order.Field.Rat
import Windrunner.Loot.State

/-!
# Loot tables

* `loadLootTable`: the rows of one table become templates, after the checks on each row
  (`LootStoreEntry.isValid`). What `Verify` and `CheckLootRefs` find is reported and kept.
* `LootTemplate.process`: the dice choose from a template. A reference goes on with a template of
  `reference_loot_template`, and nothing limits how deep this goes but the references themselves:
  `fuel` is the depth of the calls.
* `LootTemplate.anyDrop`: `HasQuestDrop` and `HasQuestDropForPlayer`, which follow references inside
  the store they are asked about.

Chances are rational numbers here.
-/

namespace Windrunner

open Lib

/-- `LootStoreItem` of a template: an item, or a reference when `mincountOrRef` is negative. -/
structure LootStoreEntry where
  itemid : Nat
  chance : ℚ
  mincountOrRef : Int32
  group : Nat
  needsQuest : Bool
  maxcount : UInt8
  conditionId : Nat
  deriving DecidableEq, Repr

/-- A row of a loot table. -/
structure LootRow where
  entry : Nat
  item : Nat
  chanceOrQuestChance : ℚ
  group : UInt8 := 0
  mincountOrRef : Int32 := 1
  maxcount : Nat := 1
  conditionId : Nat := 0
  deriving DecidableEq, Repr

/-- What `item_template` has on an item. -/
structure LootProto where
  quality : Nat := 0
  partyLoot : Bool := false
  startQuest : Nat := 0
  deriving DecidableEq, Repr

/-- The items and conditions there are, and the rates of the world. -/
structure LootDb where
  getItemPrototype : Nat → Option LootProto
  conditionExists : Nat → Bool := fun _ => false
  canBeUsedWithoutPlayer : Nat → Bool := fun _ => false
  rateReferenced : ℚ := 1
  rateQuality : Nat → ℚ := fun _ => 1

structure LootGroup where
  explicitlyChanced : List LootStoreEntry := []
  equalChanced : List LootStoreEntry := []
  hasConditionalEqualChancedItem : Bool := false
  deriving DecidableEq, Repr

structure LootTemplate where
  /-- Not grouped, and references. -/
  entries : List LootStoreEntry := []
  groups : List LootGroup := []
  deriving DecidableEq, Repr

structure LootStore where
  templates : FinMap Nat LootTemplate := ∅

inductive LootStoreName where
  | creature
  | disenchant
  | fishing
  | gameobject
  | item
  | mail
  | pickpocketing
  | reference
  | skinning
  deriving DecidableEq, Repr

def LootStoreName.ratesAllowed : LootStoreName → Bool
  | mail | reference => false
  | _ => true

/-! ## The loader -/

/-- The group loses all but 7 bits. -/
def LootRow.storeEntry (r : LootRow) : LootStoreEntry where
  itemid := r.item
  chance := |r.chanceOrQuestChance|
  mincountOrRef := r.mincountOrRef
  group := r.group.toNat % 128
  needsQuest := r.chanceOrQuestChance < 0
  maxcount := UInt8.ofNat r.maxcount
  conditionId := r.conditionId

namespace LootStoreEntry

def isRef (e : LootStoreEntry) : Bool := e.mincountOrRef < 0

/-- The id of the template that a reference names. -/
def ref (e : LootStoreEntry) : Nat := (-e.mincountOrRef).toUInt32.toNat

def isValid (db : LootDb) (e : LootStoreEntry) : Bool :=
  if e.group ≥ 128 then false
  else if e.mincountOrRef = 0 then false
  else if e.mincountOrRef > 0 then
    if (db.getItemPrototype e.itemid).isNone then false
    else if e.chance = 0 ∧ e.group = 0 then false
    else if e.chance ≠ 0 ∧ e.chance < 1 / 1000000 then false
    else if e.maxcount.toNat < e.mincountOrRef.toInt then false
    else true
  else if e.needsQuest then true
  else if e.chance = 0 then false
  else true

end LootStoreEntry

/-- The row is taken by `LoadLootTable`. -/
def LootRow.loads (db : LootDb) (r : LootRow) : Bool :=
  if r.maxcount > 255 then false
  else if r.mincountOrRef < 0 ∧ r.conditionId ≠ 0 then false
  else if r.conditionId ≠ 0 ∧ !db.conditionExists r.conditionId then false
  else if r.conditionId ≠ 0 ∧ r.mincountOrRef < 0 ∧ !db.canBeUsedWithoutPlayer r.conditionId then false
  else r.storeEntry.isValid db

def LootGroup.addEntry (g : LootGroup) (e : LootStoreEntry) : LootGroup :=
  if e.chance ≠ 0 then { g with explicitlyChanced := g.explicitlyChanced ++ [e] }
  else
    { g with
      equalChanced := g.equalChanced ++ [e]
      hasConditionalEqualChancedItem :=
        g.hasConditionalEqualChancedItem || e.conditionId != 0 }

def LootTemplate.addEntry (t : LootTemplate) (e : LootStoreEntry) : LootTemplate :=
  if e.group > 0 ∧ e.mincountOrRef > 0 then
    let groups := t.groups ++ List.replicate (e.group - t.groups.length) (LootGroup.mk [] [] false)
    { t with groups := groups.modify (e.group - 1) (·.addEntry e) }
  else { t with entries := t.entries ++ [e] }

namespace LootStore

def getLootFor (s : LootStore) (id : Nat) : Option LootTemplate := s.templates.lookup id

def addRow (db : LootDb) (s : LootStore) (r : LootRow) : LootStore :=
  if r.loads db then
    { s with templates :=
        s.templates.insert r.entry (((s.getLootFor r.entry).getD {}).addEntry r.storeEntry) }
  else s

def loadLootTable (db : LootDb) (rows : List LootRow) : LootStore := rows.foldl (addRow db) {}

end LootStore

abbrev LootTables := LootStoreName → LootStore

namespace LootTables

def load (db : LootDb) (rows : LootStoreName → List LootRow) : LootTables :=
  fun name => .loadLootTable db (rows name)

/-- The references of a template to what is not in `reference_loot_template`, which `CheckLootRefs`
reports. -/
def checkLootRefs (t : LootTables) (tmpl : LootTemplate) : List Nat :=
  let refs := tmpl.entries ++ tmpl.groups.flatMap fun g => g.explicitlyChanced ++ g.equalChanced
  ((refs.filter (·.isRef)).map (·.ref)).filter fun id => ((t .reference).getLootFor id).isNone

end LootTables

/-! ## The dice -/

/-- What decides, besides the tables, what a loot becomes: the dice, the conditions on the team and
the map, the auras of the owner. -/
structure LootLuck where
  /-- The throws of `rand_chance`. -/
  chance : Nat → ℚ
  chance_mem : ∀ n, 0 ≤ chance n ∧ chance n < 100
  /-- The throws of `urand` and `irand`, to be taken modulo the number of choices. -/
  pick : Nat → Nat
  conditionMeets : Nat → Bool
  crossFaction : Bool
  gatheringChanceMod : Nat → ℚ

/-- A loot that is being filled, and the number of throws so far. -/
structure Filling where
  loot : Loot := {}
  throws : Nat := 0

/-- `roll_chance_f` -/
def Filling.rollChance (luck : LootLuck) (s : Filling) (chance : ℚ) : Bool × Filling :=
  (decide (chance > luck.chance s.throws), { s with throws := s.throws + 1 })

namespace LootStoreEntry

def allowedForTeam (luck : LootLuck) (e : LootStoreEntry) : Bool :=
  e.conditionId == 0 || luck.conditionMeets e.conditionId

/-- `LootStoreItem::Roll` -/
def roll (db : LootDb) (luck : LootLuck) (rate : Bool) (e : LootStoreEntry) (s : Filling) :
    Bool × Filling :=
  if e.chance ≥ 100 then (true, s)
  else if e.isRef then s.rollChance luck (e.chance * if rate then db.rateReferenced else 1)
  else
    let qualityModifier := ((db.getItemPrototype e.itemid).filter fun _ => rate).elim 1
      fun proto => db.rateQuality proto.quality
    s.rollChance luck
      (e.chance * qualityModifier * (100 + luck.gatheringChanceMod e.itemid) / 100)

end LootStoreEntry

def Filling.addItem (db : LootDb) (luck : LootLuck) (s : Filling) (e : LootStoreEntry) : Filling :=
  let choices := e.maxcount.toNat - e.mincountOrRef.toNatClampNeg + 1
  { loot := s.loot.addItem
      { itemid := e.itemid
        count := UInt8.ofNat (e.mincountOrRef.toNatClampNeg + luck.pick s.throws % choices)
        conditionId := e.conditionId
        needsQuest := e.needsQuest
        partyLoot := (db.getItemPrototype e.itemid).any (·.partyLoot) }
    throws := s.throws + 1 }

namespace LootGroup

/-- The entry that one throw selects. -/
def rollExplicit (luck : LootLuck) (roll : ℚ) : List LootStoreEntry → Option LootStoreEntry
  | [] => none
  | e :: es =>
    if !e.allowedForTeam luck then rollExplicit luck roll es
    else if e.chance ≥ 100 then some e
    else
      let roll := roll - e.chance * (100 + luck.gatheringChanceMod e.itemid) / 100
      if roll < 0 then some e else rollExplicit luck roll es

def rollEqual (luck : LootLuck) (g : LootGroup) (throw : Nat) : Option LootStoreEntry :=
  if !g.hasConditionalEqualChancedItem || luck.crossFaction then
    g.equalChanced[luck.pick throw % g.equalChanced.length]?
  else
    let ok := g.equalChanced.filter (·.allowedForTeam luck)
    ok[luck.pick throw % ok.length]?

def roll (luck : LootLuck) (g : LootGroup) (throw : Nat) : Option LootStoreEntry :=
  (rollExplicit luck (luck.chance throw) g.explicitlyChanced).or (g.rollEqual luck (throw + 1))

def process (db : LootDb) (luck : LootLuck) (g : LootGroup) (s : Filling) : Filling :=
  let rolled := { s with throws := s.throws + 2 }
  (g.roll luck s.throws).elim rolled (rolled.addItem db luck)

def anyDrop (drop : LootStoreEntry → Bool) (g : LootGroup) : Bool :=
  g.explicitlyChanced.any drop || g.equalChanced.any drop

end LootGroup

namespace LootTemplate

/-- A non-grouped entry is rolled; `go` processes the template of a reference. -/
def processEntry (db : LootDb) (luck : LootLuck) (reference : LootStore) (rate : Bool)
    (go : LootTemplate → Nat → Filling → Option Filling) (s : Filling) (e : LootStoreEntry) :
    Option Filling :=
  let rolled := e.roll db luck rate s
  if !rolled.1 then some rolled.2
  else if e.isRef then
    match reference.getLootFor e.ref with
    | none => some rolled.2
    | some referenced => (List.replicate e.maxcount.toNat referenced).foldlM
        (fun s referenced => go referenced e.group s) rolled.2
  else some (rolled.2.addItem db luck e)

/-- A template of any store is rolled, and the templates of `reference` below it. -/
def process (db : LootDb) (luck : LootLuck) (reference : LootStore) (rate : Bool) :
    Nat → LootTemplate → Nat → Filling → Option Filling
  | 0, _, _, _ => none
  | fuel + 1, t, groupId, s =>
    if groupId ≠ 0 then
      some ((t.groups[groupId - 1]?).elim s fun g => g.process db luck s)
    else do
      let s ← t.entries.foldlM
        (processEntry db luck reference rate (process db luck reference rate fuel)) s
      some (t.groups.foldl (fun s g => g.process db luck s) s)

def anyDropEntry (drop : LootStoreEntry → Bool) (store : LootStore)
    (go : LootTemplate → Nat → Option Bool) (e : LootStoreEntry) : Option Bool :=
  if e.isRef then
    match store.getLootFor e.ref with
    | none => some false
    | some referenced => go referenced e.group
  else some (drop e)

/-- `HasQuestDrop` and `HasQuestDropForPlayer`: an entry of the template passes `drop`. References
are looked up in `store`. -/
def anyDrop (drop : LootStoreEntry → Bool) (store : LootStore) :
    Nat → LootTemplate → Nat → Option Bool
  | 0, _, _ => none
  | fuel + 1, t, groupId =>
    if groupId ≠ 0 then some ((t.groups[groupId - 1]?).any (·.anyDrop drop))
    else do
      let found ← t.entries.anyM (anyDropEntry drop store (anyDrop drop store fuel))
      some (found || t.groups.any (·.anyDrop drop))

end LootTemplate

def LootDb.itemStartsQuest (db : LootDb) (itemid : Nat) : Bool :=
  (db.getItemPrototype itemid).any (·.startQuest != 0)

/-- What a player has to do for quests and has done. -/
structure LootQuester where
  hasQuestForItem : Nat → Bool
  questRewardStatus : Nat → Bool

def LootQuester.itemStartsQuestPlayerHasNotDone (player : LootQuester) (db : LootDb) (itemid : Nat) :
    Bool :=
  (db.getItemPrototype itemid).any fun proto =>
    proto.startQuest != 0 && !player.questRewardStatus proto.startQuest

namespace LootTemplate

def hasQuestDrop (db : LootDb) (store : LootStore) (fuel : Nat) (t : LootTemplate) : Option Bool :=
  t.anyDrop (fun e => e.needsQuest || db.itemStartsQuest e.itemid) store fuel 0

def hasQuestDropForPlayer (db : LootDb) (store : LootStore) (player : LootQuester) (fuel : Nat)
    (t : LootTemplate) : Option Bool :=
  t.anyDrop (fun e => player.hasQuestForItem e.itemid ||
    player.itemStartsQuestPlayerHasNotDone db e.itemid) store fuel 0

end LootTemplate

end Windrunner
