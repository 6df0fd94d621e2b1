import Mathlib.Data.UInt

/-!
# Item prototypes and items

* `ItemPrototype`: one row of the item template table. The limits the loader enforces are fields:
  stacks of 1 to 255 units (a larger `Stackable` is reset at load), at most `MAX_BAG_SIZE`
  container slots. So are two facts of the shipped table: only bags have container slots (only
  those are `Bag` objects), and bags do not stack.
* `ItemDb`: the loaded table (`sObjectMgr.GetItemPrototype`) and the client data the items read.
* `Item db`: an item object. It carries its prototype together with the fact that the table holds
  it, so two items with one entry share one prototype (`Item.proto_of_get`).
-/

namespace Windrunner

/-- The results of the inventory checks (`EQUIP_ERR_...`). -/
inductive InventoryResult where
  | ok
  | itemDoesntGoToSlot
  | nonemptyBagOverOtherBag
  | itemDoesntGoIntoBag
  | cantCarryMoreOfThis
  | itemCantStack
  | itemsCantBeSwapped
  | itemNotFound
  | canOnlyDoWithEmptyBags
  | dontOwnThatItem
  | alreadyLooted
  | inventoryFull
  | bankFull
  deriving DecidableEq, Repr

/-- `m_lootState` of an item (`ITEM_LOOT_...`). -/
inductive ItemLootUpdateState where
  | none
  | temporary
  | unchanged
  | changed
  | new
  | removed
  deriving DecidableEq, Repr

/-! ## Constants of the prototypes -/

abbrev itemClassConsumable : Nat := 0
abbrev itemClassContainer : Nat := 1
abbrev itemClassQuiver : Nat := 11
abbrev invtypeBag : Nat := 18
abbrev bagFamilyKeys : Nat := 9
abbrev bindWhenPickedUp : Nat := 1
abbrev bindWhenEquipped : Nat := 2
abbrev bindQuestItem : Nat := 4
abbrev bindAccount : Nat := 6
abbrev maxBagSize : Nat := 36

def itemFlagConjured : UInt32 := 0x2
def itemFlagUnk6 : UInt32 := 0x40
def itemFlagCharter : UInt32 := 0x2000
def itemExtraCreateBroken : UInt32 := 0x8

def itemDynflagBinded : UInt32 := 0x1
def itemDynflagUnk6 : UInt32 := 0x40
def itemDynflagUnk13 : UInt32 := 0x2000
def itemDynflagBoa : UInt32 := 0x40000

/-- A row of the item template table: the columns the modelled code reads. -/
structure ItemPrototype where
  itemId : Nat
  name1 : String := ""
  quality : Nat := 1
  itemClass : Nat := 0
  subClass : Nat := 0
  inventoryType : Nat := 0
  bagFamily : Nat := 0
  /-- `0` means no limit. -/
  maxCount : UInt32 := 0
  stackable : UInt32
  containerSlots : Nat := 0
  bonding : Nat := 0
  flags : UInt32 := 0
  extraFlags : UInt32 := 0
  duration : UInt32 := 0
  maxDurability : UInt32 := 0
  spellCharges : List Int := [0, 0, 0, 0, 0]
  stackable_pos : 0 < stackable.toNat := by decide
  stackable_le : stackable.toNat ≤ 255 := by decide
  containerSlots_le : containerSlots ≤ maxBagSize := by decide
  containerSlots_bag : 0 < containerSlots → inventoryType = invtypeBag := by decide
  containerSlots_single : 0 < containerSlots → stackable = 1 := by decide
  deriving DecidableEq

/-- The update fields of an item that no inventory check reads. -/
structure ItemFields where
  creator : Nat := 0
  giftCreator : Nat := 0
  duration : UInt32 := 0
  spellCharges : List Int := [0, 0, 0, 0, 0]
  /-- Id, duration and charges of each of the seven enchantment slots. -/
  enchantments : List UInt32 := List.replicate 21 0
  randomPropertyId : Int := 0
  transmogrifyId : UInt32 := 0
  durability : UInt32 := 0
  itemTextId : UInt32 := 0
  generatedLoot : Bool := false
  deriving DecidableEq

/-- The item template table, and the random properties of the client data files. -/
structure ItemDb where
  /-- `sObjectMgr.GetItemPrototype`. -/
  get : Nat → Option ItemPrototype
  get_id : ∀ {e p}, get e = some p → p.itemId = e
  /-- The fields `Item::SetItemRandomProperties` writes for a property id. -/
  setItemRandomProperties : Int → ItemFields → ItemFields := fun _ f => f
  /-- `nameSuffix[0]` of a random property. -/
  nameSuffix : Int → String := fun _ => ""

/-- An item template table without rows. -/
def noItems : ItemDb := { get := fun _ => none, get_id := fun h => absurd h (by simp) }

/-- An item object. -/
structure Item (db : ItemDb) where
  guid : Nat
  proto : ItemPrototype
  isProto : db.get proto.itemId = some proto
  count : UInt32
  owner : Nat := 0
  flags : UInt32 := 0
  inTrade : Bool := false
  /-- `!loot.empty()`. -/
  hasLoot : Bool := false
  lootState : ItemLootUpdateState := .none
  /-- `CanBeTradedEvenIfSoulBound()`: the trade window of a bound item is still open. -/
  canBeTradedEvenIfSoulBound : Bool := false
  fields : ItemFields := {}
  deriving DecidableEq

namespace Item

variable {db : ItemDb}

variable (it : Item db)

def entry : Nat := it.proto.itemId

theorem proto_of_get {it : Item db} {p : ItemPrototype} (hp : db.get p.itemId = some p)
    (h : it.entry = p.itemId) : it.proto = p := by
  have := it.isProto
  rw [show it.proto.itemId = p.itemId from h, hp] at this
  exact (Option.some.inj this).symm

def isBag : Bool := it.proto.inventoryType == invtypeBag

/-- `Bag::GetBagSize`. -/
def bagSize : Nat := it.proto.containerSlots

def hasFlag (f : UInt32) : Bool := it.flags &&& f != 0

def isSoulBound : Bool :=
  it.hasFlag itemDynflagBinded || it.hasFlag itemDynflagBoa

def hasGeneratedLoot : Bool :=
  it.hasLoot && it.lootState != .none && it.lootState != .removed

def hasTemporaryLoot : Bool := it.hasLoot && it.lootState == .temporary

def isBindedNotWith (player : Nat) : Bool :=
  if it.owner == player then false
  else if it.hasGeneratedLoot then true
  else if !it.isSoulBound || it.canBeTradedEvenIfSoulBound then false
  else true

def isConjuredConsumable : Bool :=
  it.proto.itemClass == itemClassConsumable && it.proto.flags &&& itemFlagConjured != 0

/-- Whether a unit of prototype `proto` can be added to the stack `it`. -/
def canBeMergedPartlyWith (proto : ItemPrototype) : InventoryResult :=
  if it.entry ≠ proto.itemId then .itemCantStack
  else if it.count ≥ proto.stackable then .itemCantStack
  else if it.hasGeneratedLoot then .alreadyLooted
  else .ok

theorem canBeMergedPartlyWith_ok {it : Item db} {proto : ItemPrototype}
    (h : it.canBeMergedPartlyWith proto = .ok) :
    it.entry = proto.itemId ∧ it.count < proto.stackable ∧ it.hasGeneratedLoot = false := by
  unfold canBeMergedPartlyWith at h
  split_ifs at h with h1 h2 h3
  exact ⟨not_not.mp h1, by simpa using h2, by simpa using h3⟩

/-- A flag word with `f` set or cleared (`ApplyModFlag`). -/
def applyModFlag (flags f : UInt32) (val : Bool) : UInt32 :=
  if val then flags ||| f else flags &&& ~~~f

/-- `Item::CreateItem` for a prototype of the table: `none` for a request of no units, and never
more than one stack. The guid is what the generator hands out. -/
def createItem (guid : Nat) (proto : ItemPrototype) (isProto : db.get proto.itemId = some proto)
    (count : UInt32) (owner : Nat) : Option (Item db) :=
  if count < 1 then none
  else
    let flags := applyModFlag 0 itemDynflagUnk6 (proto.flags &&& itemFlagUnk6 != 0)
    let flags := applyModFlag flags itemDynflagUnk13 (proto.flags &&& itemFlagCharter != 0)
    let flags := if proto.bonding == bindAccount then applyModFlag flags itemDynflagBoa true else flags
    some
      { guid, proto, isProto, owner, flags
        count := if count > proto.stackable then proto.stackable else count
        fields :=
          { durability := if proto.extraFlags &&& itemExtraCreateBroken != 0 then 0
              else proto.maxDurability
            spellCharges := proto.spellCharges
            duration := proto.duration } }

/-- `Item::CloneItem`: a fresh stack with the properties of `it`. -/
def cloneItem (guid : Nat) (count : UInt32) (player : Nat) : Option (Item db) :=
  (createItem guid it.proto it.isProto count player).map fun new =>
    { new with
      flags := it.flags
      fields :=
        let fields :=
          { new.fields with
            creator := it.fields.creator
            giftCreator := it.fields.giftCreator
            duration := it.fields.duration }
        { db.setItemRandomProperties it.fields.randomPropertyId fields with
          generatedLoot := it.fields.generatedLoot } }

/-- What storing at a position does to the flags: the binding rules of `_StoreItem`. -/
def bindAtStore (isBagPos : Bool) : Item db :=
  let bond := it.proto.bonding
  let flags :=
    if bond == bindWhenPickedUp || bond == bindQuestItem || (bond == bindWhenEquipped && isBagPos)
    then applyModFlag it.flags itemDynflagBinded true else it.flags
  { it with
    flags := if bond == bindAccount then applyModFlag flags itemDynflagBoa true else flags }

@[simp] theorem bindAtStore_proto (b : Bool) : (it.bindAtStore b).proto = it.proto :=
  rfl

@[simp] theorem bindAtStore_count (b : Bool) : (it.bindAtStore b).count = it.count :=
  rfl

@[simp] theorem bindAtStore_guid (b : Bool) : (it.bindAtStore b).guid = it.guid :=
  rfl

/-- A clone has the prototype of the original and, within one stack, the requested count. -/
theorem cloneItem_some (guid player : Nat) {count : UInt32} (h0 : 0 < count.toNat)
    (h : count.toNat ≤ it.proto.stackable.toNat) :
    ∃ new, it.cloneItem guid count player = some new ∧ new.proto = it.proto ∧
      new.count = count ∧ new.guid = guid := by
  have h1 : ¬ count < 1 := by
    rw [UInt32.lt_iff_toNat_lt, UInt32.toNat_one]; omega
  have h2 : ¬ count > it.proto.stackable := by
    rw [gt_iff_lt, UInt32.lt_iff_toNat_lt]; omega
  unfold cloneItem createItem
  rw [if_neg h1]
  exact ⟨_, rfl, rfl, if_neg h2, rfl⟩

end Item

/-- `ItemCanGoIntoBag`: a plain container takes everything, a specialised one its family. -/
def itemCanGoIntoBag (proto bagProto : ItemPrototype) : Bool :=
  if bagProto.itemClass = itemClassContainer then
    match bagProto.subClass with
    | 0 => true
    | 1 => proto.bagFamily == 3
    | 2 => proto.bagFamily == 6
    | 3 => proto.bagFamily == 7
    | 4 => proto.bagFamily == 8
    | 6 => proto.bagFamily == 13
    | 7 => proto.bagFamily == 12
    | 8 => proto.bagFamily == 10
    | 9 => proto.bagFamily == 11
    | _ => false
  else if bagProto.itemClass = itemClassQuiver then
    match bagProto.subClass with
    | 2 => proto.bagFamily == 1
    | 3 => proto.bagFamily == 2
    | _ => false
  else false

end Windrunner
