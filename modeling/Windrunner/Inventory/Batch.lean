import Windrunner.Inventory.CanStore

/-!
# Room for several items at once: `Player::CanStoreItems`

The check keeps its own table of what lies in each slot (`Space`), in which the items on offer do
not count, and enters the items one by one: a stack that some slot can take whole is added to that
slot, anything else marks the first free slot with `1`.
-/

namespace Windrunner

variable {db : ItemDb}

/-- An item of the list: the object, and whether it is a bag with contents. -/
structure Parcel (db : ItemDb) where
  item : Item db
  nonEmptyBag : Bool := false

/-- The units counted in each slot: `inv_slot_items`, `inv_bags` and `inv_keys`. -/
abbrev Space := Pos → UInt32

def Space.set (space : Space) (p : Pos) (n : UInt32) : Space := fun q => if q = p then n else space q

namespace Inventory

variable (inv : Inventory db)

/-- The space table at the start. -/
def space : Space := fun p =>
  match inv.getItemByPos p with
  | some it => if it.inTrade then 0 else it.count
  | none => 0

def keyringSlots : List Pos :=
  (List.range' keyringSlotStart getMaxKeyringSize).map (inventorySlotBag0, ·)

def backpackSlots : List Pos :=
  (List.range' inventorySlotItemStart (inventorySlotItemEnd - inventorySlotItemStart)).map
    (inventorySlotBag0, ·)

/-- The slots in the equipped bags whose bag satisfies `c`. -/
def bagContents (c : Item db → Bool) : List Pos :=
  bagSlots.flatMap fun i =>
    match inv.topItem i with
    | some bag => if c bag then (List.range bag.bagSize).map (i, ·) else []
    | none => []

/-- The slots searched for a stack to merge with. -/
def stackSlots : List Pos :=
  keyringSlots ++ backpackSlots ++ inv.bagContents fun _ => true

/-- The slots searched for a free one: the special ones for the item's family first. -/
def openSlots (proto : ItemPrototype) : List Pos :=
  (if proto.bagFamily ≠ 0 then
    (if proto.bagFamily = bagFamilyKeys then keyringSlots else []) ++
      inv.bagContents fun bag => !isPlainBag bag && itemCanGoIntoBag proto bag.proto
  else []) ++
  backpackSlots ++ inv.bagContents isPlainBag

/-- The stack in slot `p` takes `count` more units, as far as the table says. -/
def takesStack (proto : ItemPrototype) (count : UInt32) (space : Space) (p : Pos) : Bool :=
  match inv.getItemByPos p with
  | some it2 => it2.canBeMergedPartlyWith proto == .ok && space p + count ≤ proto.stackable
  | none => false

/-- One item of the list. -/
def canStoreNext (space : Space) (x : Option (Parcel db)) :
    Except InventoryResult Space :=
  match x with
  | none => .ok space
  | some ⟨it, nonEmptyBag⟩ =>
    if nonEmptyBag then .error .canOnlyDoWithEmptyBags
    else if it.hasTemporaryLoot then .error .alreadyLooted
    else if it.isBindedNotWith inv.owner then .error .dontOwnThatItem
    else
      -- the units owned now, whatever the list has entered so far
      match (inv.canTakeMoreSimilarItems it.entry it.count (.loose it)).1 with
      | .ok =>
        let stack :=
          if it.proto.stackable > 1 then
            inv.stackSlots.find? (inv.takesStack it.proto it.count space)
          else none
        match stack with
        | some p => .ok (space.set p (space p + it.count))
        | none =>
          match (inv.openSlots it.proto).find? (space · == 0) with
          | some p => .ok (space.set p 1)
          | none => .error .inventoryFull
      | res => .error res

/-- `Player::CanStoreItems`. -/
def canStoreItems (items : List (Option (Parcel db))) : InventoryResult :=
  match items.foldlM inv.canStoreNext inv.space with
  | .ok _ => .ok
  | .error res => res

end Inventory

end Windrunner
