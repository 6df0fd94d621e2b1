import Windrunner.Inventory.Storage
import Windrunner.Lib.Word

/-!
# Finding room for an item: `Player::_CanStoreItem`

The check goes through a fixed sequence of searches. Each one extends the destination list and
lowers the count that is still to be placed (`Fill`); the sequence stops at the first search that
fails where it must not, or that places the last unit.

* `canStoreItemInSpecificSlot`, `canStoreItemInBag`, `canStoreItemInInventorySlots`: the searches.
* `mandatory`, `optional`: how the caller goes on after a search (`return res`, or `continue`).
* `searches`: the sequence, in the order of the source; `canStoreItem` runs it.
-/

namespace Windrunner

open Lib

variable {db : ItemDb}

/-- A destination (`ItemPosCount`); the count is a `uint8`. -/
structure ItemPosCount where
  pos : Pos
  count : UInt32
  deriving DecidableEq, Repr

def ItemPosCount.make (pos : Pos) (count : UInt32) : ItemPosCount :=
  ⟨pos, count.toUInt8.toUInt32⟩

/-- The item to be stored (`pSrcItem`): none for a new item, an item of this inventory, which its
position identifies, or an item that is in no slot of it. -/
inductive Source (db : ItemDb) where
  | none
  | own (p : Pos)
  | loose (it : Item db)

namespace Source

/-- `pItem == pSrcItem` for the item at `p`. -/
def isAt (src : Source db) (p : Pos) : Bool :=
  match src with
  | own q => p == q
  | _ => false

def pos (src : Source db) : Option Pos :=
  match src with
  | own q => some q
  | _ => Option.none

def item (src : Source db) (inv : Inventory db) : Option (Item db) :=
  match src with
  | none => Option.none
  | own p => inv.getItemByPos p
  | loose it => some it

end Source

namespace Inventory

/-- `Bag::IsEmpty` for the bag in slot `s` of `m_items`. -/
def bagIsEmpty (inv : Inventory db) (bag : Item db) (s : Nat) : Bool :=
  (List.range bag.bagSize).all fun j => (inv.cells.lookup (s, j)).isNone

/-- `pSrcItem && pSrcItem->IsBag() && !((Bag*)pSrcItem)->IsEmpty()`. Only a bag in `m_items` has
contents. -/
def isNonEmptyBag (inv : Inventory db) (src : Source db) : Bool :=
  match src with
  | .own (b, s) =>
    match inv.getItemByPos (b, s) with
    | some bag => bag.isBag && b == inventorySlotBag0 && !inv.bagIsEmpty bag s
    | none => false
  | _ => false

/-- The item at `p`, ignoring the item that is about to move. -/
def itemBut (inv : Inventory db) (src : Source db) (p : Pos) : Option (Item db) :=
  if src.isAt p then none else inv.getItemByPos p

/-- `_CanTakeMoreSimilarItems`: the result, and the number of units above the limit. -/
def canTakeMoreSimilarItems (inv : Inventory db) (entry : Nat) (count : UInt32) (src : Source db) :
    InventoryResult × UInt32 :=
  match db.get entry with
  | none => (.cantCarryMoreOfThis, count)
  | some proto =>
    if proto.maxCount > 0 then
      let curcount := inv.getItemCount proto.itemId src.pos
      if curcount + count > proto.maxCount then
        (.cantCarryMoreOfThis, count + curcount - proto.maxCount)
      else (.ok, 0)
    else (.ok, 0)

end Inventory

/-- The destinations found so far and the count still to be placed. -/
structure Fill where
  dest : List ItemPosCount
  count : UInt32

/-- Records `need` units at `p`, unless `p` is already a destination. -/
def Fill.push (f : Fill) (p : Pos) (need : UInt32) : Option Fill :=
  if f.dest.any (·.pos == p) then none
  else some ⟨f.dest ++ [.make p need], f.count - need⟩

/-- The space next to `held` units in a slot, at most `count`. -/
def needSpace (proto : ItemPrototype) (held count : UInt32) : UInt32 :=
  let space := proto.stackable - held
  if space > count then count else space

namespace Inventory

variable (inv : Inventory db) (proto : ItemPrototype) (src : Source db)

/-- Whether the empty slot `p` takes the item: the checks of `_CanStoreItem_InSpecificSlot`. -/
def fitsSpecificSlot (p : Pos) : Bool :=
  if p.1 = inventorySlotBag0 then
    !((keyringSlotStart ≤ p.2 && p.2 < keyringSlotStart + getMaxKeyringSize &&
        proto.bagFamily != bagFamilyKeys) ||
      (buybackSlotStart ≤ p.2 && p.2 < buybackSlotEnd) || playerSlotEnd ≤ p.2)
  else
    match inv.topItem p.1 with
    | none => false
    | some bag =>
      !src.isAt (inventorySlotBag0, p.1) && p.2 < bag.proto.containerSlots &&
        itemCanGoIntoBag proto bag.proto

def canStoreItemInSpecificSlot (p : Pos) (swap : Bool) (f : Fill) : Except InventoryResult Fill :=
  let item2 := inv.itemBut src p
  if inv.isNonEmptyBag src then .error .canOnlyDoWithEmptyBags
  else
    -- an occupied slot that is to be swapped counts as empty
    match (if swap then none else item2) with
    | none =>
      if inv.fitsSpecificSlot proto src p then
        .ok ((f.push p (needSpace proto 0 f.count)).getD f)
      else .error .itemDoesntGoIntoBag
    | some it =>
      match it.canBeMergedPartlyWith proto with
      | .ok => .ok ((f.push p (needSpace proto it.count f.count)).getD f)
      | res => .error res

/-- One slot of a search: `none` when the loop goes on with nothing recorded. -/
def trySlot (merge : Bool) (f : Fill) (p : Pos) : Option Fill :=
  let item2 := inv.itemBut src p
  if item2.isSome != merge then none
  else
    match item2 with
    | some it =>
      if it.canBeMergedPartlyWith proto ≠ .ok then none
      else f.push p (needSpace proto it.count f.count)
    | none => f.push p (needSpace proto 0 f.count)

/-- The loop over the slots of a bag or of a slot range: it ends when everything is placed. -/
def searchSlots (merge : Bool) : List Pos → Fill → Fill
  | [], f => f
  | p :: ps, f =>
    match inv.trySlot proto src merge f p with
    | none => searchSlots merge ps f
    | some f' => if f'.count = 0 then f' else searchSlots merge ps f'

/-- A plain container, as opposed to a specialised one. -/
def isPlainBag (bag : Item db) : Bool :=
  bag.proto.itemClass == itemClassContainer && bag.proto.subClass == 0

def canStoreItemInBag (bag : Nat) (merge nonSpecialized : Bool) (skipBag skipSlot : Nat)
    (f : Fill) : Except InventoryResult Fill :=
  if bag = skipBag then .error .itemDoesntGoIntoBag
  else
    match inv.topItem bag with
    | none => .error .itemDoesntGoIntoBag
    | some pBag =>
      if src.isAt (inventorySlotBag0, bag) then .error .itemDoesntGoIntoBag
      else if inv.isNonEmptyBag src then .error .canOnlyDoWithEmptyBags
      else if nonSpecialized != isPlainBag pBag then .error .itemDoesntGoIntoBag
      else if !itemCanGoIntoBag proto pBag.proto then .error .itemDoesntGoIntoBag
      else
        let slots := (List.range pBag.bagSize).filter (· != skipSlot)
        .ok (inv.searchSlots proto src merge (slots.map (bag, ·)) f)

def canStoreItemInInventorySlots (slotBegin slotEnd : Nat) (merge : Bool) (skipBag skipSlot : Nat)
    (f : Fill) : Except InventoryResult Fill :=
  if inv.isNonEmptyBag src then .error .canOnlyDoWithEmptyBags
  else
    let slots := (List.range' slotBegin (slotEnd - slotBegin)).filter fun j =>
      !(inventorySlotBag0 == skipBag && j == skipSlot)
    .ok (inv.searchSlots proto src merge (slots.map (inventorySlotBag0, ·)) f)

end Inventory

/-- What `_CanStoreItem` answers: the result, the destination vector and what it writes to
`no_space_count`, if anything. -/
structure CanStore where
  res : InventoryResult
  dest : List ItemPosCount
  noSpaceCount : Option UInt32

/-- A step of the check: it goes on with a `Fill`, or answers. -/
abbrev Search := Fill → Except CanStore Fill

/-- `if (count == 0) ...`, after every search. -/
def settle (noSimilarCount : UInt32) : Search := fun f =>
  if f.count = 0 then
    if noSimilarCount = 0 then .error ⟨.ok, f.dest, none⟩
    else .error ⟨.cantCarryMoreOfThis, f.dest, some (f.count + noSimilarCount)⟩
  else .ok f

/-- A search whose failure ends the check. -/
def mandatory (noSimilarCount : UInt32) (s : Fill → Except InventoryResult Fill) : Search := fun f =>
  match s f with
  | .error res => .error ⟨res, f.dest, some (f.count + noSimilarCount)⟩
  | .ok f' => settle noSimilarCount f'

/-- A search that is passed over when it fails (`continue`). -/
def optional (noSimilarCount : UInt32) (s : Fill → Except InventoryResult Fill) : Search := fun f =>
  match s f with
  | .error _ => .ok f
  | .ok f' => settle noSimilarCount f'

/-- The first search, or the second if the first fails. -/
def orElseSearch (s t : Fill → Except InventoryResult Fill) : Fill → Except InventoryResult Fill :=
  fun f => match s f with
  | .ok f' => .ok f'
  | .error _ => t f

/-- A check in the middle of the sequence that has nothing to place. -/
def refuseIf (c : Bool) (res : InventoryResult) : Search := fun f =>
  if c then .error ⟨res, f.dest, none⟩ else .ok f

namespace Inventory

variable (inv : Inventory db) (proto : ItemPrototype) (src : Source db)

/-- The four equipped bags. -/
def bagSlots : List Nat := List.range' inventorySlotBagStart 4

variable (bag slot : Nat) (noSimilarCount : UInt32)

/-- The searches in the requested slot. -/
def specificSlotSearches (swap : Bool) (noSimilarCount : UInt32) : List Search :=
  if bag ≠ nullBag ∧ slot ≠ nullSlot then
    [refuseIf (bag == inventorySlotBag0 && lastItemSlot < slot) .itemDoesntGoToSlot,
      mandatory noSimilarCount (inv.canStoreItemInSpecificSlot proto src (bag, slot) swap)]
  else []

/-- The searches in the requested bag. -/
def specificBagSearches : List Search :=
  let must := mandatory noSimilarCount
  if bag ≠ nullBag then
    (if proto.stackable > 1 then
      if bag = inventorySlotBag0 then
        [must (inv.canStoreItemInInventorySlots proto src keyringSlotStart keyringSlotEnd true bag slot),
          must (inv.canStoreItemInInventorySlots proto src inventorySlotItemStart inventorySlotItemEnd
            true bag slot)]
      else
        -- once as a specialised bag, once as a plain one; `NULL_BAG` so that it is not skipped
        [must (orElseSearch (inv.canStoreItemInBag proto src bag true false nullBag slot)
          (inv.canStoreItemInBag proto src bag true true nullBag slot))]
    else []) ++
    (if bag = inventorySlotBag0 then
      (if proto.bagFamily = bagFamilyKeys then
        [must (inv.canStoreItemInInventorySlots proto src keyringSlotStart
          (keyringSlotStart + getMaxKeyringSize) false bag slot)]
      else []) ++
      [must (inv.canStoreItemInInventorySlots proto src inventorySlotItemStart inventorySlotItemEnd
        false bag slot)]
    else
      [must (orElseSearch (inv.canStoreItemInBag proto src bag false false nullBag slot)
        (inv.canStoreItemInBag proto src bag false true nullBag slot))])
  else []

/-- The searches for a stack to merge with. -/
def mergeSearches : List Search :=
  if proto.stackable > 1 then
    [mandatory noSimilarCount (inv.canStoreItemInInventorySlots proto src keyringSlotStart
        keyringSlotEnd true bag slot),
      mandatory noSimilarCount (inv.canStoreItemInInventorySlots proto src inventorySlotItemStart
        inventorySlotItemEnd true bag slot)] ++
    (if proto.bagFamily ≠ 0 then
      bagSlots.map fun i =>
        optional noSimilarCount (inv.canStoreItemInBag proto src i true false bag slot)
    else []) ++
    bagSlots.map fun i =>
      optional noSimilarCount (inv.canStoreItemInBag proto src i true true bag slot)
  else []

/-- The searches for a free slot in the keyring and the specialised bags. -/
def specialBagSearches : List Search :=
  if proto.bagFamily ≠ 0 then
    (if proto.bagFamily = bagFamilyKeys then
      [mandatory noSimilarCount (inv.canStoreItemInInventorySlots proto src keyringSlotStart
        (keyringSlotStart + getMaxKeyringSize) false bag slot)]
    else []) ++
    bagSlots.map fun i =>
      optional noSimilarCount (inv.canStoreItemInBag proto src i false false bag slot)
  else []

/-- The searches for any free slot. -/
def freeSlotSearches : List Search :=
  [refuseIf (inv.isNonEmptyBag src) .nonemptyBagOverOtherBag,
    mandatory noSimilarCount (inv.canStoreItemInInventorySlots proto src inventorySlotItemStart
      inventorySlotItemEnd false bag slot)] ++
  bagSlots.map fun i =>
    optional noSimilarCount (inv.canStoreItemInBag proto src i false true bag slot)

def searches (swap : Bool) (noSimilarCount : UInt32) : List Search :=
  inv.specificSlotSearches proto src bag slot swap noSimilarCount ++
  inv.specificBagSearches proto src bag slot noSimilarCount ++
  inv.mergeSearches proto src bag slot noSimilarCount ++
  inv.specialBagSearches proto src bag slot noSimilarCount ++
  inv.freeSlotSearches proto src bag slot noSimilarCount

/-- Runs the searches one after the other; what is left at the end does not fit. -/
def runSearches (ss : List Search) (noSimilarCount : UInt32) (f : Fill) : CanStore :=
  match ss.foldlM (fun f s => s f) f with
  | .error a => a
  | .ok f => ⟨.inventoryFull, f.dest, some (f.count + noSimilarCount)⟩

/-- `Player::_CanStoreItem`. -/
def canStoreItem (inv : Inventory db) (bag slot : Nat) (dest : List ItemPosCount) (entry : Nat)
    (count : UInt32) (src : Source db) (swap : Bool) : CanStore :=
  match db.get entry with
  | none => ⟨if swap then .itemsCantBeSwapped else .itemNotFound, dest, some count⟩
  | some proto =>
    let pItem := src.item inv
    if pItem.any (·.hasTemporaryLoot) then ⟨.alreadyLooted, dest, some count⟩
    else if pItem.any (·.isBindedNotWith inv.owner) then ⟨.dontOwnThatItem, dest, some count⟩
    else
      let (res, noSimilarCount) := inv.canTakeMoreSimilarItems entry count src
      if res ≠ .ok ∧ count = noSimilarCount then ⟨res, dest, some noSimilarCount⟩
      else
        let count := if res ≠ .ok then count - noSimilarCount else count
        runSearches (inv.searches proto src bag slot swap noSimilarCount) noSimilarCount ⟨dest, count⟩

end Inventory

end Windrunner
