import Windrunner.GuildBank.Text
import Windrunner.Inventory.Batch

/-!
# Transmogrification: the addon messages of `TransmogMgr`

A player who stands at the transmogrifier sends addon messages. `handleAddonMessages` finds the
command in the text, parses the numbers behind it and runs it on the player.

* `TransmogTable`: the item table with what the appearance of an item needs, and two facts of the
  shipped row of the currency: it is not equipment, and so no bag.
* `TransmogPlayer`: the parts of the player that the commands can reach: the items, the update
  fields (`m_uint32Values`), the collection, and the templates of the object manager.
* `destroyItemCount`: `Player::DestroyItemCount`, the payment.
* `applyTransmog`, `runCommand`, `handleAddonMessages`: the commands.

Answers to the client are left out.
-/

namespace Windrunner

open Lib

abbrev transmogCurrency : Nat := 51217

abbrev itemClassWeapon : Nat := 2
abbrev InventoryType.chest : Nat := 5
abbrev InventoryType.weapon : Nat := 13
abbrev InventoryType.ranged : Nat := 15
abbrev InventoryType.robe : Nat := 20
abbrev InventoryType.weaponMainHand : Nat := 21
abbrev InventoryType.weaponOffHand : Nat := 22
abbrev InventoryType.rangedRight : Nat := 26
abbrev itemSubclassWeaponAxe : Nat := 0
abbrev itemSubclassWeaponAxe2 : Nat := 1
abbrev itemSubclassWeaponMace : Nat := 4
abbrev itemSubclassWeaponMace2 : Nat := 5
abbrev itemSubclassWeaponPolearm : Nat := 6
abbrev itemSubclassWeaponSword : Nat := 7
abbrev itemSubclassWeaponSword2 : Nat := 8
abbrev itemSubclassWeaponStaff : Nat := 10
abbrev itemSubclassWeaponFist : Nat := 13
abbrev itemSubclassWeaponDagger : Nat := 15

/-! ## Update fields -/

abbrev playerVisibleItem10 : Nat := 260
abbrev maxVisibleItemOffset : Nat := 12
abbrev playerFieldInvSlotHead : Nat := 486
abbrev playerNextLevelXp : Nat := 717

/-- `m_uint32Values` of a player; the setters take a `uint16` index. -/
abbrev UpdateFields := UInt16 → UInt32

namespace UpdateFields

def setUInt32Value (f : UpdateFields) (index : UInt16) (value : UInt32) : UpdateFields :=
  fun i => if i = index then value else f i

/-- `SetGuidValue` with an empty guid: two fields. -/
def clearGuidValue (f : UpdateFields) (index : UInt16) : UpdateFields :=
  fun i => if i = index ∨ i = index + 1 then 0 else f i

/-- Writes the block of a slot. -/
def setVisibleItem (f : UpdateFields) (slot : Nat) (block : Nat → UInt32) : UpdateFields := fun i =>
  let base := playerVisibleItem10 + slot * maxVisibleItemOffset
  if base ≤ i.toNat ∧ i.toNat < base + maxVisibleItemOffset then block (i.toNat - base) else f i

end UpdateFields

/-! ## Templates -/

/-- What the appearance code reads of an `ItemPrototype`. -/
structure TransmogProto where
  itemClass : Nat
  subClass : Nat
  inventoryType : Nat
  displayInfoID : UInt32
  destItemId : Nat := 0
  sourceItemId : Nat := 0

structure TransmogTable where
  db : ItemDb
  /-- `DisplayInfoID` of the rows. -/
  displayInfoID : Nat → UInt32
  /-- What `SetVisibleItemSlot` writes for an item. -/
  visibleItem : Item db → Nat → UInt32
  currency_type : ∀ {p}, db.get transmogCurrency = some p → p.inventoryType = 0

def isChestOrRobe (invType : Nat) : Bool := invType == InventoryType.chest || invType == InventoryType.robe

def isOneHandAxeMaceSword (subClass : Nat) : Bool :=
  subClass == itemSubclassWeaponAxe || subClass == itemSubclassWeaponMace ||
    subClass == itemSubclassWeaponSword

def isTwoHandAxeMaceSword (subClass : Nat) : Bool :=
  subClass == itemSubclassWeaponAxe2 || subClass == itemSubclassWeaponMace2 ||
    subClass == itemSubclassWeaponSword2

/-- The tests for two weapons that come after those for fist weapons. -/
def weaponIsValidForDest (src dest : TransmogProto) : Bool :=
  if dest.inventoryType = InventoryType.ranged ∨ dest.inventoryType = InventoryType.rangedRight then
    dest.inventoryType == src.inventoryType && dest.subClass == src.subClass
  else if dest.subClass = itemSubclassWeaponDagger then src.subClass == itemSubclassWeaponDagger
  else if dest.subClass = itemSubclassWeaponStaff then src.subClass == itemSubclassWeaponStaff
  else if dest.subClass = itemSubclassWeaponPolearm then src.subClass == itemSubclassWeaponPolearm
  else if isOneHandAxeMaceSword dest.subClass then isOneHandAxeMaceSword src.subClass
  else if isTwoHandAxeMaceSword dest.subClass then isTwoHandAxeMaceSword src.subClass
  else false

/-- `ItemIsValidTransmogForDest` for two templates that exist. -/
def itemIsValidTransmogForDest (src dest : TransmogProto) : Bool :=
  if src.itemClass = itemClassWeapon ∧ dest.itemClass = itemClassWeapon then
    let fist := dest.subClass = itemSubclassWeaponFist ∧ src.subClass = itemSubclassWeaponFist
    if fist ∧ (dest.inventoryType = InventoryType.weapon ∨ dest.inventoryType = InventoryType.weaponMainHand) then
      src.inventoryType == InventoryType.weapon || src.inventoryType == InventoryType.weaponMainHand
    else if fist ∧ dest.inventoryType = InventoryType.weaponOffHand then
      src.inventoryType == InventoryType.weaponOffHand
    else weaponIsValidForDest src dest
  else if isChestOrRobe dest.inventoryType then isChestOrRobe src.inventoryType
  else src.inventoryType == dest.inventoryType

/-! ## The payment -/

namespace Inventory

variable {db : ItemDb} {inv : Inventory db} {p : Pos} {it : Item db}

/-- Only equipment and bags are worn (`CanEquipItem`), and there are no empty stacks. -/
structure Orderly (inv : Inventory db) : Prop where
  worn : ∀ {s it}, s < inventorySlotBagEnd →
    inv.cells.lookup (inventorySlotBag0, s) = some it → it.proto.inventoryType ≠ 0
  counted : ∀ {p it}, inv.cells.lookup p = some it → 0 < it.count.toNat

theorem Orderly.remove (h : inv.Orderly) (p : Pos) : (inv.remove p).Orderly := by
  have hsub : ∀ {q x}, (inv.remove p).cells.lookup q = some x → inv.cells.lookup q = some x := by
    intro q x hx
    rw [lookup_remove] at hx
    split_ifs at hx
    exact hx
  exact ⟨fun hs hx => h.worn hs (hsub hx), fun hx => h.counted (hsub hx)⟩

theorem Orderly.setItem (h : inv.Orderly) (p : Pos) (hc : 0 < it.count.toNat) :
    (inv.setItem p it).Orderly := by
  unfold Inventory.setItem
  split_ifs with hp
  · obtain ⟨y, hy, hyp⟩ := Option.map_eq_some_iff.mp hp
    refine ⟨fun {s x} hs hx => ?_, fun {q x} hx => ?_⟩
    · by_cases hq : (inventorySlotBag0, s) = p
      · subst hq
        rw [AList.lookup_insert] at hx
        cases hx
        exact hyp ▸ h.worn hs hy
      · rw [AList.lookup_insert_ne hq] at hx
        exact h.worn hs hx
    · by_cases hq : q = p
      · subst hq
        rw [AList.lookup_insert] at hx
        cases hx
        exact hc
      · rw [AList.lookup_insert_ne hq] at hx
        exact h.counted hx
  · exact h

def wornSlots : List Pos := (List.range inventorySlotBagEnd).map (inventorySlotBag0, ·)

/-- The positions of `ApplyForAllItems` without the bank, in the order in which
`DestroyItemCount` searches them. -/
def carriedSlots (inv : Inventory db) : List Pos :=
  backpackSlots ++ keyringSlots ++ (inv.bagContents fun _ => true) ++ wornSlots

/-- `GetItemCount(item)`. -/
def carriedCount (inv : Inventory db) (item : Nat) : UInt32 :=
  ((inv.carriedSlots.filterMap inv.getItemByPos).filter (·.entry == item)).foldl
    (fun n it => n + it.count) 0

/-- Whether `DestroyItemCount` takes from position `p`: an item that is not on offer in a trade
and, among the worn ones, not a bag with contents. -/
def destroyable (inv : Inventory db) (item : Nat) (p : Pos) : Bool :=
  match inv.getItemByPos p with
  | some it => it.entry == item && !it.inTrade &&
      !(p.1 == inventorySlotBag0 && p.2 < inventorySlotBagEnd && inv.isNonEmptyBag (.own p))
  | none => false

end Inventory

/-- The items and the fields: what destroying an item writes to. -/
structure Belongings (db : ItemDb) where
  inv : Inventory db
  fields : UpdateFields
  orderly : inv.Orderly

namespace Belongings

variable {db : ItemDb}

/-- `Player::DestroyItem`. `ItemRemovedQuestCheck` is left out: it takes back a quest that asks for the
item, and no quest of the shipped data asks for the currency. -/
def destroyItem (b : Belongings db) (p : Pos) : Belongings db where
  inv := b.inv.remove p
  fields :=
    if p.1 = inventorySlotBag0 then
      let fields := b.fields.clearGuidValue (UInt16.ofNat (playerFieldInvSlotHead + p.2 * 2))
      if p.2 < equipmentSlotEnd then fields.setVisibleItem p.2 fun _ => 0 else fields
    else b.fields
  orderly := b.orderly.remove p

def setCount (b : Belongings db) (p : Pos) (it : Item db) (count : UInt32)
    (hc : 0 < count.toNat) : Belongings db :=
  { b with
    inv := b.inv.setItem p { it with count := count }
    orderly := b.orderly.setItem p hc }

theorem rest_pos {n remcount count : UInt32} (h : ¬ n + remcount ≤ count) :
    0 < (n - count + remcount).toNat := by
  rw [UInt32.le_iff_toNat_le, UInt32.toNat_add] at h
  rw [UInt32.toNat_add, UInt32.toNat_sub]
  have hn := toNat_lt32 n
  have hc := toNat_lt32 count
  have hr := toNat_lt32 remcount
  omega

/-- The loops of `DestroyItemCount` over the positions still to be searched. -/
def destroyFrom (item : Nat) (count : UInt32) :
    List Pos → UInt32 → Belongings db → Belongings db
  | [], _, b => b
  | p :: ps, remcount, b =>
    match b.inv.getItemByPos p with
    | some it =>
      if b.inv.destroyable item p then
        if h : it.count + remcount ≤ count then
          if remcount + it.count ≥ count then b.destroyItem p
          else destroyFrom item count ps (remcount + it.count) (b.destroyItem p)
        else b.setCount p it (it.count - count + remcount) (rest_pos h)
      else destroyFrom item count ps remcount b
    | none => destroyFrom item count ps remcount b

/-- `Player::DestroyItemCount` without the bank. -/
def destroyItemCount (b : Belongings db) (item : Nat) (count : UInt32) : Belongings db :=
  destroyFrom item count b.inv.carriedSlots 0 b

end Belongings

/-! ## The commands -/

/-- The player, and what the object manager holds of item templates. -/
structure TransmogPlayer (t : TransmogTable) extends Belongings t.db where
  /-- `_transmogs`, the collected appearances. -/
  transmogs : List Nat
  /-- `m_itemTransmogs`. -/
  itemTransmogs : FinMap UInt32 TransmogProto
  transmogId : UInt32

/-- `SetTransmogrification`, and `SetBinding` unless the item is bound. -/
def Item.setTransmogrification {db : ItemDb} (it : Item db) (transmogrifyId : UInt32) : Item db :=
  { it with
    flags := if it.isSoulBound then it.flags else applyModFlag it.flags itemDynflagBinded true
    fields := { it.fields with transmogrifyId := transmogrifyId } }

namespace TransmogPlayer

variable {t : TransmogTable}

variable (w : TransmogPlayer t)

/-- `ObjectMgr::GetItemPrototype`: the generated templates come first. -/
def getItemPrototype (id : Nat) : Option TransmogProto :=
  match w.itemTransmogs.lookup (UInt32.ofNat id) with
  | some proto => some proto
  | none => (t.db.get id).map fun p =>
      ⟨p.itemClass, p.subClass, p.inventoryType, t.displayInfoID id, 0, 0⟩

def hasTransmog (newItemId : Nat) : Bool :=
  match w.getItemPrototype newItemId with
  | none => true
  | some proto => w.transmogs.any fun id =>
      match w.getItemPrototype id with
      | none => false
      | some c => proto.displayInfoID == c.displayInfoID && proto.itemClass == c.itemClass &&
          proto.subClass == c.subClass

/-- `ObjectMgr::CreateItemTransmogrifyTemplate`. -/
def createItemTransmogrifyTemplate (destItemId : Nat)
    (sourceDisplayId : UInt32) (sourceItemId : Nat) : UInt32 × TransmogPlayer t :=
  let w := { w with transmogId := w.transmogId + 1 }
  match w.getItemPrototype destItemId with
  | none => (0, w)
  | some base =>
    (w.transmogId,
      { w with
        itemTransmogs := w.itemTransmogs.insert w.transmogId
          { base with
            displayInfoID := sourceDisplayId
            destItemId := destItemId
            sourceItemId := sourceItemId } })

def deleteItemTransmogrifyTemplate (transmogrifyId : UInt32) :
    TransmogPlayer t :=
  { w with itemTransmogs := w.itemTransmogs.erase transmogrifyId }

/-- The end of `ApplyTransmog`: the item in `slot` gets its appearance. -/
def showTransmog (slot : UInt8) (destItem : Item t.db)
    (hc : 0 < destItem.count.toNat) (newItemId : UInt32) : TransmogPlayer t :=
  let item := destItem.setTransmogrification newItemId
  { w with
    inv := w.inv.setItem (inventorySlotBag0, slot.toNat) item
    fields := w.fields.setVisibleItem slot.toNat (t.visibleItem item)
    orderly := w.orderly.setItem _ hc }

/-- The checks of `ApplyTransmog` for a new appearance: the error, or the source's template. -/
def checkTransmog (slot : UInt8) (destItemProto : TransmogProto)
    (sourceItemID : UInt32) : Except UInt8 TransmogProto :=
  if w.inv.carriedCount transmogCurrency = 0 then .error 11
  else if slot.toNat ≥ equipmentSlotEnd then .error 2
  else if !w.hasTransmog sourceItemID.toNat then .error 3
  else
    match w.getItemPrototype sourceItemID.toNat with
    | none => .error 4
    | some src => if itemIsValidTransmogForDest src destItemProto then .ok src else .error 5

theorem counted_at {p : Pos} {it : Item t.db}
    (h : w.inv.getItemByPos p = some it) : 0 < it.count.toNat :=
  w.orderly.counted (Inventory.getItemByPos_some h).2

/-- `TransmogMgr::ApplyTransmog`: the result it reports, and the player. -/
def applyTransmog (slot : UInt8) (sourceItemID : UInt32) :
    UInt8 × TransmogPlayer t :=
  match hd : w.inv.getItemByPos (inventorySlotBag0, slot.toNat) with
  | none => (1, w)
  | some destItem =>
    match w.getItemPrototype destItem.entry with
    | none => (1, w)
    | some destItemProto =>
      if sourceItemID ≠ 0 then
        match w.checkTransmog slot destItemProto sourceItemID with
        | .error e => (e, w)
        | .ok src =>
          let (newItemId, w') := w.createItemTransmogrifyTemplate destItem.entry src.displayInfoID
            sourceItemID.toNat
          let w'' := { w' with toBelongings := w'.toBelongings.destroyItemCount transmogCurrency 1 }
          (0, w''.showTransmog slot destItem (w.counted_at hd) newItemId)
      else
        let w' := w.deleteItemTransmogrifyTemplate destItem.fields.transmogrifyId
        (0, w'.showTransmog slot destItem (w.counted_at hd) 0)

/-- The field that `DoChangeGlow` writes: 32-bit arithmetic, cut down to a `uint16`. -/
def glowIndex (slot : UInt32) : UInt16 :=
  (UInt32.ofNat playerVisibleItem10 + slot * UInt32.ofNat maxVisibleItemOffset + 1).toUInt16

end TransmogPlayer

/-- The commands that do more than answer. -/
inductive TransmogCommand where
  /-- `DoTransmog`, and `ResetTransmog` with item `0`. -/
  | apply (slot : UInt8) (sourceItemID : UInt32)
  | changeGlow (slot glowId : UInt32)
  deriving DecidableEq, Repr

/-- `std::stoi` into a `uint32`: `none` where it throws. -/
def stoi (s : Text) : Option UInt32 :=
  let digits := match s.dropWhile isSpace with
    | '-' :: u => u
    | '+' :: u => u
    | u => u
  if (digits.takeWhile isDigit).isEmpty then none
  else if strtol s < -2 ^ 31 ∨ 2 ^ 31 ≤ strtol s then none
  else some (atoi s)

/-- The text up to the first colon (`substr(0, find(":"))`). -/
def upToColon (s : Text) : Text := s.takeWhile (· != ':')

/-- The two numbers of a `DoChangeGlow` message; `none` where `substr` or `stoi` throws. -/
def parseChangeGlow (msg : Text) : Option TransmogCommand :=
  let msg := msg.drop ((upToColon msg).length + 1)
  let slotStr := upToColon msg
  if msg.length < slotStr.length + 1 then none
  else
    let glowIdStr := upToColon (msg.drop (slotStr.length + 1))
    match stoi slotStr, stoi glowIdStr with
    | some slot, some glowId => some (.changeGlow slot glowId)
    | _, _ => none

/-- The command in a message: the first of the known names that occurs anywhere in it. -/
def transmogCommand (msg : Text) : Option TransmogCommand :=
  if strstr msg "DoTransmog:".toList then
    match tokenizer msg ':' with
    | [_, slot, itemID, _] => some (.apply (atoi slot).toUInt8 (atoi itemID))
    | _ => none
  else if strstr msg "ResetTransmog:".toList then
    match tokenizer msg ':' with
    | [_, slot, _] => some (.apply (atoi slot).toUInt8 0)
    | _ => none
  else if strstr msg "GetAvailableTransmogsItemIDs:".toList then none
  else if strstr msg "GetTransmogStatus".toList then none
  else if strstr msg "GetSetsStatus:".toList then none
  else if strstr msg "DoChangeGlow:".toList then parseChangeGlow msg
  else none

namespace TransmogPlayer

variable {t : TransmogTable}

def runCommand (w : TransmogPlayer t) : TransmogCommand → TransmogPlayer t
  | .apply slot sourceItemID => (w.applyTransmog slot sourceItemID).2
  | .changeGlow slot glowId =>
    { w with fields := w.fields.setUInt32Value (glowIndex slot) glowId }

/-- `TransmogMgr::HandleAddonMessages`. -/
def handleAddonMessages (w : TransmogPlayer t) (msg : Text) : TransmogPlayer t :=
  match transmogCommand msg with
  | none => w
  | some c => w.runCommand c

end TransmogPlayer

example : transmogCommand "TW_TRANSMOG DoTransmog:15:2000:16".toList = some (.apply 15 2000) := by
  decide +kernel

end Windrunner
