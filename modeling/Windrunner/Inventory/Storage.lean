import Windrunner.Inventory.Item
import Windrunner.Lib.Total

/-!
# A player's item storage

`Inventory db` is `m_items` together with the contents of the bags in it, as one finite map from
positions `(bag, slot)` to items. Position `(INVENTORY_SLOT_BAG_0, s)` is `m_items[s]`; the
contents of the bag in `m_items[b]` sit at `(b, 0)`, `(b, 1)`, .... The field `contained` is the
representation invariant: contents need a bag that is large enough for them.

* `getItemByPos`: what the code sees of a position. Only equipped bags and bank bags are searched
  (`visible`): the contents of a bag that lies in the backpack are never found again.
* `place`, `remove`, `setItem`: the three ways the code writes to the storage.
* `units inv e`: the number of units of entry `e`, as `GetItemCount` adds them up.
-/

namespace Windrunner

open Lib AList

/-! ## Slots -/

abbrev nullBag : Nat := 0
abbrev nullSlot : Nat := 255
abbrev inventorySlotBag0 : Nat := 255
abbrev equipmentSlotEnd : Nat := 19
abbrev inventorySlotBagStart : Nat := 19
abbrev inventorySlotBagEnd : Nat := 23
abbrev inventorySlotItemStart : Nat := 23
abbrev inventorySlotItemEnd : Nat := 39
abbrev bankSlotItemStart : Nat := 39
abbrev bankSlotItemEnd : Nat := 63
abbrev bankSlotBagStart : Nat := 63
abbrev bankSlotBagEnd : Nat := 69
abbrev buybackSlotStart : Nat := 69
abbrev buybackSlotEnd : Nat := 81
abbrev keyringSlotStart : Nat := 81
abbrev keyringSlotEnd : Nat := 113
abbrev playerSlotEnd : Nat := 118

/-- The last slot with an update field of its own (`LAST_ITEM_SLOT_FIELD`). -/
abbrev lastItemSlot : Nat := 112

abbrev getMaxKeyringSize : Nat := keyringSlotEnd - keyringSlotStart

/-- A position: bag and slot. -/
abbrev Pos := Nat × Nat

/-- The slots of `m_items` that `GetItemByPos` reads. -/
def isItemSlot (slot : Nat) : Bool :=
  slot < bankSlotBagEnd || (keyringSlotStart ≤ slot && slot < keyringSlotEnd)

/-- The slots whose bag `GetItemByPos` looks into. -/
def isBagSlot (bag : Nat) : Bool :=
  (inventorySlotBagStart ≤ bag && bag < inventorySlotBagEnd) ||
    (bankSlotBagStart ≤ bag && bag < bankSlotBagEnd)

/-- `Player::IsBagPos`. -/
def isBagPos (p : Pos) : Bool := p.1 == inventorySlotBag0 && isBagSlot p.2

/-- The positions `GetItemByPos` can return an item for. -/
def visible (p : Pos) : Bool :=
  if p.1 = inventorySlotBag0 then isItemSlot p.2 else isBagSlot p.1

theorem isItemSlot_iff {j : Nat} : isItemSlot j = true ↔ j < 69 ∨ (81 ≤ j ∧ j < 113) := by
  simp [isItemSlot]

theorem isBagSlot_iff {b : Nat} :
    isBagSlot b = true ↔ (19 ≤ b ∧ b < 23) ∨ (63 ≤ b ∧ b < 69) := by
  simp [isBagSlot]

theorem isBagSlot_lt {b : Nat} (h : isBagSlot b = true) : b < 69 := by
  have := isBagSlot_iff.mp h; omega

theorem isBagSlot_ne {b : Nat} (h : isBagSlot b = true) : b ≠ inventorySlotBag0 := by
  rintro rfl; exact absurd (isBagSlot_lt h) (by decide)

theorem isItemSlot_of_isBagSlot {b : Nat} (h : isBagSlot b = true) : isItemSlot b = true := by
  exact isItemSlot_iff.mpr (.inl (isBagSlot_lt h))

/-- The items of a player and the contents of the bags among them. -/
structure Inventory (db : ItemDb) where
  owner : Nat
  cells : FinMap Pos (Item db)
  /-- Contents are in a bag that has a slot for them. -/
  contained : ∀ {b j it}, cells.lookup (b, j) = some it → b ≠ inventorySlotBag0 →
    ∃ bag, cells.lookup (inventorySlotBag0, b) = some bag ∧ j < bag.bagSize

namespace Inventory

variable {db : ItemDb} {inv : Inventory db} {p q : Pos} {it it' : Item db}

def empty (owner : Nat) : Inventory db := ⟨owner, ∅, by simp⟩

/-- The item in a slot of `m_items`. -/
def topItem (inv : Inventory db) (slot : Nat) : Option (Item db) :=
  if isItemSlot slot then inv.cells.lookup (inventorySlotBag0, slot) else none

def getItemByPos (inv : Inventory db) (p : Pos) : Option (Item db) :=
  if p.1 = inventorySlotBag0 then inv.topItem p.2
  else if isBagSlot p.1 then
    match inv.topItem p.1 with
    | some bag => if p.2 < bag.bagSize then inv.cells.lookup p else none
    | none => none
  else none

theorem topItem_bagSlot {b : Nat} (h : isBagSlot b = true) :
    inv.topItem b = inv.cells.lookup (inventorySlotBag0, b) := by
  rw [topItem, if_pos (isItemSlot_of_isBagSlot h)]

/-- Slot 255 of `m_items` holds no bag. -/
theorem topItem_bag0 : inv.topItem inventorySlotBag0 = none := by
  rw [topItem, if_neg (by decide)]

/-- `GetItemByPos` reads the cell of a visible position, and nothing elsewhere. -/
theorem getItemByPos_eq (inv : Inventory db) (p : Pos) :
    inv.getItemByPos p = if visible p then inv.cells.lookup p else none := by
  obtain ⟨b, j⟩ := p
  unfold getItemByPos visible
  by_cases hb : b = inventorySlotBag0
  · subst hb; simp [topItem]
  simp only [hb, if_false]
  by_cases hs : isBagSlot b = true
  · rw [if_pos hs, if_pos hs, topItem_bagSlot hs]
    -- an item inside the bag witnesses that the bag is there and large enough
    cases hl : inv.cells.lookup (b, j) with
    | none => cases inv.cells.lookup (inventorySlotBag0, b) <;> simp
    | some it =>
      obtain ⟨bag, hbag, hj⟩ := inv.contained hl hb
      simp [hbag, hj]
  · rw [if_neg hs, if_neg hs]

theorem getItemByPos_some (h : inv.getItemByPos p = some it) :
    visible p = true ∧ inv.cells.lookup p = some it := by
  rw [getItemByPos_eq] at h
  split_ifs at h with hv
  exact ⟨hv, h⟩

theorem getItemByPos_visible (h : visible p = true) : inv.getItemByPos p = inv.cells.lookup p := by
  rw [getItemByPos_eq, if_pos h]

/-- `q` does not lie in the bag at `p`. -/
def outside (p q : Pos) : Bool :=
  !(p.1 == inventorySlotBag0 && q.1 == p.2 && q.1 != inventorySlotBag0)

theorem outside_self (p : Pos) : outside p p = true := by
  obtain ⟨b, j⟩ := p
  simp only [outside]
  by_cases h : b = inventorySlotBag0 <;> simp [h]

theorem outside_top (p : Pos) (s : Nat) : outside p (inventorySlotBag0, s) = true := by
  simp [outside]

/-- A position that an item can be put at: a slot of `m_items`, or a slot of a bag that is there. -/
def HasSlot (inv : Inventory db) (p : Pos) : Prop :=
  p.1 = inventorySlotBag0 ∨ ∃ bag ∈ inv.cells.lookup (inventorySlotBag0, p.1), p.2 < bag.bagSize

instance : Decidable (inv.HasSlot p) := by
  unfold HasSlot
  infer_instance

/-- Puts `it` at `p`. In `m_items` the object that was there goes, with what it contains; inside a
bag there must be a bag with that slot. -/
def place (inv : Inventory db) (p : Pos) (it : Item db) : Inventory db :=
  if hp : inv.HasSlot p then
    { inv with
      cells := (inv.cells.keep (outside p)).insert p it
      contained := by
        intro b j x hx hb
        by_cases hq : (b, j) = p
        · subst hq
          obtain hp | ⟨bag, hbag, hj⟩ := hp
          · exact absurd hp hb
          refine ⟨bag, ?_, hj⟩
          rw [lookup_insert_ne (by simp only [ne_eq, Prod.mk.injEq]; exact fun h => hb h.1.symm),
            lookup_keep, outside_top, if_pos rfl]
          exact hbag
        · rw [lookup_insert_ne hq, lookup_keep] at hx
          split_ifs at hx with ho
          obtain ⟨bag, hbag, hj⟩ := inv.contained hx hb
          refine ⟨bag, ?_, hj⟩
          rw [lookup_insert_ne, lookup_keep, outside_top, if_pos rfl]
          · exact hbag
          · rintro rfl
            simp [outside, hb] at ho }
  else inv

/-- Takes the object at `p` out of the storage, with what it contains. -/
def remove (inv : Inventory db) (p : Pos) : Inventory db :=
  { inv with
    cells := (inv.cells.keep (outside p)).erase p
    contained := by
      intro b j x hx hb
      by_cases hq : (b, j) = p
      · subst hq; simp at hx
      · rw [lookup_erase_ne hq, lookup_keep] at hx
        split_ifs at hx with ho
        obtain ⟨bag, hbag, hj⟩ := inv.contained hx hb
        refine ⟨bag, ?_, hj⟩
        rw [lookup_erase_ne, lookup_keep, outside_top, if_pos rfl]
        · exact hbag
        · rintro rfl
          simp [outside, hb] at ho }

/-- Changes the object at `p` to `it`, an update of the same object: its prototype stays. -/
def setItem (inv : Inventory db) (p : Pos) (it : Item db) : Inventory db :=
  if hp : (inv.cells.lookup p).map Item.proto = some it.proto then
    { inv with
      cells := inv.cells.insert p it
      contained := by
        have hkeep : ∀ q x, (inv.cells.insert p it).lookup q = some x →
            ∃ y, inv.cells.lookup q = some y ∧ y.proto = x.proto := by
          intro q x hx
          by_cases hq : q = p
          · subst hq
            rw [lookup_insert] at hx
            obtain ⟨y, hy, hyp⟩ := Option.map_eq_some_iff.mp hp
            exact ⟨y, hy, by rw [hyp, Option.some.inj hx]⟩
          · rw [lookup_insert_ne hq] at hx
            exact ⟨x, hx, rfl⟩
        intro b j x hx hb
        obtain ⟨y, hy, -⟩ := hkeep _ _ hx
        obtain ⟨bag, hbag, hj⟩ := inv.contained hy hb
        by_cases hq : (inventorySlotBag0, b) = p
        · subst hq
          refine ⟨it, lookup_insert _, ?_⟩
          rw [hbag] at hp
          rw [Item.bagSize, ← Option.some.inj hp]
          exact hj
        · exact ⟨bag, by rw [lookup_insert_ne hq]; exact hbag, hj⟩ }
  else inv

/-! ## What the three writes do to the cells -/

/-- Nothing lies inside the bag at an empty position. -/
theorem outside_of_empty (hp : inv.cells.lookup p = none) (hq : inv.cells.lookup q = some it) :
    outside p q = true := by
  obtain ⟨b, j⟩ := q
  by_contra ho
  simp only [outside, Bool.not_eq_true', Bool.and_eq_true, beq_iff_eq, bne_iff_ne,
    Bool.not_eq_false] at ho
  obtain ⟨⟨hp1, hb⟩, hne⟩ := ho
  obtain ⟨bag, hbag, -⟩ := inv.contained hq hne
  have : p = (inventorySlotBag0, b) := Prod.ext hp1 hb.symm
  rw [this, hbag] at hp
  cases hp

theorem lookup_place (hs : inv.HasSlot p) (hp : inv.cells.lookup p = none) :
    (inv.place p it).cells.lookup q = if q = p then some it else inv.cells.lookup q := by
  unfold place
  rw [dif_pos hs]
  by_cases hq : q = p
  · subst hq; simp
  · rw [lookup_insert_ne hq, lookup_keep, if_neg hq]
    cases hl : inv.cells.lookup q with
    | none => simp
    | some x => rw [outside_of_empty hp hl, if_pos rfl]

theorem total_place {f : Pos → Item db → Nat} (hs : inv.HasSlot p)
    (hp : inv.cells.lookup p = none) :
    total f (inv.place p it).cells = total f inv.cells + f p it := by
  unfold place
  rw [dif_pos hs, total_insert_new, total_keep_all fun q x hq => outside_of_empty hp hq]
  rw [lookup_keep, hp]; simp

theorem lookup_setItem (hp : inv.cells.lookup p = some it) (h : it'.proto = it.proto) :
    (inv.setItem p it').cells.lookup q = if q = p then some it' else inv.cells.lookup q := by
  unfold setItem
  rw [dif_pos (by rw [hp, h]; rfl)]
  by_cases hq : q = p
  · subst hq; simp
  · rw [lookup_insert_ne hq, if_neg hq]

theorem total_setItem {f : Pos → Item db → Nat} (hp : inv.cells.lookup p = some it)
    (h : it'.proto = it.proto) :
    total f (inv.setItem p it').cells + f p it = total f inv.cells + f p it' := by
  unfold setItem
  rw [dif_pos (by rw [hp, h]; rfl), ← weightAt_some (f := f) hp]
  exact total_insert f inv.cells p it'

theorem lookup_remove :
    (inv.remove p).cells.lookup q = if q = p ∨ outside p q = false then none
      else inv.cells.lookup q := by
  unfold remove
  by_cases hq : q = p
  · subst hq; simp
  · simp only [lookup_erase_ne hq, lookup_keep, hq, false_or]
    cases outside p q <;> simp

/-- Taking out an object that contains nothing takes out its own weight. -/
theorem total_remove {f : Pos → Item db → Nat} (hp : inv.cells.lookup p = some it)
    (hc : ∀ q x, inv.cells.lookup q = some x → outside p q = true) :
    total f (inv.remove p).cells + f p it = total f inv.cells := by
  have hk := total_keep_all (f := f) hc
  have he := total_erase f (inv.cells.keep (outside p)) p
  rw [weightAt_some (b := it) (by rw [lookup_keep, outside_self, if_pos rfl, hp]), hk] at he
  exact he

/-! ## Counting -/

/-- The units of entry `e` in one cell, as far as the code sees it. -/
def unitsAt (e : Nat) (p : Pos) (it : Item db) : Nat :=
  if visible p ∧ it.entry = e then it.count.toNat else 0

/-- The number of units of entry `e` in the inventory and the bank. -/
def units (inv : Inventory db) (e : Nat) : Nat := total (unitsAt e) inv.cells

/-- The units of entry `e` inside the bag at `p`. -/
def inside (inv : Inventory db) (p : Pos) (e : Nat) : Nat :=
  total (fun q it => if outside p q then 0 else unitsAt e q it) inv.cells

/-- Destroying an object loses its units and what it contains. -/
theorem units_remove (hp : inv.getItemByPos p = some it) (e : Nat) :
    (inv.remove p).units e + (if it.entry = e then it.count.toNat else 0) + inv.inside p e =
      inv.units e := by
  obtain ⟨hv, hl⟩ := getItemByPos_some hp
  have hk := total_keep (unitsAt e) (outside p) inv.cells
  have he := total_erase (unitsAt e) (inv.cells.keep (outside p)) p
  rw [weightAt_some (b := it) (by rw [lookup_keep, outside_self, if_pos rfl, hl])] at he
  have hu : unitsAt e p it = if it.entry = e then it.count.toNat else 0 := by simp [unitsAt, hv]
  rw [hu] at he
  unfold units inside remove
  dsimp only
  omega

/-- An update of an object changes the units of its entry by the change of its count. -/
theorem units_setItem (hp : inv.getItemByPos p = some it) (h : it'.proto = it.proto) (e : Nat) :
    (inv.setItem p it').units e + (if it.entry = e then it.count.toNat else 0) =
      inv.units e + if it.entry = e then it'.count.toNat else 0 := by
  obtain ⟨hv, hl⟩ := getItemByPos_some hp
  have ht := total_setItem (f := unitsAt e) hl h
  have hu : ∀ x : Item db, x.proto = it.proto →
      unitsAt e p x = if it.entry = e then x.count.toNat else 0 := by
    intro x hx
    unfold unitsAt
    rw [show x.entry = it.entry from congrArg ItemPrototype.itemId hx]
    simp only [hv, true_and]
  rwa [hu it rfl, hu it' h] at ht

/-- An update that keeps the count keeps the units. -/
theorem units_setItem_same (hp : inv.cells.lookup p = some it) (h : it'.proto = it.proto)
    (hc : it'.count = it.count) (e : Nat) : (inv.setItem p it').units e = inv.units e := by
  have ht := total_setItem (f := unitsAt e) hp h
  have hu : unitsAt e p it' = unitsAt e p it := by
    unfold unitsAt
    rw [show it'.entry = it.entry from congrArg ItemPrototype.itemId h, hc]
  rw [hu] at ht
  exact Nat.add_right_cancel ht

/-- Only a bag has contents. -/
theorem inside_eq_zero (hp : inv.cells.lookup p = some it) (hb : it.bagSize = 0) (e : Nat) :
    inv.inside p e = 0 := by
  unfold inside
  refine total_eq_zero fun x hx => ?_
  by_cases ho : outside p x.1 = true
  · rw [if_pos ho]
  obtain ⟨⟨b, j⟩, y⟩ := x
  simp only [outside, Bool.not_eq_true', Bool.and_eq_true, beq_iff_eq, bne_iff_ne,
    Bool.not_eq_false] at ho
  obtain ⟨⟨hp1, hb1⟩, hne⟩ := ho
  obtain ⟨bag, hbag, hj⟩ := inv.contained (List.mem_dlookup inv.cells.nodupKeys hx) hne
  have : p = (inventorySlotBag0, b) := Prod.ext hp1 hb1.symm
  rw [this, hbag] at hp
  rw [Option.some.inj hp] at hj
  omega

/-- `GetItemCount(entry, true, skipItem)`. -/
def getItemCount (inv : Inventory db) (e : Nat) (skip : Option Pos) : UInt32 :=
  UInt32.ofNat (total (fun p it => if skip = some p then 0 else unitsAt e p it) inv.cells)

end Inventory

end Windrunner
