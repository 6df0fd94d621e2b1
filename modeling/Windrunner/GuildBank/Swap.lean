import Windrunner.GuildBank.Conserve

/-!
# Swaps, whole or not at all

`SwapItems` deposits the player's item over the bank item and then withdraws a copy of the bank
item. The check before the deposit is for any place of the inventory and lets a full one pass; the
check of the withdrawal is for the backpack, once the player's item is gone.

* `swapItemsTo_eq`, `swapped_of_fits`: what the two halves do to the bank and to the inventory.
* `not_whole_of_refused`: the deposit alone is left, where the withdrawal is refused.
* `swap_allOrNothing_iff`: the swap is executed as a whole, or not at all, exactly when the first
  check refuses it or the second one accepts the bank item, for an item that has been saved. One that
  has not is freed by the deposit, and where the bank item is to go is read of it.
-/

namespace Windrunner

open Lib

variable {db : ItemDb}

namespace GuildBank

/-- The same items; their states may differ. -/
def SameItems (b b' : GuildBank) : Prop :=
  ∃ g : BankItem → ItemUpdateState, b'.items = b.items.map fun x => { x with state := g x }

namespace SameItems

variable {b b' b'' : GuildBank}

theorem of_eq (h : b'.items = b.items) : b.SameItems b' := by
  refine ⟨(·.state), ?_⟩
  rw [h]
  exact (List.map_id _).symm

theorem trans (h : b.SameItems b') (h' : b'.SameItems b'') : b.SameItems b'' := by
  obtain ⟨g, hg⟩ := h
  obtain ⟨g', hg'⟩ := h'
  refine ⟨fun x => g' { x with state := g x }, ?_⟩
  rw [hg', hg, List.map_map]
  rfl

theorem units (h : b.SameItems b') (e : Nat) : b'.units e = b.units e := by
  obtain ⟨g, hg⟩ := h
  unfold GuildBank.units
  rw [hg, List.map_map]
  rfl

theorem getElem {i : Nat} {x : BankItem} (h : b.SameItems b') (hi : b.items[i]? = some x) :
    ∃ s, b'.items[i]? = some { x with state := s } := by
  obtain ⟨g, hg⟩ := h
  exact ⟨g x, by rw [hg, List.getElem?_map, hi]; rfl⟩

end SameItems

end GuildBank

namespace World

variable {env : Env} {w w' : World db} {p : Pos} {it : Item db} {bItem : BankItem} {i : Nat}
  {bankTab bankSlot : Nat} {count : UInt32} {dest : Pos}

theorem saveToDB_sameItems : w.bank.SameItems w.saveToDB.bank := by
  unfold saveToDB
  split_ifs
  · exact .of_eq rfl
  · exact .of_eq rfl
  · have hitems : w.bank.saved.items = if w.bank.itemUpdateQueue.isEmpty then w.bank.items
        else w.bank.items.map ({ · with state := .unchanged }) := rfl
    by_cases hq : w.bank.itemUpdateQueue.isEmpty = true
    · exact .of_eq (hitems.trans (if_pos hq))
    · exact ⟨fun _ => .unchanged, hitems.trans (if_neg hq)⟩

theorem finishDeposit_sameItems (env : Env) (i : Nat) (count : UInt32) :
    w.bank.SameItems (w.finishDeposit env i count).bank := by
  unfold finishDeposit
  cases w.bank.items[i]? with
  | none => exact .of_eq rfl
  | some bItem =>
    refine .trans (.of_eq ?_) saveToDB_sameItems
    rw [logAction_items]
    rfl

/-- Withdrawing a copy leaves the items of the bank alone. -/
theorem withdrawCopy_sameItems : w.bank.SameItems (w.withdrawBankItem env bankTab bankSlot
    bItem.count dest.1 dest.2 bItem none none 0 true).bank := by
  unfold withdrawBankItem
  by_cases hr : (w.player.inv.canStoreItem (dest.1 % 256) (dest.2 % 256) []
    bItem.itemTemplate bItem.count .none false).res = .ok
  swap
  · rw [if_pos hr]
    exact .of_eq rfl
  rw [if_neg (not_not.mpr hr)]
  refine .trans ?_ saveToDB_sameItems
  by_cases hc : bItem.count = 0
  · rw [hc] at hr ⊢
    unfold withdrawNew
    rw [Inventory.storeNewItem_nothing _ _ (Inventory.canStoreItem_nothing hr)]
    exact .of_eq rfl
  · obtain ⟨w', heq, ⟨hb, -, -⟩, -, -⟩ :=
      withdrawNew_eq env bankTab bankSlot none 0 true hc hr rfl
    rw [heq]
    refine .of_eq ?_
    rw [finishWithdraw_items, ← hb]
    split_ifs <;> rfl

/-- Of a bank item without units nothing is withdrawn, wherever it is to go. -/
theorem withdrawCopy_nothing (hc : bItem.count = 0) (e : Nat) :
    (w.withdrawBankItem env bankTab bankSlot bItem.count dest.1 dest.2 bItem none none 0
      true).units e = w.units e := by
  unfold withdrawBankItem
  rw [hc]
  by_cases hr : (w.player.inv.canStoreItem (dest.1 % 256) (dest.2 % 256) [] bItem.itemTemplate 0
    .none false).res = .ok
  · rw [if_neg (not_not.mpr hr), saveToDB_units]
    exact withdrawNew_nothing hr e
  · rw [if_pos hr]
    rfl

/-- No slot is behind the last one. -/
theorem canStoreItem_behind (inv : Inventory db) (entry : Nat) :
    (inv.canStoreItem inventorySlotBag0 254 [] entry count .none false).res ≠ .ok := by
  intro h
  unfold Inventory.canStoreItem at h
  cases hget : db.get entry with
  | none =>
    rw [hget] at h
    cases h
  | some proto =>
    rw [hget] at h
    dsimp only [Source.item, Option.any_none] at h
    rw [if_neg Bool.false_ne_true, if_neg Bool.false_ne_true] at h
    split_ifs at h with hres
    · exact hres.1 h
    · cases h
    · cases h

/-! ## The two halves -/

/-- The first check lets the swap go on: there is room for the bank item, or only room is
missing. -/
def SwapTried (w : World db) (bItem : BankItem) : Prop :=
  (w.player.inv.canStoreItem nullBag nullSlot [] bItem.itemTemplate bItem.count .none
      false).res = .ok ∨
    (w.player.inv.canStoreItem nullBag nullSlot [] bItem.itemTemplate bItem.count .none
      false).res = .inventoryFull

/-- The second check: there is room for the bank item without the player's item. -/
def SwapFits (w : World db) (p : Pos) (bItem : BankItem) : Prop :=
  ((w.player.inv.remove p).canStoreItem inventorySlotBag0 nullSlot [] bItem.itemTemplate
    bItem.count .none false).res = .ok

/-- What `GetBagSlot` and `GetSlot` answer once the player's item is destroyed. One that has been saved
is in no bag and no slot. One that has not is deleted (`Item::SetState`), and then the two read freed
memory. -/
def ReadsBack (saved : Bool) (dest : Pos) : Prop :=
  saved = true → dest = (inventorySlotBag0, nullSlot)

instance : Decidable (w.SwapTried bItem) := inferInstanceAs (Decidable (_ ∨ _))

instance : Decidable (w.SwapFits p bItem) := inferInstanceAs (Decidable (_ = _))

/-- Nothing has happened: the bank with its update queue and the inventory are as before. -/
def Unchanged (w w' : World db) : Prop := w'.bank = w.bank ∧ w'.player.inv = w.player.inv

/-- The swap has happened: the player's item is in the slot of the bank item, and the inventory has,
in its place, the units of the bank item. -/
structure Swapped (w w' : World db) (p : Pos) (i : Nat) (it : Item db) (bItem : BankItem) :
    Prop where
  bank : ∃ x, w'.bank.items[i]? = some x ∧ x.tab = bItem.tab ∧ x.slot = bItem.slot ∧
    x.itemTemplate = it.entry ∧ x.count = it.count
  inv : ∀ e, w'.player.inv.units e = (w.player.inv.remove p).units e + bItem.share e

theorem swapItems_refused (hb : w.bank.items[i]? = some bItem)
    (hp : w.player.inv.getItemByPos p = some it) (h : ¬ w.SwapTried bItem) :
    w.Unchanged (w.swapItemsTo env dest p i) := by
  unfold swapItemsTo
  rw [hb, hp]
  dsimp only
  rw [if_pos (not_or.mp h)]
  exact ⟨rfl, rfl⟩

/-- After the deposit the bank slot has the player's item. What is left to do is the withdrawal. -/
theorem swapItemsTo_eq (env : Env) (dest : Pos) (hd : w.bank.Holds bankTab bankSlot i bItem)
    (hp : w.player.inv.getItemByPos p = some it) (h : w.SwapTried bItem) :
    ∃ w₁ : World db, w.swapItemsTo env dest p i = w₁.withdrawBankItem env bItem.tab bItem.slot
        bItem.count dest.1 dest.2 bItem none none 0 true ∧
      w₁.player.inv = w.player.inv.remove p ∧
      ∃ x, w₁.bank.items[i]? = some x ∧ x.tab = bItem.tab ∧ x.slot = bItem.slot ∧
        x.itemTemplate = it.entry ∧ x.count = it.count := by
  obtain ⟨rfl, rfl⟩ := hd.at
  obtain ⟨bank, hdep, hbank, -⟩ := depositToBank_over it it.count false hd
  refine ⟨finishDeposit env ((w.setBank bank).payOut p it it.count 0) i it.count, ?_, ?_, ?_⟩
  · unfold swapItemsTo
    rw [hd.2, hp]
    dsimp only
    rw [if_neg fun hno => h.elim hno.1 hno.2, depositItemInSlot_eq hp hdep, if_pos rfl]
  · rw [finishDeposit_player]
    unfold payOut
    rw [if_pos ⟨rfl, rfl⟩]
    rfl
  · have hitem : ((w.setBank bank).payOut p it it.count 0).bank.items[i]? =
        some (overBankItem w.bank bItem it it.count .changed false) := by
      rw [payOut_bank, hbank]
      show (w.bank.items.set i _)[i]? = _
      rw [List.getElem?_set_self (List.getElem?_eq_some_iff.mp hd.2).1]
    obtain ⟨s, hs⟩ := (finishDeposit_sameItems env _ it.count).getElem hitem
    exact ⟨_, hs, rfl, rfl, rfl, rfl⟩

/-- The withdrawal is refused: only the deposit has happened. -/
theorem not_whole_of_refused (dest : Nat × Nat) (hd : w.bank.Holds bankTab bankSlot i bItem)
    (hp : w.player.inv.getItemByPos p = some it) (ht : w.SwapTried bItem) (hc : bItem.count ≠ 0)
    (hno : ((w.player.inv.remove p).canStoreItem (dest.1 % 256) (dest.2 % 256) []
      bItem.itemTemplate bItem.count .none false).res ≠ .ok) :
    ¬ (w.Unchanged (w.swapItemsTo env dest p i) ∨
      w.Swapped (w.swapItemsTo env dest p i) p i it bItem) := by
  obtain ⟨w₁, heq, hinv, -⟩ := swapItemsTo_eq env dest hd hp ht
  have hgone : (w.swapItemsTo env dest p i).player.inv = w.player.inv.remove p := by
    rw [heq]
    unfold withdrawBankItem
    rw [hinv, if_pos hno]
    exact hinv
  rintro (⟨-, hsame⟩ | hsw)
  · -- the player's item is gone
    have hl : (w.player.inv.remove p).getItemByPos p = none := by
      have hl : (w.player.inv.remove p).cells.lookup p = none := by
        rw [Inventory.lookup_remove]
        exact if_pos (.inl rfl)
      rw [Inventory.getItemByPos_eq, hl, ite_self]
    rw [← hgone, hsame, hp] at hl
    cases hl
  · have h := hsw.inv bItem.itemTemplate
    rw [hgone, BankItem.share, if_pos rfl] at h
    rw [ne_zero_toNat] at hc
    omega

/-- The withdrawal succeeds, or there is nothing to withdraw. -/
theorem swapped_of_fits (hd : w.bank.Holds bankTab bankSlot i bItem)
    (hp : w.player.inv.getItemByPos p = some it) (ht : w.SwapTried bItem)
    (h : bItem.count = 0 ∨ dest = (inventorySlotBag0, nullSlot) ∧ w.SwapFits p bItem) :
    w.Swapped (w.swapItemsTo env dest p i) p i it bItem := by
  obtain ⟨w₁, heq, hinv, x, hx, hslot⟩ := swapItemsTo_eq env dest hd hp ht
  have hcopy : w₁.bank.SameItems (w₁.withdrawBankItem env bItem.tab bItem.slot bItem.count dest.1
      dest.2 bItem none none 0 true).bank := withdrawCopy_sameItems
  have hunits : ∀ e, (w.swapItemsTo env dest p i).units e = w₁.units e + bItem.share e := by
    intro e
    rw [heq]
    obtain hc | ⟨rfl, hf⟩ := h
    · have hz : bItem.share e = 0 := by simp [BankItem.share, hc]
      rw [withdrawCopy_nothing hc, hz, Nat.add_zero]
    · rw [withdrawCopy_units, hinv]
      exact congrArg _ (if_pos hf)
  obtain ⟨s, hs⟩ := hcopy.getElem hx
  refine ⟨⟨{ x with state := s }, heq ▸ hs, hslot⟩, fun e => ?_⟩
  have hu := hunits e
  rw [units_eq, units_eq, heq, hcopy.units e, hinv] at hu
  rw [heq]
  omega

/-- A swap is executed as a whole, or not at all, whatever is read of the player's item once it is
destroyed, if and only if the first check refuses it, or the bank item has no units, or the player's
item has been saved and the bank item fits into what is left of the inventory. -/
theorem swap_allOrNothing_iff (saved : Bool) (hd : w.bank.Holds bankTab bankSlot i bItem)
    (hp : w.player.inv.getItemByPos p = some it) :
    (∀ dest, ReadsBack saved dest → w.Unchanged (w.swapItemsTo env dest p i) ∨
        w.Swapped (w.swapItemsTo env dest p i) p i it bItem) ↔
      (¬ w.SwapTried bItem ∨ bItem.count = 0 ∨ saved = true ∧ w.SwapFits p bItem) := by
  by_cases ht : w.SwapTried bItem
  swap
  · exact iff_of_true (fun dest _ => .inl (swapItems_refused hd.2 hp ht)) (.inl ht)
  rw [or_iff_right (not_not.mpr ht)]
  constructor
  · intro hall
    by_cases hc : bItem.count = 0
    · exact .inl hc
    refine .inr ⟨?_, ?_⟩
    · by_contra hsaved
      -- the freed memory may speak of a slot behind the last one
      exact not_whole_of_refused (inventorySlotBag0, 254) hd hp ht hc
        (canStoreItem_behind _ _) (hall _ fun h => absurd h hsaved)
    · by_contra hf
      exact not_whole_of_refused (inventorySlotBag0, nullSlot) hd hp ht hc hf
        (hall _ fun _ => rfl)
  · rintro (hc | ⟨rfl, hf⟩) dest hdest
    · exact .inr (swapped_of_fits hd hp ht (.inl hc))
    · exact .inr (swapped_of_fits hd hp ht (.inr ⟨hdest rfl, hf⟩))

end World

/-! ## A herb for a cloth -/

/-- A herb, which goes into herb bags. -/
def herbProto : ItemPrototype :=
  { clothProto with itemId := 765, name1 := "Silverleaf", bagFamily := 6 }

/-- A bag for herbs only. -/
def herbBagProto : ItemPrototype :=
  { pouchProto with
    itemId := 22250, name1 := "Herb Pouch", subClass := 2, containerSlots := 12
    containerSlots_le := by decide
    containerSlots_bag := fun _ => rfl
    containerSlots_single := fun _ => rfl }

/-- An item template table of cloth, herb and herb bag. -/
def herbDb : ItemDb where
  get e := if e = 2589 then some clothProto else if e = 765 then some herbProto
    else if e = 22250 then some herbBagProto else none
  get_id := by
    intro e p h
    split_ifs at h with h1 h2 h3
    · cases h; exact h1.symm
    · cases h; exact h2.symm
    · cases h; exact h3.symm

def herb : Item herbDb :=
  { guid := 50, proto := herbProto, isProto := rfl, count := 3, owner := 1 }

def herbBag : Item herbDb :=
  { guid := 51, proto := herbBagProto, isProto := rfl, count := 1, owner := 1 }

/-- Three herbs in a herb bag, and a backpack full of cloth. -/
def herbInv : Inventory herbDb :=
  let full := (List.range' inventorySlotItemStart 16).foldl (fun inv j =>
    inv.place (inventorySlotBag0, j)
      { guid := j, proto := clothProto, isProto := rfl, count := 20, owner := 1 })
    (Inventory.empty 1)
  (full.place (inventorySlotBag0, 19) herbBag).place (19, 0) herb

/-- Five pieces of cloth in the first slot of the bank. -/
def bankCloth : BankItem :=
  { guildid := 1, guid := 1, tab := 1, slot := 1, itemTemplate := 2589, count := 5
    maxStackSize := 20 }

def herbWorld : World herbDb where
  bank := { guildid := 1, tabs := 1, items := [bankCloth] }
  player := { guid := 1, rank := 0, inv := herbInv }

/-- The cloth is swapped with the herbs: the herbs are in the bank, and the cloth is gone. -/
theorem herbWorld_half :
    herbWorld.bank.Holds 1 1 0 bankCloth ∧ herbWorld.player.inv.getItemByPos (19, 0) = some herb ∧
      ¬ (herbWorld.Unchanged (herbWorld.swapItems {} (19, 0) 0) ∨
        herbWorld.Swapped (herbWorld.swapItems {} (19, 0) 0) (19, 0) 0 herb bankCloth) := by
  have h765 : (herbWorld.swapItems {} (19, 0) 0).player.inv.units 765 = 0 := by decide +kernel
  have h2589 : (herbWorld.swapItems {} (19, 0) 0).player.inv.units 2589 = 320 := by decide +kernel
  refine ⟨⟨by decide, rfl⟩, by decide +kernel, ?_⟩
  rintro (⟨-, h⟩ | h)
  · rw [h] at h765
    exact absurd h765 (by decide +kernel)
  · have h := h.inv 2589
    rw [h2589] at h
    exact absurd h (by decide +kernel)

/-- The same swap with an empty slot in the backpack. -/
def herbWorldRoom : World herbDb :=
  { herbWorld with player :=
    { herbWorld.player with inv := herbInv.remove (inventorySlotBag0, 38) } }

theorem herbWorldRoom_whole :
    herbWorldRoom.bank.Holds 1 1 0 bankCloth ∧
      herbWorldRoom.player.inv.getItemByPos (19, 0) = some herb ∧
      (herbWorldRoom.Unchanged (herbWorldRoom.swapItems {} (19, 0) 0) ∨
        herbWorldRoom.Swapped (herbWorldRoom.swapItems {} (19, 0) 0) (19, 0) 0 herb bankCloth) := by
  have hd : herbWorldRoom.bank.Holds 1 1 0 bankCloth := ⟨by decide, rfl⟩
  have hp : herbWorldRoom.player.inv.getItemByPos (19, 0) = some herb := by decide +kernel
  have hfits : herbWorldRoom.SwapFits (19, 0) bankCloth := by decide +kernel
  exact ⟨hd, hp, (World.swap_allOrNothing_iff true hd hp).mpr (.inr (.inr ⟨rfl, hfits⟩)) _
    fun _ => rfl⟩

end Windrunner
