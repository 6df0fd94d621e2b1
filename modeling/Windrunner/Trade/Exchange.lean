import Mathlib.Data.List.ReduceOption
import Windrunner.Lib.Run
import Windrunner.Inventory.Batch
import Windrunner.Inventory.Sound

/-!
# Executing a trade

The execution part of `HandleAcceptTradeOpcode`: every offered item is taken out of its inventory,
then `moveItems` goes through the six slots and stores each item with the other side, or gives it
back.

* `Offer`, `Deal`: six slots of distinct items that may be traded, on either side.
* `Sides.outcome`: the `MoveItemToInventory` calls of one slot; `Sides.moveSlot` makes them.
* `Deal.conserved_iff`: no unit is lost or made and every offered stack goes whole to one player if
  and only if every slot is exchanged, or given back through destination vectors that the failed
  search had left empty.
-/

namespace Windrunner

open Lib List
open Option hiding all_eq_true

variable {db : ItemDb}

abbrev tradeSlotTradedCount : Nat := 6

/-- The two players of a trade: the one whose session executes it, and the other. -/
inductive Side where
  | player
  | trader
  deriving DecidableEq, Repr

def Side.other : Side → Side
  | player => trader
  | trader => player

namespace Item

/-- The units of entry `e` in an item. -/
def share (e : Nat) (it : Item db) : Nat := if it.entry = e then it.count.toNat else 0

/-- A bound item that may still be traded loses that (`ResetSoulBoundTradeData`). -/
def resetSoulBoundTradeData (it : Item db) : Item db :=
  if it.isSoulBound && it.canBeTradedEvenIfSoulBound then
    { it with canBeTradedEvenIfSoulBound := false }
  else it

/-- A wrapped gift names the player who gives it away. -/
def setGiftCreator (it : Item db) (giver : Nat) : Item db :=
  if it.fields.giftCreator ≠ 0 then { it with fields := { it.fields with giftCreator := giver } }
  else it

@[simp] theorem resetSoulBoundTradeData_proto (it : Item db) :
    it.resetSoulBoundTradeData.proto = it.proto := by
  unfold resetSoulBoundTradeData
  split <;> rfl

@[simp] theorem setGiftCreator_count (it : Item db) (giver : Nat) :
    (it.setGiftCreator giver).count = it.count := by
  unfold setGiftCreator
  split <;> rfl

@[simp] theorem setGiftCreator_share (it : Item db) (giver e : Nat) :
    (it.setGiftCreator giver).share e = it.share e := by
  unfold setGiftCreator
  split <;> rfl

end Item

/-! ## Taking the offered items out -/

namespace Inventory

variable {inv : Inventory db} {e fresh : Nat}

/-- The removal of one slot: `MoveItemFromInventory` at the position of the item. -/
def moveItemFromInventory (inv : Inventory db) (slot : Option Pos) :
    Inventory db × Option (Item db) :=
  match slot.bind fun p => (inv.getItemByPos p).map (p, ·) with
  | some (p, it) => (inv.remove p, some (it.setGiftCreator inv.owner))
  | none => (inv, none)

/-- The removal loop, as far as it concerns one of the two inventories. -/
def moveItemsFrom (inv : Inventory db) : List (Option Pos) → Inventory db × List (Option (Item db))
  | [] => (inv, [])
  | slot :: slots =>
    let (inv', it) := inv.moveItemFromInventory slot
    let (inv'', its) := inv'.moveItemsFrom slots
    (inv'', it :: its)

/-- The offered items with their `in-trade` flag set. -/
def setInTrade (inv : Inventory db) (slots : List (Option Pos)) : Inventory db :=
  slots.foldl (fun inv slot =>
    match slot.bind fun p => (inv.getItemByPos p).map (p, ·) with
    | some (p, it) => inv.setItem p { it with inTrade := true }
    | none => inv) inv

/-- The offered items as the check for room sees them. -/
def parcels (inv : Inventory db) (slots : List (Option Pos)) : List (Option (Parcel db)) :=
  slots.map fun slot => slot.bind fun p =>
    (inv.getItemByPos p).map fun it => ⟨it, inv.isNonEmptyBag (.own p)⟩

/-- `CanStoreItem(NULL_BAG, NULL_SLOT, dest, item, false)` for an item that is in no inventory;
`dest` is what the vector holds already. An empty trade slot always fits. -/
def canStoreLoose (inv : Inventory db) (dest : List ItemPosCount) (it : Option (Item db)) :
    CanStore :=
  match it with
  | none => ⟨.ok, dest, none⟩
  | some it => inv.canStoreItem nullBag nullSlot dest it.entry it.count (.loose it) false

/-- `Player::MoveItemToInventory`. -/
def moveItemToInventory (inv : Inventory db) (dest : List ItemPosCount) (it : Item db)
    (fresh : Nat) : Stored db :=
  inv.storeItem dest it fresh

end Inventory

/-- The slots of an offer: distinct items of the inventory that pass `CanBeTraded`, so that a bag
among them is empty. -/
structure Offer (inv : Inventory db) where
  slots : List (Option Pos)
  length : slots.length = tradeSlotTradedCount
  distinct : slots.reduceOption.Nodup
  held : ∀ p ∈ slots.reduceOption, (inv.getItemByPos p).isSome
  emptied : ∀ p ∈ slots.reduceOption, inv.isNonEmptyBag (.own p) = false

/-- Two inventories and what is offered from each. -/
structure Deal (db : ItemDb) where
  player : Inventory db
  trader : Inventory db
  playerBounded : player.Bounded
  traderBounded : trader.Bounded
  my : Offer player
  his : Offer trader
  fresh : Nat

/-! ## `moveItems` -/

/-- The inventories while the items are stored, and the next free item guid. -/
structure Sides (db : ItemDb) where
  player : Inventory db
  trader : Inventory db
  fresh : Nat

/-- A call of `MoveItemToInventory`. -/
structure Hand (db : ItemDb) where
  item : Item db
  receiver : Side
  dest : List ItemPosCount

/-- The items of one trade slot, mine and his. -/
abbrev Slot (db : ItemDb) := Option (Item db) × Option (Item db)

namespace Sides

def inv (s : Sides db) : Side → Inventory db
  | .player => s.player
  | .trader => s.trader

/-- The calls that one slot leads to, for my item and for his. Each check of the source looks at an
inventory that the slot has not changed yet. -/
def outcome (s : Sides db) (x : Slot db) : Option (Hand db) × Option (Hand db) :=
  let traderDst := s.trader.canStoreLoose [] x.1
  let playerDst := s.player.canStoreLoose [] x.2
  if traderDst.res = .ok ∧ playerDst.res = .ok then
    (x.1.map fun it => ⟨it.resetSoulBoundTradeData, .trader, traderDst.dest⟩,
      x.2.map fun it => ⟨it.resetSoulBoundTradeData, .player, playerDst.dest⟩)
  else
    -- the vectors are used again with what the first checks put into them
    let myBack := s.player.canStoreLoose playerDst.dest x.1
    let hisBack := s.trader.canStoreLoose traderDst.dest x.2
    (if myBack.res = .ok then x.1.map fun it => ⟨it, .player, myBack.dest⟩ else none,
      if hisBack.res = .ok then x.2.map fun it => ⟨it, .trader, hisBack.dest⟩ else none)

def hand (s : Sides db) (h : Option (Hand db)) : Sides db :=
  match h with
  | none => s
  | some ⟨it, .player, dest⟩ =>
    let r := s.player.moveItemToInventory dest it s.fresh
    { s with player := r.inv, fresh := r.fresh }
  | some ⟨it, .trader, dest⟩ =>
    let r := s.trader.moveItemToInventory dest it s.fresh
    { s with trader := r.inv, fresh := r.fresh }

def moveSlot (s : Sides db) (x : Slot db) : Sides db :=
  (s.hand (s.outcome x).1).hand (s.outcome x).2

/-- `WorldSession::moveItems`. -/
def moveItems (s : Sides db) (xs : List (Slot db)) : Sides db := run moveSlot s xs

/-- What `moveItems` does with each slot. -/
def outcomes (s : Sides db) : List (Slot db) → List (Slot db × (Option (Hand db) × Option (Hand db)))
  | [] => []
  | x :: xs => (x, s.outcome x) :: (s.moveSlot x).outcomes xs

end Sides

namespace Deal

/-- Both inventories without the offered items. -/
def removed (d : Deal db) : Sides db :=
  ⟨(d.player.moveItemsFrom d.my.slots).1, (d.trader.moveItemsFrom d.his.slots).1, d.fresh⟩

/-- The offered items, slot by slot. -/
def items (d : Deal db) : List (Slot db) :=
  (d.player.moveItemsFrom d.my.slots).2.zip (d.trader.moveItemsFrom d.his.slots).2

/-- The execution part of `HandleAcceptTradeOpcode`. -/
def execute (d : Deal db) : Sides db := d.removed.moveItems d.items

/-- Both inventories pass the check for room that goes before the execution. -/
def Accepted (d : Deal db) : Prop :=
  (d.trader.setInTrade d.his.slots).canStoreItems (d.player.parcels d.my.slots) = .ok ∧
    (d.player.setInTrade d.my.slots).canStoreItems (d.trader.parcels d.his.slots) = .ok

instance (d : Deal db) : Decidable d.Accepted := inferInstanceAs (Decidable (_ ∧ _))

end Deal

/-! ## What the calls do -/

namespace Inventory

variable {inv : Inventory db} {it it' : Item db} {p : Pos} {slots : List (Option Pos)} {e : Nat}

/-- The places found for an item in no inventory can take it. -/
theorem canStoreLoose_ready (hc : it.count ≠ 0) (h : (inv.canStoreLoose [] (some it)).res = .ok) :
    ((inv.canStoreLoose [] (some it)).dest.map (·.pos)).Nodup ∧
      ∀ d ∈ (inv.canStoreLoose [] (some it)).dest, inv.Ready it.proto d := by
  obtain ⟨proto, f, hget, hK, hz, hd⟩ := canStoreItem_kept hc h
  have hget' : db.get proto.itemId = some proto := by rw [db.get_id hget, hget]
  have hproto : it.proto = proto := Item.proto_of_get hget' (db.get_id hget).symm
  have hsrc : (Source.loose it).IsFor inv it.entry := rfl
  unfold canStoreLoose
  rw [hd, hproto]
  exact ⟨hK.distinct, fun d hdm => (hK.fits d hdm).ready hget' hsrc (hK.not_nonEmptyBag hz hc)⟩

/-- Storing an item that fits adds its units. -/
theorem units_moveItemToInventory (e fresh : Nat) (hc : it.count ≠ 0) (hp : it'.proto = it.proto)
    (h : (inv.canStoreLoose [] (some it)).res = .ok) :
    (inv.moveItemToInventory (inv.canStoreLoose [] (some it)).dest it' fresh).inv.units e =
      inv.units e + it.share e := by
  have hseen : seenUnits (inv.canStoreLoose [] (some it)).dest = it.count.toNat :=
    (canStoreItem_seen_iff hc h).mpr fun hn => hn.1 rfl
  obtain ⟨hnd, hready⟩ := canStoreLoose_ready hc h
  unfold moveItemToInventory
  rw [(storeItem_spec hnd (hp ▸ hready)).units, hseen, hp]
  rfl

/-- Storing an item that fits fills no stack above its limit. -/
theorem bounded_moveItemToInventory (fresh : Nat) (hb : inv.Bounded) (hc : it.count ≠ 0)
    (h : (inv.canStoreLoose [] (some it)).res = .ok) :
    (inv.moveItemToInventory (inv.canStoreLoose [] (some it)).dest it fresh).inv.Bounded := by
  obtain ⟨hnd, hready⟩ := canStoreLoose_ready hc h
  exact (storeItem_spec hnd hready).bounded hb hready

section

variable (hp : inv.getItemByPos p = some it)
include hp

section

variable (hne : inv.isNonEmptyBag (.own p) = false)
include hne

/-- Another item stays where it is when an item without contents is taken out. -/
theorem getItemByPos_remove_ne {q : Pos} (hq : q ≠ p) :
    (inv.remove p).getItemByPos q = inv.getItemByPos q := by
  rw [getItemByPos_eq, getItemByPos_eq, lookup_remove]
  cases hl : inv.cells.lookup q with
  | none => simp
  | some x => simp [hq, outside_of_emptied hp hne hl]

/-- A bag that is empty stays empty. -/
theorem isNonEmptyBag_remove {q : Pos} (hq : q ≠ p)
    (hn : inv.isNonEmptyBag (.own q) = false) : (inv.remove p).isNonEmptyBag (.own q) = false := by
  obtain ⟨b, s⟩ := q
  unfold isNonEmptyBag at hn ⊢
  dsimp only at hn ⊢
  rw [getItemByPos_remove_ne hp hne hq]
  cases hg : inv.getItemByPos (b, s) with
  | none => rfl
  | some bag =>
    rw [hg] at hn
    simp only [Bool.and_eq_false_iff, Bool.not_eq_false'] at hn ⊢
    refine hn.imp_right fun he => ?_
    unfold bagIsEmpty at he ⊢
    rw [all_eq_true] at he ⊢
    intro j hj
    rw [lookup_remove]
    split_ifs
    · rfl
    · exact he j hj

/-- An item without contents is taken out with its units. -/
theorem units_remove_emptied (e : Nat) :
    (inv.remove p).units e + it.share e = inv.units e := by
  obtain ⟨hv, hl⟩ := getItemByPos_some hp
  have h := total_remove (f := unitsAt e) hl fun q x hq => outside_of_emptied hp hne hq
  rwa [show unitsAt e p it = it.share e by simp [unitsAt, hv, Item.share]] at h

end

end

/-- What an offer takes out of an inventory. -/
theorem units_moveItemsFrom (hnd : slots.reduceOption.Nodup)
    (hheld : ∀ p ∈ slots.reduceOption, (inv.getItemByPos p).isSome)
    (hne : ∀ p ∈ slots.reduceOption, inv.isNonEmptyBag (.own p) = false) :
    (inv.moveItemsFrom slots).1.units e +
      ((inv.moveItemsFrom slots).2.map fun x => x.elim 0 (Item.share e)).sum = inv.units e := by
  induction slots generalizing inv with
  | nil => rfl
  | cons slot slots ih =>
    cases slot with
    | none =>
      rw [reduceOption_cons_of_none] at hnd hheld hne
      have := ih hnd hheld hne
      simpa [moveItemsFrom, moveItemFromInventory] using this
    | some p =>
      rw [reduceOption_cons_of_some] at hnd hheld hne
      obtain ⟨hp, hnd⟩ := nodup_cons.mp hnd
      obtain ⟨it, hit⟩ := isSome_iff_exists.mp (hheld p mem_cons_self)
      have hpe := hne p mem_cons_self
      -- the rest of the offer is untouched by the removal of `p`
      have hrest := ih hnd
        (fun q hq => by
          rw [getItemByPos_remove_ne hit hpe (ne_of_mem_of_not_mem hq hp)]
          exact hheld q (mem_cons_of_mem _ hq))
        fun q hq => isNonEmptyBag_remove hit hpe (ne_of_mem_of_not_mem hq hp)
          (hne q (mem_cons_of_mem _ hq))
      have hout := units_remove_emptied hit hpe e
      simp only [moveItemsFrom, moveItemFromInventory, bind_some, hit, map_some,
        map_cons, sum_cons, elim_some, Item.setGiftCreator_share]
      omega

/-- The items of an offer have units. -/
theorem count_moveItemsFrom (hb : inv.Bounded) :
    ∀ x ∈ (inv.moveItemsFrom slots).2, ∀ it ∈ x, it.count ≠ 0 := by
  induction slots generalizing inv with
  | nil => simp [moveItemsFrom]
  | cons slot slots ih =>
    unfold moveItemsFrom moveItemFromInventory
    cases hs : slot.bind fun p => (inv.getItemByPos p).map (p, ·) with
    | none =>
      simp only [mem_cons, forall_eq_or_imp, reduceCtorEq, mem_def, false_implies,
        implies_true, true_and]
      exact ih hb
    | some q =>
      obtain ⟨p, it⟩ := q
      obtain ⟨p', -, hp'⟩ := bind_eq_some_iff.mp hs
      obtain ⟨it', hit, he⟩ := map_eq_some_iff.mp hp'
      cases he
      simp only [mem_cons, forall_eq_or_imp, mem_def, some.injEq,
        forall_eq', Item.setGiftCreator_count]
      exact ⟨ne_zero_toNat.mpr (hb p it hit).1, ih (hb.remove p)⟩

theorem length_moveItemsFrom : (inv.moveItemsFrom slots).2.length = slots.length := by
  induction slots generalizing inv with
  | nil => rfl
  | cons slot slots ih => simp [moveItemsFrom, ih]

end Inventory

/-! ## One slot -/

/-- The stack `it`, if there is one, is handed over with all its units. -/
def Handed (it : Option (Item db)) (h : Option (Hand db)) : Prop :=
  ∀ x ∈ it, ∃ y ∈ h, (y.dest.map (·.count.toNat)).sum = x.count.toNat

/-- The units of entry `e` that the hand `h` of the stack `it` brings to side `k`. -/
def brought (k : Side) (e : Nat) (it : Option (Item db)) (h : Option (Hand db)) : Nat :=
  if h.any (·.receiver == k) then it.elim 0 (Item.share e) else 0

namespace Sides

variable {s : Sides db} {x : Slot db} {xs : List (Slot db)} {k : Side} {e : Nat}

/-- Both items of the slot find room with the other side; or each goes back to its owner, whose
vector holds nothing from the search for the other item. -/
def SlotFits (s : Sides db) (x : Slot db) : Prop :=
  ((s.trader.canStoreLoose [] x.1).res = .ok ∧ (s.player.canStoreLoose [] x.2).res = .ok) ∨
  ((∀ it ∈ x.1, (s.player.canStoreLoose [] x.2).dest = [] ∧
      (s.player.canStoreLoose [] (some it)).res = .ok) ∧
    ∀ it ∈ x.2, (s.trader.canStoreLoose [] x.1).dest = [] ∧
      (s.trader.canStoreLoose [] (some it)).res = .ok)

instance : Decidable (s.SlotFits x) := inferInstanceAs (Decidable (_ ∨ _))

/-- The items of a slot have units. -/
def Counted (x : Slot db) : Prop := (∀ it ∈ x.1, it.count ≠ 0) ∧ ∀ it ∈ x.2, it.count ≠ 0

theorem handed_room {inv : Inventory db} {it : Option (Item db)} {f : Item db → Hand db}
    (hc : ∀ x ∈ it, x.count ≠ 0) (hok : (inv.canStoreLoose [] it).res = .ok)
    (hf : ∀ x, (f x).dest = (inv.canStoreLoose [] it).dest) : Handed it (it.map f) := by
  intro x hx
  obtain rfl := hx
  refine ⟨_, rfl, ?_⟩
  rw [hf]
  exact (Inventory.canStoreItem_sum (hc x rfl) hok).trans (Nat.zero_add _)

/-- A search that found nothing to record. -/
theorem dest_eq_nil {inv : Inventory db} {it : Option (Item db)} (hc : ∀ x ∈ it, x.count ≠ 0)
    (h : ((inv.canStoreLoose [] it).dest.map (·.count.toNat)).sum = 0) :
    (inv.canStoreLoose [] it).dest = [] := by
  cases it with
  | none => rfl
  | some y =>
    obtain ⟨f, hf, hd⟩ : ∃ f, Inventory.NoneEmpty f ∧
        (inv.canStoreLoose [] (some y)).dest = f.dest :=
      Inventory.canStoreItem_keeps (fun _ => Inventory.noneEmpty_closed) (hc y rfl)
        fun _ _ => by simp [Inventory.NoneEmpty]
    refine eq_nil_iff_forall_not_mem.mpr fun d hdm => ?_
    have hpos := hf d (hd ▸ hdm)
    have := le_sum_of_mem (mem_map_of_mem (f := fun d : ItemPosCount => d.count.toNat) hdm)
    omega

/-- An item that goes back through a used vector goes back whole if and only if the vector was
empty. -/
theorem handed_back_iff {inv : Inventory db} {it other : Option (Item db)} {k : Side}
    (hc : ∀ x ∈ it, x.count ≠ 0) (hco : ∀ x ∈ other, x.count ≠ 0) :
    Handed it (if (inv.canStoreLoose (inv.canStoreLoose [] other).dest it).res = .ok then
        it.map fun y => ⟨y, k, (inv.canStoreLoose (inv.canStoreLoose [] other).dest it).dest⟩
      else none) ↔
    ∀ x ∈ it, (inv.canStoreLoose [] other).dest = [] ∧
      (inv.canStoreLoose [] (some x)).res = .ok := by
  constructor
  · rintro h x rfl
    obtain ⟨y, hy, hsum⟩ := h x rfl
    split_ifs at hy with hok
    · obtain rfl : _ = y := some.inj hy
      have hadd := Inventory.canStoreItem_sum (hc x rfl) hok
      have hnil := dest_eq_nil hco (Nat.add_right_cancel
        (hadd.symm.trans (hsum.trans (Nat.zero_add _).symm)))
      rw [hnil] at hok
      exact ⟨hnil, hok⟩
    · cases hy
  · rintro h x rfl
    obtain ⟨hnil, hok⟩ := h x rfl
    rw [hnil, if_pos hok]
    exact handed_room hc hok (fun _ => rfl) x rfl

theorem handed_outcome_iff (hx : Counted x) :
    (Handed x.1 (s.outcome x).1 ∧ Handed x.2 (s.outcome x).2) ↔ s.SlotFits x := by
  unfold outcome SlotFits
  dsimp only
  by_cases hok : (s.trader.canStoreLoose [] x.1).res = .ok ∧ (s.player.canStoreLoose [] x.2).res = .ok
  · rw [if_pos hok]
    refine iff_of_true ⟨?_, ?_⟩ (.inl hok)
    · exact handed_room hx.1 hok.1 fun _ => rfl
    · exact handed_room hx.2 hok.2 fun _ => rfl
  · rw [if_neg hok, or_iff_right hok]
    exact and_congr (handed_back_iff hx.1 hx.2) (handed_back_iff hx.2 hx.1)

/-- A slot that is exchanged. -/
theorem units_exchanged (hx : Counted x) (h₁ : (s.trader.canStoreLoose [] x.1).res = .ok)
    (h₂ : (s.player.canStoreLoose [] x.2).res = .ok) (k : Side) (e : Nat) :
    ((s.moveSlot x).inv k).units e = (s.inv k).units e +
      (brought k e x.1 (s.outcome x).1 + brought k e x.2 (s.outcome x).2) := by
  obtain ⟨mine, his⟩ := x
  have hout : s.outcome (mine, his) =
      (mine.map fun it => ⟨it.resetSoulBoundTradeData, .trader, (s.trader.canStoreLoose [] mine).dest⟩,
        his.map fun it => ⟨it.resetSoulBoundTradeData, .player, (s.player.canStoreLoose [] his).dest⟩) :=
    if_pos ⟨h₁, h₂⟩
  have hmine := fun it fresh hit => Inventory.units_moveItemToInventory e fresh (hx.1 it hit)
    it.resetSoulBoundTradeData_proto (by rw [← hit]; exact h₁)
  have hhis := fun it fresh hit => Inventory.units_moveItemToInventory e fresh (hx.2 it hit)
    it.resetSoulBoundTradeData_proto (by rw [← hit]; exact h₂)
  unfold moveSlot
  rw [hout]
  cases k with
  | player =>
    cases his with
    | none => cases mine <;> rfl
    | some it => cases mine <;> exact (hhis it _ rfl).trans (by simp [brought, inv])
  | trader =>
    cases mine with
    | none => cases his <;> rfl
    | some it => cases his <;> exact (hmine it _ rfl).trans (by simp [brought, inv])

/-- A slot that is given back. -/
theorem units_returned (hx : Counted x)
    (hno : ¬ ((s.trader.canStoreLoose [] x.1).res = .ok ∧ (s.player.canStoreLoose [] x.2).res = .ok))
    (hfit : s.SlotFits x) (k : Side) (e : Nat) :
    ((s.moveSlot x).inv k).units e = (s.inv k).units e +
      (brought k e x.1 (s.outcome x).1 + brought k e x.2 (s.outcome x).2) := by
  obtain ⟨mine, his⟩ := x
  obtain ⟨hmine, hhis⟩ := hfit.resolve_left hno
  dsimp only at hmine hhis
  have hout : s.outcome (mine, his) =
      (mine.map fun it => ⟨it, .player, (s.player.canStoreLoose [] mine).dest⟩,
        his.map fun it => ⟨it, .trader, (s.trader.canStoreLoose [] his).dest⟩) := by
    refine (if_neg hno).trans (Prod.ext ?_ ?_)
    · cases mine with
      | none => rfl
      | some it => simp only [(hmine it rfl).1, (hmine it rfl).2, if_true]
    · cases his with
      | none => rfl
      | some it => simp only [(hhis it rfl).1, (hhis it rfl).2, if_true]
  have hplayer := fun it fresh hit => Inventory.units_moveItemToInventory e fresh (hx.1 it hit) rfl
    (hmine it hit).2
  have htrader := fun it fresh hit => Inventory.units_moveItemToInventory e fresh (hx.2 it hit) rfl
    (hhis it hit).2
  unfold moveSlot
  rw [hout]
  cases k with
  | player =>
    cases mine with
    | none => cases his <;> rfl
    | some it => cases his <;> exact (hplayer it _ rfl).trans (by simp [brought, inv])
  | trader =>
    cases his with
    | none => cases mine <;> rfl
    | some it => cases mine <;> exact (htrader it _ rfl).trans (by simp [brought, inv])

theorem units_moveSlot (hx : Counted x) (hfit : s.SlotFits x) (k : Side) (e : Nat) :
    ((s.moveSlot x).inv k).units e = (s.inv k).units e +
      (brought k e x.1 (s.outcome x).1 + brought k e x.2 (s.outcome x).2) := by
  by_cases hok : (s.trader.canStoreLoose [] x.1).res = .ok ∧ (s.player.canStoreLoose [] x.2).res = .ok
  · exact units_exchanged hx hok.1 hok.2 k e
  · exact units_returned hx hok hfit k e

/-! ## All slots -/

/-- Every slot along the way hands its stacks over whole if and only if every slot fits. -/
theorem handed_outcomes_iff (hx : ∀ x ∈ xs, Counted x) :
    (∀ o ∈ s.outcomes xs, Handed o.1.1 o.2.1 ∧ Handed o.1.2 o.2.2) ↔
      AlongRun moveSlot SlotFits s xs := by
  induction xs generalizing s with
  | nil => simp [outcomes, AlongRun]
  | cons x xs ih =>
    have hx' := ih (s := s.moveSlot x) fun y hy => hx y (mem_cons_of_mem _ hy)
    unfold outcomes AlongRun
    rw [forall_mem_cons, hx', handed_outcome_iff (hx x mem_cons_self)]

/-- What the slots of a run bring to each side. -/
theorem units_moveItems (hx : ∀ x ∈ xs, Counted x) (h : AlongRun moveSlot SlotFits s xs) (k : Side)
    (e : Nat) :
    ((s.moveItems xs).inv k).units e = (s.inv k).units e +
      ((s.outcomes xs).map fun o => brought k e o.1.1 o.2.1 + brought k e o.1.2 o.2.2).sum := by
  induction xs generalizing s with
  | nil => rfl
  | cons x xs ih =>
    have hrest := ih (s := s.moveSlot x) (fun y hy => hx y (mem_cons_of_mem _ hy)) h.2
    have hhead := units_moveSlot (hx x mem_cons_self) h.1 k e
    unfold outcomes
    rw [map_cons, sum_cons, ← Nat.add_assoc, ← hhead, ← hrest]
    rfl

/-- A stack that is handed over goes to one of the two sides. -/
theorem brought_add {it : Option (Item db)} {h : Option (Hand db)} (hh : Handed it h) (e : Nat) :
    brought .player e it h + brought .trader e it h = it.elim 0 (Item.share e) := by
  cases it with
  | none => simp [brought]
  | some x =>
    obtain ⟨⟨_, k, _⟩, rfl, -⟩ := hh x rfl
    cases k <;> simp [brought]

/-- The slots bring the offered stacks to the two sides together, and nothing else. -/
theorem brought_total (h : ∀ o ∈ s.outcomes xs, Handed o.1.1 o.2.1 ∧ Handed o.1.2 o.2.2) (e : Nat) :
    ((s.outcomes xs).map fun o => brought .player e o.1.1 o.2.1 + brought .player e o.1.2 o.2.2).sum +
      ((s.outcomes xs).map fun o => brought .trader e o.1.1 o.2.1 + brought .trader e o.1.2 o.2.2).sum =
      (xs.map fun x => x.1.elim 0 (Item.share e) + x.2.elim 0 (Item.share e)).sum := by
  induction xs generalizing s with
  | nil => rfl
  | cons x xs ih =>
    unfold outcomes at h ⊢
    rw [forall_mem_cons] at h
    have hrest := ih h.2
    have h₁ := brought_add h.1.1 e
    have h₂ := brought_add h.1.2 e
    simp only [map_cons, sum_cons]
    dsimp only at h₁ h₂
    omega

end Sides

namespace Deal

/-- What a trade is supposed to keep. -/
structure Conserved (d : Deal db) : Prop where
  total : ∀ e, d.execute.player.units e + d.execute.trader.units e =
    d.player.units e + d.trader.units e
  /-- Every offered stack is handed over once, with all its units. -/
  whole : ∀ o ∈ d.removed.outcomes d.items, Handed o.1.1 o.2.1 ∧ Handed o.1.2 o.2.2
  /-- Either player ends up with what was kept and the stacks that were handed to them. -/
  settled : ∀ k e, (d.execute.inv k).units e = (d.removed.inv k).units e +
    ((d.removed.outcomes d.items).map fun o =>
      brought k e o.1.1 o.2.1 + brought k e o.1.2 o.2.2).sum

variable {d : Deal db}

theorem counted_items : ∀ x ∈ d.items, Sides.Counted x := by
  intro x hx
  obtain ⟨h₁, h₂⟩ := of_mem_zip hx
  exact ⟨Inventory.count_moveItemsFrom d.playerBounded _ h₁,
    Inventory.count_moveItemsFrom d.traderBounded _ h₂⟩

/-- The offered stacks and what is left make up the two inventories. -/
theorem units_removed (d : Deal db) (e : Nat) :
    d.removed.player.units e + d.removed.trader.units e +
      (d.items.map fun x => x.1.elim 0 (Item.share e) + x.2.elim 0 (Item.share e)).sum =
      d.player.units e + d.trader.units e := by
  have h₁ := Inventory.units_moveItemsFrom (e := e) d.my.distinct d.my.held d.my.emptied
  have h₂ := Inventory.units_moveItemsFrom (e := e) d.his.distinct d.his.held d.his.emptied
  have hlen : (d.player.moveItemsFrom d.my.slots).2.length =
      (d.trader.moveItemsFrom d.his.slots).2.length := by
    rw [Inventory.length_moveItemsFrom, Inventory.length_moveItemsFrom, d.my.length, d.his.length]
  have hsum := sum_zip (fun x : Option (Item db) => x.elim 0 (Item.share e)) hlen
  unfold items removed
  refine (congrArg (_ + ·) hsum).trans ?_
  dsimp only
  omega

/-- A trade keeps every unit and every stack if and only if each slot, in the inventories that the
slots before it left, is exchanged or goes back through empty vectors. -/
theorem conserved_iff (d : Deal db) :
    d.Conserved ↔ AlongRun Sides.moveSlot Sides.SlotFits d.removed d.items := by
  constructor
  · exact fun h => (Sides.handed_outcomes_iff counted_items).mp h.whole
  · intro h
    have hwhole := (Sides.handed_outcomes_iff counted_items).mpr h
    have hsettled := Sides.units_moveItems counted_items h
    refine ⟨fun e => ?_, hwhole, hsettled⟩
    have hp := hsettled .player e
    have ht := hsettled .trader e
    have hb := Sides.brought_total hwhole e
    have hr := d.units_removed e
    unfold execute
    simp only [Sides.inv] at hp ht
    omega

end Deal

/-! ## A limited item is duplicated -/

/-- A charm of which a player may own two. -/
def charmProto : ItemPrototype := singleProto 4500 "Charm" 2

/-- An item template table of cloth and charms. -/
def charmDb : ItemDb where
  get e := if e = 2589 then some clothProto else if e = 4500 then some charmProto else none
  get_id := by
    intro e p h
    split_ifs at h with h1 h2
    · cases h; exact h1.symm
    · cases h; exact h2.symm

def charm (guid owner : Nat) : Item charmDb :=
  { guid, proto := charmProto, isProto := rfl, count := 1, owner }

/-- Two charms against five pieces of cloth, for a trader who has a charm already. The second charm
is one too many for the trader and goes back, through a vector that holds the room for the cloth. -/
def charmDeal : Deal charmDb where
  player := ((Inventory.empty 1).place (inventorySlotBag0, 23) (charm 11 1)).place
    (inventorySlotBag0, 24) (charm 12 1)
  trader := ((Inventory.empty 2).place (inventorySlotBag0, 23) (charm 13 2)).place
    (inventorySlotBag0, 24) { guid := 14, proto := clothProto, isProto := rfl, count := 5, owner := 2 }
  playerBounded := Inventory.bounded_of_entries (by decide)
  traderBounded := Inventory.bounded_of_entries (by decide)
  my := ⟨[some (inventorySlotBag0, 23), some (inventorySlotBag0, 24), none, none, none, none], rfl,
    by decide, by decide, by decide⟩
  his := ⟨[none, some (inventorySlotBag0, 24), none, none, none, none], rfl, by decide, by decide,
    by decide⟩
  fresh := 100

/-- Three charms before the trade, four after it. -/
theorem charmDeal_not_conserved : charmDeal.Accepted ∧ ¬ charmDeal.Conserved := by
  refine ⟨by decide, fun h => ?_⟩
  have := h.total 4500
  revert this
  decide

end Windrunner
