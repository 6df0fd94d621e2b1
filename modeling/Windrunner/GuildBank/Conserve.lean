import Windrunner.GuildBank.Transfer
import Windrunner.Inventory.Sound

/-!
# Deposits and withdrawals count

What each branch of a deposit or a withdrawal does to the number of units of an entry that the
player and the bank hold together.
-/

namespace Windrunner

open Lib Option

variable {db : ItemDb}

/-- The units of entry `e` in one bank item. -/
def BankItem.share (e : Nat) (it : BankItem) : Nat :=
  if it.itemTemplate = e then it.count.toNat else 0

/-- The stack limit in memory is the one of the template. -/
def BankItem.Typed (db : ItemDb) (it : BankItem) : Prop :=
  ∀ proto, db.get it.itemTemplate = some proto → it.maxStackSize = proto.stackable

namespace GuildBank

variable {b : GuildBank} {i : Nat} {old : BankItem}

def Typed (db : ItemDb) (b : GuildBank) : Prop := ∀ it ∈ b.items, it.Typed db

theorem units_setItem (h : b.items[i]? = some old) (new : BankItem) (e : Nat) :
    (b.setItem i new).units e + old.share e = b.units e + new.share e :=
  sum_set (BankItem.share e) new h

theorem units_addItem (new : BankItem) (e : Nat) :
    (b.addItem new).units e = b.units e + new.share e := by
  simp [addItem, units, BankItem.share]

theorem units_deleteItem (h : b.items[i]? = some old) (e : Nat) :
    (b.deleteItem i).units e + old.share e = b.units e :=
  sum_eraseIdx (BankItem.share e) h

@[simp] theorem units_enqueue (it : BankItem) (e : Nat) : (b.enqueue it).units e = b.units e := rfl

/-- What `GetItem` finds, it finds at the index of `findItem`. -/
theorem holds_of_getItem {tab slot : Nat} (h : b.getItem tab slot = some old) :
    ∃ i, b.Holds tab slot i old := by
  obtain ⟨hp, i, hi, rfl, hlt⟩ := List.find?_eq_some_iff_getElem.mp h
  refine ⟨i, List.findIdx?_eq_some_iff_getElem.mpr ⟨hi, hp, fun j hj => ?_⟩,
    List.getElem?_eq_getElem hi⟩
  simpa using hlt j hj

theorem findItem_of_getItem {tab slot : Nat} (h : (b.getItem tab slot).isNone = true) :
    b.findItem tab slot = none := by
  rw [isNone_iff_eq_none, getItem, List.find?_eq_none] at h
  rw [findItem, List.findIdx?_eq_none_iff]
  exact fun x hx => by simpa using h x hx

theorem Holds.mem {tab slot : Nat} (h : b.Holds tab slot i old) : old ∈ b.items :=
  List.mem_of_getElem? h.2

end GuildBank

namespace World

variable {env : Env} {w : World db} {p : Pos} {it : Item db} {count remainer : UInt32} {e i : Nat}

variable {bankTab : Nat}

/-- `GetItem` of the partial stack that the search for room finds. -/
theorem partialStack_some {b : GuildBank} {entry slot : Nat} {bItem : BankItem}
    (h : partialStack b bankTab entry = some (slot, bItem)) :
    (1 ≤ slot ∧ slot ≤ bankTabSize) ∧ (∃ i, b.Holds bankTab slot i bItem) ∧
      bItem.itemTemplate = entry ∧ bItem.count < bItem.maxStackSize := by
  obtain ⟨j, hj, hs⟩ := List.exists_of_findSome?_eq_some h
  have hr := List.mem_range'_1.mp hj
  cases hg : b.getItem bankTab j with
  | none => rw [hg] at hs; cases hs
  | some x =>
    rw [hg] at hs
    dsimp only at hs
    split_ifs at hs with hc
    cases hs
    exact ⟨⟨hr.1, by omega⟩, GuildBank.holds_of_getItem hg, hc⟩

theorem freeSlot_some {b : GuildBank} {slot : Nat} (h : freeSlot b bankTab = some slot) :
    (1 ≤ slot ∧ slot ≤ bankTabSize) ∧ b.findItem bankTab slot = none := by
  have hr := List.mem_range'_1.mp (List.mem_of_find?_eq_some h)
  exact ⟨⟨hr.1, by omega⟩, GuildBank.findItem_of_getItem (by simpa using List.find?_some h)⟩

/-! ## Deposits -/

@[simp] theorem finishDeposit_units : (w.finishDeposit env i count).units e = w.units e := by
  unfold finishDeposit
  cases w.bank.items[i]? with
  | none => rfl
  | some bItem =>
    dsimp only
    rw [saveToDB_units, units, logAction_player, GuildBank.units, logAction_items]
    rfl

section

variable (hp : w.player.inv.getItemByPos p = some it)
include hp

theorem depositItemInSlot_eq {again : World db → World db} {bankSlot : Nat}
    {state : ItemUpdateState} {stack : Bool} {bank : GuildBank}
    (hb : w.depositToBank bankTab bankSlot it count state stack = some (i, bank)) :
    w.depositItemInSlot env again bankTab bankSlot p count remainer state stack =
      finishDeposit env (if remainer = 0 then (w.setBank bank).payOut p it count remainer
        else again ((w.setBank bank).payOut p it count remainer)) i count := by
  unfold depositItemInSlot
  rw [hp]
  dsimp only
  rw [hb]

/-- The whole item is destroyed, with what it contains. -/
theorem payOut_all (e : Nat) :
    (w.payOut p it it.count 0).units e + (if it.entry = e then it.count.toNat else 0) +
      w.player.inv.inside p e = w.units e := by
  have h := Inventory.units_remove hp e
  unfold payOut units
  rw [if_pos ⟨rfl, rfl⟩, setInv_inv, setInv_bank]
  omega

/-- A part is taken off the item. -/
theorem payOut_part (h : ¬ (remainer = 0 ∧ count = it.count)) (e : Nat) :
    (w.payOut p it count remainer).units e + (if it.entry = e then it.count.toNat else 0) =
      w.units e + if it.entry = e then (it.count - count).toNat else 0 := by
  have hproto : ({ it with count := it.count - count } : Item db).proto = it.proto := rfl
  have hs := Inventory.units_setItem hp hproto e
  unfold payOut units
  rw [if_neg h, setInv_inv, setInv_bank]
  dsimp only at hs
  omega

end

theorem depositToBank_new (bankTab bankSlot : Nat) (it : Item db) (count : UInt32) (stack : Bool) :
    ∃ bank, w.depositToBank bankTab bankSlot it count .new stack = some (w.bank.items.length, bank) ∧
      bank = (w.bank.enqueue (newBankItem w.bank bankTab bankSlot it count)).addItem
        (newBankItem w.bank bankTab bankSlot it count) ∧
      ∀ e, bank.units e = w.bank.units e + if it.entry = e then count.toNat else 0 :=
  ⟨_, if_pos rfl, rfl, fun e => GuildBank.units_addItem _ e⟩

theorem depositToBank_over {bankSlot : Nat} {dItem : BankItem} (it : Item db)
    (count : UInt32) (stack : Bool) (hd : w.bank.Holds bankTab bankSlot i dItem) :
    ∃ bank, w.depositToBank bankTab bankSlot it count .changed stack = some (i, bank) ∧
      bank = (w.bank.setItem i (overBankItem w.bank dItem it count .changed stack)).enqueue
        (overBankItem w.bank dItem it count .changed stack) ∧
      ∀ e, bank.units e + dItem.share e = w.bank.units e +
        if it.entry = e then (if stack then dItem.count + count else count).toNat else 0 := by
  refine ⟨_, ?_, rfl, fun e => GuildBank.units_setItem hd.2 _ e⟩
  unfold depositToBank
  rw [if_neg (by decide), hd.1]
  simp only [hd.2, map_some]

/-- Neither created nor destroyed: every entry has the units it had. -/
def Conserved (w w' : World db) : Prop := ∀ e, w'.units e = w.units e

theorem units_eq (w : World db) (e : Nat) : w.units e = w.player.inv.units e + w.bank.units e := rfl

theorem units_setBank {bank : GuildBank} : (w.setBank bank).units e = w.player.inv.units e + bank.units e :=
  rfl

/-- A deposit to an empty slot conserves units if and only if the item has them, and, when it goes
as a whole, nothing is inside it. -/
theorem place_conserved_iff {again : World db → World db} {bankSlot : Nat}
    (hp : w.player.inv.getItemByPos p = some it) :
    w.Conserved (w.depositItemInSlot env again bankTab bankSlot p count 0 .new false) ↔
      count ≤ it.count ∧ (count = it.count → ∀ e, w.player.inv.inside p e = 0) := by
  obtain ⟨bank, hb, -, hu⟩ := w.depositToBank_new bankTab bankSlot it count false
  have hp' : (w.setBank bank).player.inv.getItemByPos p = some it := hp
  rw [depositItemInSlot_eq hp hb, if_pos rfl]
  unfold Conserved
  simp only [finishDeposit_units]
  by_cases hk : count = it.count
  · subst hk
    have h := payOut_all hp'
    simp only [units_setBank, setBank_player, hu] at h
    constructor
    · intro hc
      refine ⟨UInt32.le_refl _, fun _ e => ?_⟩
      have := h e
      have := w.units_eq e
      rw [hc e] at *
      omega
    · rintro ⟨-, hz⟩ e
      have := h e
      rw [hz rfl e] at this
      have := w.units_eq e
      omega
  · have hpart : ¬ ((0 : UInt32) = 0 ∧ count = it.count) := fun h => hk h.2
    have h := payOut_part hp' hpart
    simp only [units_setBank, hu] at h
    constructor
    · intro hc
      refine ⟨?_, fun h => absurd h hk⟩
      have := h it.entry
      have := w.units_eq it.entry
      rw [hc, if_pos rfl, if_pos rfl, if_pos rfl] at *
      rw [le_toNat]
      by_contra hlt
      have := toNat_sub_wrap (a := it.count) (b := count) (by omega)
      omega
    · rintro ⟨hle, -⟩ e
      have := h e
      have hsub := toNat_sub (le_toNat.mp hle)
      have hw := w.units_eq e
      split_ifs at this <;> omega

/-- A deposit onto a stack of the same entry conserves units if and only if the item has them,
unless both sides wrap around. -/
theorem stack_conserved_iff {again : World db → World db} {bankSlot : Nat}
    {dItem : BankItem} (hp : w.player.inv.getItemByPos p = some it)
    (hd : w.bank.Holds bankTab bankSlot i dItem) (he : dItem.itemTemplate = it.entry)
    (hz : ∀ e, w.player.inv.inside p e = 0) :
    w.Conserved (w.depositItemInSlot env again bankTab bankSlot p count 0 .changed true) ↔
      (dItem.count.toNat + count.toNat < 4294967296 ↔ count ≤ it.count) := by
  obtain ⟨bank, hb, -, hu⟩ := depositToBank_over it count true hd
  have hp' : (w.setBank bank).player.inv.getItemByPos p = some it := hp
  rw [depositItemInSlot_eq hp hb, if_pos rfl]
  unfold Conserved
  simp only [finishDeposit_units]
  have hlt := toNat_lt32 count
  have hit := toNat_lt32 it.count
  -- either way the player's item ends with `it.count - count` units
  have h : ∀ e, ((w.setBank bank).payOut p it count 0).units e +
      (if it.entry = e then it.count.toNat else 0) + dItem.share e = w.units e +
        if it.entry = e then (it.count - count).toNat + (dItem.count + count).toNat else 0 := by
    intro e
    have hu := hu e
    simp only [if_true] at hu
    by_cases hk : count = it.count
    · subst hk
      have h := payOut_all hp' e
      rw [units_setBank, setBank_player, hz e] at h
      have hw := w.units_eq e
      rw [UInt32.sub_self, UInt32.toNat_zero]
      split_ifs at * <;> omega
    · have hpart : ¬ ((0 : UInt32) = 0 ∧ count = it.count) := fun h => hk h.2
      have h := payOut_part hp' hpart e
      rw [units_setBank] at h
      have hw := w.units_eq e
      split_ifs at * <;> omega
  have hshare : ∀ e, dItem.share e = if it.entry = e then dItem.count.toNat else 0 := fun e => by
    rw [BankItem.share, he]
  simp only [hshare] at h
  rw [le_toNat]
  constructor
  · intro hc
    have := h it.entry
    rw [hc, if_pos rfl, if_pos rfl, if_pos rfl] at this
    by_cases hle : count.toNat ≤ it.count.toNat
    · have := toNat_sub hle
      by_cases hw : dItem.count.toNat + count.toNat < 4294967296
      · exact iff_of_true hw hle
      · have := toNat_add_wrap (Nat.le_of_not_lt hw); omega
    · have := toNat_sub_wrap (Nat.lt_of_not_le hle)
      by_cases hw : dItem.count.toNat + count.toNat < 4294967296
      · have := toNat_add hw; omega
      · exact iff_of_false hw hle
  · intro hiff e
    have := h e
    by_cases hle : count.toNat ≤ it.count.toNat
    · have := toNat_sub hle
      have := toNat_add (hiff.mpr hle)
      split_ifs at * <;> omega
    · have := toNat_sub_wrap (Nat.lt_of_not_le hle)
      have := toNat_add_wrap (Nat.le_of_not_lt fun h => hle (hiff.mp h))
      split_ifs at * <;> omega

/-! ### The search for room -/

/-- A stack that does not fit on top of a partial one: the room there is less than the stack, and
nothing wraps around. -/
theorem room_lt {c n m : UInt32} (hn : n < m) (h : ¬ c + n ≤ m) :
    (m - n).toNat + n.toNat = m.toNat ∧ 0 < (m - n).toNat ∧ (m - n).toNat < c.toNat ∧
      c.toNat + n.toNat < 4294967296 := by
  have h1 := lt_toNat.mp hn
  have h2 := toNat_sub (Nat.le_of_lt h1)
  have h3 := mt le_toNat.mpr h
  have hc := toNat_lt32 c
  by_cases hw : c.toNat + n.toNat < 4294967296
  · rw [toNat_add hw] at h3
    omega
  · have := toNat_add_wrap (Nat.le_of_not_lt hw)
    omega

/-- The player's item after part of it has been deposited. -/
theorem getItemByPos_payOut (hp : w.player.inv.getItemByPos p = some it)
    (h : ¬ (remainer = 0 ∧ count = it.count)) :
    (w.payOut p it count remainer).player.inv.getItemByPos p =
      some { it with count := it.count - count } := by
  obtain ⟨hv, hl⟩ := Inventory.getItemByPos_some hp
  unfold payOut
  rw [if_neg h, setInv_inv, Inventory.getItemByPos_visible hv]
  refine (Inventory.lookup_setItem hl ?_).trans (if_pos rfl)
  rfl

@[simp] theorem payOut_bank : (w.payOut p it count remainer).bank = w.bank := by
  unfold payOut; split_ifs <;> rfl

section

variable (hp : w.player.inv.getItemByPos p = some it)
include hp

/-- The search for room ends within the count of the item: more steps make no difference. -/
theorem freeSlotN_fuel {n m : Nat} (hn : it.count.toNat < n) (hm : it.count.toNat < m) :
    depositItemInFreeSlotN env bankTab p n w = depositItemInFreeSlotN env bankTab p m w := by
  induction n generalizing m w it with
  | zero => omega
  | succ n ih =>
    cases m with
    | zero => omega
    | succ m =>
      unfold depositItemInFreeSlotN
      rw [hp]
      dsimp only
      cases hps : (if it.proto.stackable > 1 then partialStack w.bank bankTab it.entry else none) with
      | none => rfl
      | some x =>
        obtain ⟨slot, bItem⟩ := x
        dsimp only
        split_ifs with hall
        · rfl
        · have hps : partialStack w.bank bankTab it.entry = some (slot, bItem) := by
            split_ifs at hps; exact hps
          obtain ⟨-, ⟨i, hd⟩, -, hlt⟩ := partialStack_some hps
          obtain ⟨-, h2, h3, -⟩ := room_lt hlt hall
          have hsub := toNat_sub (Nat.le_of_lt h3)
          have hr : it.count - (bItem.maxStackSize - bItem.count) ≠ 0 := by rw [ne_zero_toNat]; omega
          obtain ⟨bank, hb, -⟩ := depositToBank_over it (bItem.maxStackSize - bItem.count) true hd
          have hp' : (w.setBank bank).player.inv.getItemByPos p = some it := hp
          rw [depositItemInSlot_eq hp hb, depositItemInSlot_eq hp hb, if_neg hr, if_neg hr]
          congr 1
          exact ih (getItemByPos_payOut hp' fun h => hr h.1) (by dsimp only; omega)
            (by dsimp only; omega)

theorem depositItemInFreeSlot_fuel {n : Nat} (hn : it.count.toNat < n) :
    w.depositItemInFreeSlot env bankTab p = depositItemInFreeSlotN env bankTab p n w := by
  unfold depositItemInFreeSlot
  rw [hp]
  exact freeSlotN_fuel hp (Nat.lt_succ_self _) hn

/-- An item that stacks contains nothing. -/
theorem inside_of_stackable
    (hs : it.proto.stackable > 1) (e : Nat) : w.player.inv.inside p e = 0 := by
  refine Inventory.inside_eq_zero (Inventory.getItemByPos_some hp).2 ?_ e
  by_contra hb
  rw [it.proto.containerSlots_single (Nat.pos_of_ne_zero hb)] at hs
  exact absurd hs (by decide)

end

/-- The bank item after a deposit over it has the stack limit of its new template. -/
theorem typed_overBankItem {b : GuildBank} {bItem : BankItem} {state : ItemUpdateState} {stack : Bool} :
    (overBankItem b bItem it count state stack).Typed db := by
  intro proto hget
  have hget : db.get it.proto.itemId = some proto := hget
  rw [it.isProto] at hget
  rw [← some.inj hget]
  rfl

/-- When the search for room conserves units: no partial stack wraps around, and a bag that goes to
a free slot is empty. -/
def FreeExact (w : World db) (bankTab : Nat) (p : Pos) (it : Item db) : Prop :=
  (it.proto.stackable > 1 → ∀ slot bItem, partialStack w.bank bankTab it.entry = some (slot, bItem) →
    it.count.toNat + bItem.count.toNat < 4294967296) ∧
  (freeSlot w.bank bankTab = none ∨ ∀ e, w.player.inv.inside p e = 0)

theorem partialStack_if {slot : Nat} {bItem : BankItem}
    (h : (if it.proto.stackable > 1 then partialStack w.bank bankTab it.entry else none) =
      some (slot, bItem)) :
    it.proto.stackable > 1 ∧ partialStack w.bank bankTab it.entry = some (slot, bItem) := by
  split_ifs at h with hs
  exact ⟨hs, h⟩

section

variable (hT : w.bank.Typed db) (hp : w.player.inv.getItemByPos p = some it)
include hT hp

/-- A partial stack is filled up and the rest of the item goes on: the step of the search. -/
theorem fill_step {slot : Nat} {bItem : BankItem} (hd : w.bank.Holds bankTab slot i bItem)
    (he : bItem.itemTemplate = it.entry) (hlt : bItem.count < bItem.maxStackSize)
    (hn : ¬ it.count + bItem.count ≤ bItem.maxStackSize) :
    ∃ bank w', w.depositToBank bankTab slot it (bItem.maxStackSize - bItem.count) .changed true =
        some (i, bank) ∧
      w' = (w.setBank bank).payOut p it (bItem.maxStackSize - bItem.count)
        (it.count - (bItem.maxStackSize - bItem.count)) ∧
      it.count - (bItem.maxStackSize - bItem.count) ≠ 0 ∧ w'.bank.Typed db ∧ w.Conserved w' ∧
      w'.player.inv.getItemByPos p =
        some { it with count := it.count - (bItem.maxStackSize - bItem.count) } := by
  obtain ⟨h1, h2, h3, h4⟩ := room_lt hlt hn
  have hsub := toNat_sub (Nat.le_of_lt h3)
  obtain ⟨bank, hb, hbank, hu⟩ := depositToBank_over it (bItem.maxStackSize - bItem.count) true hd
  have hr : it.count - (bItem.maxStackSize - bItem.count) ≠ 0 := by rw [ne_zero_toNat]; omega
  have hpart : ¬ (it.count - (bItem.maxStackSize - bItem.count) = 0 ∧
      bItem.maxStackSize - bItem.count = it.count) := fun h => hr h.1
  have hp' : (w.setBank bank).player.inv.getItemByPos p = some it := hp
  refine ⟨bank, _, hb, rfl, hr, ?_, fun e => ?_, getItemByPos_payOut hp' hpart⟩
  · rw [payOut_bank, setBank_bank, hbank]
    intro x hx
    obtain hx | rfl := List.mem_or_eq_of_mem_set hx
    · exact hT x hx
    · exact typed_overBankItem
  · have h := payOut_part hp' hpart e
    have hu := hu e
    have hadd := toNat_add (a := bItem.count) (b := bItem.maxStackSize - bItem.count) (by
      have := toNat_lt32 bItem.maxStackSize; omega)
    have hw := w.units_eq e
    rw [units_setBank] at h
    rw [BankItem.share, he] at hu
    simp only [if_true] at hu
    split_ifs at * <;> omega

theorem freeSlotN_conserved {n : Nat} (hn : it.count.toNat < n)
    (hx : w.FreeExact bankTab p it) : w.Conserved (depositItemInFreeSlotN env bankTab p n w) := by
  induction n generalizing w it with
  | zero => omega
  | succ n ih =>
    unfold depositItemInFreeSlotN
    rw [hp]
    dsimp only
    cases hps : (if it.proto.stackable > 1 then partialStack w.bank bankTab it.entry else none) with
    | none =>
      dsimp only
      cases hf : freeSlot w.bank bankTab with
      | none => exact fun e => rfl
      | some slot =>
        refine (place_conserved_iff hp).mpr ⟨UInt32.le_refl _, fun _ => ?_⟩
        exact hx.2.resolve_left (by simp [hf])
    | some x =>
      obtain ⟨slot, bItem⟩ := x
      obtain ⟨hs, hps⟩ := partialStack_if hps
      obtain ⟨-, ⟨i, hd⟩, he, hlt⟩ := partialStack_some hps
      have hz := inside_of_stackable hp hs
      have hw := hx.1 hs slot bItem hps
      dsimp only
      split_ifs with hall
      · exact (stack_conserved_iff hp hd he hz).mpr (iff_of_true (by omega) (UInt32.le_refl _))
      · obtain ⟨bank, w', hb, rfl, hr, hT', hc, hp'⟩ := fill_step hT hp hd he hlt hall
        obtain ⟨h1, h2, h3, h4⟩ := room_lt hlt hall
        have hsub := toNat_sub (Nat.le_of_lt h3)
        rw [depositItemInSlot_eq hp hb, if_neg hr]
        intro e
        rw [finishDeposit_units, ← hc e]
        refine ih hT' hp' (by dsimp only; omega) ⟨fun _ slot₂ b₂ hps₂ => ?_,
          .inr (inside_of_stackable hp' hs)⟩ e
        -- the next partial stack is of the same template, so it has less than the same limit
        obtain ⟨-, ⟨j, hd₂⟩, he₂, hlt₂⟩ := partialStack_some hps₂
        have hm : ∀ x : BankItem, x.Typed db → x.itemTemplate = it.entry →
            x.maxStackSize = it.proto.stackable := fun x hx he =>
          hx it.proto (by rw [he]; exact it.isProto)
        have hm₁ := hm bItem (hT _ hd.mem) he
        have hm₂ := hm b₂ (hT' _ hd₂.mem) he₂
        have := lt_toNat.mp hlt₂
        rw [hm₂] at this
        rw [hm₁] at h1
        dsimp only
        rw [hm₁] at hsub
        rw [hm₁]
        omega

/-- The search for room conserves units if and only if no partial stack wraps around and a bag that
goes to a free slot is empty. -/
theorem free_conserved_iff :
    w.Conserved (w.depositItemInFreeSlot env bankTab p) ↔ w.FreeExact bankTab p it := by
  rw [depositItemInFreeSlot_fuel hp (Nat.lt_succ_self _)]
  refine ⟨fun hc => ?_, freeSlotN_conserved hT hp (Nat.lt_succ_self _)⟩
  unfold depositItemInFreeSlotN at hc
  rw [hp] at hc
  dsimp only at hc
  constructor
  · intro hs slot bItem hps
    obtain ⟨-, ⟨i, hd⟩, he, hlt⟩ := partialStack_some hps
    rw [if_pos hs, hps] at hc
    dsimp only at hc
    by_contra hw
    -- a sum that wraps around is below the limit, so the whole item is added to the stack
    have hwrap := toNat_add_wrap (Nat.le_of_not_lt hw)
    have hcount := toNat_lt32 it.count
    have hlt := lt_toNat.mp hlt
    rw [if_pos (by rw [le_toNat]; omega)] at hc
    have := ((stack_conserved_iff hp hd he (inside_of_stackable hp hs)).mp hc).mpr (UInt32.le_refl _)
    omega
  · cases hf : freeSlot w.bank bankTab with
    | none => exact .inl rfl
    | some slot =>
      by_cases hs : it.proto.stackable > 1
      · exact .inr (inside_of_stackable hp hs)
      · rw [if_neg hs, hf] at hc
        exact .inr (((place_conserved_iff hp).mp hc).2 rfl)

end

/-! ## Withdrawals -/

section Withdraw

variable {bankTab bankSlot : Nat} {bItem : BankItem} {ref : Option Nat} {swap : Bool}

/-- A withdrawal from the bank item at index `i` leaves `rest` of its units there; with remainder `0`
the item is deleted. -/
theorem finishWithdraw_units {rest : UInt32} (hi : w.bank.items[i]? = some bItem)
    (h0 : remainer = 0 → rest = 0) (e : Nat) :
    (finishWithdraw env
      (w.setBank ((putRef w.bank (some i) (takeFrom bItem remainer rest)).enqueue
        (takeFrom bItem remainer rest))) bankTab count (takeFrom bItem remainer rest)
        (some i)).units e + bItem.share e =
      w.units e + if bItem.itemTemplate = e then rest.toNat else 0 := by
  have hset := GuildBank.units_setItem hi (takeFrom bItem remainer rest) e
  have hlen : i < w.bank.items.length := (List.getElem?_eq_some_iff.mp hi).1
  have hw := w.units_eq e
  rw [units_eq, finishWithdraw_player, GuildBank.units, finishWithdraw_items]
  by_cases hr : remainer = 0
  · have hdel := GuildBank.units_deleteItem (b := w.bank.setItem i (takeFrom bItem remainer rest))
      (List.getElem?_set_self hlen) e
    rw [if_pos (by simp [takeFrom, hr]), h0 hr]
    simp only [GuildBank.units, takeFrom, hr, if_true, putRef, deleteRef, setBank_bank,
      setBank_player, GuildBank.enqueue, GuildBank.deleteItem, UInt32.toNat_zero, ite_self] at *
    omega
  · rw [if_neg (by simp [takeFrom, hr])]
    simp only [GuildBank.units, BankItem.share, takeFrom, hr, if_false, putRef, setBank_bank,
      setBank_player, GuildBank.enqueue] at *
    omega

/-- A withdrawal onto the player's stack: the stack grows, and what is left to do is to take the
units off the bank item. -/
theorem withdrawOnto_eq (env : Env) (bankTab bankSlot : Nat) (count : UInt32) (ref : Option Nat)
    (remainer : UInt32) (swap : Bool) (hp : w.player.inv.getItemByPos p = some it) :
    ∃ w' : World db, w.withdrawOnto env bankTab bankSlot count bItem ref p remainer swap =
        finishWithdraw env (w'.setBank ((putRef w'.bank ref
            (takeFrom bItem remainer (bItem.count - count))).enqueue
          (takeFrom bItem remainer (bItem.count - count)))) bankTab count
          (takeFrom bItem remainer (bItem.count - count)) ref ∧
      w.SameBank w' ∧
      w'.player.inv = w.player.inv.setItem p { it with count := it.count + count } := by
  refine ⟨(w.sendWithdraw bankTab bankSlot (takeFrom bItem remainer (bItem.count - count)) swap).setInv
    (w.player.inv.setItem p { it with count := it.count + count }), ?_, ⟨sendWithdraw_bank w,
    sendWithdraw_tables w, by rw [setInv_rank, sendWithdraw_player]⟩, rfl⟩
  unfold withdrawOnto
  rw [hp]
  simp only [setBank_player, sendWithdraw_player]
  rfl

theorem withdrawOnto_units (env : Env) (bankTab bankSlot : Nat) (count : UInt32) (swap : Bool)
    (hi : w.bank.items[i]? = some bItem) (hp : w.player.inv.getItemByPos p = some it) (e : Nat) :
    (w.withdrawOnto env bankTab bankSlot count bItem (some i) p (bItem.count - count) swap).units e +
        bItem.share e + (if it.entry = e then it.count.toNat else 0) =
      w.units e + (if bItem.itemTemplate = e then (bItem.count - count).toNat else 0) +
        if it.entry = e then (it.count + count).toNat else 0 := by
  obtain ⟨w', heq, ⟨hb, -, -⟩, hinv⟩ :=
    withdrawOnto_eq env bankTab bankSlot count (some i) (bItem.count - count) swap hp
  have hfin := @finishWithdraw_units db env w' count (bItem.count - count) i bankTab bItem _
    (by rw [hb]; exact hi) id e
  let it' : Item db := { it with count := it.count + count }
  have hset := Inventory.units_setItem hp (show it'.proto = it.proto from rfl) e
  rw [show it'.count = it.count + count from rfl,
    ← show w'.player.inv = w.player.inv.setItem p it' from hinv] at hset
  have hw' := w'.units_eq e
  rw [hb] at hw'
  have hw := w.units_eq e
  rw [heq]
  omega

/-- A local copy of a bank item is no item of the bank. -/
theorem finishWithdraw_copy_units (e : Nat) :
    (finishWithdraw env (w.setBank ((putRef w.bank none bItem).enqueue bItem)) bankTab count bItem
      none).units e = w.units e := by
  rw [units_eq, finishWithdraw_player, GuildBank.units, finishWithdraw_items]
  split_ifs <;> rfl

/-- A new item for an accepted withdrawal: the player gains the units that the code will see again,
and what is left to do is to take them off the bank item. -/
theorem withdrawNew_eq (env : Env) (bankTab bankSlot : Nat) (ref : Option Nat) (remainer : UInt32)
    (swap : Bool) {bag slot : Nat} {dest : List ItemPosCount} (hc : count ≠ 0)
    (h : (w.player.inv.canStoreItem bag slot [] bItem.itemTemplate count .none false).res = .ok)
    (hdest : dest = (w.player.inv.canStoreItem bag slot [] bItem.itemTemplate count .none false).dest) :
    ∃ w' : World db, w.withdrawNew env bankTab bankSlot count dest bItem ref remainer swap =
        finishWithdraw env (w'.setBank ((putRef w'.bank ref (takeFrom bItem remainer remainer)).enqueue
          (takeFrom bItem remainer remainer))) bankTab count (takeFrom bItem remainer remainer) ref ∧
      w.SameBank w' ∧ (∀ e, w'.units e = w.units e +
        if bItem.itemTemplate = e then Inventory.seenUnits dest else 0) ∧
      (w.player.inv.Bounded → w'.player.inv.Bounded) := by
  obtain ⟨proto, hget, hst, hready, d, hd, hlast⟩ :=
    Inventory.storeNewItem_accepted hc env.randomPropertyId w.fresh h
  obtain ⟨x, hx, hxp, -⟩ := hst.stack d hd
  rw [← hdest] at hst hready hd hlast hx
  generalize hs : w.player.inv.storeNewItem dest bItem.itemTemplate env.randomPropertyId w.fresh = st
    at *
  -- the new item takes over the properties of the bank item, which are no units
  let inv' := st.inv.setItem d.pos (x.cloneFrom w.player.guid bItem)
  let rest := takeFrom bItem remainer remainer
  let w₁ : World db := { w.setInv inv' with fresh := st.fresh }
  let w' := (w₁.sendWithdraw bankTab bankSlot rest swap).send (.newItem bItem.itemTemplate count)
  have hb : w'.bank = w.bank := sendWithdraw_bank w₁
  have hp : w'.player.inv = inv' := by
    rw [show w'.player = w₁.player from sendWithdraw_player w₁]; rfl
  have hcl : (x.cloneFrom w.player.guid bItem).proto = x.proto := rfl
  have hrank : w'.player.rank = w.player.rank := by
    rw [show w'.player = w₁.player from sendWithdraw_player w₁]; rfl
  refine ⟨w', ?_, ⟨hb, sendWithdraw_tables w₁, hrank⟩, fun e => ?_, fun hbd => ?_⟩
  · have htmpl : (takeFrom bItem remainer remainer).itemTemplate = bItem.itemTemplate := by
      unfold takeFrom; split_ifs <;> rfl
    unfold withdrawNew
    rw [hs]
    dsimp only
    rw [hlast]
    dsimp only
    rw [show ({ w.setInv st.inv with fresh := st.fresh } : World db).player.inv = st.inv from rfl, hx,
      htmpl]
    rfl
  · have hu : inv'.units e = st.inv.units e := Inventory.units_setItem_same hx hcl rfl e
    have hw := w.units_eq e
    rw [units_eq, hb, hp, hu, hst.units e, db.get_id hget]
    omega
  · rw [hp]
    exact (hst.bounded hbd hready).setItem_same hx hcl rfl

theorem withdrawNew_units (env : Env) (bankTab bankSlot : Nat) (swap : Bool) {bag slot : Nat}
    (hi : w.bank.items[i]? = some bItem) (hc : count ≠ 0)
    (h : (w.player.inv.canStoreItem bag slot [] bItem.itemTemplate count .none false).res = .ok)
    (e : Nat) :
    (w.withdrawNew env bankTab bankSlot count
        (w.player.inv.canStoreItem bag slot [] bItem.itemTemplate count .none false).dest bItem
        (some i) (bItem.count - count) swap).units e + bItem.share e =
      w.units e + if bItem.itemTemplate = e then (bItem.count - count).toNat +
        Inventory.seenUnits (w.player.inv.canStoreItem bag slot [] bItem.itemTemplate count .none
          false).dest else 0 := by
  obtain ⟨w', heq, ⟨hb, -, -⟩, hu, -⟩ :=
    withdrawNew_eq env bankTab bankSlot (some i) (bItem.count - count) swap hc h rfl
  have hfin := @finishWithdraw_units db env w' count (bItem.count - count) i bankTab bItem _
    (by rw [hb]; exact hi) id e
  have hu := hu e
  rw [heq]
  split_ifs at * <;> omega

/-- Withdrawing nothing stores nothing. -/
theorem withdrawNew_nothing {bag slot : Nat} {ref : Option Nat}
    (h : (w.player.inv.canStoreItem bag slot [] bItem.itemTemplate 0 .none false).res = .ok)
    (e : Nat) :
    (w.withdrawNew env bankTab bankSlot 0
        (w.player.inv.canStoreItem bag slot [] bItem.itemTemplate 0 .none false).dest bItem
        ref remainer swap).units e = w.units e := by
  unfold withdrawNew
  rw [Inventory.storeNewItem_nothing _ _ (Inventory.canStoreItem_nothing h)]
  rfl

/-- A withdrawal onto a stack of the same entry conserves units if and only if it is refused, or the
bank item has them, unless both sides wrap around. -/
theorem take_conserved_iff (hb : w.bank.items[i]? = some bItem)
    (hp : w.player.inv.getItemByPos p = some it) (he : it.entry = bItem.itemTemplate) :
    w.Conserved (w.withdrawBankItem env bankTab bankSlot count p.1 p.2 bItem (some i) (some p)
        (bItem.count - count) swap) ↔
      (w.player.inv.canStoreItem (p.1 % 256) (p.2 % 256) [] bItem.itemTemplate count .none
        false).res ≠ .ok ∨
      (count ≤ bItem.count ↔ it.count.toNat + count.toNat < 4294967296) := by
  unfold withdrawBankItem
  by_cases hr : (w.player.inv.canStoreItem (p.1 % 256) (p.2 % 256) [] bItem.itemTemplate count .none
    false).res ≠ .ok
  · rw [if_pos hr]
    exact iff_of_true (fun e => rfl) (.inl hr)
  rw [if_neg hr, or_iff_right hr]
  unfold Conserved
  simp only [saveToDB_units]
  have h := withdrawOnto_units env bankTab bankSlot count swap hb hp
  simp only [BankItem.share, ← he] at h
  have hlt := toNat_lt32 count
  rw [le_toNat]
  constructor
  · intro hc
    have := h it.entry
    rw [hc, if_pos rfl, if_pos rfl, if_pos rfl, if_pos rfl] at this
    by_cases hle : count.toNat ≤ bItem.count.toNat
    · have := toNat_sub hle
      by_cases hw : it.count.toNat + count.toNat < 4294967296
      · exact iff_of_true hle hw
      · have := toNat_add_wrap (Nat.le_of_not_lt hw); omega
    · have := toNat_sub_wrap (Nat.lt_of_not_le hle)
      by_cases hw : it.count.toNat + count.toNat < 4294967296
      · have := toNat_add hw; omega
      · exact iff_of_false hle hw
  · intro hiff e
    have := h e
    by_cases hle : count.toNat ≤ bItem.count.toNat
    · have := toNat_sub hle
      have := toNat_add (hiff.mp hle)
      split_ifs at * <;> omega
    · have := toNat_sub_wrap (Nat.lt_of_not_le hle)
      have := toNat_add_wrap (Nat.le_of_not_lt fun h => hle (hiff.mpr h))
      split_ifs at * <;> omega

/-- A withdrawal as a new item conserves units if and only if it does not go into a bag that the
code will not look into. -/
theorem store_conserved_iff (hb : w.bank.items[i]? = some bItem) (hle : count ≤ bItem.count) :
    w.Conserved (w.withdrawBankItem env bankTab bankSlot count p.1 p.2 bItem (some i) none
        (bItem.count - count) swap) ↔
      ¬ ((w.player.inv.canStoreItem (p.1 % 256) (p.2 % 256) [] bItem.itemTemplate count .none
        false).res = .ok ∧ count ≠ 0 ∧ w.player.inv.NestedBag (p.1 % 256)) := by
  unfold withdrawBankItem
  by_cases hr : (w.player.inv.canStoreItem (p.1 % 256) (p.2 % 256) [] bItem.itemTemplate count .none
    false).res = .ok
  swap
  · rw [if_pos hr]
    exact iff_of_true (fun e => rfl) fun h => hr h.1
  rw [if_neg (not_not.mpr hr)]
  unfold Conserved
  simp only [saveToDB_units, hr, true_and]
  by_cases hc : count = 0
  · subst hc
    exact iff_of_true (fun e => withdrawNew_nothing hr e) fun h => h.1 rfl
  rw [not_and, ← Inventory.canStoreItem_seen_iff hc hr]
  have h := withdrawNew_units env bankTab bankSlot swap hb hc hr
  have hsub := toNat_sub (le_toNat.mp hle)
  simp only [BankItem.share] at h
  constructor
  · intro hcons _
    have := h bItem.itemTemplate
    rw [hcons, if_pos rfl, if_pos rfl] at this
    omega
  · intro hseen e
    have := h e
    rw [hseen hc] at this
    split_ifs at this <;> omega

/-! ## Swaps -/

@[simp] theorem finishDeposit_player : (w.finishDeposit env i count).player = w.player := by
  unfold finishDeposit
  cases w.bank.items[i]? with
  | none => rfl
  | some bItem => simp

/-- The copy of a bank item is withdrawn to wherever there is room in the backpack. -/
theorem withdrawCopy_units (e : Nat) :
    (w.withdrawBankItem env bankTab bankSlot bItem.count inventorySlotBag0 nullSlot bItem none none 0
        true).units e =
      w.units e + if (w.player.inv.canStoreItem inventorySlotBag0 nullSlot [] bItem.itemTemplate
        bItem.count .none false).res = .ok then bItem.share e else 0 := by
  unfold withdrawBankItem
  rw [show inventorySlotBag0 % 256 = inventorySlotBag0 from rfl]
  by_cases hr : (w.player.inv.canStoreItem inventorySlotBag0 nullSlot [] bItem.itemTemplate
    bItem.count .none false).res = .ok
  swap
  · rw [if_pos hr, if_neg hr]; rfl
  rw [if_neg (not_not.mpr hr), if_pos hr, saveToDB_units]
  by_cases hc : bItem.count = 0
  · have hz : bItem.share e = 0 := by simp [BankItem.share, hc]
    rw [hz]
    rw [hc] at hr ⊢
    exact withdrawNew_nothing hr e
  · obtain ⟨w', heq, ⟨hb, -, -⟩, hu, -⟩ := withdrawNew_eq env bankTab bankSlot none 0 true hc hr rfl
    have hseen := (Inventory.canStoreItem_seen_iff hc hr).mpr fun hn => hn.2.1 rfl
    rw [heq, finishWithdraw_copy_units, hu e, hseen, BankItem.share]

/-- A swap conserves units if and only if it is refused, or the player's item is no bag with contents
and there is room for the bank item once it is gone. -/
theorem swap_conserved_iff (hd : w.bank.Holds bankTab bankSlot i bItem)
    (hp : w.player.inv.getItemByPos p = some it) :
    w.Conserved (w.swapItems env p i) ↔
      ((w.player.inv.canStoreItem nullBag nullSlot [] bItem.itemTemplate bItem.count .none
          false).res ≠ .ok ∧
        (w.player.inv.canStoreItem nullBag nullSlot [] bItem.itemTemplate bItem.count .none
          false).res ≠ .inventoryFull) ∨
      ((∀ e, w.player.inv.inside p e = 0) ∧
        (bItem.count = 0 ∨ ((w.player.inv.remove p).canStoreItem inventorySlotBag0 nullSlot []
          bItem.itemTemplate bItem.count .none false).res = .ok)) := by
  obtain ⟨rfl, rfl⟩ := hd.at
  unfold swapItems swapItemsTo
  rw [hd.2, hp]
  dsimp only
  by_cases hr : (w.player.inv.canStoreItem nullBag nullSlot [] bItem.itemTemplate bItem.count .none
      false).res ≠ .ok ∧ (w.player.inv.canStoreItem nullBag nullSlot [] bItem.itemTemplate bItem.count
      .none false).res ≠ .inventoryFull
  · rw [if_pos hr]
    exact iff_of_true (fun e => rfl) (.inl hr)
  rw [if_neg hr, or_iff_right hr]
  obtain ⟨bank, hb, -, hu⟩ := depositToBank_over it it.count false hd
  rw [depositItemInSlot_eq hp hb, if_pos rfl]
  have hp' : (w.setBank bank).player.inv.getItemByPos p = some it := hp
  -- the deposit puts the item in the place of the bank item and loses what is inside
  have hdep : ∀ e, ((w.setBank bank).payOut p it it.count 0).units e + w.player.inv.inside p e +
      bItem.share e = w.units e := by
    intro e
    have h := payOut_all hp' e
    have hu := hu e
    have hw := w.units_eq e
    rw [units_setBank, setBank_player] at h
    simp only [Bool.false_eq_true, if_false] at hu
    omega
  have hinv : (finishDeposit env ((w.setBank bank).payOut p it it.count 0) i it.count).player.inv =
      w.player.inv.remove p := by
    rw [finishDeposit_player]
    unfold payOut
    rw [if_pos ⟨rfl, rfl⟩]
    rfl
  unfold Conserved
  simp only [withdrawCopy_units, finishDeposit_units, hinv]
  have hshare : bItem.share bItem.itemTemplate = bItem.count.toNat := if_pos rfl
  by_cases hok : ((w.player.inv.remove p).canStoreItem inventorySlotBag0 nullSlot []
      bItem.itemTemplate bItem.count .none false).res = .ok
  · simp only [hok, if_true, or_true, and_true]
    refine forall_congr' fun e => ?_
    have := hdep e
    omega
  · simp only [hok, if_false, or_false, Nat.add_zero]
    constructor
    · intro hc
      refine ⟨fun e => ?_, ?_⟩
      · have h1 := hc e; have h2 := hdep e; omega
      · have h1 := hc bItem.itemTemplate
        have h2 := hdep bItem.itemTemplate
        rw [eq_toNat, UInt32.toNat_zero]
        omega
    · rintro ⟨hz, h0⟩ e
      have h1 := hdep e
      have h2 : bItem.share e = 0 := by simp [BankItem.share, h0]
      rw [hz e] at h1
      omega

end Withdraw

end World

/-! ## The condition of each branch -/

/-- When a branch conserves units, in terms of the counts and the room before it. -/
def Transfer.Exact (w : World db) : Transfer → Prop
  | reply _ => True
  | free bankTab p =>
    ∀ it, w.player.inv.getItemByPos p = some it → w.FreeExact bankTab p it
  | place _ _ p count =>
    ∀ it, w.player.inv.getItemByPos p = some it →
      count ≤ it.count ∧ (count = it.count → ∀ e, w.player.inv.inside p e = 0)
  | stack bankTab bankSlot p count =>
    ∀ it i dItem, w.player.inv.getItemByPos p = some it → w.bank.Holds bankTab bankSlot i dItem →
      (dItem.count.toNat + count.toNat < 4294967296 ↔ count ≤ it.count)
  | take _ _ _ bItem p count =>
    ∀ it, w.player.inv.getItemByPos p = some it →
      (w.player.inv.canStoreItem (p.1 % 256) (p.2 % 256) [] bItem.itemTemplate count .none
        false).res ≠ .ok ∨
      (count ≤ bItem.count ↔ it.count.toNat + count.toNat < 4294967296)
  | store _ _ _ bItem p count =>
    ¬ ((w.player.inv.canStoreItem (p.1 % 256) (p.2 % 256) [] bItem.itemTemplate count .none
      false).res = .ok ∧ count ≠ 0 ∧ w.player.inv.NestedBag (p.1 % 256))
  | swap _ i p =>
    ∀ bItem, w.bank.items[i]? = some bItem →
      ((w.player.inv.canStoreItem nullBag nullSlot [] bItem.itemTemplate bItem.count .none
          false).res ≠ .ok ∧
        (w.player.inv.canStoreItem nullBag nullSlot [] bItem.itemTemplate bItem.count .none
          false).res ≠ .inventoryFull) ∨
      ((∀ e, w.player.inv.inside p e = 0) ∧
        (bItem.count = 0 ∨ ((w.player.inv.remove p).canStoreItem inventorySlotBag0 nullSlot []
          bItem.itemTemplate bItem.count .none false).res = .ok))

namespace World

variable {env : Env} {w : World db}

theorem exec_conserved_iff {tr : Transfer} (hT : w.bank.Typed db) (hc : tr.Checked env w) :
    w.Conserved (tr.exec env w) ↔ tr.Exact w := by
  cases tr with
  | reply rs => exact iff_of_true (fun e => rfl) trivial
  | free bankTab p =>
    obtain ⟨-, it, hp⟩ := hc
    unfold Transfer.exec Transfer.Exact
    rw [free_conserved_iff hT hp]
    simp only [hp, some.injEq, forall_eq']
  | place bankTab bankSlot p count =>
    obtain ⟨-, -, -, -, it, hp, -⟩ := hc
    unfold Transfer.exec Transfer.Exact
    rw [place_conserved_iff hp]
    simp only [hp, some.injEq, forall_eq']
  | stack bankTab bankSlot p count =>
    obtain ⟨-, it, i, dItem, hp, hd, he, hm, -⟩ := hc
    have hs : it.proto.stackable > 1 := by
      rw [← hT dItem hd.mem it.proto (by rw [he]; exact it.isProto)]
      exact hm
    unfold Transfer.exec Transfer.Exact
    rw [stack_conserved_iff hp hd he (inside_of_stackable hp hs)]
    constructor
    · rintro h it' i' d' hp' hd'
      obtain rfl : it = it' := some.inj (hp.symm.trans hp')
      obtain rfl : i = i' := some.inj (hd.1.symm.trans hd'.1)
      obtain rfl : dItem = d' := some.inj (hd.2.symm.trans hd'.2)
      exact h
    · exact fun h => h it i dItem hp hd
  | take bankTab bankSlot i bItem p count =>
    obtain ⟨-, hb, it, hp, he, -⟩ := hc
    unfold Transfer.exec Transfer.Exact
    rw [take_conserved_iff hb.2 hp he]
    simp only [hp, some.injEq, forall_eq']
  | store bankTab bankSlot i bItem p count =>
    obtain ⟨-, hb, hle, -⟩ := hc
    exact store_conserved_iff hb.2 hle
  | swap bankTab i p =>
    obtain ⟨-, ⟨bankSlot, bItem, hd⟩, it, hp⟩ := hc
    unfold Transfer.exec Transfer.Exact
    rw [swap_conserved_iff hd hp]
    simp only [hd.2, some.injEq, forall_eq']

/-- A deposit or withdrawal message conserves the units of every entry if and only if the branch it
takes is exact. -/
theorem transfer_conserved_iff (hT : w.bank.Typed db) (msg : Text) :
    (w.Conserved (w.depositItem env msg) ↔ (w.depositBranch env msg).Exact w) ∧
      (w.Conserved (w.withdrawItem env msg) ↔ (w.withdrawBranch env msg).Exact w) := by
  rw [depositItem_eq, withdrawItem_eq]
  exact ⟨exec_conserved_iff hT (depositBranch_checked msg),
    exec_conserved_iff hT (withdrawBranch_checked msg)⟩

end World

/-- One piece of cloth in the first backpack slot, and an empty bank. -/
def clothWorld : World sampleDb where
  bank := { guildid := 1, tabs := 1 }
  player :=
    { guid := 1, rank := 0, inv := (Inventory.empty 1).place (inventorySlotBag0, 23) (cloth 5 1) }

/-- Twenty units are deposited from a stack of one: the bank has twenty and the stack wraps around. -/
theorem clothWorld_not_conserved :
    clothWorld.bank.Typed sampleDb ∧
      ¬ clothWorld.Conserved (clothWorld.depositItem {} "DepositItem:0:1:1:1:20".toList) := by
  refine ⟨nofun, ?_⟩
  have hb : clothWorld.depositBranch {} "DepositItem:0:1:1:1:20".toList =
      .place 1 1 (inventorySlotBag0, 23) 20 := by decide
  have hp : clothWorld.player.inv.getItemByPos (inventorySlotBag0, 23) = some (cloth 5 1) := by decide
  rw [World.depositItem_eq, hb]
  exact fun h => absurd ((World.place_conserved_iff hp).mp h).1 (by decide)

/-- The one piece it has can be deposited. -/
theorem clothWorld_conserved :
    clothWorld.bank.Typed sampleDb ∧
      clothWorld.Conserved (clothWorld.depositItem {} "DepositItem:0:1:1:1:1".toList) := by
  have hT : clothWorld.bank.Typed sampleDb := nofun
  refine ⟨hT, (World.transfer_conserved_iff hT _).1.mpr ?_⟩
  have hb : clothWorld.depositBranch {} "DepositItem:0:1:1:1:1".toList =
      .place 1 1 (inventorySlotBag0, 23) 1 := by decide
  have hp : clothWorld.player.inv.getItemByPos (inventorySlotBag0, 23) = some (cloth 5 1) := by decide
  rw [hb]
  intro it hit
  obtain rfl : cloth 5 1 = it := some.inj (hp.symm.trans hit)
  exact ⟨by decide, fun _ e => Inventory.inside_eq_zero (Inventory.getItemByPos_some hp).2 rfl e⟩

end Windrunner
