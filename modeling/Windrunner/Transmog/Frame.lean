import Windrunner.Transmog.State

/-!
# What the transmog messages leave alone

`OnlyAppearance w w'` is what a message may do to a player: write the visible-item fields of the
equipment slots, change the appearance and the binding of equipped items, and take one unit of the
currency for a new appearance. Three commands can do more (`handleAddonMessages_iff`):

* `DoChangeGlow` computes a field from the client's number and tests no range, so it can write
  any field of the player.
* `ResetTransmog`, and `DoTransmog` without an item, test no slot either: they reach every item
  that `GetItemByPos` finds, and write a block behind the last visible item.
* `DoTransmog` counts the coins that lie in a trade window, but cannot take them.
-/

namespace Windrunner

open Lib Inventory Option

/-- The fields of the visible items of the equipment slots. -/
def visibleItemField (i : UInt16) : Prop :=
  playerVisibleItem10 ≤ i.toNat ∧
    i.toNat < playerVisibleItem10 + equipmentSlotEnd * maxVisibleItemOffset

instance (i : UInt16) : Decidable (visibleItemField i) :=
  inferInstanceAs (Decidable (_ ∧ _))

def isEquipmentPos (p : Pos) : Prop := p.1 = inventorySlotBag0 ∧ p.2 < equipmentSlotEnd

/-- `it'` is `it` up to its transmogrification and its binding. -/
def Item.SameButLook {db : ItemDb} (it it' : Item db) : Prop :=
  it' = { it with
    flags := it'.flags
    fields := { it.fields with transmogrifyId := it'.fields.transmogrifyId } } ∧
  it'.flags ||| itemDynflagBinded = it.flags ||| itemDynflagBinded

/-- What may become of a position: the same, another look of an equipped item, or a unit less of
the currency. -/
def MayBecome {db : ItemDb} (p : Pos) (x y : Option (Item db)) : Prop :=
  y = x ∨
  (isEquipmentPos p ∧ ∃ it it', x = some it ∧ y = some it' ∧ it.SameButLook it') ∨
  ∃ it, x = some it ∧ it.entry = transmogCurrency ∧
    y = if it.count = 1 then none else some { it with count := it.count - 1 }

namespace TransmogPlayer

variable {t : TransmogTable} {w w' : TransmogPlayer t} {p q : Pos}

/-- The field pair of a slot that lost its item: it mirrors `m_items`. -/
def EmptiedSlotField (w w' : TransmogPlayer t) (i : UInt16) : Prop :=
  ∃ s < playerSlotEnd, (i.toNat = playerFieldInvSlotHead + s * 2 ∨
      i.toNat = playerFieldInvSlotHead + s * 2 + 1) ∧
    (w.inv.cells.lookup (inventorySlotBag0, s)).isSome ∧
    w'.inv.cells.lookup (inventorySlotBag0, s) = none

/-- An equipped item has a look that was made in this step. -/
def NewAppearance (w w' : TransmogPlayer t) : Prop :=
  w'.transmogId = w.transmogId + 1 ∧ ∃ s < equipmentSlotEnd, ∃ it,
    w'.inv.cells.lookup (inventorySlotBag0, s) = some it ∧
      it.fields.transmogrifyId = w'.transmogId

/-- What a message may do to the player. -/
structure OnlyAppearance (w w' : TransmogPlayer t) : Prop where
  fields : ∀ i, w'.fields i = w.fields i ∨ visibleItemField i ∨ w.EmptiedSlotField w' i
  items : ∀ p, MayBecome p (w.inv.cells.lookup p) (w'.inv.cells.lookup p)
  units : ∀ e, e ≠ transmogCurrency → w'.inv.units e = w.inv.units e
  paid : w.NewAppearance w' → w'.inv.units transmogCurrency + 1 = w.inv.units transmogCurrency
  free : ¬ w.NewAppearance w' → w'.inv.units transmogCurrency = w.inv.units transmogCurrency

end TransmogPlayer

/-! ## The currency -/

namespace Belongings

variable {t : TransmogTable} {b b' : Belongings t.db} {p q : Pos} {it : Item t.db}

theorem currency_bagSize (h : it.entry = transmogCurrency) : it.bagSize = 0 := by
  have hp : t.db.get transmogCurrency = some it.proto := h ▸ it.isProto
  have ht := t.currency_type hp
  rcases Nat.eq_zero_or_pos it.proto.containerSlots with h0 | h0
  · exact h0
  · have := it.proto.containerSlots_bag h0
    rw [ht] at this
    exact absurd this (by decide)

/-- A coin lies in no equipment or bag slot. -/
theorem currency_not_worn (b : Belongings t.db)
    (hi : b.inv.cells.lookup p = some it) (h : it.entry = transmogCurrency)
    (hp : p.1 = inventorySlotBag0) : inventorySlotBagEnd ≤ p.2 := by
  obtain ⟨bag, s⟩ := p
  obtain rfl : bag = inventorySlotBag0 := hp
  by_contra hs
  exact b.orderly.worn (Nat.lt_of_not_le hs) hi
    (t.currency_type (h ▸ it.isProto : t.db.get transmogCurrency = some it.proto))

/-- One unit of the stack `it` at `p` went. -/
structure Paid (b b' : Belongings t.db) (p : Pos) (it : Item t.db) : Prop where
  lookup : ∀ q, b'.inv.cells.lookup q = if q = p then
    (if it.count = 1 then none else some { it with count := it.count - 1 })
    else b.inv.cells.lookup q
  units : ∀ e, b'.inv.units e + (if it.entry = e then 1 else 0) = b.inv.units e
  fields : ∀ i, b'.fields i = b.fields i ∨ p.1 = inventorySlotBag0 ∧ it.count = 1 ∧
    (i.toNat = playerFieldInvSlotHead + p.2 * 2 ∨ i.toNat = playerFieldInvSlotHead + p.2 * 2 + 1)

/-- What does not contain anything is taken out alone. -/
theorem lookup_remove_single (b : Belongings t.db) (hi : b.inv.cells.lookup p = some it)
    (hb : it.bagSize = 0) :
    (b.inv.remove p).cells.lookup q = if q = p then none else b.inv.cells.lookup q := by
  rw [lookup_remove]
  by_cases hq : q = p
  · rw [if_pos (.inl hq), if_pos hq]
  rw [if_neg hq]
  by_cases ho : outside p q = false
  · rw [if_pos (.inr ho)]
    obtain ⟨bag, j⟩ := q
    simp only [outside, Bool.not_eq_false', Bool.and_eq_true, beq_iff_eq, bne_iff_ne] at ho
    obtain ⟨⟨hp1, hb1⟩, hne⟩ := ho
    cases hl : b.inv.cells.lookup (bag, j) with
    | none => rfl
    | some x =>
      obtain ⟨y, hy, hj⟩ := b.inv.contained hl hne
      have hpq : p = (inventorySlotBag0, bag) := Prod.ext hp1 hb1.symm
      rw [← hpq, hi] at hy
      cases hy
      omega
  · rw [if_neg (by simp [hq, ho])]

theorem toNat_slotField {s : Nat} (h : s < 113) :
    (UInt16.ofNat (playerFieldInvSlotHead + s * 2)).toNat = playerFieldInvSlotHead + s * 2 := by
  rw [UInt16.toNat_ofNat']
  exact Nat.mod_eq_of_lt (show 486 + s * 2 < 65536 by omega)

/-- The fields that destroying an item of the backpack or of a bag writes. -/
theorem destroyItem_fields (b : Belongings t.db) {i : UInt16} (hv : visible p = true)
    (hp : p.1 = inventorySlotBag0 → inventorySlotBagEnd ≤ p.2) :
    (b.destroyItem p).fields i = b.fields i ∨ p.1 = inventorySlotBag0 ∧
      (i.toNat = playerFieldInvSlotHead + p.2 * 2 ∨
        i.toNat = playerFieldInvSlotHead + p.2 * 2 + 1) := by
  by_cases h1 : p.1 = inventorySlotBag0
  · have hge : 23 ≤ p.2 := hp h1
    have hs : ¬ p.2 < equipmentSlotEnd := show ¬ p.2 < 19 by omega
    have hlt : p.2 < 113 := by
      rw [visible, if_pos h1] at hv
      have := isItemSlot_iff.mp hv
      omega
    have hf := toNat_slotField hlt
    unfold destroyItem UpdateFields.clearGuidValue
    simp only [h1, if_true, hs, if_false]
    by_cases hi : i = UInt16.ofNat (playerFieldInvSlotHead + p.2 * 2) ∨
        i = UInt16.ofNat (playerFieldInvSlotHead + p.2 * 2) + 1
    · refine .inr ⟨trivial, ?_⟩
      rcases hi with rfl | rfl
      · exact .inl hf
      · right
        rw [UInt16.toNat_add, hf]
        show (486 + p.2 * 2 + 1) % 65536 = 486 + p.2 * 2 + 1
        omega
    · rw [if_neg hi]; exact .inl rfl
  · left
    unfold destroyItem
    simp only [h1, if_false]

theorem paid_destroyItem (hi : b.inv.getItemByPos p = some it) (he : it.entry = transmogCurrency)
    (hc : it.count = 1) : Paid b (b.destroyItem p) p it := by
  obtain ⟨hv, hl⟩ := getItemByPos_some hi
  have hb := currency_bagSize he
  refine ⟨fun q => ?_, fun e => ?_, fun i => ?_⟩
  · rw [if_pos hc]
    exact b.lookup_remove_single hl hb
  · have hu := units_remove hi e
    rw [inside_eq_zero hl hb, hc, UInt32.toNat_one] at hu
    exact hu
  · rcases b.destroyItem_fields (i := i) hv (b.currency_not_worn hl he) with h | ⟨h1, h2⟩
    · exact .inl h
    · exact .inr ⟨h1, hc, h2⟩

theorem paid_setCount (hi : b.inv.getItemByPos p = some it) {n : UInt32} (hn : 0 < n.toNat)
    (h : n = it.count - 1) (hc : 1 < it.count.toNat) : Paid b (b.setCount p it n hn) p it := by
  subst h
  obtain ⟨-, hl⟩ := getItemByPos_some hi
  have hproto : ({ it with count := it.count - 1 } : Item t.db).proto = it.proto := rfl
  have hne : it.count ≠ 1 := by rintro h; rw [h] at hc; exact absurd hc (by decide)
  refine ⟨fun q => ?_, fun e => ?_, fun i => .inl rfl⟩
  · rw [if_neg hne]
    exact lookup_setItem hl hproto
  · have hu := units_setItem hi hproto e
    have hsub : (it.count - 1).toNat = it.count.toNat - 1 := by
      rw [UInt32.toNat_sub_of_le _ _ (by rw [UInt32.le_iff_toNat_le, UInt32.toNat_one]; omega),
        UInt32.toNat_one]
    simp only [hsub] at hu
    unfold setCount
    dsimp only
    split_ifs at hu ⊢ <;> omega

theorem destroyable_iff {inv : Inventory t.db} {item : Nat} :
    inv.destroyable item p = true ↔ ∃ it, inv.getItemByPos p = some it ∧ it.entry = item ∧
      it.inTrade = false ∧ ¬ (p.1 = inventorySlotBag0 ∧ p.2 < inventorySlotBagEnd ∧
        inv.isNonEmptyBag (.own p) = true) := by
  unfold destroyable
  cases inv.getItemByPos p with
  | none => simp
  | some it =>
    simp only [Bool.and_eq_true, beq_iff_eq, Bool.not_eq_true', decide_eq_true_eq,
      some.injEq, exists_eq_left', ← Bool.not_eq_true, and_assoc]

/-- The search for one unit takes it from the first stack that it finds. -/
theorem destroyFrom_one (ps : List Pos) (b : Belongings t.db) :
    (destroyFrom transmogCurrency 1 ps 0 b = b ∧
      ∀ p ∈ ps, b.inv.destroyable transmogCurrency p = false) ∨
    ∃ p ∈ ps, ∃ it, b.inv.getItemByPos p = some it ∧ it.entry = transmogCurrency ∧
      b.inv.destroyable transmogCurrency p = true ∧
      Paid b (destroyFrom transmogCurrency 1 ps 0 b) p it := by
  induction ps with
  | nil => exact .inl ⟨rfl, by simp⟩
  | cons p ps ih =>
    by_cases hd : b.inv.destroyable transmogCurrency p = true
    · -- the search ends here
      obtain ⟨it, hi, he, -⟩ := destroyable_iff.mp hd
      have hpos := b.orderly.counted (getItemByPos_some hi).2
      refine .inr ⟨p, List.mem_cons_self .., it, hi, he, hd, ?_⟩
      unfold destroyFrom
      simp only [hi, hd, if_true]
      by_cases hc : it.count + 0 ≤ 1
      · have h1 : it.count = 1 := by
          rw [UInt32.add_zero, UInt32.le_iff_toNat_le, UInt32.toNat_one] at hc
          exact UInt32.toNat_inj.mp (by rw [UInt32.toNat_one]; omega)
        rw [dif_pos hc, if_pos (by rw [h1]; decide)]
        exact paid_destroyItem hi he h1
      · rw [dif_neg hc]
        refine paid_setCount hi _ (by rw [UInt32.add_zero]) ?_
        rw [UInt32.add_zero, UInt32.le_iff_toNat_le, UInt32.toNat_one] at hc
        omega
    · -- the position is passed over
      have hskip : destroyFrom transmogCurrency 1 (p :: ps) 0 b =
          destroyFrom transmogCurrency 1 ps 0 b := by
        rw [destroyFrom]
        cases hi : b.inv.getItemByPos p with
        | none => rfl
        | some it => simp only [hd, if_false, Bool.false_eq_true]
      rw [hskip]
      rcases ih with ⟨h, hall⟩ | ⟨q, hq, it, hi, he, hdq, hp⟩
      · left
        refine ⟨h, fun q hq => ?_⟩
        rcases List.mem_cons.mp hq with rfl | hq
        · simpa using hd
        · exact hall q hq
      · exact .inr ⟨q, List.mem_cons_of_mem _ hq, it, hi, he, hdq, hp⟩

end Belongings

/-! ## The commands -/

theorem or_and_absorb (a b : UInt32) : (a ||| b) &&& b = b := by
  apply UInt32.toBitVec_inj.mp
  rw [UInt32.toBitVec_and, UInt32.toBitVec_or]
  ext i hi
  rw [BitVec.getElem_and, BitVec.getElem_or]
  cases a.toBitVec[i] <;> cases b.toBitVec[i] <;> rfl

theorem Item.setTransmogrification_proto {db : ItemDb} (it : Item db) (id : UInt32) :
    (it.setTransmogrification id).proto = it.proto := rfl

theorem Item.setTransmogrification_count {db : ItemDb} (it : Item db) (id : UInt32) :
    (it.setTransmogrification id).count = it.count := rfl

theorem Item.sameButLook {db : ItemDb} (it : Item db) (id : UInt32) :
    it.SameButLook (it.setTransmogrification id) := by
  refine ⟨rfl, ?_⟩
  unfold Item.setTransmogrification applyModFlag
  by_cases h : it.isSoulBound = true
  · simp only [h, if_true]
  · simp only [h, if_true, Bool.false_eq_true, if_false, UInt32.or_assoc, UInt32.or_self]

/-- A bound item without an appearance stays as it is when its appearance is taken away; any other
item changes. -/
theorem Item.setTransmogrification_zero_eq {db : ItemDb} (it : Item db) :
    it.setTransmogrification 0 = it ↔ it.isSoulBound = true ∧ it.fields.transmogrifyId = 0 := by
  constructor
  · intro h
    have hf : (it.setTransmogrification 0).flags = it.flags := by rw [h]
    have ht : (it.setTransmogrification 0).fields.transmogrifyId = it.fields.transmogrifyId := by
      rw [h]
    refine ⟨?_, ht.symm⟩
    by_contra hb
    unfold Item.setTransmogrification applyModFlag at hf
    simp only [hb, if_false, if_true] at hf
    -- the flag that binding sets is the one that `isSoulBound` tests
    apply hb
    unfold Item.isSoulBound Item.hasFlag
    rw [Bool.or_eq_true, ← hf, or_and_absorb]
    exact .inl (by decide)
  · rintro ⟨hb, h0⟩
    unfold Item.setTransmogrification
    simp only [hb, if_true, ← h0]

namespace TransmogPlayer

variable {t : TransmogTable} {w w' : TransmogPlayer t} {slot : UInt8} {it : Item t.db}

abbrev slotPos (slot : UInt8) : Pos := (inventorySlotBag0, slot.toNat)

theorem getItemPrototype_isSome (w : TransmogPlayer t) (it : Item t.db) :
    ∃ proto, w.getItemPrototype it.entry = some proto := by
  unfold getItemPrototype
  split
  · exact ⟨_, rfl⟩
  · exact ⟨_, by rw [show it.entry = it.proto.itemId from rfl, it.isProto]; rfl⟩

theorem applyTransmog_none (h : w.inv.getItemByPos (slotPos slot) = none) (id : UInt32) :
    (w.applyTransmog slot id).2 = w := by
  unfold applyTransmog
  split
  · rfl
  · rename_i h'; rw [h] at h'; cases h'

theorem applyTransmog_reset (h : w.inv.getItemByPos (slotPos slot) = some it) :
    (w.applyTransmog slot 0).2 =
      (w.deleteItemTransmogrifyTemplate it.fields.transmogrifyId).showTransmog slot it
        (w.counted_at h) 0 := by
  obtain ⟨proto, hp⟩ := w.getItemPrototype_isSome it
  unfold applyTransmog
  split
  · rename_i h'; rw [h] at h'; cases h'
  · rename_i it' h'
    obtain rfl : it = it' := some.inj (h.symm.trans h')
    simp only [hp, ne_eq, not_true_eq_false, if_false]

variable {id : UInt32} {proto : TransmogProto}

section

variable (h : w.inv.getItemByPos (slotPos slot) = some it)
  (hp : w.getItemPrototype it.entry = some proto) (hid : id ≠ 0)
include h hp hid

theorem applyTransmog_error {e : UInt8} (he : w.checkTransmog slot proto id = .error e) :
    (w.applyTransmog slot id).2 = w := by
  unfold applyTransmog
  split
  · rfl
  · rename_i it' h'
    obtain rfl : it = it' := some.inj (h.symm.trans h')
    simp only [hp, ne_eq, hid, not_false_eq_true, if_true, he]

/-- A new appearance: one unit is searched for, and the item gets the new template. -/
theorem applyTransmog_ok {src : TransmogProto} (he : w.checkTransmog slot proto id = .ok src) :
    let b := w.toBelongings.destroyItemCount transmogCurrency 1
    let item := it.setTransmogrification (w.transmogId + 1)
    (w.applyTransmog slot id).2.inv = b.inv.setItem (slotPos slot) item ∧
      (w.applyTransmog slot id).2.fields =
        b.fields.setVisibleItem slot.toNat (t.visibleItem item) ∧
      (w.applyTransmog slot id).2.transmogId = w.transmogId + 1 := by
  have hc : ({ w with transmogId := w.transmogId + 1 } : TransmogPlayer t).getItemPrototype
      it.entry = some proto := hp
  unfold applyTransmog
  split
  · rename_i h'; rw [h] at h'; cases h'
  · rename_i it' h'
    obtain rfl : it = it' := some.inj (h.symm.trans h')
    simp only [hp, ne_eq, hid, not_false_eq_true, if_true, he, createItemTransmogrifyTemplate, hc]
    exact ⟨rfl, rfl, rfl⟩

end

/-- What the checks answer for a new appearance implies that the slot is an equipment slot. -/
theorem checkTransmog_slot {src : TransmogProto}
    (h : w.checkTransmog slot proto id = .ok src) : slot.toNat < equipmentSlotEnd := by
  unfold checkTransmog at h
  split_ifs at h with h1 h2
  exact Nat.lt_of_not_le h2

/-! ### The condition -/

/-- The command stays within the appearance: a new look finds a coin that is not on offer in a
trade, a look is taken from an equipped item or there is nothing to take and nothing to show, and a
glow goes to a visible item, or is there already. -/
def Harmless (w : TransmogPlayer t) : TransmogCommand → Prop
  | .apply slot id => ∀ it proto, w.inv.getItemByPos (slotPos slot) = some it →
      w.getItemPrototype it.entry = some proto →
      if id ≠ 0 then
        ∀ src, w.checkTransmog slot proto id = .ok src →
          ∃ p ∈ w.inv.carriedSlots, w.inv.destroyable transmogCurrency p = true
      else slot.toNat < equipmentSlotEnd ∨
        (it.isSoulBound = true ∧ it.fields.transmogrifyId = 0 ∧
          ∀ i, w.fields.setVisibleItem slot.toNat (t.visibleItem it) i = w.fields i)
  | .changeGlow slot glowId =>
      visibleItemField (glowIndex slot) ∨ w.fields (glowIndex slot) = glowId

theorem onlyAppearance_refl (w : TransmogPlayer t) : w.OnlyAppearance w where
  fields _ := .inl rfl
  items _ := .inl rfl
  units _ _ := rfl
  paid h := absurd h.1 (by
    intro he
    have := congrArg UInt32.toNat he
    rw [UInt32.toNat_add, UInt32.toNat_one] at this
    have := toNat_lt32 w.transmogId
    omega)
  free _ := rfl

theorem not_newAppearance (h : w'.transmogId = w.transmogId) : ¬ w.NewAppearance w' := by
  rintro ⟨he, -⟩
  rw [h] at he
  have hn := congrArg UInt32.toNat he
  rw [UInt32.toNat_add, UInt32.toNat_one] at hn
  have := toNat_lt32 w.transmogId
  omega

/-- A step that keeps the items may change visible-item fields only. -/
theorem onlyAppearance_of_inv (hinv : w'.inv = w.inv) (hid : w'.transmogId = w.transmogId) :
    w.OnlyAppearance w' ↔ ∀ i, w'.fields i = w.fields i ∨ visibleItemField i := by
  constructor
  · intro h i
    rcases h.fields i with hf | hf | ⟨s, -, -, hs, hn⟩
    · exact .inl hf
    · exact .inr hf
    · rw [hinv] at hn; rw [hn] at hs; cases hs
  · intro h
    have hn := not_newAppearance hid
    refine ⟨fun i => ?_, fun p => .inl (by rw [hinv]), fun e _ => by rw [hinv],
      fun ha => absurd ha hn, fun _ => by rw [hinv]⟩
    rcases h i with hf | hf
    · exact .inl hf
    · exact .inr (.inl hf)

/-- The block of an equipment slot holds visible-item fields, and no other block does. -/
theorem setVisibleItem_eq (f : UpdateFields) {s : Nat} (hs : s < equipmentSlotEnd)
    (block : Nat → UInt32) (i : UInt16) :
    f.setVisibleItem s block i = f i ∨ visibleItemField i := by
  have hs19 : s < 19 := hs
  unfold UpdateFields.setVisibleItem
  by_cases hi : 260 + s * 12 ≤ i.toNat ∧ i.toNat < 260 + s * 12 + 12
  · exact .inr (show 260 ≤ i.toNat ∧ i.toNat < 260 + 19 * 12 by omega)
  · exact .inl (if_neg hi)

theorem setVisibleItem_eq_of_visible (f : UpdateFields) {s : Nat} (hs : ¬ s < equipmentSlotEnd)
    (block : Nat → UInt32) {i : UInt16} (hi : visibleItemField i) :
    f.setVisibleItem s block i = f i := by
  have hs19 : ¬ s < 19 := hs
  have hv : 260 ≤ i.toNat ∧ i.toNat < 260 + 19 * 12 := hi
  exact if_neg (show ¬ (260 + s * 12 ≤ i.toNat ∧ i.toNat < 260 + s * 12 + 12) by omega)

theorem changeGlow_iff (w : TransmogPlayer t) (slot glowId : UInt32) :
    w.OnlyAppearance (w.runCommand (.changeGlow slot glowId)) ↔
      w.Harmless (.changeGlow slot glowId) := by
  have hiff : w.OnlyAppearance (w.runCommand (.changeGlow slot glowId)) ↔
      ∀ i, (w.runCommand (.changeGlow slot glowId)).fields i = w.fields i ∨ visibleItemField i :=
    onlyAppearance_of_inv rfl rfl
  rw [hiff]
  have hset : ∀ i, (w.runCommand (.changeGlow slot glowId)).fields i =
      if i = glowIndex slot then glowId else w.fields i := fun _ => rfl
  constructor
  · intro h
    rcases h (glowIndex slot) with hf | hf
    · rw [hset, if_pos rfl] at hf
      exact .inr hf.symm
    · exact .inl hf
  · intro h i
    rw [hset]
    by_cases hi : i = glowIndex slot
    · subst hi
      rw [if_pos rfl]
      rcases h with hv | hv
      · exact .inr hv
      · exact .inl hv.symm
    · exact .inl (if_neg hi)

/-- The effect of taking an appearance away. -/
theorem reset_spec (h : w.inv.getItemByPos (slotPos slot) = some it) :
    (∀ q, (w.applyTransmog slot 0).2.inv.cells.lookup q =
      if q = slotPos slot then some (it.setTransmogrification 0) else w.inv.cells.lookup q) ∧
    (∀ e, (w.applyTransmog slot 0).2.inv.units e = w.inv.units e) ∧
    (w.applyTransmog slot 0).2.fields =
      w.fields.setVisibleItem slot.toNat (t.visibleItem (it.setTransmogrification 0)) ∧
    ¬ w.NewAppearance (w.applyTransmog slot 0).2 := by
  have hl := (getItemByPos_some h).2
  rw [applyTransmog_reset h]
  exact ⟨fun q => lookup_setItem hl (it.setTransmogrification_proto 0),
    fun e => units_setItem_same hl (it.setTransmogrification_proto 0)
      (it.setTransmogrification_count 0) e, rfl, not_newAppearance rfl⟩

theorem count_sub_one_ne (n : UInt32) : n ≠ n - 1 := by
  intro h
  have := congrArg UInt32.toNat h
  rw [UInt32.toNat_sub, UInt32.toNat_one] at this
  have := toNat_lt32 n
  omega

/-- Only an equipped item may change its look. -/
theorem mayBecome_look {p : Pos} (hp : ¬ isEquipmentPos p)
    (h : MayBecome p (some it) (some (it.setTransmogrification id))) :
    it.setTransmogrification id = it := by
  rcases h with h | ⟨he, -⟩ | ⟨x, hx, -, hy⟩
  · exact some.inj h
  · exact absurd he hp
  · cases hx
    split_ifs at hy
    have hc := congrArg Item.count (some.inj hy)
    exact absurd hc (count_sub_one_ne it.count)

theorem reset_iff (w : TransmogPlayer t) (slot : UInt8) :
    w.OnlyAppearance (w.applyTransmog slot 0).2 ↔ w.Harmless (.apply slot 0) := by
  cases h : w.inv.getItemByPos (slotPos slot) with
  | none =>
    rw [applyTransmog_none h]
    refine ⟨fun _ it proto hi => ?_, fun _ => w.onlyAppearance_refl⟩
    rw [h] at hi
    cases hi
  | some it =>
    obtain ⟨hlook, hunits, hfields, hnew⟩ := reset_spec h
    have hl := (getItemByPos_some h).2
    constructor
    · intro ha it' proto hi _
      obtain rfl : it = it' := some.inj (h.symm.trans hi)
      rw [if_neg (by simp)]
      by_cases hs : slot.toNat < equipmentSlotEnd
      · exact .inl hs
      have hm := ha.items (slotPos slot)
      rw [hlook, if_pos rfl, hl] at hm
      have hsame := mayBecome_look (fun he => hs he.2) hm
      refine .inr ⟨(it.setTransmogrification_zero_eq.mp hsame).1,
        (it.setTransmogrification_zero_eq.mp hsame).2, fun i => ?_⟩
      have hf := ha.fields i
      rw [hfields, hsame] at hf
      rcases hf with hf | hf | ⟨s, -, -, hsome, hnone⟩
      · exact hf
      · exact setVisibleItem_eq_of_visible w.fields hs _ hf
      · rw [hlook] at hnone
        split_ifs at hnone
        rw [hnone] at hsome
        cases hsome
    · intro hh
      obtain ⟨proto, hp⟩ := w.getItemPrototype_isSome it
      have hcond := hh it proto h hp
      rw [if_neg (by simp)] at hcond
      have hitems : slot.toNat < equipmentSlotEnd ∨ it.setTransmogrification 0 = it := by
        rcases hcond with hs | ⟨hb, h0, -⟩
        · exact .inl hs
        · exact .inr (it.setTransmogrification_zero_eq.mpr ⟨hb, h0⟩)
      refine ⟨fun i => ?_, fun p => ?_, fun e _ => hunits e, fun hn => absurd hn hnew,
        fun _ => hunits _⟩
      · rw [hfields]
        rcases hcond with hs | ⟨hb, h0, hf⟩
        · rcases setVisibleItem_eq w.fields hs (t.visibleItem (it.setTransmogrification 0)) i with
            hv | hv
          · exact .inl hv
          · exact .inr (.inl hv)
        · rw [it.setTransmogrification_zero_eq.mpr ⟨hb, h0⟩]
          exact .inl (hf i)
      · rw [hlook]
        by_cases hq : p = slotPos slot
        · subst hq
          rw [if_pos rfl, hl]
          rcases hitems with hs | he
          · exact .inr (.inl ⟨⟨rfl, hs⟩, it, _, rfl, rfl, it.sameButLook 0⟩)
          · exact .inl (congrArg some he)
        · rw [if_neg hq]
          exact .inl rfl

/-- A new appearance keeps to the appearance exactly when a coin was found. -/
theorem new_iff (h : w.inv.getItemByPos (slotPos slot) = some it) {src : TransmogProto}
    (hp : w.getItemPrototype it.entry = some proto) (hid : id ≠ 0)
    (he : w.checkTransmog slot proto id = .ok src) :
    w.OnlyAppearance (w.applyTransmog slot id).2 ↔
      ∃ p ∈ w.inv.carriedSlots, w.inv.destroyable transmogCurrency p = true := by
  obtain ⟨hinv, hfields, hidn⟩ := applyTransmog_ok h hp hid he
  have hs := checkTransmog_slot he
  have hs19 : slot.toNat < 19 := hs
  have hl := (getItemByPos_some h).2
  have hne : it.entry ≠ transmogCurrency := fun hc => by
    have : 23 ≤ slot.toNat := w.currency_not_worn hl hc rfl
    omega
  have hkeep : ∀ b : Belongings t.db, b.inv.cells.lookup (slotPos slot) = some it →
      ∀ e, (b.inv.setItem (slotPos slot)
        (it.setTransmogrification (w.transmogId + 1))).units e = b.inv.units e :=
    fun b hb e => units_setItem_same hb (it.setTransmogrification_proto _)
      (it.setTransmogrification_count _) e
  have hnew : ∀ b : Belongings t.db, b = w.toBelongings.destroyItemCount transmogCurrency 1 →
      b.inv.cells.lookup (slotPos slot) = some it → w.NewAppearance (w.applyTransmog slot id).2 := by
    rintro b rfl hb
    refine ⟨hidn, slot.toNat, hs, it.setTransmogrification (w.transmogId + 1), ?_, hidn.symm⟩
    rw [hinv]
    exact (lookup_setItem hb (it.setTransmogrification_proto _)).trans (if_pos rfl)
  rcases w.toBelongings.destroyFrom_one w.inv.carriedSlots with ⟨hsame, hnone⟩ |
    ⟨p, hpm, c, hc, hce, hd, hpaid⟩
  · -- no coin is taken: the appearance is free
    have hb : w.toBelongings.destroyItemCount transmogCurrency 1 = w.toBelongings := hsame
    constructor
    · intro ha
      have hu := ha.paid (hnew _ rfl (by rw [hb]; exact hl))
      rw [hinv, hb, hkeep _ hl] at hu
      omega
    · rintro ⟨p, hpm, hd⟩
      rw [hnone p hpm] at hd
      cases hd
  · refine ⟨fun _ => ⟨p, hpm, hd⟩, fun _ => ?_⟩
    obtain ⟨hcv, hcl⟩ := getItemByPos_some hc
    have hworn := w.currency_not_worn hcl hce
    have hpne : slotPos slot ≠ p := by
      rintro rfl
      have : 23 ≤ slot.toNat := hworn rfl
      omega
    have hb : (w.toBelongings.destroyItemCount transmogCurrency 1).inv.cells.lookup
        (slotPos slot) = some it := by
      rw [show w.toBelongings.destroyItemCount transmogCurrency 1 =
        Belongings.destroyFrom transmogCurrency 1 w.inv.carriedSlots 0 w.toBelongings from rfl,
        hpaid.lookup, if_neg hpne]
      exact hl
    have hlook : ∀ q, (w.applyTransmog slot id).2.inv.cells.lookup q =
        if q = slotPos slot then some (it.setTransmogrification (w.transmogId + 1))
        else if q = p then (if c.count = 1 then none else some { c with count := c.count - 1 })
        else w.inv.cells.lookup q := by
      intro q
      rw [hinv, lookup_setItem hb (it.setTransmogrification_proto _)]
      by_cases hq : q = slotPos slot
      · rw [if_pos hq, if_pos hq]
      · rw [if_neg hq, if_neg hq]
        exact hpaid.lookup q
    have hunits : ∀ e, (w.applyTransmog slot id).2.inv.units e +
        (if c.entry = e then 1 else 0) = w.inv.units e := by
      intro e
      rw [hinv, hkeep _ hb]
      exact hpaid.units e
    refine ⟨fun i => ?_, fun q => ?_, fun e hne' => ?_, fun _ => ?_, fun hn =>
      absurd (hnew _ rfl hb) hn⟩
    · rw [hfields]
      rcases setVisibleItem_eq (w.toBelongings.destroyItemCount transmogCurrency 1).fields hs
        (t.visibleItem (it.setTransmogrification (w.transmogId + 1))) i with hv | hv
      · rw [hv]
        rcases hpaid.fields i with hf | ⟨hp1, hc1, hi⟩
        · exact .inl hf
        · -- the last unit of a stack outside the bags: its slot is empty now
          have hpe : p = (inventorySlotBag0, p.2) := Prod.ext hp1 rfl
          have hlt : p.2 < 113 := by
            rw [visible, if_pos hp1] at hcv
            have := isItemSlot_iff.mp hcv
            omega
          refine .inr (.inr ⟨p.2, Nat.lt_trans hlt (by decide), hi, ?_, ?_⟩)
          · rw [← hpe, hcl]; rfl
          · rw [hlook, ← hpe, if_neg (Ne.symm hpne), if_pos rfl, if_pos hc1]
      · exact .inr (.inl hv)
    · rw [hlook]
      by_cases hq : q = slotPos slot
      · subst hq
        rw [if_pos rfl, hl]
        exact .inr (.inl ⟨⟨rfl, hs⟩, it, _, rfl, rfl, it.sameButLook _⟩)
      · rw [if_neg hq]
        by_cases hqp : q = p
        · subst hqp
          rw [if_pos rfl, hcl]
          exact .inr (.inr ⟨c, rfl, hce, rfl⟩)
        · rw [if_neg hqp]
          exact .inl rfl
    · have hu := hunits e
      rw [hce, if_neg (Ne.symm hne')] at hu
      exact hu
    · have hu := hunits transmogCurrency
      rw [hce, if_pos rfl] at hu
      exact hu

theorem apply_iff (w : TransmogPlayer t) (slot : UInt8) (hid : id ≠ 0) :
    w.OnlyAppearance (w.applyTransmog slot id).2 ↔ w.Harmless (.apply slot id) := by
  cases h : w.inv.getItemByPos (slotPos slot) with
  | none =>
    rw [applyTransmog_none h]
    refine ⟨fun _ it proto hi => ?_, fun _ => w.onlyAppearance_refl⟩
    rw [h] at hi
    cases hi
  | some it =>
    obtain ⟨proto, hp⟩ := w.getItemPrototype_isSome it
    have hharm : w.Harmless (.apply slot id) ↔
        ∀ src, w.checkTransmog slot proto id = .ok src →
          ∃ p ∈ w.inv.carriedSlots, w.inv.destroyable transmogCurrency p = true := by
      constructor
      · intro hh
        have hcond := hh it proto h hp
        rwa [if_pos hid] at hcond
      · intro hh it' proto' hi hp'
        obtain rfl : it = it' := some.inj (h.symm.trans hi)
        obtain rfl : proto = proto' := some.inj (hp.symm.trans hp')
        rw [if_pos hid]
        exact hh
    rw [hharm]
    cases he : w.checkTransmog slot proto id with
    | error e =>
      rw [applyTransmog_error h hp hid he]
      exact ⟨fun _ src hsrc => (by cases hsrc), fun _ => w.onlyAppearance_refl⟩
    | ok src =>
      rw [new_iff h hp hid he]
      exact ⟨fun hex _ _ => hex, fun hall => hall src rfl⟩

/-- For every player and every text: the message touches only appearance if and only if it holds
no command, or a harmless one. -/
theorem handleAddonMessages_iff (w : TransmogPlayer t) (msg : Text) :
    w.OnlyAppearance (w.handleAddonMessages msg) ↔
      ∀ c, transmogCommand msg = some c → w.Harmless c := by
  unfold handleAddonMessages
  cases hc : transmogCommand msg with
  | none => exact ⟨fun _ c h => (by cases h), fun _ => w.onlyAppearance_refl⟩
  | some c =>
    have hrun : w.OnlyAppearance (w.runCommand c) ↔ w.Harmless c := by
      cases c with
      | changeGlow slot glowId => exact w.changeGlow_iff slot glowId
      | apply slot id =>
        by_cases hid : id = 0
        · subst hid
          exact w.reset_iff slot
        · exact w.apply_iff slot hid
    show w.OnlyAppearance (w.runCommand c) ↔ _
    rw [hrun]
    exact ⟨fun h c' hc' => some.inj hc' ▸ h, fun h => h c rfl⟩

end TransmogPlayer

/-! ## A glow in another field -/

/-- An item table without rows. -/
def noTransmogs : TransmogTable where
  db := noItems
  displayInfoID := fun _ => 0
  visibleItem := fun _ _ => 0
  currency_type := nofun

/-- A player without items who needs 400 experience for the next level. -/
def newcomer : TransmogPlayer noTransmogs where
  inv := .empty 1
  fields := fun i => if i.toNat = playerNextLevelXp then 400 else 0
  orderly := ⟨fun _ h => by simp [Inventory.empty] at h, fun h => by simp [Inventory.empty] at h⟩
  transmogs := []
  itemTransmogs := ∅
  transmogId := 0

/-- "Slot" 38 is the field of the experience for the next level. -/
theorem glow_not_onlyAppearance :
    ¬ ∀ (t : TransmogTable) (w : TransmogPlayer t) (msg : Text),
      w.OnlyAppearance (w.handleAddonMessages msg) := by
  intro h
  have hc : transmogCommand "TW_TRANSMOG DoChangeGlow:38:1".toList = some (.changeGlow 38 1) := by
    decide +kernel
  have ha := h noTransmogs newcomer "TW_TRANSMOG DoChangeGlow:38:1".toList
  unfold TransmogPlayer.handleAddonMessages at ha
  rw [hc] at ha
  rcases (newcomer.changeGlow_iff 38 1).mp ha with hv | hv
  · exact absurd hv (by decide)
  · exact absurd hv (by decide)

end Windrunner
