import Windrunner.Inventory.Accounting

/-!
# When `EQUIP_ERR_INVENTORY_FULL` is true

* `freeRoom`: the room for an entry in the backpack, in the keyring for keys, and in the equipped
  bags that take it.
* `canStoreItem_complete_iff`: the answer that the inventory is full is right unless the request is
  for more than the searches look at (`capacity`) and for no more than there is. They look at all of
  it but, in every bag other than the requested one, the slot with the requested number
  (`mem_searchedSlots_of_store`); so a request without a slot is answered rightly
  (`complete_of_noSlot`).
-/

namespace Windrunner

open Lib

variable {db : ItemDb}

namespace Inventory

variable (inv : Inventory db) (proto : ItemPrototype)

/-- The slots of the inventory that are for the entry. -/
def storeSlots : List Pos :=
  backpackSlots ++ (if proto.bagFamily = bagFamilyKeys then keyringSlots else []) ++
    (bagSlots.filter (inv.opensBag proto .none)).flatMap inv.slotsOfBag

/-- The room for the entry in the whole inventory. -/
def freeRoom : Nat := ∑ p ∈ (inv.storeSlots proto).toFinset, inv.slotRoom proto .none p

/-- A full inventory has no room for the request. -/
def FullIsFull (bag slot entry : Nat) (count : UInt32) : Prop :=
  (inv.canStoreItem bag slot [] entry count .none false).res = .inventoryFull →
    inv.freeRoom proto < count.toNat

variable {inv proto} {bag slot entry : Nat} {count : UInt32}

/-- Without a limit of the entry, a request for a new item is left to the searches. -/
theorem canStoreItem_new (bag slot : Nat) (count : UInt32) (hget : db.get entry = some proto)
    (hmax : proto.maxCount = 0) :
    inv.canStoreItem bag slot [] entry count .none false =
      runSearches (inv.searches proto .none bag slot false 0) 0 ⟨[], count⟩ := by
  have htake : inv.canTakeMoreSimilarItems entry count .none = (.ok, 0) := by
    obtain ⟨h, -⟩ | ⟨-, h0, -⟩ := inv.canTakeMoreSimilarItems_cases .none count hget
    · exact h
    · rw [hmax, UInt32.toNat_zero] at h0
      omega
  unfold canStoreItem
  rw [hget]
  dsimp only
  rw [htake]
  simp [Source.item]

/-- The answer that the inventory is full comes exactly when the requested place takes the item and
the slots that are searched have too little room. -/
theorem canStoreItem_full_iff (hget : db.get entry = some proto) (hmax : proto.maxCount = 0) :
    (inv.canStoreItem bag slot [] entry count .none false).res = .inventoryFull ↔
      inv.requestOpen proto .none bag slot false = true ∧
        inv.capacity proto .none bag slot false < count.toNat := by
  have hends := inv.runSearches_ends proto .none bag slot false 0 count
  rw [canStoreItem_new bag slot count hget hmax]
  obtain ⟨left, hleft, hend⟩ := hends.ending
  generalize (runSearches _ _ _).res = res at hend ⊢
  generalize (runSearches _ _ _).noSpaceCount = k at hend
  cases hend with
  | settled h0 _ =>
    rw [h0, UInt32.toNat_zero] at hleft
    exact iff_of_false nofun fun h => by omega
  | overLimit _ hn => exact absurd rfl hn
  | full h0 ho =>
    have := ne_zero_toNat.mp h0
    exact iff_of_true rfl ⟨ho, by omega⟩
  | refused ho _ h2 _ => exact iff_of_false h2 fun h => by rw [ho] at h; cases h.1
  | silent ho _ h2 _ => exact iff_of_false h2 fun h => by rw [ho] at h; cases h.1

/-- A full inventory is full, unless the request lies between what the searches look at and what
there is. -/
theorem canStoreItem_complete_iff (inv : Inventory db) (bag slot : Nat) (count : UInt32)
    (hget : db.get entry = some proto) (hmax : proto.maxCount = 0) :
    inv.FullIsFull proto bag slot entry count ↔
      (inv.requestOpen proto .none bag slot false = false ∨
        count.toNat ≤ inv.capacity proto .none bag slot false ∨
        inv.freeRoom proto < count.toNat) := by
  unfold FullIsFull
  rw [canStoreItem_full_iff hget hmax, ← Bool.not_eq_true]
  by_cases ho : inv.requestOpen proto .none bag slot false = true
  · simp only [ho, true_and, not_true_eq_false, false_or]
    omega
  · exact iff_of_true (fun h => absurd h.1 ho) (.inl ho)

/-! ## What the searches look at -/

/-- A slot for the entry is searched, unless it has the requested number and lies in another bag. -/
theorem mem_searchedSlots_of_store {p : Pos} (hp : p ∈ inv.storeSlots proto)
    (ht : inv.isTried proto .none p = true) (hs : p.1 = inventorySlotBag0 ∨ p.1 = bag ∨ p.2 ≠ slot) :
    p ∈ inv.searchedSlots proto .none bag slot := by
  refine mem_searchedSlots.mpr (.inr ⟨?_, ht⟩)
  unfold storeSlots at hp
  rw [List.mem_append, List.mem_append] at hp
  obtain (hp | hp) | hp := hp
  · exact .inr (.inr (.inl hp))
  · split_ifs at hp with hkey
    · exact .inr (.inl ⟨hp, isKeySlot_iff.mpr (.inl hkey)⟩)
    · cases hp
  · obtain ⟨b, hb, hpb⟩ := List.mem_flatMap.mp hp
    obtain ⟨hbag, hopen⟩ := List.mem_filter.mp hb
    have h1 : p.1 = b := fst_of_mem_slotsOfBag hpb
    have hb255 : b ≠ inventorySlotBag0 := isBagSlot_ne (isBagSlot_of_mem hbag)
    have hb0 : b ≠ nullBag := by
      have := (List.mem_range'_1.mp hbag).1
      exact Nat.ne_of_gt (Nat.lt_of_lt_of_le (by decide) this)
    by_cases he : b = bag
    · subst he
      refine .inl ?_
      unfold requestedBagSlots
      rw [if_pos ⟨hb0, hb255⟩]
      exact hpb
    · have hne : p.2 ≠ slot := by
        obtain h | h | h := hs
        · exact absurd (h1.symm.trans h) hb255
        · exact absurd (h1.symm.trans h) he
        · exact h
      refine .inr (.inr (.inr (List.mem_flatMap.mpr ⟨b, ?_, ?_⟩)))
      · exact List.mem_filter.mpr ⟨hbag, by simp [he, hopen]⟩
      · exact List.mem_filter.mpr ⟨hpb, by simpa using hne⟩

/-- A slot that no search stops at has no room. -/
theorem slotRoom_of_untried {p : Pos} (hb : inv.Bounded)
    (ht : ¬ inv.isTried proto .none p = true) : inv.slotRoom proto .none p = 0 := by
  rw [isTried_iff, not_or, Bool.not_eq_false] at ht
  obtain ⟨h1, hs⟩ := ht
  unfold slotRoom
  cases hi : inv.itemBut .none p with
  | none => rw [hi] at hs; cases hs
  | some it =>
    dsimp only
    split_ifs with hok
    · obtain ⟨he, hlt, -⟩ := Item.canBeMergedPartlyWith_ok hok
      have hone := (hb p it hi).1
      rw [lt_toNat, UInt32.toNat_one] at h1
      rw [lt_toNat] at hlt
      omega
    · rfl

/-- A request that names no slot is told that the inventory is full only when it is. -/
theorem complete_of_noSlot (hb : inv.Bounded) (hget : db.get entry = some proto)
    (hmax : proto.maxCount = 0) : inv.FullIsFull proto bag nullSlot entry count := by
  refine (canStoreItem_complete_iff inv bag nullSlot count hget hmax).mpr ?_
  by_cases ho : inv.requestOpen proto .none bag nullSlot false = true
  swap
  · exact .inl (by simpa using ho)
  have hcap : inv.freeRoom proto ≤ inv.capacity proto .none bag nullSlot false := by
    unfold requestOpen at ho
    simp only [Bool.and_eq_true, Bool.not_eq_true'] at ho
    unfold freeRoom capacity reached
    rw [ho.1.1, ho.1.2, ho.2]
    refine (Finset.sum_le_sum_of_ne_zero fun p hp h0 => ?_).trans_eq
      (Finset.sum_congr rfl fun p _ => (if_neg fun h => Bool.false_ne_true h.1).symm)
    have hp := List.mem_toFinset.mp hp
    have ht : inv.isTried proto .none p = true := by
      by_contra hn
      exact h0 (slotRoom_of_untried hb hn)
    refine List.mem_toFinset.mpr (mem_searchedSlots_of_store hp ht ?_)
    -- no slot has the number of no slot
    refine .inr (.inr (Nat.ne_of_lt ?_))
    unfold storeSlots at hp
    rw [List.mem_append, List.mem_append] at hp
    obtain (hp | hp) | hp := hp
    · exact (mem_backpackSlots hp).2
    · split_ifs at hp
      · exact (mem_keyringSlots hp).2
      · cases hp
    · obtain ⟨b, -, hpb⟩ := List.mem_flatMap.mp hp
      exact snd_lt_of_mem_slotsOfBag hpb
  omega

end Inventory

/-! ## Two bags -/

/-- Two empty bags of six slots, and an empty backpack. -/
def twoPouches : Inventory sampleDb :=
  ((Inventory.empty 1).place (inventorySlotBag0, 19) (pouch 7)).place (inventorySlotBag0, 20)
    (pouch 8)

/-- There is room for 560 pieces of cloth. Stored from the first slot of the first bag on, they do
not fit: the first slot of the second bag is passed over. -/
theorem twoPouches_not_complete :
    (twoPouches.canStoreItem 19 0 [] 2589 560 .none false).res = .inventoryFull ∧
      twoPouches.freeRoom clothProto = 560 ∧
      ¬ twoPouches.FullIsFull clothProto 19 0 2589 560 := by
  have hfull : (twoPouches.canStoreItem 19 0 [] 2589 560 .none false).res = .inventoryFull := by
    decide +kernel
  have hroom : twoPouches.freeRoom clothProto = 560 := by decide +kernel
  refine ⟨hfull, hroom, fun h => ?_⟩
  have := h hfull
  rw [hroom] at this
  exact absurd this (by decide)

/-- One piece less than what is searched is stored. -/
theorem twoPouches_complete : sampleDb.get 2589 = some clothProto ∧ clothProto.maxCount = 0 ∧
    twoPouches.FullIsFull clothProto 19 0 2589 540 :=
  ⟨rfl, rfl, (Inventory.canStoreItem_complete_iff twoPouches 19 0 540 rfl rfl).mpr
    (.inr (.inl (by decide +kernel)))⟩

end Windrunner
