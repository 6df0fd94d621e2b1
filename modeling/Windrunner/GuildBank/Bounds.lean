import Windrunner.GuildBank.Conserve

/-!
# Stack bounds

A world is `Bounded` when every bank item and every stack of the player has at least one unit and
at most the limit of its template. Withdrawals and moves keep this; a deposit keeps it if and only if
the player's stack has the units the message asks for (`Transfer.Within`), and a split if and only
if it is not a split of nothing.
-/

namespace Windrunner

open Lib List Option

variable {db : ItemDb}

/-- A bank stack of a known template with one unit to the limit of the template. -/
structure BankItem.Within (db : ItemDb) (it : BankItem) : Prop where
  template : ∃ proto, db.get it.itemTemplate = some proto ∧ it.maxStackSize = proto.stackable
  pos : 1 ≤ it.count.toNat
  le : it.count.toNat ≤ it.maxStackSize.toNat

namespace BankItem

variable {it it' : BankItem}

theorem Within.typed (h : it.Within db) : it.Typed db := by
  intro proto hget
  obtain ⟨proto', hget', hm⟩ := h.template
  rw [hm, some.inj (hget.symm.trans hget')]

theorem Within.small (h : it.Within db) : it.maxStackSize.toNat ≤ 255 := by
  obtain ⟨proto, -, hm⟩ := h.template
  rw [hm]
  exact proto.stackable_le

/-- Another count of the same template. -/
theorem Within.withCount (h : it.Within db) (ht : it'.itemTemplate = it.itemTemplate)
    (hm : it'.maxStackSize = it.maxStackSize) (h1 : 1 ≤ it'.count.toNat)
    (h2 : it'.count.toNat ≤ it.maxStackSize.toNat) : it'.Within db :=
  ⟨by rw [ht, hm]; exact h.template, h1, by rw [hm]; exact h2⟩

/-- Two stacks of one template have one limit. -/
theorem Within.max_eq (h : it.Within db) (h' : it'.Within db)
    (ht : it'.itemTemplate = it.itemTemplate) : it'.maxStackSize = it.maxStackSize := by
  obtain ⟨proto, hget, hm⟩ := h.template
  rw [hm]
  exact h'.typed proto (by rw [ht]; exact hget)

end BankItem

/-- A deposited item has its own template. -/
theorem within_of_proto {b : BankItem} {it : Item db} (ht : b.itemTemplate = it.entry)
    (hm : b.maxStackSize = it.proto.stackable) (h1 : 1 ≤ b.count.toNat)
    (h2 : b.count.toNat ≤ it.proto.stackable.toNat) : b.Within db :=
  ⟨⟨it.proto, by rw [ht]; exact it.isProto, hm⟩, h1, by rw [hm]; exact h2⟩

namespace World

/-- Every stack in the bank and in the player's inventory is within its bounds. -/
structure Bounded (w : World db) : Prop where
  bank : ∀ it ∈ w.bank.items, it.Within db
  inv : w.player.inv.Bounded

variable {env : Env} {w w' : World db} {p : Pos} {it : Item db} {count remainer : UInt32} {e i : Nat}

theorem Bounded.typed (h : w.Bounded) : w.bank.Typed db := fun x hx => (h.bank x hx).typed

theorem bounded_congr (hi : w'.bank.items = w.bank.items) (hp : w'.player.inv = w.player.inv) :
    w'.Bounded ↔ w.Bounded :=
  ⟨fun h => ⟨hi ▸ h.bank, hp ▸ h.inv⟩, fun h => ⟨hi ▸ h.bank, hp ▸ h.inv⟩⟩

theorem saveToDB_items :
    w.saveToDB.bank.items = w.bank.items ∨
      w.saveToDB.bank.items = w.bank.items.map ({ · with state := .unchanged }) := by
  unfold saveToDB
  split_ifs
  · exact .inl rfl
  · exact .inl rfl
  · unfold GuildBank.saved
    dsimp only
    split_ifs
    · exact .inl rfl
    · exact .inr rfl

/-- The state of an item does not matter to its bounds. -/
@[simp] theorem saveToDB_bounded : w.saveToDB.Bounded ↔ w.Bounded := by
  have hstate : ∀ (x : BankItem) (s : ItemUpdateState),
      ({ x with state := s } : BankItem).Within db ↔ x.Within db := fun x s =>
    ⟨fun h => ⟨h.template, h.pos, h.le⟩, fun h => ⟨h.template, h.pos, h.le⟩⟩
  obtain h | h := w.saveToDB_items
  · exact bounded_congr h (by rw [saveToDB_player])
  · constructor
    · intro hb
      refine ⟨fun x hx => ?_, by simpa using hb.inv⟩
      exact (hstate x .unchanged).mp (hb.bank _ (by rw [h]; exact mem_map_of_mem hx))
    · intro hb
      refine ⟨fun x hx => ?_, by simpa using hb.inv⟩
      rw [h] at hx
      obtain ⟨y, hy, rfl⟩ := mem_map.mp hx
      exact (hstate y .unchanged).mpr (hb.bank y hy)

@[simp] theorem finishDeposit_bounded : (w.finishDeposit env i count).Bounded ↔ w.Bounded := by
  unfold finishDeposit
  cases w.bank.items[i]? with
  | none => rfl
  | some bItem =>
    dsimp only
    rw [saveToDB_bounded]
    exact bounded_congr (by simp) (by simp)

/-! ## Deposits -/

/-- The player's item is within its bounds after a deposit if and only if it had the units. -/
theorem payOut_bounded (hb : w.player.inv.Bounded) (hp : w.player.inv.getItemByPos p = some it)
    (hs : count.toNat ≤ 255) :
    (w.payOut p it count 0).player.inv.Bounded ↔ count ≤ it.count := by
  have hit := hb p it hp
  have hst := it.proto.stackable_le
  unfold payOut
  by_cases hk : count = it.count
  · rw [if_pos ⟨rfl, hk⟩, setInv_inv]
    exact iff_of_true (hb.remove p) (by rw [hk]; exact UInt32.le_refl _)
  · rw [if_neg (fun h => hk h.2), setInv_inv, le_toNat]
    refine (Inventory.bounded_setItem_iff hb hp ?_).trans ?_
    · rfl
    dsimp only
    have hne : count.toNat ≠ it.count.toNat := fun h => hk (eq_toNat.mpr h)
    by_cases hle : count.toNat ≤ it.count.toNat
    · have := toNat_sub hle
      exact iff_of_true (by omega) hle
    · have := toNat_sub_wrap (Nat.lt_of_not_le hle)
      exact iff_of_false (by omega) hle

theorem bounded_payOut_iff (hbank : ∀ x ∈ w.bank.items, x.Within db) (hb : w.player.inv.Bounded)
    (hp : w.player.inv.getItemByPos p = some it) (hs : count.toNat ≤ 255) :
    (w.payOut p it count 0).Bounded ↔ count ≤ it.count := by
  rw [← payOut_bounded hb hp hs]
  exact ⟨fun h => h.inv, fun h => ⟨by rw [payOut_bank]; exact hbank, h⟩⟩

/-- A deposit to an empty slot keeps the bounds if and only if it is of at least one unit and the
player's stack has them. -/
theorem place_bounded_iff {again : World db → World db} {bankTab bankSlot : Nat} (hb : w.Bounded)
    (hp : w.player.inv.getItemByPos p = some it) (hc : count ≤ it.proto.stackable) :
    (w.depositItemInSlot env again bankTab bankSlot p count 0 .new false).Bounded ↔
      1 ≤ count.toNat ∧ count ≤ it.count := by
  obtain ⟨bank, hdep, hbank, -⟩ := w.depositToBank_new bankTab bankSlot it count false
  have hc := le_toNat.mp hc
  have hst := it.proto.stackable_le
  rw [depositItemInSlot_eq hp hdep, if_pos rfl, finishDeposit_bounded]
  have hmem : newBankItem w.bank bankTab bankSlot it count ∈ bank.items := by
    rw [hbank]; exact mem_append_right _ (mem_singleton_self _)
  constructor
  · intro h
    have hnew := h.bank _ (by rw [payOut_bank]; exact hmem)
    exact ⟨hnew.pos, (payOut_bounded (w := w.setBank bank) hb.inv hp (by omega)).mp h.inv⟩
  · rintro ⟨h1, hle⟩
    refine (bounded_payOut_iff (w := w.setBank bank) ?_ hb.inv hp (by omega)).mpr hle
    rw [setBank_bank, hbank]
    intro x hx
    obtain hx | hx := mem_append.mp hx
    · exact hb.bank x hx
    · rw [mem_singleton.mp hx]
      exact within_of_proto rfl rfl h1 hc

/-- The bank stack after a deposit onto it. -/
theorem within_stack {dItem : BankItem} (hd : dItem.Within db) (he : dItem.itemTemplate = it.entry)
    (hc : dItem.count + count ≤ dItem.maxStackSize ∧ count ≤ it.proto.stackable ∨
      count = dItem.maxStackSize - dItem.count) :
    count.toNat ≤ 255 ∧
      (overBankItem w.bank dItem it count .changed true).Within db := by
  have hm := hd.typed it.proto (by rw [he]; exact it.isProto)
  have hst := it.proto.stackable_le
  have h1 := hd.pos
  have h2 := hd.le
  rw [hm] at h2 hc
  -- neither sum comes near `2 ^ 32`
  have hsum : count.toNat ≤ 255 ∧ (dItem.count + count).toNat = dItem.count.toNat + count.toNat ∧
      dItem.count.toNat + count.toNat ≤ it.proto.stackable.toNat := by
    obtain ⟨hc1, hc2⟩ | hc := hc
    · have hc2 := le_toNat.mp hc2
      have hadd := toNat_add (a := dItem.count) (b := count) (by omega)
      have hc1 := le_toNat.mp hc1
      omega
    · have hsub := toNat_sub h2
      rw [← hc] at hsub
      have hadd := toNat_add (a := dItem.count) (b := count) (by omega)
      omega
  refine ⟨hsum.1, within_of_proto rfl rfl ?_ ?_⟩
  · show 1 ≤ (dItem.count + count).toNat
    omega
  · show (dItem.count + count).toNat ≤ _
    omega

theorem within_setItem {x : BankItem} (hb : ∀ y ∈ w.bank.items, y.Within db) (hx : x.Within db) :
    ∀ y ∈ (w.bank.setItem i x).items, y.Within db := by
  intro y hy
  obtain hy | rfl := mem_or_eq_of_mem_set hy
  · exact hb y hy
  · exact hx

/-- A deposit onto a stack keeps the bounds if and only if the player's stack has the units. -/
theorem stack_bounded_iff {again : World db → World db} {bankTab bankSlot : Nat} {dItem : BankItem}
    (hb : w.Bounded) (hp : w.player.inv.getItemByPos p = some it)
    (hd : w.bank.Holds bankTab bankSlot i dItem) (he : dItem.itemTemplate = it.entry)
    (hc : dItem.count + count ≤ dItem.maxStackSize ∧ count ≤ it.proto.stackable ∨
      count = dItem.maxStackSize - dItem.count) :
    (w.depositItemInSlot env again bankTab bankSlot p count 0 .changed true).Bounded ↔
      count ≤ it.count := by
  obtain ⟨bank, hdep, hbank, -⟩ := depositToBank_over it count true hd
  obtain ⟨hsmall, hin⟩ := within_stack (w := w) (hb.bank _ hd.mem) he hc
  rw [depositItemInSlot_eq hp hdep, if_pos rfl, finishDeposit_bounded]
  refine bounded_payOut_iff (w := w.setBank bank) ?_ hb.inv hp hsmall
  rw [setBank_bank, hbank]
  exact within_setItem hb.bank hin

/-- The search for room keeps the bounds. -/
theorem freeSlotN_bounded {bankTab n : Nat} (hb : w.Bounded)
    (hp : w.player.inv.getItemByPos p = some it) (hn : it.count.toNat < n) :
    (depositItemInFreeSlotN env bankTab p n w).Bounded := by
  induction n generalizing w it with
  | zero => omega
  | succ n ih =>
    have hit := hb.inv p it hp
    unfold depositItemInFreeSlotN
    rw [hp]
    dsimp only
    cases hps : (if it.proto.stackable > 1 then partialStack w.bank bankTab it.entry else none) with
    | none =>
      dsimp only
      cases hf : freeSlot w.bank bankTab with
      | none => exact ⟨hb.bank, hb.inv⟩
      | some slot =>
        exact (place_bounded_iff hb hp (le_toNat.mpr hit.2)).mpr ⟨hit.1, UInt32.le_refl _⟩
    | some x =>
      obtain ⟨slot, bItem⟩ := x
      obtain ⟨hs, hps⟩ := partialStack_if hps
      obtain ⟨-, ⟨i, hd⟩, he, hlt⟩ := partialStack_some hps
      have hin := hb.bank _ hd.mem
      dsimp only
      split_ifs with hall
      · rw [UInt32.add_comm] at hall
        exact (stack_bounded_iff hb hp hd he (.inl ⟨hall, le_toNat.mpr hit.2⟩)).mpr (UInt32.le_refl _)
      · obtain ⟨bank, w', hdep, rfl, hr, -, -, hp'⟩ := fill_step hb.typed hp hd he hlt hall
        obtain ⟨h1, h2, h3, h4⟩ := room_lt hlt hall
        have hsub := toNat_sub (Nat.le_of_lt h3)
        rw [depositItemInSlot_eq hp hdep, if_neg hr, finishDeposit_bounded]
        refine ih ⟨?_, ?_⟩ hp' (by dsimp only; omega)
        · obtain ⟨bank', hdep', hbank, -⟩ :=
            depositToBank_over it (bItem.maxStackSize - bItem.count) true hd
          obtain rfl : bank = bank' := by simpa using hdep.symm.trans hdep'
          rw [payOut_bank, setBank_bank, hbank]
          exact within_setItem hb.bank (within_stack (w := w) hin he (.inr rfl)).2
        · unfold payOut
          rw [if_neg fun h => hr h.1, setInv_inv]
          refine (Inventory.bounded_setItem_iff hb.inv hp ?_).mpr ?_
          · rfl
          · dsimp only
            omega

/-! ## Withdrawals -/

section Withdraw

variable {bankTab bankSlot : Nat} {bItem : BankItem} {swap : Bool}

/-- What a withdrawal leaves in the bank is within its bounds. -/
theorem finishWithdraw_bounded {rest : UInt32} (hb : ∀ x ∈ w.bank.items, x.Within db)
    (hi : w.bank.items[i]? = some bItem)
    (hrest : remainer ≠ 0 → 1 ≤ rest.toNat ∧ rest.toNat ≤ bItem.count.toNat)
    (hinv : w.player.inv.Bounded) :
    (finishWithdraw env
      (w.setBank ((putRef w.bank (some i) (takeFrom bItem remainer rest)).enqueue
        (takeFrom bItem remainer rest))) bankTab count (takeFrom bItem remainer rest)
        (some i)).Bounded := by
  have hin := hb _ (mem_of_getElem? hi)
  refine ⟨?_, by rw [finishWithdraw_player]; exact hinv⟩
  rw [finishWithdraw_items]
  by_cases hr : remainer = 0
  · rw [if_pos (by simp [takeFrom, hr])]
    intro x hx
    -- the item that was marked is the one that goes
    simp only [deleteRef, putRef, setBank_bank, GuildBank.deleteItem, GuildBank.enqueue,
      GuildBank.setItem, eraseIdx_set_eq] at hx
    exact hb x (mem_of_mem_eraseIdx hx)
  · rw [if_neg (by simp [takeFrom, hr])]
    refine within_setItem hb ?_
    obtain ⟨h1, h2⟩ := hrest hr
    have := hin.le
    simp only [takeFrom, hr, if_false]
    exact hin.withCount rfl rfl h1 (by dsimp only; omega)

/-- The rest of a bank stack after a withdrawal of units it has. -/
theorem rest_bounds (hle : count.toNat ≤ bItem.count.toNat) (h : bItem.count - count ≠ 0) :
    1 ≤ (bItem.count - count).toNat ∧ (bItem.count - count).toNat ≤ bItem.count.toNat := by
  have := toNat_sub hle
  have := ne_zero_toNat.mp h
  omega

/-- A withdrawal onto the player's stack keeps the bounds if and only if it is refused or fits. -/
theorem take_bounded_iff (hb : w.Bounded) (hi : w.bank.items[i]? = some bItem)
    (hp : w.player.inv.getItemByPos p = some it) (hle : count.toNat ≤ bItem.count.toNat) :
    (w.withdrawBankItem env bankTab bankSlot count p.1 p.2 bItem (some i) (some p)
        (bItem.count - count) swap).Bounded ↔
      (w.player.inv.canStoreItem (p.1 % 256) (p.2 % 256) [] bItem.itemTemplate count .none
        false).res ≠ .ok ∨ it.count.toNat + count.toNat ≤ it.proto.stackable.toNat := by
  unfold withdrawBankItem
  by_cases hr : (w.player.inv.canStoreItem (p.1 % 256) (p.2 % 256) [] bItem.itemTemplate count .none
    false).res ≠ .ok
  · rw [if_pos hr]
    exact iff_of_true ⟨hb.bank, hb.inv⟩ (.inl hr)
  rw [if_neg hr, or_iff_right hr, saveToDB_bounded]
  have hit := hb.inv p it hp
  have hin := hb.bank _ (mem_of_getElem? hi)
  have h255 := hin.small
  have hlim := hin.le
  have hst := it.proto.stackable_le
  have hadd := toNat_add (a := it.count) (b := count) (by omega)
  let it' : Item db := { it with count := it.count + count }
  have hset := Inventory.bounded_setItem_iff hb.inv hp (show it'.proto = it.proto from rfl)
  rw [show it'.count = it.count + count from rfl, hadd] at hset
  obtain ⟨w', heq, ⟨hbank, -, -⟩, hinv⟩ :=
    withdrawOnto_eq env bankTab bankSlot count (some i) (bItem.count - count) swap hp
  rw [← show w'.player.inv = w.player.inv.setItem p it' from hinv] at hset
  dsimp only
  rw [heq]
  constructor
  · intro h
    have h := h.inv
    rw [finishWithdraw_player] at h
    exact (hset.mp h).2
  · intro hfit
    refine finishWithdraw_bounded ?_ ?_ (rest_bounds hle) (hset.mpr ⟨by omega, hfit⟩)
    · rw [hbank]; exact hb.bank
    · rw [hbank]; exact hi

/-- A withdrawal as a new item keeps the bounds. -/
theorem store_bounded (hb : w.Bounded) (hi : w.bank.items[i]? = some bItem)
    (hle : count ≤ bItem.count) :
    (w.withdrawBankItem env bankTab bankSlot count p.1 p.2 bItem (some i) none
      (bItem.count - count) swap).Bounded := by
  unfold withdrawBankItem
  by_cases hr : (w.player.inv.canStoreItem (p.1 % 256) (p.2 % 256) [] bItem.itemTemplate count .none
    false).res = .ok
  swap
  · rw [if_pos hr]
    exact ⟨hb.bank, hb.inv⟩
  rw [if_neg (not_not.mpr hr), saveToDB_bounded]
  by_cases hc : count = 0
  · subst hc
    dsimp only
    unfold withdrawNew
    rw [Inventory.storeNewItem_nothing _ _ (Inventory.canStoreItem_nothing hr)]
    exact ⟨hb.bank, hb.inv⟩
  · obtain ⟨w', heq, ⟨hbank, -, -⟩, -, hinv⟩ :=
      withdrawNew_eq env bankTab bankSlot (some i) (bItem.count - count) swap hc hr rfl
    dsimp only
    rw [heq]
    refine finishWithdraw_bounded ?_ ?_ (rest_bounds (le_toNat.mp hle)) (hinv hb.inv)
    · rw [hbank]; exact hb.bank
    · rw [hbank]; exact hi

/-- A swap keeps the bounds. -/
theorem swap_bounded (hb : w.Bounded) (hd : w.bank.Holds bankTab bankSlot i bItem)
    (hp : w.player.inv.getItemByPos p = some it) : (w.swapItems env p i).Bounded := by
  obtain ⟨rfl, rfl⟩ := hd.at
  have hit := hb.inv p it hp
  have hst := it.proto.stackable_le
  unfold swapItems swapItemsTo
  rw [hd.2, hp]
  dsimp only
  by_cases hr : (w.player.inv.canStoreItem nullBag nullSlot [] bItem.itemTemplate bItem.count .none
      false).res ≠ .ok ∧ (w.player.inv.canStoreItem nullBag nullSlot [] bItem.itemTemplate bItem.count
      .none false).res ≠ .inventoryFull
  · rw [if_pos hr]
    exact ⟨hb.bank, hb.inv⟩
  rw [if_neg hr]
  obtain ⟨bank, hdep, hbank, -⟩ := depositToBank_over it it.count false hd
  have hb₁ : (w.depositItemInSlot env id bItem.tab bItem.slot p it.count 0 .changed false).Bounded := by
    rw [depositItemInSlot_eq hp hdep, if_pos rfl, finishDeposit_bounded]
    refine (bounded_payOut_iff (w := w.setBank bank) ?_ hb.inv hp (by omega)).mpr (UInt32.le_refl _)
    rw [setBank_bank, hbank]
    exact within_setItem hb.bank (within_of_proto rfl rfl hit.1 hit.2)
  generalize w.depositItemInSlot env id bItem.tab bItem.slot p it.count 0 .changed false = w₁ at hb₁
  unfold withdrawBankItem
  by_cases hok : (w₁.player.inv.canStoreItem (inventorySlotBag0 % 256) (nullSlot % 256) []
    bItem.itemTemplate bItem.count .none false).res = .ok
  swap
  · rw [if_pos hok]
    exact ⟨hb₁.bank, hb₁.inv⟩
  rw [if_neg (not_not.mpr hok), saveToDB_bounded]
  have hc : bItem.count ≠ 0 := by
    rw [ne_zero_toNat]; exact (hb.bank _ hd.mem).pos
  obtain ⟨w', heq, ⟨hbank', -, -⟩, -, hinv⟩ :=
    withdrawNew_eq env bItem.tab bItem.slot none 0 true hc hok rfl
  dsimp only
  rw [heq]
  refine ⟨?_, by rw [finishWithdraw_player]; exact hinv hb₁.inv⟩
  -- the copy that is withdrawn is no item of the bank
  have hbank₁ : ∀ x ∈ w'.bank.items, x.Within db := by rw [hbank']; exact hb₁.bank
  rw [finishWithdraw_items]
  split_ifs
  · exact hbank₁
  · exact hbank₁

end Withdraw

/-! ## Moves and splits -/

section Move

variable {bankTab fromSlot toSlot j : Nat} {sItem dItem : BankItem}

/-- Another slot or state of the same stack. -/
theorem within_congr {x y : BankItem} (h : x.Within db) (ht : y.itemTemplate = x.itemTemplate)
    (hm : y.maxStackSize = x.maxStackSize) (hc : y.count = x.count) : y.Within db :=
  h.withCount ht hm (by rw [hc]; exact h.pos) (by rw [hc]; exact h.le)

/-- Two items are written, and the rest of the bank stays. -/
theorem within_setTwo {x y : BankItem} {b : GuildBank} (hb : ∀ z ∈ b.items, z.Within db)
    (hx : x.Within db) (hy : y.Within db) :
    ∀ z ∈ (((b.setItem i x).enqueue x).setItem j y |>.enqueue y).items, z.Within db := by
  intro z hz
  obtain hz | rfl := mem_or_eq_of_mem_set hz
  · obtain hz | rfl := mem_or_eq_of_mem_set hz
    · exact hb z hz
    · exact hx
  · exact hy

theorem moveOver_bounded (hb : w.Bounded) (hs : w.bank.Holds bankTab fromSlot i sItem)
    (hd : w.bank.Holds bankTab toSlot j dItem) :
    (w.moveOver bankTab fromSlot toSlot i j sItem dItem).Bounded := by
  have hsw := hb.bank _ hs.mem
  have hdw := hb.bank _ hd.mem
  unfold moveOver
  split_ifs with hswap hfit
  · rw [saveToDB_bounded]
    exact ⟨within_setTwo hb.bank (within_congr hsw rfl rfl rfl) (within_congr hdw rfl rfl rfl), hb.inv⟩
  · simp only [not_or, not_not] at hswap
    obtain ⟨ht, -, -⟩ := hswap
    have hm := hdw.max_eq hsw ht
    have h1 := hsw.small
    have h2 := hsw.le
    have h3 := hdw.le
    have h4 := hdw.pos
    rw [← hm] at h3
    have hadd := toNat_add (a := sItem.count) (b := dItem.count) (by omega)
    have hfit := le_toNat.mp hfit
    refine ⟨fun z hz => ?_, hb.inv⟩
    -- the source is marked and deleted at once
    have hz : z ∈ ((w.bank.items.set j _).set i _).eraseIdx i := hz
    rw [eraseIdx_set_eq] at hz
    obtain hz | rfl := mem_or_eq_of_mem_set (mem_of_mem_eraseIdx hz)
    · exact hb.bank z hz
    · exact hdw.withCount rfl rfl (by dsimp only; omega) (by dsimp only; rw [← hm]; omega)
  · simp only [not_or, not_not] at hswap
    obtain ⟨ht, -, -⟩ := hswap
    have hm := hdw.max_eq hsw ht
    have h1 := hsw.small
    have h2 := hsw.le
    have h3 := hdw.le
    have h4 := hdw.pos
    rw [← hm] at h3
    have hadd := toNat_add (a := sItem.count) (b := dItem.count) (by omega)
    have hfit := mt le_toNat.mpr hfit
    have hsub := toNat_sub h3
    have hsub' := toNat_sub (a := sItem.count) (b := sItem.maxStackSize - dItem.count) (by omega)
    refine ⟨within_setTwo hb.bank ?_ ?_, hb.inv⟩
    · exact hsw.withCount rfl rfl (by dsimp only; omega) (by dsimp only; omega)
    · exact hdw.withCount rfl rfl (by dsimp only; rw [← hm]; omega) (by dsimp only; omega)

theorem moveItem_bounded (hb : w.Bounded) (msg : Text) : (w.moveItem env msg).Bounded := by
  obtain ⟨⟨rs, h⟩, -⟩ | ⟨q, i, sItem, -, -, hs, ⟨-, text, h⟩ | ⟨j, dItem, hd, h⟩⟩ :=
    moveItem_cases env w msg
  · rw [h]; exact ⟨hb.bank, hb.inv⟩
  · rw [h]
    exact ⟨within_setItem hb.bank (within_congr (hb.bank _ hs.mem) rfl rfl rfl), hb.inv⟩
  · rw [h]; exact moveOver_bounded hb hs hd

/-- A split to an empty slot keeps the bounds if and only if it moves at least one unit. -/
theorem splitToEmpty_bounded_iff {split : UInt32} (hb : w.Bounded)
    (hs : w.bank.Holds bankTab fromSlot i sItem) :
    (w.splitToEmpty toSlot split i sItem).Bounded ↔ split ≠ 0 := by
  have hsw := hb.bank _ hs.mem
  have h1 := hsw.pos
  have h2 := hsw.le
  have h3 := hsw.small
  unfold splitToEmpty
  split_ifs with hbig hleft
  · refine iff_of_true ⟨hb.bank, hb.inv⟩ ?_
    rw [ne_zero_toNat]
    have := le_toNat.mp hbig
    omega
  · refine iff_of_true ⟨hb.bank, hb.inv⟩ ?_
    rw [ne_zero_toNat]
    obtain h | h := hleft
    · omega
    · have := le_toNat.mp h; omega
  · have hbig := mt le_toNat.mpr hbig
    have hlt : split.toNat < sItem.count.toNat := by
      by_contra h
      exact hleft (.inr (le_toNat.mpr (by omega)))
    have hsub := toNat_sub (Nat.le_of_lt hlt)
    rw [saveToDB_bounded, ne_zero_toNat]
    constructor
    · intro h
      -- the new item is the last of the bank
      exact (h.bank _ (mem_append_right _ (mem_singleton_self _))).pos
    · intro hpos
      refine ⟨fun z hz => ?_, hb.inv⟩
      obtain hz | hz := mem_append.mp hz
      · obtain hz | rfl := mem_or_eq_of_mem_set hz
        · exact hb.bank z hz
        · exact hsw.withCount rfl rfl (by dsimp only; omega) (by dsimp only; omega)
      · rw [mem_singleton.mp hz]
        exact hsw.withCount rfl rfl hpos (by dsimp only; omega)

theorem splitOver_bounded {split : UInt32} (hb : w.Bounded) (hsplit : split.toNat ≤ 255)
    (hs : w.bank.Holds bankTab fromSlot i sItem) (hd : w.bank.Holds bankTab toSlot j dItem) :
    (w.splitOver split i j sItem dItem).Bounded := by
  have hsw := hb.bank _ hs.mem
  have hdw := hb.bank _ hd.mem
  have h1 := hsw.small
  have h2 := hdw.small
  have h3 := hsw.le
  have h4 := hdw.le
  have hrefused : ∀ r, (w.sendAddonMessage r).Bounded := fun _ => ⟨hb.bank, hb.inv⟩
  unfold splitOver
  by_cases ht : sItem.itemTemplate ≠ dItem.itemTemplate
  · rw [if_pos ht]; exact hrefused _
  by_cases hfit : ¬ dItem.count + split ≤ dItem.maxStackSize
  · rw [if_neg ht, if_pos hfit]; exact hrefused _
  rw [if_neg ht, if_neg hfit]
  split_ifs with h0 hmax hd0 hdmax
  · exact hrefused _
  · exact hrefused _
  · exact hrefused _
  · exact hrefused _
  · have hadd := toNat_add (a := dItem.count) (b := split) (by omega)
    have hfit := le_toNat.mp (not_not.mp hfit)
    have h0 := ne_zero_toNat.mp h0
    have hmax := mt lt_toNat.mpr hmax
    have hd0 := ne_zero_toNat.mp hd0
    refine ⟨within_setTwo hb.bank ?_ ?_, hb.inv⟩
    · exact hsw.withCount rfl rfl (by dsimp only; omega) (by dsimp only; omega)
    · exact hdw.withCount rfl rfl (by dsimp only; omega) (by dsimp only; omega)

end Move

/-- An accepted split of no units to an empty slot. -/
def SplitsNothing (env : Env) (w : World db) (msg : Text) : Prop :=
  ∃ q, splitParams msg = some q ∧ q.split = 0 ∧
    SlotsOk env w q.bankTab.toNat q.fromSlot.toNat q.toSlot.toNat .splitItem ∧
    (∃ i sItem, w.bank.Holds q.bankTab.toNat q.fromSlot.toNat i sItem) ∧
    w.bank.findItem q.bankTab.toNat q.toSlot.toNat = none

theorem splitItem_bounded_iff (hb : w.Bounded) (msg : Text) :
    (w.splitItem env msg).Bounded ↔ ¬ SplitsNothing env w msg := by
  obtain ⟨⟨rs, h⟩, hno⟩ | ⟨q, i, sItem, hq, hok, hs, hto⟩ := splitItem_cases env w msg
  · rw [h]
    refine iff_of_true ⟨hb.bank, hb.inv⟩ ?_
    rintro ⟨q, hq, -, hok, hs, -⟩
    exact hno q hq ⟨hok, hs⟩
  obtain ⟨hfree, h⟩ | ⟨j, dItem, hd, h⟩ := hto
  · rw [h, splitToEmpty_bounded_iff hb hs]
    have hzero : q.split.toUInt32 = 0 ↔ q.split = 0 := by
      rw [← UInt32.toNat_inj, ← UInt8.toNat_inj, UInt8.toNat_toUInt32]
      rfl
    rw [ne_eq, not_iff_not, hzero]
    constructor
    · exact fun h0 => ⟨q, hq, h0, hok, ⟨i, sItem, hs⟩, hfree⟩
    · rintro ⟨q', hq', h0, -⟩
      rw [some.inj (hq.symm.trans hq')]
      exact h0
  · rw [h]
    refine iff_of_true (splitOver_bounded hb ?_ hs hd) ?_
    · rw [UInt8.toNat_toUInt32]
      have := q.split.toNat_lt
      omega
    · rintro ⟨q', hq', -, -, -, hfree⟩
      rw [← some.inj (hq.symm.trans hq'), hd.1] at hfree
      exact nomatch hfree

end World

/-! ## The condition of each branch -/

/-- When a branch keeps the bounds, in terms of the counts before it. -/
def Transfer.Within (w : World db) : Transfer → Prop
  | place _ _ p count =>
    ∀ it, w.player.inv.getItemByPos p = some it → 1 ≤ count.toNat ∧ count ≤ it.count
  | stack _ _ p count => ∀ it, w.player.inv.getItemByPos p = some it → count ≤ it.count
  | take _ _ _ bItem p count =>
    ∀ it, w.player.inv.getItemByPos p = some it →
      (w.player.inv.canStoreItem (p.1 % 256) (p.2 % 256) [] bItem.itemTemplate count .none
        false).res ≠ .ok ∨ it.count.toNat + count.toNat ≤ it.proto.stackable.toNat
  | _ => True

namespace World

variable {env : Env} {w : World db} {it : Item db} {n : UInt32}

/-- What fits on the player's stack is no more than asked for. -/
theorem fitCount_le (hit : it.count.toNat ≤ it.proto.stackable.toNat) (hn : n.toNat ≤ 255) :
    (fitCount it n).toNat ≤ n.toNat ∧
      it.count.toNat + (fitCount it n).toNat ≤ it.proto.stackable.toNat := by
  have hst := it.proto.stackable_le
  have hadd := toNat_add (a := n) (b := it.count) (by omega)
  have hsub := toNat_sub hit
  unfold fitCount
  split_ifs with h
  · have := lt_toNat.mp h; omega
  · have := mt lt_toNat.mpr h; omega

theorem exec_bounded_iff {tr : Transfer} (hb : w.Bounded) (hc : tr.Checked env w) :
    (tr.exec env w).Bounded ↔ tr.Within w := by
  cases tr with
  | reply rs => exact iff_of_true ⟨hb.bank, hb.inv⟩ trivial
  | free bankTab p =>
    obtain ⟨-, it, hp⟩ := hc
    refine iff_of_true ?_ trivial
    show (w.depositItemInFreeSlot env bankTab p).Bounded
    rw [depositItemInFreeSlot_fuel hp (Nat.lt_succ_self _)]
    exact freeSlotN_bounded hb hp (Nat.lt_succ_self _)
  | place bankTab bankSlot p count =>
    obtain ⟨-, -, -, -, it, hp, hle⟩ := hc
    unfold Transfer.exec Transfer.Within
    rw [place_bounded_iff hb hp hle]
    simp only [hp, some.injEq, forall_eq']
  | stack bankTab bankSlot p count =>
    obtain ⟨-, it, i, dItem, hp, hd, he, -, hcount⟩ := hc
    unfold Transfer.exec Transfer.Within
    rw [stack_bounded_iff hb hp hd he hcount]
    simp only [hp, some.injEq, forall_eq']
  | take bankTab bankSlot i bItem p count =>
    obtain ⟨-, hd, it, hp, he, hm, hcount⟩ := hc
    have hin := hb.bank _ hd.mem
    have h1 := hin.small
    have h2 := hin.le
    have hle : count.toNat ≤ bItem.count.toNat := by
      obtain ⟨n, hn, rfl⟩ | ⟨hle, -⟩ := hcount
      · have hn := le_toNat.mp hn
        have := (fitCount_le (n := n) (hb.inv p it hp).2 (by omega)).1
        omega
      · exact le_toNat.mp hle
    unfold Transfer.exec Transfer.Within
    rw [take_bounded_iff hb hd.2 hp hle]
    simp only [hp, some.injEq, forall_eq']
  | store bankTab bankSlot i bItem p count =>
    obtain ⟨-, hd, hle, -⟩ := hc
    exact iff_of_true (store_bounded hb hd.2 hle) trivial
  | swap bankTab i p =>
    obtain ⟨-, ⟨bankSlot, bItem, hd⟩, it, hp⟩ := hc
    exact iff_of_true (swap_bounded hb hd hp) trivial

/-- A withdrawal never takes more than fits. -/
theorem withdrawToBranch_within {bankTab bankSlot i : Nat} {bItem : BankItem} {p : Pos}
    (hb : w.Bounded) (hn : n.toNat ≤ 255) :
    (w.withdrawToBranch bankTab bankSlot p n i bItem).Within w := by
  unfold withdrawToBranch
  cases hp : w.player.inv.getItemByPos p with
  | none => trivial
  | some it =>
    dsimp only
    cases isItemBankable it with
    | error e => trivial
    | ok u =>
      dsimp only
      split_ifs
      · intro it' hp'
        obtain rfl : it = it' := some.inj (hp.symm.trans hp')
        exact .inr (fitCount_le (hb.inv _ it hp).2 hn).2
      · trivial

theorem withdrawBranch_within (hb : w.Bounded) (msg : Text) : (w.withdrawBranch env msg).Within w := by
  unfold withdrawBranch
  cases withdrawParams msg with
  | none => trivial
  | some q =>
    dsimp only
    by_cases hrange : q.bankTab.toNat = 0 ∨ q.bankTab.toNat > maxTabs ∨ q.bankSlot.toNat = 0 ∨
        q.bankSlot.toNat > bankTabSize
    · rw [if_pos hrange]; trivial
    by_cases hacc : (!w.canAccessTab env q.bankTab.toNat .withdrawItem) = true
    · rw [if_neg hrange, if_pos hacc]; trivial
    rw [if_neg hrange, if_neg hacc]
    cases hf : w.bank.findItem q.bankTab.toNat q.bankSlot.toNat with
    | none => trivial
    | some i =>
      obtain ⟨bItem, hd⟩ := holds_of_findItem hf
      dsimp only
      rw [hd.2]
      dsimp only
      split_ifs with hc
      · trivial
      · trivial
      · trivial
      · have h1 := (hb.bank _ hd.mem).small
        have h2 := (hb.bank _ hd.mem).le
        have hc := mt lt_toNat.mpr hc
        exact withdrawToBranch_within hb (by omega)

/-- From bounded stacks, a deposit stays within the bounds if and only if its branch does, every
withdrawal and every move does, and a split does if and only if it is not a split of nothing. -/
theorem transfer_bounded_iff (hb : w.Bounded) (msg : Text) :
    ((w.depositItem env msg).Bounded ↔ (w.depositBranch env msg).Within w) ∧
      (w.withdrawItem env msg).Bounded ∧ (w.moveItem env msg).Bounded ∧
      ((w.splitItem env msg).Bounded ↔ ¬ SplitsNothing env w msg) := by
  rw [depositItem_eq, withdrawItem_eq]
  exact ⟨exec_bounded_iff hb (depositBranch_checked msg),
    (exec_bounded_iff hb (withdrawBranch_checked msg)).mpr (withdrawBranch_within hb msg),
    moveItem_bounded hb msg, splitItem_bounded_iff hb msg⟩

end World

/-- The one piece of cloth is a bounded stack. -/
theorem clothWorld_bounded : clothWorld.Bounded :=
  ⟨nofun, Inventory.bounded_of_entries (by decide)⟩

/-- Twenty units from a stack of one: the stack wraps around. -/
theorem clothWorld_overdrawn :
    clothWorld.Bounded ∧
      ¬ (clothWorld.depositItem {} "DepositItem:0:1:1:1:20".toList).Bounded := by
  refine ⟨clothWorld_bounded, ?_⟩
  have hb : clothWorld.depositBranch {} "DepositItem:0:1:1:1:20".toList =
      .place 1 1 (inventorySlotBag0, 23) 20 := by decide
  have hp : clothWorld.player.inv.getItemByPos (inventorySlotBag0, 23) = some (cloth 5 1) := by decide
  rw [World.depositItem_eq, hb]
  show ¬ (clothWorld.depositItemInSlot {} id 1 1 (inventorySlotBag0, 23) 20 0 .new false).Bounded
  rw [World.place_bounded_iff clothWorld_bounded hp (by decide)]
  exact fun h => absurd h.2 (by decide)

/-- The one piece is deposited within the bounds. -/
theorem clothWorld_deposited :
    clothWorld.Bounded ∧ (clothWorld.depositItem {} "DepositItem:0:1:1:1:1".toList).Bounded := by
  refine ⟨clothWorld_bounded, (World.transfer_bounded_iff clothWorld_bounded _).1.mpr ?_⟩
  have hb : clothWorld.depositBranch {} "DepositItem:0:1:1:1:1".toList =
      .place 1 1 (inventorySlotBag0, 23) 1 := by decide
  have hp : clothWorld.player.inv.getItemByPos (inventorySlotBag0, 23) = some (cloth 5 1) := by decide
  rw [hb]
  intro it hit
  obtain rfl : cloth 5 1 = it := some.inj (hp.symm.trans hit)
  exact ⟨by decide, by decide⟩

end Windrunner
