import Windrunner.Honor.Currency
import Windrunner.Honor.Payment

/-!
# Buying from an honor vendor

`CustomMerchantMgr::BuyItem` checks a row of the vendor against the player, finds a place for the
item, takes the price and stores the item. What is sent to the client is left out.

* `buyItem`: the function. The checks that are not about the price, and the placement, are those of
  `Merchant`.
* `BoughtExactly`, `Unchanged`: what a purchase should do, and what a refusal should.
* `buyItem_exact_iff`: when it does so. The costs are checked one by one but paid together, and
  without a place the items are not given back and the honor counts as earned in the week.
-/

namespace Windrunner

open Lib UInt32 Option

/-- A row of `custom_merchant`. -/
structure CustomMerchantItem where
  id : Nat
  entry : Nat
  item : Nat
  count : Nat := 1
  honorCost : UInt32 := 0
  conquestCost : UInt32 := 0
  /-- Five of them; one without an item or a count is not set. -/
  itemCosts : List ItemCost := []
  deriving DecidableEq, Repr

/-- What the player has. -/
structure Buyer where
  inventory : Carried
  currency : HonorCurrency

/-- What `BuyItem` finds outside of the price. `Dest` are the places that `CanStoreNewItem` finds. -/
structure Merchant (Dest : Type) where
  weeklyHonorCap : UInt32
  week : Nat
  creatureEntry : Nat
  getItem : Nat → Option CustomMerchantItem
  hasItemPrototype : Nat → Bool
  isItemVisible : CustomMerchantItem → Bool
  canUseItem : CustomMerchantItem → Bool
  /-- The places for so many units, or an error. -/
  canStoreNewItem : Carried → Nat → Nat → Option Dest
  /-- The inventory with the new item, or a null pointer. -/
  storeNewItem : Dest → Nat → Carried → Option Carried

namespace Merchant

variable {Dest : Type} (v : Merchant Dest) (b : Buyer) (m : CustomMerchantItem)

/-- `BuyItem`, once there is a place. -/
def payAndStore (dest : Dest) : Bool × Buyer :=
  let (currency, ok) := b.currency.spendSpendableHonor v.week m.honorCost
  if !ok then (false, { b with currency })
  else
    let (currency, ok) := currency.spendConquestPoints m.conquestCost
    if !ok then (false, { b with currency })
    else
      let inventory := b.inventory.pay m.itemCosts
      match v.storeNewItem dest m.item inventory with
      | none =>
        let (currency, _) := currency.addSpendableHonor v.weeklyHonorCap v.week m.honorCost
        let (currency, _) := currency.addConquestPoints m.conquestCost
        (false, { inventory, currency })
      | some inventory => (true, { inventory, currency })

def buyItem (id : Nat) : Bool × Buyer :=
  match v.getItem id with
  | none => (false, b)
  | some m =>
    if m.entry ≠ v.creatureEntry then (false, b)
    else if !v.hasItemPrototype m.item then (false, b)
    else if !v.isItemVisible m then (false, b)
    else if !v.canUseItem m then (false, b)
    else if m.honorCost > b.currency.spendableHonor ∨ m.conquestCost > b.currency.conquestPoints then
      (false, b)
    else if m.itemCosts.any fun c => c.isSet && !b.inventory.hasItemCount c.item c.count then
      (false, b)
    else
      match v.canStoreNewItem b.inventory m.item m.count with
      | none => (false, b)
      | some dest => v.payAndStore b m dest

/-- All checks are passed. -/
structure Admits (id : Nat) (m : CustomMerchantItem) (dest : Dest) : Prop where
  item : v.getItem id = some m
  entry : m.entry = v.creatureEntry
  proto : v.hasItemPrototype m.item = true
  visible : v.isItemVisible m = true
  usable : v.canUseItem m = true
  honor : m.honorCost ≤ b.currency.spendableHonor
  conquest : m.conquestCost ≤ b.currency.conquestPoints
  carries : ∀ c ∈ m.itemCosts, c.isSet = true → b.inventory.hasItemCount c.item c.count = true
  place : v.canStoreNewItem b.inventory m.item m.count = some dest

theorem buyItem_of_admits {id : Nat} {m : CustomMerchantItem} {dest : Dest}
    (h : v.Admits b id m dest) : v.buyItem b id = v.payAndStore b m dest := by
  unfold buyItem
  rw [h.item]
  dsimp only
  have hany : ¬ (m.itemCosts.any fun c => c.isSet && !b.inventory.hasItemCount c.item c.count) =
      true := by
    intro hc
    obtain ⟨c, hmem, hno⟩ := List.any_eq_true.mp hc
    obtain ⟨hset, hno⟩ := Bool.and_eq_true_iff.mp hno
    rw [h.carries c hmem hset] at hno
    cases hno
  have hcost : ¬ (m.honorCost > b.currency.spendableHonor ∨
      m.conquestCost > b.currency.conquestPoints) :=
    not_or.mpr ⟨UInt32.not_lt.mpr h.honor, UInt32.not_lt.mpr h.conquest⟩
  rw [if_neg (not_not.mpr h.entry), if_neg (by simp [h.proto]), if_neg (by simp [h.visible]),
    if_neg (by simp [h.usable]), if_neg hcost, if_neg hany, h.place]

/-- A purchase that does not pass its checks changes nothing. -/
theorem buyItem_cases (id : Nat) :
    (∃ m dest, v.Admits b id m dest) ∨ v.buyItem b id = (false, b) := by
  unfold buyItem
  split
  case h_1 => exact .inr rfl
  case h_2 m hitem =>
    by_cases hentry : m.entry ≠ v.creatureEntry
    · exact .inr (if_pos hentry)
    rw [if_neg hentry]
    by_cases hproto : (!v.hasItemPrototype m.item) = true
    · exact .inr (if_pos hproto)
    rw [if_neg hproto]
    by_cases hvisible : (!v.isItemVisible m) = true
    · exact .inr (if_pos hvisible)
    rw [if_neg hvisible]
    by_cases husable : (!v.canUseItem m) = true
    · exact .inr (if_pos husable)
    rw [if_neg husable]
    by_cases hcost : m.honorCost > b.currency.spendableHonor ∨
        m.conquestCost > b.currency.conquestPoints
    · exact .inr (if_pos hcost)
    rw [if_neg hcost]
    by_cases hany : (m.itemCosts.any fun c =>
        c.isSet && !b.inventory.hasItemCount c.item c.count) = true
    · exact .inr (if_pos hany)
    rw [if_neg hany]
    split
    case h_1 => exact .inr rfl
    case h_2 dest hplace =>
      obtain ⟨hhonor, hconquest⟩ := not_or.mp hcost
      refine .inl ⟨m, dest, hitem, not_not.mp hentry, by simpa using hproto, by simpa using hvisible,
        by simpa using husable, UInt32.not_lt.mp hhonor, UInt32.not_lt.mp hconquest,
        fun c hc hset => ?_, hplace⟩
      by_contra hno
      exact hany (List.any_eq_true.mpr ⟨c, hc, by simp [hset, hno]⟩)

/-- The currency after the price is taken. -/
def spent (c : HonorCurrency) : HonorCurrency :=
  { c.resetCurrencyWeekIfNeeded v.week with
    spendableHonor := c.spendableHonor - m.honorCost
    conquestPoints := c.conquestPoints - m.conquestCost }

/-- The currency after it is given back. -/
def refunded (c : HonorCurrency) : HonorCurrency :=
  (((v.spent m c).addSpendableHonor v.weeklyHonorCap v.week m.honorCost).1.addConquestPoints
    m.conquestCost).1

theorem payAndStore_eq {id : Nat} {dest : Dest} (h : v.Admits b id m dest) :
    v.payAndStore b m dest =
      (v.storeNewItem dest m.item (b.inventory.pay m.itemCosts)).elim
        (false, ⟨b.inventory.pay m.itemCosts, v.refunded m b.currency⟩)
        fun inventory => (true, ⟨inventory, v.spent m b.currency⟩) := by
  have hhonor : b.currency.spendSpendableHonor v.week m.honorCost =
      ({ b.currency.resetCurrencyWeekIfNeeded v.week with
          spendableHonor := b.currency.spendableHonor - m.honorCost }, true) := by
    unfold HonorCurrency.spendSpendableHonor
    dsimp only
    rw [HonorCurrency.resetCurrencyWeek_spendableHonor, if_neg (UInt32.not_lt.mpr h.honor)]
  have hconquest : HonorCurrency.spendConquestPoints
      { b.currency.resetCurrencyWeekIfNeeded v.week with
          spendableHonor := b.currency.spendableHonor - m.honorCost } m.conquestCost =
      (v.spent m b.currency, true) := by
    unfold HonorCurrency.spendConquestPoints spent
    dsimp only
    rw [HonorCurrency.resetCurrencyWeek_conquestPoints, if_neg (UInt32.not_lt.mpr h.conquest)]
  unfold payAndStore
  rw [hhonor]
  dsimp only
  rw [if_neg (by decide), hconquest]
  dsimp only
  rw [if_neg (by decide)]
  cases v.storeNewItem dest m.item (b.inventory.pay m.itemCosts) with
  | none => rfl
  | some inventory => rfl

/-- `StoreNewItem` adds what there is a place for, and nothing else. -/
def SoundStore : Prop := ∀ inv item count dest, v.canStoreNewItem inv item count = some dest →
  ∀ inv₁ inv₂, v.storeNewItem dest item inv₁ = some inv₂ →
    ∀ e, inv₂.units e = inv₁.units e + if e = item then count else 0

variable {v b m}

/-- The price is taken and the item is there. -/
structure BoughtExactly (m : CustomMerchantItem) (b b' : Buyer) : Prop where
  honor : b'.currency.spendableHonor.toNat + m.honorCost.toNat = b.currency.spendableHonor.toNat
  conquest : b'.currency.conquestPoints.toNat + m.conquestCost.toNat =
    b.currency.conquestPoints.toNat
  items : ∀ e, b'.inventory.units e + Carried.owed m.itemCosts e =
    b.inventory.units e + if e = m.item then m.count else 0

structure Unchanged (b b' : Buyer) : Prop where
  inventory : b'.inventory = b.inventory
  honor : b'.currency.spendableHonor = b.currency.spendableHonor
  conquest : b'.currency.conquestPoints = b.currency.conquestPoints
  weekly : b'.currency.weeklySpendableHonor = b.currency.weeklySpendableHonor

/-- The honor comes back without a trace: the price has none, or the counter of an earlier week was
as high as the price and is so again. -/
def Returns (v : Merchant Dest) (m : CustomMerchantItem) (c : HonorCurrency) : Prop :=
  if c.currencyWeekBeginDay = v.week then m.honorCost = 0
  else c.weeklySpendableHonor = m.honorCost ∧ m.honorCost ≤ v.weeklyHonorCap

theorem spent_toNat {c : HonorCurrency} (hhonor : m.honorCost ≤ c.spendableHonor)
    (hconquest : m.conquestCost ≤ c.conquestPoints) :
    (v.spent m c).spendableHonor.toNat + m.honorCost.toNat = c.spendableHonor.toNat ∧
      (v.spent m c).conquestPoints.toNat + m.conquestCost.toNat = c.conquestPoints.toNat :=
  ⟨toNat_sub (le_iff_toNat_le.mp hhonor), toNat_sub (le_iff_toNat_le.mp hconquest)⟩

/-- Honor that is added in the week of the counter. -/
theorem addSpendableHonor_of_week {cap amount : UInt32} {week : Nat} {c : HonorCurrency}
    (h : c.currencyWeekBeginDay = week) :
    (c.addSpendableHonor cap week amount).1 = { c with
      spendableHonor := c.spendableHonor + (c.addSpendableHonor cap week amount).2
      weeklySpendableHonor :=
        c.weeklySpendableHonor + (c.addSpendableHonor cap week amount).2 } := by
  unfold HonorCurrency.addSpendableHonor HonorCurrency.resetCurrencyWeekIfNeeded
  rw [if_neg (not_not.mpr h)]
  dsimp only
  split
  · simp
  · split
    · simp
    · rfl

/-- What is added to the counter. -/
theorem refunded_eq (c : HonorCurrency) :
    (v.refunded m c).spendableHonor.toNat = (c.spendableHonor - m.honorCost +
        ((v.spent m c).addSpendableHonor v.weeklyHonorCap v.week m.honorCost).2).toNat ∧
      (v.refunded m c).weeklySpendableHonor =
        (c.resetCurrencyWeekIfNeeded v.week).weeklySpendableHonor +
          ((v.spent m c).addSpendableHonor v.weeklyHonorCap v.week m.honorCost).2 ∧
      (v.refunded m c).conquestPoints = c.conquestPoints := by
  have hweek : (v.spent m c).currencyWeekBeginDay = v.week :=
    HonorCurrency.resetCurrencyWeek_day v.week c
  have hadd := @addSpendableHonor_of_week v.weeklyHonorCap m.honorCost v.week _ hweek
  unfold refunded
  rw [hadd]
  unfold HonorCurrency.addConquestPoints
  split
  case isTrue h0 => exact ⟨rfl, rfl, by simp [spent, h0]⟩
  case isFalse => exact ⟨rfl, rfl, sub_add_cancel _ _⟩

theorem refunded_iff {c : HonorCurrency} (hhonor : m.honorCost ≤ c.spendableHonor) :
    ((v.refunded m c).spendableHonor = c.spendableHonor ∧
      (v.refunded m c).weeklySpendableHonor = c.weeklySpendableHonor) ↔ v.Returns m c := by
  obtain ⟨h1, h2, -⟩ := v.refunded_eq (m := m) c
  obtain ⟨hn, -, -, hroom⟩ :=
    (v.spent m c).addSpendableHonor_spec v.weeklyHonorCap v.week m.honorCost
  have hr : (v.spent m c).room v.weeklyHonorCap v.week = v.weeklyHonorCap.toNat -
      (c.resetCurrencyWeekIfNeeded v.week).weeklySpendableHonor.toNat :=
    congrArg (v.weeklyHonorCap.toNat - ·) (if_pos (HonorCurrency.resetCurrencyWeek_day v.week c))
  generalize ((v.spent m c).addSpendableHonor v.weeklyHonorCap v.week m.honorCost).2 = n at *
  have hsub := toNat_sub (le_iff_toNat_le.mp hhonor)
  have hlt := c.spendableHonor.toNat_lt
  have hsum : (c.spendableHonor - m.honorCost + n).toNat =
      (c.spendableHonor - m.honorCost).toNat + n.toNat := toNat_add (by omega)
  have heq : (v.refunded m c).spendableHonor = c.spendableHonor ↔ n = m.honorCost := by
    rw [← UInt32.toNat_inj, ← UInt32.toNat_inj, h1, hsum]
    omega
  rw [heq, h2]
  unfold Returns
  by_cases hw : c.currencyWeekBeginDay = v.week
  · have hsame : c.resetCurrencyWeekIfNeeded v.week = c := if_neg (not_not.mpr hw)
    rw [if_pos hw, hsame]
    constructor
    · rintro ⟨rfl, hweekly⟩
      exact UInt32.add_eq_left.mp hweekly
    · intro h0
      have hn0 : n = 0 := by
        rw [← UInt32.toNat_inj, hn, h0]
        simp
      exact ⟨hn0.trans h0.symm, by rw [hn0, add_zero]⟩
  · have hzero : (c.resetCurrencyWeekIfNeeded v.week).weeklySpendableHonor = 0 := by
      unfold HonorCurrency.resetCurrencyWeekIfNeeded
      rw [if_pos hw]
    rw [if_neg hw, hzero, zero_add]
    rw [hr, hzero, UInt32.toNat_zero, Nat.sub_zero] at hn
    constructor
    · rintro ⟨rfl, hweekly⟩
      exact ⟨hweekly.symm, le_iff_toNat_le.mpr (by omega)⟩
    · rintro ⟨hweekly, hcap⟩
      have hnm : n = m.honorCost := by
        rw [← UInt32.toNat_inj, hn]
        exact min_eq_left (le_iff_toNat_le.mp hcap)
      exact ⟨hnm, hnm.trans hweekly.symm⟩

/-- A purchase is exact, and a refusal changes nothing. -/
def ExactAndAtomic (v : Merchant Dest) (b : Buyer) (id : Nat) : Prop :=
  ((v.buyItem b id).1 = true →
    ∃ m, v.getItem id = some m ∧ BoughtExactly m b (v.buyItem b id).2) ∧
  ((v.buyItem b id).1 = false → Unchanged b (v.buyItem b id).2)

/-- What a purchase that passes its checks needs: with a place for the item each cost must be there
to be destroyed, after those before it; without one there must be nothing to give back. -/
def Covered (v : Merchant Dest) (b : Buyer) (m : CustomMerchantItem) (dest : Dest) : Prop :=
  if (v.storeNewItem dest m.item (b.inventory.pay m.itemCosts)).isSome then
    b.inventory.Payable m.itemCosts
  else
    (∀ c ∈ m.itemCosts, c.isSet = true → b.inventory.destroyable c.item = 0) ∧
      v.Returns m b.currency

/-- `BuyItem` is exact and atomic, if and only if the price of a purchase that passes the checks is
covered. -/
theorem buyItem_exact_iff (hv : v.SoundStore) (b : Buyer) (id : Nat) :
    v.ExactAndAtomic b id ↔ ∀ m dest, v.Admits b id m dest → v.Covered b m dest := by
  by_cases hex : ∃ m dest, v.Admits b id m dest
  · obtain ⟨m, dest, ha⟩ := hex
    have hunique : (∀ m dest, v.Admits b id m dest → v.Covered b m dest) ↔ v.Covered b m dest := by
      refine ⟨fun h => h m dest ha, fun h m' dest' ha' => ?_⟩
      obtain rfl := some.inj (ha.item.symm.trans ha'.item)
      obtain rfl := some.inj (ha.place.symm.trans ha'.place)
      exact h
    rw [hunique]
    unfold ExactAndAtomic Covered
    rw [v.buyItem_of_admits b ha, v.payAndStore_eq b m ha]
    cases hstore : v.storeNewItem dest m.item (b.inventory.pay m.itemCosts) with
    | none =>
      simp only [elim_none, isSome_none, Bool.false_eq_true, if_false, false_imp_iff,
        true_and, true_imp_iff]
      obtain ⟨-, -, hconquest⟩ := v.refunded_eq (m := m) b.currency
      rw [← refunded_iff ha.honor, ← Carried.pay_eq_iff]
      exact ⟨fun h => ⟨h.inventory, h.honor, h.weekly⟩, fun ⟨h1, h2, h3⟩ => ⟨h1, h2, hconquest, h3⟩⟩
    | some inventory =>
      simp only [elim_some, isSome_some, if_true, true_imp_iff, reduceCtorEq,
        false_imp_iff, and_true]
      have hunits := hv _ _ _ _ ha.place _ _ hstore
      obtain ⟨hhonor, hconquest⟩ := v.spent_toNat ha.honor ha.conquest
      rw [← Carried.pay_exact_iff]
      constructor
      · rintro ⟨m', hm', hbought⟩ e
        obtain rfl := some.inj (ha.item.symm.trans hm')
        have hitems := hbought.items e
        have hadded := hunits e
        dsimp only at hitems
        omega
      · intro hpaid
        refine ⟨m, ha.item, hhonor, hconquest, fun e => ?_⟩
        have hexact := hpaid e
        have hadded := hunits e
        dsimp only
        omega
  · have hno := (v.buyItem_cases b id).resolve_left hex
    refine ⟨fun _ m dest ha => absurd ⟨m, dest, ha⟩ hex, fun _ => ?_⟩
    rw [ExactAndAtomic, hno]
    exact ⟨fun h => (nomatch h), fun _ => ⟨rfl, rfl, rfl, rfl⟩⟩

/-! ## A vendor -/

/-- A vendor who sells item 50 for honor and two piles of tokens, to a player with an empty slot. -/
def tokenVendor : Merchant Nat where
  weeklyHonorCap := 20000
  week := 20003
  creatureEntry := 9
  getItem id := if id = 1 then some
    { id := 1, entry := 9, item := 50, honorCost := 100, itemCosts := [⟨7, 3⟩, ⟨7, 4⟩] } else none
  hasItemPrototype _ := true
  isItemVisible _ := true
  canUseItem _ := true
  canStoreNewItem _ _ count := some count
  storeNewItem count item inv :=
    if h : 0 < count then
      some { inv with
        backpack := inv.backpack ++ [{ entry := item, count := count, slot := 38, count_pos := h }] }
    else some inv

/-- A player with so many tokens. -/
def tokens (n : Nat) (h : 0 < n := by decide) : Buyer :=
  ⟨{ backpack := [{ entry := 7, count := n, slot := 23, count_pos := h }] },
    { spendableHonor := 500, currencyWeekBeginDay := 20003 }⟩

theorem soundStore_tokenVendor : tokenVendor.SoundStore := by
  rintro inv item count dest hplace inv₁ inv₂ hstore e
  obtain rfl := some.inj hplace
  simp only [tokenVendor] at hstore
  split at hstore
  case isTrue h =>
    obtain rfl := some.inj hstore
    simp only [Carried.units, unitsOf, List.filter_append, List.map_append, List.sum_append]
    by_cases he : item = e
    · simp [he]
      omega
    · simp [he, Ne.symm he]
  case isFalse h =>
    obtain rfl := some.inj hstore
    simp [Nat.eq_zero_of_not_pos h]

theorem exactAndAtomic_tokens : tokenVendor.ExactAndAtomic (tokens 10) 1 := by
  refine (buyItem_exact_iff soundStore_tokenVendor (tokens 10) 1).mpr fun m dest ha => ?_
  obtain rfl := some.inj ha.item
  obtain rfl := some.inj ha.place
  exact ⟨fun _ => by decide, fun _ => by decide, trivial⟩

/-- Five tokens pass the check for three and the check for four. -/
theorem not_exactAndAtomic_tokens : ¬ tokenVendor.ExactAndAtomic (tokens 5) 1 := by
  intro h
  obtain ⟨m, hm, hbought⟩ := h.1 (by decide)
  obtain rfl := some.inj hm
  have hitems := hbought.items 7
  revert hitems
  decide

end Merchant

end Windrunner
