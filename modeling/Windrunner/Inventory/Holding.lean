import Windrunner.Inventory.Sound

/-!
# Which item objects an inventory holds

* `holding inv g`: how many cells hold the item with guid `g`. Taking an item out and storing one
  moves objects; only a clone brings a guid that was not there, and it is a fresh one.
-/

namespace Windrunner

open Lib

variable {db : ItemDb}

def Item.carries (g : Nat) (it : Item db) : Nat := if it.guid = g then 1 else 0

namespace Inventory

/-- The cells that hold an item with guid `g`. -/
def holding (inv : Inventory db) (g : Nat) : Nat := total (fun _ it => it.carries g) inv.cells

variable {inv : Inventory db} {it : Item db} {p : Pos} {g fresh : Nat}

/-- An item without contents is taken out. -/
theorem holding_remove (hp : inv.getItemByPos p = some it)
    (hne : inv.isNonEmptyBag (.own p) = false) :
    (inv.remove p).holding g + it.carries g = inv.holding g :=
  total_remove (f := fun _ it => it.carries g) (getItemByPos_some hp).2
    fun _ _ hq => outside_of_emptied hp hne hq

theorem holding_place_le (inv : Inventory db) (p : Pos) (it : Item db) (g : Nat) :
    (inv.place p it).holding g ≤ inv.holding g + it.carries g := by
  unfold place
  by_cases hs : inv.HasSlot p
  · rw [dif_pos hs]
    have hi := total_insert (fun _ it => it.carries g) (inv.cells.keep (outside p)) p it
    have hk := total_keep (fun _ it => it.carries g) (outside p) inv.cells
    unfold holding
    dsimp only at hi ⊢
    omega
  · rw [dif_neg hs]
    exact Nat.le_add_right _ _

/-- A clone has the guid that the generator handed out. -/
theorem cloneItem_guid {new : Item db} {count : UInt32} {player : Nat}
    (h : it.cloneItem fresh count player = some new) : new.guid = fresh := by
  unfold Item.cloneItem at h
  obtain ⟨x, hx, rfl⟩ := Option.map_eq_some_iff.mp h
  unfold Item.createItem at hx
  by_cases hc : count < 1
  · rw [if_pos hc] at hx; cases hx
  · rw [if_neg hc] at hx; cases hx; rfl

/-- One destination: the cell keeps the guid of its stack, or gets the item or a clone of it. -/
theorem holding_storeItemAt_le (inv : Inventory db) (p : Pos) (it : Item db) (g fresh : Nat)
    (count : UInt32) (clone : Bool) :
    (inv.storeItemAt p it count clone fresh).inv.holding g ≤
      inv.holding g +
        if (if clone then fresh ≤ g ∧ g < (inv.storeItemAt p it count clone fresh).fresh
          else it.guid = g) then 1 else 0 := by
  unfold storeItemAt
  cases hi : inv.getItemByPos p with
  | some it2 =>
    have hproto : ({ it2.bindAtStore (isBagPos p) with
        count := (it2.bindAtStore (isBagPos p)).count + count } : Item db).proto = it2.proto := rfl
    have h := total_setItem (f := fun _ it => it.carries g) (getItemByPos_some hi).2 hproto
    exact Nat.le_add_right_of_le (Nat.le_of_eq (Nat.add_right_cancel h))
  | none =>
    cases clone with
    | false => exact holding_place_le inv p _ g
    | true =>
      cases hc : it.cloneItem fresh count inv.owner with
      | none => simp
      | some new =>
        have h := holding_place_le inv p ({ new with owner := inv.owner }.bindAtStore (isBagPos p)) g
        have hg : ({ new with owner := inv.owner }.bindAtStore (isBagPos p)).carries g =
            if fresh = g then 1 else 0 := by
          rw [← cloneItem_guid hc]; rfl
        rw [hg] at h
        simp only [if_true]
        split_ifs at h ⊢ <;> omega

theorem fresh_le_storeItemAt (inv : Inventory db) (p : Pos) (it : Item db) (fresh : Nat)
    (count : UInt32) (clone : Bool) :
    fresh ≤ (inv.storeItemAt p it count clone fresh).fresh := by
  unfold storeItemAt
  cases inv.getItemByPos p with
  | some it2 => exact Nat.le_refl _
  | none =>
    dsimp only
    split
    · exact Nat.le_refl _
    · dsimp only; split_ifs <;> omega

theorem fresh_le_storeItem (inv : Inventory db) (it : Item db) (fresh : Nat)
    (dest : List ItemPosCount) :
    fresh ≤ (inv.storeItem dest it fresh).fresh := by
  induction dest generalizing inv fresh with
  | nil => exact Nat.le_refl _
  | cons d ds ih =>
    cases ds with
    | nil => exact fresh_le_storeItemAt inv d.pos it fresh d.count false
    | cons d2 ds => exact Nat.le_trans (fresh_le_storeItemAt inv d.pos it fresh d.count true) (ih _ _)

/-- A whole vector: the item itself is stored at most once, and the clones have fresh guids. -/
theorem holding_storeItem_le (inv : Inventory db) (it : Item db) (g fresh : Nat)
    (dest : List ItemPosCount) :
    (inv.storeItem dest it fresh).inv.holding g ≤
      inv.holding g + it.carries g +
        if fresh ≤ g ∧ g < (inv.storeItem dest it fresh).fresh then 1 else 0 := by
  induction dest generalizing inv fresh with
  | nil => exact Nat.le_add_right_of_le (Nat.le_add_right _ _)
  | cons d ds ih =>
    cases ds with
    | nil =>
      have h := holding_storeItemAt_le inv d.pos it g fresh d.count false
      exact Nat.le_add_right_of_le h
    | cons d2 ds =>
      have h := holding_storeItemAt_le inv d.pos it g fresh d.count true
      have h2 := ih (inv.storeItemAt d.pos it d.count true fresh).inv
        (inv.storeItemAt d.pos it d.count true fresh).fresh
      have hf := fresh_le_storeItemAt inv d.pos it fresh d.count true
      have hf2 := fresh_le_storeItem (inv.storeItemAt d.pos it d.count true fresh).inv it
        (inv.storeItemAt d.pos it d.count true fresh).fresh (d2 :: ds)
      have he : inv.storeItem (d :: d2 :: ds) it fresh =
          (inv.storeItemAt d.pos it d.count true fresh).inv.storeItem (d2 :: ds) it
            (inv.storeItemAt d.pos it d.count true fresh).fresh := rfl
      rw [he]
      -- the fresh guids of the first clone and of the rest do not meet
      simp only [if_true] at h
      unfold Item.carries at h2 ⊢
      split_ifs at h h2 ⊢ <;> omega

end Inventory

end Windrunner
