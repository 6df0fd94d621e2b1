import Windrunner.Inventory.CanStore

/-!
# Storing an item: `StoreNewItem`, `StoreItem`, `_StoreItem`

* `storeItemAt` (`_StoreItem`): one destination. An empty slot takes the item, or a clone of it
  for every destination but the last; an occupied one is assumed to hold the same entry and its
  count grows.
* `Ready inv proto d`: the destination `d` can take what it says. `storeItem_spec` is the effect of
  a whole vector of ready destinations: the listed slots grow by their counts, every other slot is
  untouched, and the entry gains the units that were put at visible positions.
-/

namespace Windrunner

open Lib List

variable {db : ItemDb}

/-- The inventory after storing, the next free item guid, and where the returned item is. -/
structure Stored (db : ItemDb) where
  inv : Inventory db
  fresh : Nat
  last : Option Pos

namespace Inventory

def storeItemAt (inv : Inventory db) (p : Pos) (it : Item db) (count : UInt32) (clone : Bool)
    (fresh : Nat) : Stored db :=
  match inv.getItemByPos p with
  | none =>
    match (if clone then it.cloneItem fresh count inv.owner else some { it with count := count }) with
    | none => ⟨inv, fresh, none⟩
    | some new =>
      ⟨inv.place p ({ new with owner := inv.owner }.bindAtStore (isBagPos p)),
        if clone then fresh + 1 else fresh, some p⟩
  | some it2 =>
    let it2 := it2.bindAtStore (isBagPos p)
    ⟨inv.setItem p { it2 with count := it2.count + count }, fresh, some p⟩

/-- `Player::StoreItem`. -/
def storeItem (inv : Inventory db) (dest : List ItemPosCount) (it : Item db) (fresh : Nat) :
    Stored db :=
  match dest with
  | [] => ⟨inv, fresh, none⟩
  | [d] => inv.storeItemAt d.pos it d.count false fresh
  | d :: ds =>
    let s := inv.storeItemAt d.pos it d.count true fresh
    s.inv.storeItem ds it s.fresh

/-- `Player::StoreNewItem`. -/
def storeNewItem (inv : Inventory db) (dest : List ItemPosCount) (entry : Nat)
    (randomPropertyId : Int) (fresh : Nat) : Stored db :=
  match h : db.get entry with
  | none => ⟨inv, fresh, none⟩
  | some proto =>
    let count := (dest.map (·.count)).foldl (· + ·) 0
    match Item.createItem fresh proto (by rw [db.get_id h, h]) count inv.owner with
    | none => ⟨inv, fresh, none⟩
    | some it =>
      let it := if randomPropertyId ≠ 0 then
          { it with fields := db.setItemRandomProperties randomPropertyId it.fields }
        else it
      inv.storeItem dest it (fresh + 1)

variable {inv : Inventory db} {it : Item db} {d : ItemPosCount} {proto : ItemPrototype}
  {fresh : Nat} {p q : Pos}

/-- The units in the stack at `p`, whatever its entry. -/
def stackAt (inv : Inventory db) (p : Pos) : Nat := (inv.getItemByPos p).elim 0 (·.count.toNat)

/-- The destination `d` can take its count of units of prototype `proto`. -/
structure Ready (inv : Inventory db) (proto : ItemPrototype) (d : ItemPosCount) : Prop where
  pos : 0 < d.count.toNat
  room : inv.stackAt d.pos + d.count.toNat ≤ proto.stackable.toNat
  same : ∀ it2, inv.getItemByPos d.pos = some it2 → it2.proto = proto
  slot : inv.getItemByPos d.pos = none → inv.HasSlot d.pos
  /-- In `m_items` only slots the code looks at are destinations. -/
  top : d.pos.1 = inventorySlotBag0 → visible d.pos = true

/-- The top-level objects of `inv` are still there, with their prototypes. -/
def TopKept (inv inv' : Inventory db) : Prop :=
  ∀ s x, inv.cells.lookup (inventorySlotBag0, s) = some x →
    ∃ y, inv'.cells.lookup (inventorySlotBag0, s) = some y ∧ y.proto = x.proto

theorem TopKept.hasSlot {inv' : Inventory db} (h : inv.TopKept inv') (hs : inv.HasSlot p) :
    inv'.HasSlot p := by
  obtain hp | ⟨bag, hbag, hj⟩ := hs
  · exact .inl hp
  · obtain ⟨y, hy, hyp⟩ := h _ _ hbag
    exact .inr ⟨y, hy, by rw [Item.bagSize, hyp]; exact hj⟩

/-- What one destination does to the storage. -/
structure StoresAt (inv inv' : Inventory db) (proto : ItemPrototype) (d : ItemPosCount) : Prop where
  stack : ∃ x, inv'.cells.lookup d.pos = some x ∧ x.proto = proto ∧
    x.count.toNat = inv.stackAt d.pos + d.count.toNat
  frame : ∀ q, q ≠ d.pos → inv'.cells.lookup q = inv.cells.lookup q
  units : ∀ e, inv'.units e = inv.units e +
    if visible d.pos ∧ proto.itemId = e then d.count.toNat else 0

theorem unitsAt_of_proto {e : Nat} {x : Item db} (h : x.proto = proto) :
    unitsAt e p x = if visible p ∧ proto.itemId = e then x.count.toNat else 0 := by
  simp only [unitsAt, Item.entry, h]

/-- The new object at a position that looks empty. -/
theorem storesAt_place {new : Item db} (hr : inv.Ready it.proto d)
    (hn : inv.getItemByPos d.pos = none) (hp : new.proto = it.proto) (hc : new.count = d.count) :
    inv.StoresAt (inv.place d.pos new) it.proto d := by
  have hs := hr.slot hn
  have hstack : inv.stackAt d.pos = 0 := by simp [stackAt, hn]
  by_cases hv : visible d.pos = true
  · have hl : inv.cells.lookup d.pos = none := by rwa [getItemByPos_visible hv] at hn
    refine ⟨⟨new, ?_, hp, by rw [hstack, hc]; omega⟩, fun q hq => ?_, fun e => ?_⟩
    · rw [lookup_place hs hl, if_pos rfl]
    · rw [lookup_place hs hl, if_neg hq]
    · rw [units, total_place hs hl, unitsAt_of_proto hp, hc]; rfl
  · -- a slot of a bag nobody looks into: whatever it held is overwritten, unseen
    have h1 : d.pos.1 ≠ inventorySlotBag0 := fun h => hv (hr.top h)
    have ho : ∀ q, outside d.pos q = true := fun q => by simp [outside, h1]
    have hcells : (inv.place d.pos new).cells = (inv.cells.keep (outside d.pos)).insert d.pos new := by
      unfold place; rw [dif_pos hs]
    refine ⟨⟨new, ?_, hp, by rw [hstack, hc]; omega⟩, fun q hq => ?_, fun e => ?_⟩
    · rw [hcells, AList.lookup_insert]
    · rw [hcells, AList.lookup_insert_ne hq, lookup_keep, ho, if_pos rfl]
    · have ht := total_insert (unitsAt e) (inv.cells.keep (outside d.pos)) d.pos new
      have hz : ∀ x : Item db, unitsAt e d.pos x = 0 := fun x => by simp [unitsAt, hv]
      have hw : weightAt (unitsAt e) (inv.cells.keep (outside d.pos)) d.pos = 0 := by
        unfold weightAt
        cases AList.lookup d.pos (inv.cells.keep (outside d.pos)) with
        | none => rfl
        | some x => exact hz x
      rw [hw, hz, total_keep_all fun q _ _ => ho q] at ht
      rw [units, hcells, if_neg (by simp [hv])]
      exact ht

/-- The stack at an occupied position grows. -/
theorem storesAt_setItem {it2 new : Item db} (hr : inv.Ready it.proto d)
    (hi : inv.getItemByPos d.pos = some it2) (hp : new.proto = it2.proto)
    (hc : new.count = it2.count + d.count) :
    inv.StoresAt (inv.setItem d.pos new) it.proto d := by
  obtain ⟨hv, hl⟩ := getItemByPos_some hi
  have h2 := hr.same it2 hi
  have hstack : inv.stackAt d.pos = it2.count.toNat := by simp [stackAt, hi]
  have hroom := hr.room
  have hle := it.proto.stackable_le
  have hadd : new.count.toNat = it2.count.toNat + d.count.toNat := by
    rw [hc]; exact toNat_add (by omega)
  refine ⟨⟨new, ?_, by rw [hp, h2], by rw [hstack, hadd]⟩, fun q hq => ?_, fun e => ?_⟩
  · rw [lookup_setItem hl hp, if_pos rfl]
  · rw [lookup_setItem hl hp, if_neg hq]
  · have ht := total_setItem (f := unitsAt e) hl hp
    rw [unitsAt_of_proto (hp.trans h2), unitsAt_of_proto h2] at ht
    unfold units
    split_ifs at ht ⊢ <;> omega

/-- `_StoreItem` at a ready destination, as a clone or as the item itself. -/
theorem storeItemAt_spec (clone : Bool) (fresh : Nat) (hr : inv.Ready it.proto d) :
    inv.StoresAt (inv.storeItemAt d.pos it d.count clone fresh).inv it.proto d := by
  unfold storeItemAt
  cases hi : inv.getItemByPos d.pos with
  | some it2 => exact storesAt_setItem hr hi rfl rfl
  | none =>
    cases clone with
    | false => exact storesAt_place hr hi rfl rfl
    | true =>
      obtain ⟨new, hnew, hp, hc, -⟩ := it.cloneItem_some fresh inv.owner hr.pos
        (by have := hr.room; omega)
      simp only [if_true, hnew]
      exact storesAt_place hr hi hp hc

theorem StoresAt.topKept {inv' : Inventory db} (h : inv.StoresAt inv' proto d)
    (hr : inv.Ready proto d) : inv.TopKept inv' := by
  intro s x hx
  by_cases hs : (inventorySlotBag0, s) = d.pos
  · obtain ⟨y, hy, hyp, -⟩ := h.stack
    refine ⟨y, hs ▸ hy, ?_⟩
    have hv := hr.top (by rw [← hs])
    rw [hyp, hr.same x (by rw [getItemByPos_visible hv, ← hs, hx])]
  · exact ⟨x, by rw [h.frame _ hs]; exact hx, rfl⟩

/-- The other destinations stay ready. -/
theorem StoresAt.ready {inv' : Inventory db} {d' : ItemPosCount} (h : inv.StoresAt inv' proto d)
    (hr : inv.Ready proto d) (hr' : inv.Ready proto d') (hne : d'.pos ≠ d.pos) :
    inv'.Ready proto d' := by
  have hg : inv'.getItemByPos d'.pos = inv.getItemByPos d'.pos := by
    rw [getItemByPos_eq, getItemByPos_eq, h.frame _ hne]
  refine ⟨hr'.pos, ?_, ?_, fun hn => ?_, hr'.top⟩
  · rw [stackAt, hg]; exact hr'.room
  · rw [hg]; exact hr'.same
  · exact (h.topKept hr).hasSlot (hr'.slot (hg ▸ hn))

/-- The units a destination vector puts where the code will see them. -/
def seenUnits (dest : List ItemPosCount) : Nat :=
  (dest.map fun d => if visible d.pos then d.count.toNat else 0).sum

/-- The effect of storing a whole vector. -/
structure Stores (inv inv' : Inventory db) (proto : ItemPrototype) (dest : List ItemPosCount) :
    Prop where
  stack : ∀ d ∈ dest, ∃ x, inv'.cells.lookup d.pos = some x ∧ x.proto = proto ∧
    x.count.toNat = inv.stackAt d.pos + d.count.toNat
  frame : ∀ q, (∀ d ∈ dest, q ≠ d.pos) → inv'.cells.lookup q = inv.cells.lookup q
  units : ∀ e, inv'.units e = inv.units e + if proto.itemId = e then seenUnits dest else 0

theorem Stores.nil : inv.Stores inv proto [] :=
  ⟨by simp, fun _ _ => rfl, by simp [seenUnits]⟩

theorem Stores.cons {inv' inv'' : Inventory db} {ds : List ItemPosCount}
    (h : inv.StoresAt inv' proto d) (hs : inv'.Stores inv'' proto ds)
    (hd : ∀ d' ∈ ds, d'.pos ≠ d.pos) : inv.Stores inv'' proto (d :: ds) := by
  refine ⟨?_, ?_, ?_⟩
  · intro d' hd'
    obtain rfl | hd' := mem_cons.mp hd'
    · obtain ⟨x, hx, hxp, hxc⟩ := h.stack
      exact ⟨x, by rw [hs.frame _ fun d'' hd'' => (hd d'' hd'').symm]; exact hx, hxp, hxc⟩
    · obtain ⟨x, hx, hxp, hxc⟩ := hs.stack d' hd'
      refine ⟨x, hx, hxp, ?_⟩
      rw [hxc, stackAt, stackAt, getItemByPos_eq, getItemByPos_eq, h.frame _ (hd d' hd')]
  · intro q hq
    rw [hs.frame q fun d' hd' => hq d' (mem_cons_of_mem _ hd'),
      h.frame q (hq d (mem_cons_self ..))]
  · intro e
    rw [hs.units, h.units]
    by_cases he : proto.itemId = e
    · by_cases hv : visible d.pos = true
      · simp only [hv, he, and_self, if_true, seenUnits, map_cons, sum_cons]; omega
      · simp [hv, he, seenUnits]
    · simp [he]

/-- `StoreItem` into distinct ready destinations does what the vector says. -/
theorem storeItem_spec {dest : List ItemPosCount} (hnd : (dest.map (·.pos)).Nodup)
    (hr : ∀ d ∈ dest, inv.Ready it.proto d) :
    inv.Stores (inv.storeItem dest it fresh).inv it.proto dest := by
  induction dest generalizing inv fresh with
  | nil => exact .nil
  | cons d ds ih =>
    obtain ⟨hd, hds⟩ := nodup_cons.mp (map_cons ▸ hnd)
    have hne : ∀ d' ∈ ds, d'.pos ≠ d.pos := fun d' hd' h =>
      hd (mem_map.mpr ⟨d', hd', h⟩)
    have hrd := hr d (mem_cons_self ..)
    cases ds with
    | nil => exact .cons (storeItemAt_spec false fresh hrd) .nil hne
    | cons d2 ds =>
      have h := storeItemAt_spec true fresh hrd
      refine .cons h (ih hds fun d' hd' => ?_) hne
      exact h.ready hrd (hr d' (mem_cons_of_mem _ hd')) (hne d' hd')

theorem toNat_foldl_add (l : List UInt32) (a : UInt32) :
    (l.foldl (· + ·) a).toNat = (a.toNat + (l.map UInt32.toNat).sum) % 4294967296 := by
  induction l generalizing a with
  | nil => simp only [foldl_nil, map_nil, sum_nil]; have := toNat_lt32 a; omega
  | cons b l ih =>
    rw [foldl_cons, ih, UInt32.toNat_add, map_cons, sum_cons]
    omega

/-- The last destination holds the item that is returned. -/
theorem storeItem_last {dest : List ItemPosCount} (hnd : (dest.map (·.pos)).Nodup)
    (hr : ∀ d ∈ dest, inv.Ready it.proto d) (hne : dest ≠ []) :
    ∃ d ∈ dest, (inv.storeItem dest it fresh).last = some d.pos := by
  induction dest generalizing inv fresh with
  | nil => exact absurd rfl hne
  | cons d ds ih =>
    obtain ⟨hd, hds⟩ := nodup_cons.mp (map_cons ▸ hnd)
    have hrd := hr d (mem_cons_self ..)
    cases ds with
    | nil =>
      refine ⟨d, mem_cons_self .., ?_⟩
      unfold storeItem storeItemAt
      cases inv.getItemByPos d.pos <;> rfl
    | cons d2 ds =>
      have h := storeItemAt_spec true fresh hrd
      have hds' : ∀ d' ∈ d2 :: ds,
          (inv.storeItemAt d.pos it d.count true fresh).inv.Ready it.proto d' := fun d' hd' =>
        h.ready hrd (hr d' (mem_cons_of_mem _ hd')) fun e =>
          hd (mem_map.mpr ⟨d', hd', e⟩)
      obtain ⟨d', hd', hl⟩ := ih hds hds' (cons_ne_nil _ _)
      exact ⟨d', mem_cons_of_mem _ hd', hl⟩

/-- `StoreNewItem` is `StoreItem` of a new object. -/
theorem storeNewItem_eq (inv : Inventory db) (rnd : Int) (fresh : Nat) {dest : List ItemPosCount}
    {entry : Nat} (hget : db.get entry = some proto) (hpos : 0 < (dest.map (·.count.toNat)).sum)
    (hlt : (dest.map (·.count.toNat)).sum < 4294967296) :
    ∃ it : Item db, it.proto = proto ∧
      inv.storeNewItem dest entry rnd fresh = inv.storeItem dest it (fresh + 1) := by
  have hcount : ¬ (dest.map (·.count)).foldl (· + ·) 0 < 1 := by
    rw [UInt32.lt_iff_toNat_lt, toNat_foldl_add, map_map, UInt32.toNat_one]
    simp only [Function.comp_def, UInt32.toNat_zero]
    omega
  unfold storeNewItem
  split
  · rename_i h; rw [hget] at h; cases h
  · rename_i proto' h
    obtain rfl : proto = proto' := Option.some.inj (hget.symm.trans h)
    simp only [Item.createItem, if_neg hcount]
    split
    · exact ⟨_, rfl, rfl⟩
    · exact ⟨_, rfl, rfl⟩

/-- `StoreNewItem` of an item that exists, into destinations that make up a nonzero count. -/
theorem storeNewItem_spec {dest : List ItemPosCount} {entry : Nat} {rnd : Int}
    (hget : db.get entry = some proto) (hnd : (dest.map (·.pos)).Nodup)
    (hr : ∀ d ∈ dest, inv.Ready proto d) (hpos : 0 < (dest.map (·.count.toNat)).sum)
    (hlt : (dest.map (·.count.toNat)).sum < 4294967296) :
    inv.Stores (inv.storeNewItem dest entry rnd fresh).inv proto dest := by
  obtain ⟨it, rfl, heq⟩ := storeNewItem_eq inv rnd fresh hget hpos hlt
  rw [heq]
  exact storeItem_spec hnd hr

end Inventory

end Windrunner
