import Mathlib.Algebra.Order.BigOperators.Group.List
import Mathlib.Algebra.Order.Group.Nat
import Windrunner.Inventory.Placement

/-!
# Soundness of accepted placements

`Placed` says what `EQUIP_ERR_OK` is supposed to mean: distinct destinations that fit and make up
the request exactly, so that storing into them adds exactly the requested units, touches no other
slot and fills no stack above its limit.

`canStoreItem_placed_iff`: an accepted placement has all of this if and only if the requested bag
is not a container lying in some other slot of `m_items` (`NestedBag`): the backpack, the bank,
the keyring or an equipment slot. The check takes the contents of such a bag for a valid
destination, `GetItemByPos` never looks into it, and `IsValidPos` (which other handlers call first)
would have refused it.
-/

namespace Windrunner

open Lib List
open Option hiding all_eq_true map_map

variable {db : ItemDb}

namespace Source

/-- The source is an item of the entry: in its slot, or in no slot. -/
def IsFor (src : Source db) (inv : Inventory db) (entry : Nat) : Prop :=
  match src with
  | none => True
  | own p => ∃ it, inv.getItemByPos p = some it ∧ it.entry = entry
  | loose it => it.entry = entry

end Source

namespace Inventory

variable {inv : Inventory db} {src : Source db} {proto : ItemPrototype} {bag slot entry fresh : Nat}
  {count : UInt32} {rnd : Int} {p : Pos}

/-- The inventory an item is stored into: without the item itself. -/
def take (inv : Inventory db) (src : Source db) : Inventory db :=
  match src with
  | .own p => inv.remove p
  | _ => inv

/-- Storing what `_CanStoreItem` was asked about: a new item (`StoreNewItem`), or the source after
it has been taken out of its slot (`StoreItem`). -/
def storeSource (inv : Inventory db) (src : Source db) (dest : List ItemPosCount) (entry : Nat)
    (randomPropertyId : Int) (fresh : Nat) : Inventory db :=
  match src with
  | .none => (inv.storeNewItem dest entry randomPropertyId fresh).inv
  | .own p =>
    match inv.getItemByPos p with
    | some it => ((inv.take src).storeItem dest it fresh).inv
    | none => inv
  | .loose it => (inv.storeItem dest it fresh).inv

/-- Every stack the code sees has at least one unit and at most its maximum. -/
def Bounded (inv : Inventory db) : Prop :=
  ∀ p it, inv.getItemByPos p = some it →
    1 ≤ it.count.toNat ∧ it.count.toNat ≤ it.proto.stackable.toNat

/-- What an accepted placement of `count` units is supposed to be. -/
structure Placed (inv : Inventory db) (src : Source db) (proto : ItemPrototype) (count : Nat)
    (dest : List ItemPosCount) (after : Inventory db) : Prop where
  distinct : (dest.map (·.pos)).Nodup
  exact : (dest.map (·.count.toNat)).sum = count
  fits : ∀ d ∈ dest, inv.Fits src proto d
  units : ∀ e, after.units e = (inv.take src).units e + if proto.itemId = e then count else 0
  frame : ∀ q, (∀ d ∈ dest, q ≠ d.pos) → after.getItemByPos q = (inv.take src).getItemByPos q
  bounded : after.Bounded

/-- The requested bag is a container that is neither equipped nor a bank bag. -/
def NestedBag (inv : Inventory db) (bag : Nat) : Prop :=
  bag ≠ nullBag ∧ bag ≠ inventorySlotBag0 ∧ isBagSlot bag = false ∧
    ∃ pBag ∈ inv.topItem bag, 0 < pBag.proto.containerSlots

instance : Decidable (inv.NestedBag bag) :=
  inferInstanceAs (Decidable (_ ∧ _ ∧ _ ∧ _))

/-! ## Taking the source out -/

/-- A bag without contents. -/
theorem outside_of_emptied {it : Item db} (hp : inv.getItemByPos p = some it)
    (hne : inv.isNonEmptyBag (.own p) = false) {q : Pos} {x : Item db}
    (hq : inv.cells.lookup q = some x) : outside p q = true := by
  obtain ⟨b, s⟩ := p
  obtain ⟨c, j⟩ := q
  by_contra ho
  simp only [outside, Bool.not_eq_true', Bool.and_eq_true, beq_iff_eq, bne_iff_ne,
    Bool.not_eq_false] at ho
  obtain ⟨⟨hb, hc⟩, hne'⟩ := ho
  subst hb hc
  obtain ⟨bag, hbag, hj⟩ := inv.contained hq hne'
  obtain rfl : bag = it := some.inj (hbag.symm.trans (getItemByPos_some hp).2)
  have hslots : 0 < bag.proto.containerSlots := Nat.lt_of_le_of_lt (Nat.zero_le _) hj
  have hisBag : bag.isBag = true := by simp [Item.isBag, bag.proto.containerSlots_bag hslots]
  simp only [isNonEmptyBag, hp, hisBag, Bool.true_and, beq_self_eq_true, Bool.not_eq_false',
    bagIsEmpty, all_eq_true, mem_range] at hne
  have := hne j hj
  rw [hq] at this
  cases this

/-- Without the source, the code sees what the check saw. -/
theorem getItemByPos_take (hsrc : src.IsFor inv entry) (hne : inv.isNonEmptyBag src = false)
    (q : Pos) : (inv.take src).getItemByPos q = inv.itemBut src q := by
  cases src with
  | none => rfl
  | loose it => rfl
  | own p =>
    obtain ⟨it, hp, -⟩ := hsrc
    rw [getItemByPos_eq, take, lookup_remove, itemBut, getItemByPos_eq, Source.isAt]
    by_cases hq : q = p
    · subst hq; simp
    · simp only [hq, beq_iff_eq, if_false, false_or]
      cases hl : inv.cells.lookup q with
      | none => simp
      | some x => simp [outside_of_emptied hp hne hl]

/-- A destination that fits is ready once the source is out. -/
theorem Fits.ready {d : ItemPosCount} (hd : inv.Fits src proto d)
    (hget : db.get proto.itemId = some proto) (hsrc : src.IsFor inv entry)
    (hne : inv.isNonEmptyBag src = false) : (inv.take src).Ready proto d := by
  have hg := getItemByPos_take hsrc hne
  cases hi : inv.itemBut src d.pos with
  | none =>
    obtain ⟨ha, hle⟩ := hd.empty hi
    unfold Allowed at ha
    refine ⟨hd.pos, by simpa [stackAt, hg, hi] using hle, by simp [hg, hi], fun _ => ?_, ?_⟩
    · by_cases h255 : d.pos.1 = inventorySlotBag0
      · exact .inl h255
      · rw [if_neg h255] at ha
        obtain ⟨pBag, hbag, hj, -⟩ := ha
        rw [← hg] at hbag
        exact .inr ⟨pBag, (getItemByPos_some hbag).2, hj⟩
    · intro h255
      rw [if_pos h255] at ha
      simp [visible, h255, ha.1]
  | some it =>
    obtain ⟨he, hle⟩ := hd.stack it hi
    refine ⟨hd.pos, by simpa [stackAt, hg, hi] using hle, ?_, by simp [hg, hi], fun _ => ?_⟩
    · intro it2 h2
      rw [hg, hi] at h2
      cases h2
      exact Item.proto_of_get hget he
    · exact (itemBut_some hi).1

/-! ## What storing does -/

theorem kept_start (count : UInt32) : inv.Kept src proto bag count.toNat ⟨[], count⟩ :=
  ⟨nodup_nil, by simp, by simp, by simp, by simp⟩

/-- The fill an accepted request ends with. -/
theorem canStoreItem_kept (hc : count ≠ 0)
    (h : (inv.canStoreItem bag slot [] entry count src false).res = .ok) :
    ∃ proto f, db.get entry = some proto ∧ inv.Kept src proto bag count.toNat f ∧ f.count = 0 ∧
      (inv.canStoreItem bag slot [] entry count src false).dest = f.dest := by
  obtain ⟨proto, n, c, hget, hc0, hcn, heq⟩ := canStoreItem_ok hc h
  rw [heq] at h ⊢
  obtain ⟨hn, f, hK, hz, hd⟩ := (keeps_searches kept_closed).triple.runSearches (kept_start c) hc0 h
  exact ⟨proto, f, hget, hcn hn ▸ hK, hz, hd⟩

variable {f : Fill}

/-- Nothing is left: the destinations make up the request. -/
theorem Kept.sum_eq {N : Nat} (hK : inv.Kept src proto bag N f) (hz : f.count = 0) :
    (f.dest.map (·.count.toNat)).sum = N := by
  have := hK.exact
  rw [hz, UInt32.toNat_zero] at this
  omega

theorem Kept.not_nonEmptyBag (hK : inv.Kept src proto bag count.toNat f) (hz : f.count = 0)
    (hc : count ≠ 0) : inv.isNonEmptyBag src = false := by
  refine hK.emptied fun hd => ?_
  have := hK.sum_eq hz
  rw [hd] at this
  have := ne_zero_toNat.mp hc
  simp_all

/-- Storing into the destinations of an accepted request does what they say. -/
theorem Kept.stores (hK : inv.Kept src proto bag count.toNat f) (rnd : Int) (fresh : Nat)
    (hz : f.count = 0) (hc : count ≠ 0) (hget : db.get entry = some proto)
    (hsrc : src.IsFor inv entry) :
    (inv.take src).Stores (inv.storeSource src f.dest entry rnd fresh) proto f.dest := by
  have hne := hK.not_nonEmptyBag hz hc
  have hget' : db.get proto.itemId = some proto := by rw [db.get_id hget, hget]
  have hready : ∀ d ∈ f.dest, (inv.take src).Ready proto d := fun d hd =>
    (hK.fits d hd).ready hget' hsrc hne
  cases src with
  | none =>
    have hsum := hK.sum_eq hz
    have hpos := ne_zero_toNat.mp hc
    exact storeNewItem_spec hget hK.distinct hready (by omega) (by rw [hsum]; exact toNat_lt32 count)
  | loose it =>
    have hp : it.proto = proto := Item.proto_of_get hget' (hsrc.trans (db.get_id hget).symm)
    subst hp
    exact storeItem_spec hK.distinct hready
  | own p =>
    obtain ⟨it, hit, he⟩ := hsrc
    have hp : it.proto = proto := Item.proto_of_get hget' (he.trans (db.get_id hget).symm)
    subst hp
    simp only [storeSource, hit]
    exact storeItem_spec hK.distinct hready

theorem seenUnits_of_visible {dest : List ItemPosCount} (h : ∀ d ∈ dest, visible d.pos = true) :
    seenUnits dest = (dest.map (·.count.toNat)).sum := by
  unfold seenUnits
  exact congrArg sum (map_congr_left fun d hd => if_pos (h d hd))

/-- A destination the code does not look at again loses its units. -/
theorem seenUnits_lt {dest : List ItemPosCount} {d : ItemPosCount} (hd : d ∈ dest)
    (hv : visible d.pos = false) (hpos : 0 < d.count.toNat) :
    seenUnits dest < (dest.map (·.count.toNat)).sum := by
  unfold seenUnits
  refine sum_lt_sum _ _ (fun x _ => ?_) ⟨d, hd, by simpa [hv] using hpos⟩
  split_ifs <;> omega

/-- Destinations are visible unless the requested bag is a nested one. -/
theorem Kept.visible {N : Nat} {d : ItemPosCount} (hK : inv.Kept src proto bag N f)
    (hn : ¬ inv.NestedBag bag) (hd : d ∈ f.dest) : visible d.pos = true := by
  obtain hv | ⟨hb, h0⟩ := hK.seen d hd
  · exact hv
  cases hi : inv.itemBut src d.pos with
  | some it => exact (itemBut_some hi).1
  | none =>
    obtain ⟨ha, -⟩ := (hK.fits d hd).empty hi
    unfold Allowed at ha
    by_cases h255 : d.pos.1 = inventorySlotBag0
    · rw [if_pos h255] at ha
      simp [Windrunner.visible, h255, ha.1]
    · rw [if_neg h255] at ha
      obtain ⟨pBag, hbag, hj, -⟩ := ha
      rw [Windrunner.visible, if_neg h255]
      by_contra hs
      refine hn ⟨h0, hb ▸ h255, hb ▸ by simpa using hs, pBag, ?_, Nat.lt_of_le_of_lt (Nat.zero_le _) hj⟩
      have hg := (itemBut_some hbag).2
      rw [itemBut, hg, hb] at hbag
      simpa [getItemByPos] using hbag

/-- Storing into ready destinations fills no stack above its limit. -/
theorem Stores.bounded {inv' : Inventory db} {dest : List ItemPosCount}
    (hs : inv.Stores inv' proto dest) (hb : inv.Bounded) (hr : ∀ d ∈ dest, inv.Ready proto d) :
    inv'.Bounded := by
  intro q x hx
  by_cases hq : ∀ d ∈ dest, q ≠ d.pos
  · rw [getItemByPos_eq, hs.frame q hq, ← getItemByPos_eq] at hx
    exact hb q x hx
  · push Not at hq
    obtain ⟨d, hd, rfl⟩ := hq
    obtain ⟨y, hy, hyp, hyc⟩ := hs.stack d hd
    obtain rfl : x = y := some.inj ((getItemByPos_some hx).2.symm.trans hy)
    have := (hr d hd).room
    have := (hr d hd).pos
    rw [hyp, hyc]
    omega

section

variable (hb : inv.Bounded)
include hb

theorem Bounded.remove (p : Pos) : (inv.remove p).Bounded := by
  intro q x hx
  obtain ⟨hv, hl⟩ := getItemByPos_some hx
  rw [lookup_remove] at hl
  split_ifs at hl
  exact hb q x (by rw [getItemByPos_visible hv]; exact hl)

theorem Bounded.take (src : Source db) : (inv.take src).Bounded := by
  cases src with
  | own p => exact hb.remove p
  | none => exact hb
  | loose it => exact hb

/-- A changed stack is within its bounds if and only if its new count is. -/
theorem bounded_setItem_iff {it it' : Item db}
    (hp : inv.getItemByPos p = some it) (h : it'.proto = it.proto) :
    (inv.setItem p it').Bounded ↔
      1 ≤ it'.count.toNat ∧ it'.count.toNat ≤ it.proto.stackable.toNat := by
  obtain ⟨hv, hl⟩ := getItemByPos_some hp
  constructor
  · intro hb'
    rw [← h]
    refine hb' p it' ?_
    rw [getItemByPos_visible hv, lookup_setItem hl h, if_pos rfl]
  · intro hc q x hx
    obtain ⟨hv', hx'⟩ := getItemByPos_some hx
    rw [lookup_setItem hl h] at hx'
    split_ifs at hx' with hq
    · rw [← some.inj hx', h]; exact hc
    · exact hb q x (by rw [getItemByPos_visible hv']; exact hx')

/-- A change of an object that keeps its count. -/
theorem Bounded.setItem_same {it it' : Item db}
    (hp : inv.cells.lookup p = some it) (h : it'.proto = it.proto) (hc : it'.count = it.count) :
    (inv.setItem p it').Bounded := by
  intro q x hx
  obtain ⟨hv, hx'⟩ := getItemByPos_some hx
  rw [lookup_setItem hp h] at hx'
  split_ifs at hx' with hq
  · subst hq
    rw [← some.inj hx', h, hc]
    exact hb q it (by rw [getItemByPos_visible hv]; exact hp)
  · exact hb q x (by rw [getItemByPos_visible hv]; exact hx')

theorem Kept.placed (hK : inv.Kept src proto bag count.toNat f)
    (hz : f.count = 0) (hc : count ≠ 0) (hget : db.get entry = some proto)
    (hsrc : src.IsFor inv entry) (hv : ∀ d ∈ f.dest, Windrunner.visible d.pos = true) :
    inv.Placed src proto count.toNat f.dest (inv.storeSource src f.dest entry rnd fresh) := by
  have hs := hK.stores rnd fresh hz hc hget hsrc
  have hready : ∀ d ∈ f.dest, (inv.take src).Ready proto d := fun d hd =>
    (hK.fits d hd).ready (by rw [db.get_id hget, hget]) hsrc (hK.not_nonEmptyBag hz hc)
  refine ⟨hK.distinct, hK.sum_eq hz, hK.fits, fun e => ?_, fun q hq => ?_,
    hs.bounded (hb.take src) hready⟩
  · rw [hs.units, seenUnits_of_visible hv, hK.sum_eq hz]
  · rw [getItemByPos_eq, getItemByPos_eq, hs.frame q hq]

end

/-! ## A nested bag takes units -/

/-- Nothing is placed yet. -/
def Untouched (f : Fill) : Prop := f.dest = [] ∧ f.count ≠ 0

/-- Some destination lies in the bag. -/
def Touched (bag : Nat) (f : Fill) : Prop := ∃ d ∈ f.dest, d.pos.1 = bag

theorem touched_closed : inv.Closed src proto bag (Touched bag) := by
  rintro f f' p ⟨d, hd, hb⟩ hr
  have hp := hr.push
  unfold Fill.push at hp
  split_ifs at hp
  cases hp
  exact ⟨d, mem_append_left _ hd, hb⟩

theorem touched_push {need : UInt32} {f' : Fill} (hf : f.dest = [])
    (hp : (f.push (bag, slot) need).getD f = f') : Touched bag f' := by
  unfold Fill.push at hp
  rw [hf] at hp
  simp only [any_nil, Bool.false_eq_true, if_false, nil_append, getD_some] at hp
  subst hp
  exact ⟨_, mem_singleton_self _, rfl⟩

theorem finds_specificSlot_touched (hbag : bag ≠ nullBag)
    (hlast : (bag == inventorySlotBag0 && decide (lastItemSlot < slot)) = false) :
    Finds Untouched
      (inv.canStoreItemInSpecificSlot proto src (bag, slot) false) (Touched bag) := by
  refine ⟨fun f f' hf h0 hs => ?_, (finds_specificSlot touched_closed hbag hlast).failed⟩
  unfold canStoreItemInSpecificSlot at hs
  simp only [Bool.false_eq_true, if_false] at hs
  split at hs
  · cases hs
  split at hs
  · split at hs
    · cases hs; exact touched_push hf.1 rfl
    · cases hs
  · split at hs
    · cases hs; exact touched_push hf.1 rfl
    · cases hs

section

variable (hn : inv.NestedBag bag)
include hn

theorem itemBut_nested (j : Nat) : inv.itemBut src (bag, j) = none := by
  obtain ⟨-, h255, hs, -⟩ := hn
  unfold itemBut
  split_ifs
  · rfl
  · simp [getItemByPos_eq, visible, h255, hs]

/-- A search for stacks finds none in a nested bag. -/
theorem searchSlots_nested_merge (js : List Nat) :
    inv.searchSlots proto src true (js.map (bag, ·)) f = f := by
  induction js with
  | nil => rfl
  | cons j js ih =>
    rw [map_cons, searchSlots, trySlot, itemBut_nested hn]
    exact ih

/-- A search for free slots takes the first slot of a nested bag. -/
theorem searchSlots_nested_free (hf : f.dest = [])
    (hne : inv.isNonEmptyBag src = false) {j : Nat} {js : List Nat}
    (hs : inv.Slots src proto bag false ((j :: js).map (bag, ·))) :
    Touched bag (inv.searchSlots proto src false ((j :: js).map (bag, ·)) f) := by
  have hpush : inv.trySlot proto src false f (bag, j) =
      some ⟨[.make (bag, j) (needSpace proto 0 f.count)],
        f.count - needSpace proto 0 f.count⟩ := by
    rw [trySlot, itemBut_nested hn]
    simp [Fill.push, hf]
  have ht : Touched bag ⟨[.make (bag, j) (needSpace proto 0 f.count)],
      f.count - needSpace proto 0 f.count⟩ := ⟨_, mem_singleton_self _, rfl⟩
  rw [map_cons, searchSlots, hpush]
  simp only
  split_ifs with hz
  · exact ht
  · exact touched_closed.searchSlots ht hz hne fun q hq => hs q (mem_cons_of_mem _ hq)

theorem finds_nested_merge {nonSpecialized : Bool} {skipBag : Nat} :
    Finds Untouched (inv.canStoreItemInBag proto src bag true nonSpecialized skipBag slot)
      Untouched := by
  refine ⟨fun f f' hf h0 hs => ?_, fun f res => canStoreItemInBag_error⟩
  obtain ⟨pBag, -, -, -, -, -, rfl⟩ := canStoreItemInBag_ok hs
  rw [bagSearchSlots, searchSlots_nested_merge hn]
  exact hf

theorem finds_nested_free {nonSpecialized : Bool} {skipBag : Nat} :
    Finds Untouched (inv.canStoreItemInBag proto src bag false nonSpecialized skipBag nullSlot)
      (Touched bag) := by
  refine ⟨fun f f' hf h0 hs => ?_, fun f res => canStoreItemInBag_error⟩
  obtain ⟨pBag, ht, hat, hne, -, hgo, rfl⟩ := canStoreItemInBag_ok hs
  have hslots : inv.Slots src proto bag false (bagSearchSlots pBag bag nullSlot) :=
    slots_bag ht hat hgo (.inr ⟨rfl, hn.1⟩)
  obtain ⟨pBag', ht', hpos⟩ := hn.2.2.2
  obtain rfl : pBag = pBag' := some.inj (ht.symm.trans ht')
  obtain ⟨k, hk⟩ := Nat.exists_eq_succ_of_ne_zero (Nat.pos_iff_ne_zero.mp hpos)
  have hlist : (range pBag.bagSize).filter (· != nullSlot) =
      0 :: ((range k).map Nat.succ).filter (· != nullSlot) := by
    rw [Item.bagSize, hk, range_succ_eq_map]
    rfl
  rw [bagSearchSlots, hlist] at hslots ⊢
  exact searchSlots_nested_free hn hf.1 hne hslots

/-- Whatever is placed with a nested bag requested, part of it goes into that bag. -/
theorem triple_nested {n : UInt32} :
    Triple n Untouched (inv.searches proto src bag slot false n) (Touched bag) := by
  have hrest : Triple n (Touched bag) (inv.mergeSearches proto src bag slot n ++
      (inv.specialBagSearches proto src bag slot n ++ inv.freeSlotSearches proto src bag slot n))
      (Touched bag) :=
    .seq (keeps_merge touched_closed).triple (.seq (keeps_specialBag touched_closed).triple
      (keeps_freeSlot touched_closed).triple)
  have h255 := hn.2.1
  unfold searches
  simp only [append_assoc]
  by_cases hslot : slot = nullSlot
  · subst hslot
    have hnone : inv.specificSlotSearches proto src bag nullSlot false n = [] := by
      simp [specificSlotSearches]
    rw [hnone, nil_append]
    refine Triple.append ?_ hrest fun _ h _ => h
    unfold specificBagSearches
    simp only [hn.1, h255, ne_eq, not_false_eq_true, if_true, if_false]
    refine Triple.append (Q := Untouched) ?_
      (.mandatory (.orElse (finds_nested_free hn) (finds_nested_free hn))) fun _ h h0 => absurd h0 h.2
    split_ifs
    · exact .mandatory (.orElse (finds_nested_merge hn) (finds_nested_merge hn))
    · exact .nil
  · refine Triple.append ?_ (.seq (keeps_specificBag touched_closed).triple hrest) fun _ h _ => h
    unfold specificSlotSearches
    rw [if_pos ⟨hn.1, hslot⟩]
    exact .refuseIf_cons (by decide) fun hlast => .mandatory (finds_specificSlot_touched hn.1 hlast)

end

/-- Everything that is placed will be seen again if and only if the requested bag is not a
container lying in a slot whose contents the code does not look at. -/
theorem canStoreItem_seen_iff (hc : count ≠ 0)
    (h : (inv.canStoreItem bag slot [] entry count src false).res = .ok) :
    seenUnits (inv.canStoreItem bag slot [] entry count src false).dest = count.toNat ↔
      ¬ inv.NestedBag bag := by
  obtain ⟨proto, f, hget, hK, hz, hd⟩ := canStoreItem_kept hc h
  have hsum := hK.sum_eq hz
  constructor
  · intro hs hn
    obtain ⟨d, hdm, hdb⟩ : Touched bag f := by
      obtain ⟨proto', n, c, hget', hc0, hcn, heq⟩ := canStoreItem_ok hc h
      obtain rfl : proto = proto' := some.inj (hget.symm.trans hget')
      rw [heq] at h hd
      obtain ⟨-, f', ht, -, hd'⟩ := (triple_nested hn).runSearches ⟨rfl, hc0⟩ hc0 h
      rw [Touched, ← hd, hd']
      exact ht
    -- the units that went into the nested bag are not seen again
    have hv : visible d.pos = false := by simp [visible, hdb, hn.2.1, hn.2.2.1]
    have hlt := seenUnits_lt hdm hv (hK.fits d hdm).pos
    rw [hd] at hs
    omega
  · intro hn
    rw [hd, seenUnits_of_visible fun d hdm => hK.visible hn hdm, hsum]

/-- Storing an accepted request for a new item: the effect, and where the returned item is. -/
theorem storeNewItem_accepted (hc : count ≠ 0) (rnd : Int) (fresh : Nat)
    (h : (inv.canStoreItem bag slot [] entry count .none false).res = .ok) :
    ∃ proto, db.get entry = some proto ∧
      inv.Stores (inv.storeNewItem (inv.canStoreItem bag slot [] entry count .none false).dest entry
        rnd fresh).inv proto (inv.canStoreItem bag slot [] entry count .none false).dest ∧
      (∀ d ∈ (inv.canStoreItem bag slot [] entry count .none false).dest, inv.Ready proto d) ∧
      ∃ d ∈ (inv.canStoreItem bag slot [] entry count .none false).dest,
        (inv.storeNewItem (inv.canStoreItem bag slot [] entry count .none false).dest entry rnd
          fresh).last = some d.pos := by
  obtain ⟨proto, f, hget, hK, hz, hd⟩ := canStoreItem_kept hc h
  have hsum := hK.sum_eq hz
  have hpos := ne_zero_toNat.mp hc
  have hlt := toNat_lt32 count
  have hget' : db.get proto.itemId = some proto := by rw [db.get_id hget, hget]
  have hsrc : (Source.none : Source db).IsFor inv entry := trivial
  have hready : ∀ d ∈ f.dest, inv.Ready proto d := fun d hdm =>
    (hK.fits d hdm).ready hget' hsrc (hK.not_nonEmptyBag hz hc)
  rw [hd]
  refine ⟨proto, hget, hK.stores rnd fresh hz hc hget hsrc, hready, ?_⟩
  have hne : 0 < (f.dest.map (·.count.toNat)).sum := by omega
  obtain ⟨it, rfl, heq⟩ := storeNewItem_eq inv rnd fresh hget hne (by omega)
  rw [heq]
  refine storeItem_last hK.distinct hready fun hn => ?_
  rw [hn] at hsum
  simp only [map_nil, sum_nil] at hsum
  omega

/-- A new item of no units is not created. -/
theorem storeNewItem_nothing {dest : List ItemPosCount} (rnd : Int) (fresh : Nat)
    (h : ∀ d ∈ dest, d.count = 0) : inv.storeNewItem dest entry rnd fresh = ⟨inv, fresh, none⟩ := by
  have hsum : (dest.map (·.count)).foldl (· + ·) 0 = (0 : UInt32) := by
    rw [eq_toNat, toNat_foldl_add, map_map, UInt32.toNat_zero]
    have : (dest.map (UInt32.toNat ∘ (·.count))).sum = 0 := sum_eq_zero fun n hn => by
      obtain ⟨d, hd, rfl⟩ := mem_map.mp hn
      simp [h d hd]
    simp [this]
  unfold storeNewItem
  split
  · rfl
  · simp only [hsum, Item.createItem]
    rfl

/-- An accepted placement is what it is supposed to be if and only if the requested bag is not a
container lying in a slot whose contents the code does not look at. -/
theorem canStoreItem_placed_iff (hb : inv.Bounded) (hc : count ≠ 0) (hsrc : src.IsFor inv entry)
    (h : (inv.canStoreItem bag slot [] entry count src false).res = .ok) :
    (∃ proto, db.get entry = some proto ∧
      inv.Placed src proto count.toNat (inv.canStoreItem bag slot [] entry count src false).dest
        (inv.storeSource src (inv.canStoreItem bag slot [] entry count src false).dest entry rnd
          fresh)) ↔ ¬ inv.NestedBag bag := by
  obtain ⟨proto, f, hget, hK, hz, hd⟩ := canStoreItem_kept hc h
  constructor
  · rintro ⟨proto', hget', hp⟩
    obtain rfl : proto = proto' := some.inj (hget.symm.trans hget')
    rw [← canStoreItem_seen_iff hc h]
    have hu := hp.units proto.itemId
    rw [hd, (hK.stores rnd fresh hz hc hget hsrc).units proto.itemId, if_pos rfl, if_pos rfl] at hu
    rw [hd]
    omega
  · intro hn
    refine ⟨proto, hget, ?_⟩
    rw [hd]
    exact hK.placed hb hz hc hget hsrc fun d hdm => hK.visible hn hdm

theorem bounded_of_entries (h : ∀ x ∈ inv.cells.entries,
    1 ≤ x.2.count.toNat ∧ x.2.count.toNat ≤ x.2.proto.stackable.toNat) : inv.Bounded := by
  intro p it hp
  exact h ⟨p, it⟩ (of_mem_dlookup (getItemByPos_some hp).2)

end Inventory

/-! ## A bag in the backpack -/

/-- Cloth, which stacks to 20. -/
def clothProto : ItemPrototype := { itemId := 2589, name1 := "Linen Cloth", stackable := 20 }

/-- An entry that does not stack. -/
def singleProto (itemId : Nat) (name1 : String) (maxCount : UInt32) : ItemPrototype :=
  { itemId, name1, maxCount, stackable := 1 }

/-- A plain bag of six slots. -/
def pouchProto : ItemPrototype :=
  { itemId := 4496, name1 := "Small Brown Pouch", itemClass := itemClassContainer
    inventoryType := invtypeBag, stackable := 1, containerSlots := 6 }

/-- An item template table of cloth and a bag. -/
def sampleDb : ItemDb where
  get e := if e = 2589 then some clothProto else if e = 4496 then some pouchProto else none
  get_id := by
    intro e p h
    split_ifs at h with h1 h2
    · cases h; exact h1.symm
    · cases h; exact h2.symm

def cloth (guid : Nat) (count : UInt32) : Item sampleDb :=
  { guid, proto := clothProto, isProto := rfl, count, owner := 1 }

def pouch (guid : Nat) : Item sampleDb :=
  { guid, proto := pouchProto, isProto := rfl, count := 1, owner := 1 }

/-- A bag in the first backpack slot. -/
def pouchInBackpack : Inventory sampleDb := (Inventory.empty 1).place (inventorySlotBag0, 23) (pouch 7)

theorem pouchInBackpack_bounded : pouchInBackpack.Bounded :=
  Inventory.bounded_of_entries (by decide)

/-- Five pieces of cloth into the bag in the backpack: accepted, stored, and gone. -/
theorem pouchInBackpack_not_placed :
    pouchInBackpack.Bounded ∧
    (pouchInBackpack.canStoreItem 23 nullSlot [] 2589 5 .none false).res = .ok ∧
    ¬ ∃ proto, sampleDb.get 2589 = some proto ∧
      pouchInBackpack.Placed .none proto 5
        (pouchInBackpack.canStoreItem 23 nullSlot [] 2589 5 .none false).dest
        (pouchInBackpack.storeSource .none
          (pouchInBackpack.canStoreItem 23 nullSlot [] 2589 5 .none false).dest 2589 0 100) := by
  refine ⟨pouchInBackpack_bounded, by decide, ?_⟩
  rintro ⟨proto, hget, hp⟩
  obtain rfl : clothProto = proto := some.inj hget
  have hu := hp.units 2589
  have hafter : (pouchInBackpack.storeSource .none
      (pouchInBackpack.canStoreItem 23 nullSlot [] 2589 5 .none false).dest 2589 0 100).units 2589
        = 0 := by decide
  rw [hafter] at hu
  simp [clothProto] at hu

/-- The same cloth into the inventory at large. -/
theorem pouchInBackpack_placed :
    (pouchInBackpack.canStoreItem nullBag nullSlot [] 2589 5 .none false).res = .ok ∧
    ∃ proto, sampleDb.get 2589 = some proto ∧
      pouchInBackpack.Placed .none proto (5 : UInt32).toNat
        (pouchInBackpack.canStoreItem nullBag nullSlot [] 2589 5 .none false).dest
        (pouchInBackpack.storeSource .none
          (pouchInBackpack.canStoreItem nullBag nullSlot [] 2589 5 .none false).dest 2589 0 100) :=
  have hok : (pouchInBackpack.canStoreItem nullBag nullSlot [] 2589 5 .none false).res = .ok := by
    decide
  have hsrc : Source.none.IsFor pouchInBackpack 2589 := trivial
  ⟨hok, (Inventory.canStoreItem_placed_iff pouchInBackpack_bounded (by decide) hsrc hok).mpr
    (by decide)⟩

end Windrunner
