import Windrunner.Inventory.Batch
import Windrunner.Inventory.Placement
import Windrunner.Lib.Greedy

/-!
# How much `_CanStoreItem` places

The searches of the check give out the units greedily (`Lib.Alloc`) to the slots they go through:
`Refines f t` says that a fill of the code is such an allocation.

* `roomAt`: the units one slot takes; `reached`: the slots the searches go through before they are
  refused; `capacity`: the room in those.
* `Covers n room ss ps`: the searches `ss` offer the units to the slots `ps`.
* `runSearches_ends`: a request of `c` units places `min c capacity` of them, and the answer is the
  one of a request that is settled, refused at the requested place, or left with units.
-/

namespace Windrunner

open Lib List

variable {db : ItemDb}

namespace Inventory

variable (inv : Inventory db) (proto : ItemPrototype) (src : Source db)

/-! ## Rooms -/

/-- The units a slot takes: a whole stack, or the rest of one. -/
def slotRoom (p : Pos) : Nat :=
  match inv.itemBut src p with
  | none => proto.stackable.toNat
  | some it =>
    if it.canBeMergedPartlyWith proto = .ok then proto.stackable.toNat - it.count.toNat else 0

variable (bag slot : Nat)

/-- The same when the requested slot is to be swapped: it counts as empty. -/
def roomAt (swap : Bool) (p : Pos) : Nat :=
  if swap = true ∧ p = (bag, slot) then proto.stackable.toNat else inv.slotRoom proto src p

/-- The check of the requested slot lets the item in. -/
def takesSlot (p : Pos) (swap : Bool) : Bool :=
  match (if swap then none else inv.itemBut src p) with
  | none => inv.fitsSpecificSlot proto src p
  | some it => it.canBeMergedPartlyWith proto == .ok

def slotOpen (swap : Bool) : Bool :=
  bag == nullBag || slot == nullSlot ||
    (!(bag == inventorySlotBag0 && lastItemSlot < slot) && inv.takesSlot proto src (bag, slot) swap)

/-- There is a bag in slot `b`, other than the item itself, that takes the item. -/
def opensBag (b : Nat) : Bool :=
  match inv.topItem b with
  | none => false
  | some pBag => !src.isAt (inventorySlotBag0, b) && itemCanGoIntoBag proto pBag.proto

def bagOpen (bag : Nat) : Bool :=
  bag == nullBag || bag == inventorySlotBag0 || inv.opensBag proto src bag

/-- The requested place takes the item, as far as it goes; a bag with contents goes nowhere. -/
def requestOpen (swap : Bool) : Bool :=
  !inv.isNonEmptyBag src && inv.slotOpen proto src bag slot swap && inv.bagOpen proto src bag

/-! ## Slots -/

/-- The slots inside the bag in slot `b`. -/
def slotsOfBag (b : Nat) : List Pos :=
  match inv.topItem b with
  | none => []
  | some pBag => (range pBag.bagSize).map (b, ·)

/-- The slot that is asked for, if the request names one. -/
def requestedSlot : List Pos :=
  if bag ≠ nullBag ∧ slot ≠ nullSlot then [(bag, slot)] else []

/-- The equipped bags other than the requested one, without the slot of the requested number. -/
def otherBagSlots : List Pos :=
  (bagSlots.filter fun b => b ≠ bag && inv.opensBag proto src b).flatMap fun b =>
    (inv.slotsOfBag b).filter fun p => p.2 ≠ slot

def requestedBagSlots (bag : Nat) : List Pos :=
  if bag ≠ nullBag ∧ bag ≠ inventorySlotBag0 then inv.slotsOfBag bag else []

/-- Whether some search stops at the slot: stacks are searched for an entry that stacks. -/
def isTried (p : Pos) : Bool := 1 < proto.stackable || (inv.itemBut src p).isNone

/-- Only keys go to an empty slot of the keyring. -/
def isKeySlot (p : Pos) : Bool := proto.bagFamily == bagFamilyKeys || (inv.itemBut src p).isSome

/-- The slots that the searches go through when nothing refuses the item. -/
def searchedSlots : List Pos :=
  requestedSlot bag slot ++
    (inv.requestedBagSlots bag ++ keyringSlots.filter (inv.isKeySlot proto src) ++ backpackSlots ++
      inv.otherBagSlots proto src bag slot).filter (inv.isTried proto src)

/-- The slots that the searches go through before one is refused. -/
def reached (swap : Bool) : List Pos :=
  if inv.isNonEmptyBag src || !inv.slotOpen proto src bag slot swap then []
  else if !inv.bagOpen proto src bag then requestedSlot bag slot
  else inv.searchedSlots proto src bag slot

/-- The room in the slots that the searches go through. -/
def capacity (swap : Bool) : Nat :=
  ∑ p ∈ (inv.reached proto src bag slot swap).toFinset, inv.roomAt proto src bag slot swap p

end Inventory

/-! ## Fills as allocations -/

/-- The fill of the code is the allocation `t`. Once nothing is left, the code may record
destinations of no units. -/
structure Fill.Refines (f : Fill) (t : Alloc Pos) : Prop where
  left : f.count.toNat = t.left
  sum : (f.dest.map (·.count.toNat)).sum = t.total
  places : f.count ≠ 0 → f.dest.map (·.pos) = t.places

variable {f f' : Fill} {t : Alloc Pos} {room : Pos → Nat} {p : Pos} {n c : UInt32}

theorem Fill.refines_start (c : UInt32) : Fill.Refines ⟨[], c⟩ (.start c.toNat) :=
  ⟨rfl, rfl, fun _ => rfl⟩

theorem Fill.Refines.left_ne (h : f.Refines t) (h0 : f.count ≠ 0) : t.left ≠ 0 := by
  rw [← h.left]
  exact ne_zero_toNat.mp h0 |>.ne'

theorem Fill.Refines.offerAll_zero (h : f.Refines t) (h0 : f.count = 0) (ps : List Pos) :
    f.Refines (t.offerAll room ps) := by
  rwa [Alloc.offerAll_of_left]
  rw [← h.left, h0, UInt32.toNat_zero]

/-- Recording `need` units at `p`, unless `p` is a destination already. -/
theorem Fill.Refines.push (h : f.Refines t) (need : UInt32) (hr : room p ≠ 0)
    (hn : need.toNat = min (room p) f.count.toNat) (hs : need.toNat < 256) :
    ((f.push p need).getD f).Refines (t.offer room p) := by
  by_cases h0 : f.count = 0
  · -- nothing is left: a destination of no units may be recorded
    have hneed : need = 0 := by
      rw [eq_toNat, hn, h0, UInt32.toNat_zero, Nat.min_zero]
    rw [Alloc.offer_of_left (by rw [← h.left, h0, UInt32.toNat_zero])]
    unfold Fill.push
    subst hneed
    split_ifs
    · exact h
    · refine ⟨?_, ?_, fun hne => absurd ?_ hne⟩
      · rw [Option.getD_some, UInt32.sub_zero]; exact h.left
      · rw [Option.getD_some, map_append, sum_append, h.sum]; rfl
      · rw [Option.getD_some, UInt32.sub_zero]; exact h0
  have hpl := h.places h0
  unfold Fill.push
  split_ifs with hany
  · rw [Alloc.offer_of_mem]
    · exact h
    · obtain ⟨d, hd, he⟩ := any_eq_true.mp hany
      rw [← hpl]
      exact mem_map.mpr ⟨d, hd, by simpa using he⟩
  · have hp : p ∉ t.places := by
      intro hm
      obtain ⟨d, hd, he⟩ := mem_map.mp (hpl ▸ hm)
      exact hany (any_eq_true.mpr ⟨d, hd, by simpa using he⟩)
    have hmake := Inventory.toNat_make (p := p) hs
    have hsub := toNat_sub (a := f.count) (b := need) (by omega)
    have hleft := h.left
    have hsum := h.sum
    rw [Alloc.offer_new (h.left_ne h0) hr hp]
    refine ⟨?_, ?_, fun _ => ?_⟩
    · rw [Option.getD_some]; dsimp only; omega
    · unfold Alloc.total at hsum ⊢
      simp only [Option.getD_some, map_append, sum_append, map_cons, map_nil,
        sum_singleton]
      omega
    · unfold Alloc.places at hpl ⊢
      simp only [Option.getD_some, map_append, hpl]
      rfl

namespace Inventory

variable {inv : Inventory db} {proto : ItemPrototype} {src : Source db} {bag slot : Nat}
  {merge swap : Bool} {ps qs : List Pos} {ss ts : List Search}

theorem toNat_needSpace {held : UInt32} (count : UInt32) (h : held.toNat ≤ proto.stackable.toNat) :
    (needSpace proto held count).toNat = min (proto.stackable.toNat - held.toNat) count.toNat ∧
      (needSpace proto held count).toNat < 256 := by
  have h1 := toNat_sub h
  have h2 := proto.stackable_le
  unfold needSpace
  simp only [toNat_ite_gt]
  omega

/-- One slot of a search. -/
theorem trySlot_refines (h : f.Refines t) (hroom : room p = inv.slotRoom proto src p)
    (hm : (inv.itemBut src p).isSome = merge) :
    ((inv.trySlot proto src merge f p).getD f).Refines (t.offer room p) := by
  have hpos := proto.stackable_pos
  have hzero : (0 : UInt32).toNat ≤ proto.stackable.toNat := Nat.le_of_lt hpos
  unfold trySlot
  dsimp only
  rw [hm, if_neg (by simp)]
  unfold slotRoom at hroom
  cases hi : inv.itemBut src p with
  | none =>
    rw [hi] at hroom
    obtain ⟨h1, h2⟩ := toNat_needSpace f.count hzero
    refine h.push _ ?_ ?_ h2
    · rw [hroom]; exact hpos.ne'
    · rw [h1, hroom, UInt32.toNat_zero, Nat.sub_zero]
  | some it =>
    rw [hi] at hroom
    dsimp only at hroom ⊢
    by_cases hok : it.canBeMergedPartlyWith proto = .ok
    · rw [if_pos hok] at hroom
      have hlt := lt_toNat.mp (Item.canBeMergedPartlyWith_ok hok).2.1
      obtain ⟨h1, h2⟩ := toNat_needSpace f.count (Nat.le_of_lt hlt)
      rw [if_neg (not_not.mpr hok)]
      exact h.push _ (by omega) (by rw [h1, hroom]) h2
    · rw [if_neg hok] at hroom
      rw [if_pos hok, Alloc.offer_of_room hroom]
      exact h

theorem trySlot_other (hm : (inv.itemBut src p).isSome ≠ merge) :
    inv.trySlot proto src merge f p = none := by
  unfold trySlot
  exact if_pos (by simpa using hm)

/-- A loop over slots offers the units to those it stops at. -/
theorem searchSlots_refines (h : f.Refines t)
    (hroom : ∀ p ∈ ps, room p = inv.slotRoom proto src p) :
    (inv.searchSlots proto src merge ps f).Refines
      (t.offerAll room (ps.filter fun p => (inv.itemBut src p).isSome == merge)) := by
  induction ps generalizing f t with
  | nil => exact h
  | cons p ps ih =>
    have hps : ∀ q ∈ ps, room q = inv.slotRoom proto src q := fun q hq =>
      hroom q (mem_cons_of_mem _ hq)
    unfold searchSlots
    by_cases hm : (inv.itemBut src p).isSome = merge
    · have hp := trySlot_refines h (hroom p (mem_cons_self ..)) hm
      rw [filter_cons_of_pos (by simpa using hm), Alloc.offerAll_cons]
      cases ht : inv.trySlot proto src merge f p with
      | none =>
        rw [ht] at hp
        exact ih hp hps
      | some f' =>
        rw [ht] at hp
        dsimp only
        split_ifs with hz
        · exact hp.offerAll_zero hz _
        · exact ih hp hps
    · rw [filter_cons_of_neg (by simpa using hm), trySlot_other hm]
      exact ih h hps

/-! ## Sequences of searches -/

/-- The searches offer the units to the slots `ps`; they end with the answer of `settle` as soon as
nothing is left after a search. -/
def Covers (n : UInt32) (room : Pos → Nat) (ss : List Search) (ps : List Pos) : Prop :=
  ∀ f t, f.Refines t →
    match ss.foldlM (fun f s => s f) f with
    | .ok f' => f'.Refines (t.offerAll room ps)
    | .error a => ∃ f', f'.Refines (t.offerAll room ps) ∧ f'.count = 0 ∧ settle n f' = .error a

theorem foldlM_single (s : Search) (f : Fill) : [s].foldlM (fun f s => s f) f = s f := by
  simp only [foldlM_cons, foldlM_nil]
  exact bind_pure (s f)

namespace Covers

theorem nil : Covers n room [] [] := fun _ _ h => h

theorem append (h₁ : Covers n room ss ps) (h₂ : Covers n room ts qs) :
    Covers n room (ss ++ ts) (ps ++ qs) := by
  intro f t hf
  have h := h₁ f t hf
  rw [foldlM_append, Alloc.offerAll_append]
  cases hs : ss.foldlM (fun f s => s f) f with
  | error a =>
    rw [hs] at h
    obtain ⟨f', hr, hz, ha⟩ := h
    exact ⟨f', hr.offerAll_zero hz qs, hz, ha⟩
  | ok f' =>
    rw [hs] at h
    exact h₂ f' _ h

variable {s : Fill → Except InventoryResult Fill}

theorem cons {s : Search} (h₁ : Covers n room [s] ps) (h₂ : Covers n room ss qs) :
    Covers n room (s :: ss) (ps ++ qs) :=
  append h₁ h₂

theorem of_settle {s : Search} (h : ∀ f t, f.Refines t →
    ∃ f', f'.Refines (t.offerAll room ps) ∧ s f = settle n f') : Covers n room [s] ps := by
  intro f t hf
  obtain ⟨f', hr, hs⟩ := h f t hf
  rw [foldlM_single, hs]
  cases ha : settle n f' with
  | error a =>
    refine ⟨f', hr, ?_, ha⟩
    unfold settle at ha
    split_ifs at ha with h0 <;> exact h0
  | ok g =>
    unfold settle at ha
    split_ifs at ha with h0
    cases ha
    exact hr

section

variable (h : ∀ f t, f.Refines t → ∃ f', f'.Refines (t.offerAll room ps) ∧ s f = .ok f')
include h

/-- A search that finds slots, mandatory or not. -/
theorem mandatory :
    Covers n room [mandatory n s] ps := by
  refine of_settle fun f t hf => ?_
  obtain ⟨f', hr, hs⟩ := h f t hf
  exact ⟨f', hr, by unfold Windrunner.mandatory; rw [hs]⟩

theorem optional :
    Covers n room [optional n s] ps := by
  refine of_settle fun f t hf => ?_
  obtain ⟨f', hr, hs⟩ := h f t hf
  exact ⟨f', hr, by unfold Windrunner.optional; rw [hs]⟩

end

/-- A search that always fails and is passed over. -/
theorem passed (h : ∀ f, ∃ res, s f = .error res) :
    Covers n room [Windrunner.optional n s] [] := by
  intro f t hf
  obtain ⟨res, hs⟩ := h f
  rw [foldlM_single]
  unfold Windrunner.optional
  rw [hs]
  exact hf

theorem refuseIf {res : InventoryResult} : Covers n room [refuseIf false res] [] := by
  intro f t hf
  rw [foldlM_single]
  exact hf

/-- One optional search for each of the bags. -/
theorem bags {bs : List Nat} {s : Nat → Fill → Except InventoryResult Fill} {g : Nat → List Pos}
    (h : ∀ b ∈ bs, Covers n room [Windrunner.optional n (s b)] (g b)) :
    Covers n room (bs.map fun b => Windrunner.optional n (s b)) (bs.flatMap g) := by
  induction bs with
  | nil => exact nil
  | cons b bs ih =>
    rw [map_cons, flatMap_cons]
    exact cons (h b (mem_cons_self ..)) (ih fun c hc => h c (mem_cons_of_mem _ hc))

end Covers

/-- The searches offer the units to the slots with `P`, in some order. -/
def Reaches (n : UInt32) (room : Pos → Nat) (ss : List Search) (P : Pos → Prop) : Prop :=
  ∃ ps, Covers n room ss ps ∧ ∀ p, p ∈ ps ↔ P p

namespace Reaches

variable {P Q : Pos → Prop} {b e : Nat}

theorem nil : Reaches n room [] fun _ => False := ⟨[], .nil, by simp⟩

theorem append (h₁ : Reaches n room ss P) (h₂ : Reaches n room ts Q) :
    Reaches n room (ss ++ ts) fun p => P p ∨ Q p := by
  obtain ⟨ps, hs, hP⟩ := h₁
  obtain ⟨qs, ht, hQ⟩ := h₂
  exact ⟨ps ++ qs, hs.append ht, fun p => by rw [mem_append, hP, hQ]⟩

theorem congr (h : Reaches n room ss P) (hPQ : ∀ p, P p ↔ Q p) : Reaches n room ss Q := by
  obtain ⟨ps, hs, hP⟩ := h
  exact ⟨ps, hs, fun p => (hP p).trans (hPQ p)⟩

theorem cons {s : Search} (h₁ : Reaches n room [s] P) (h₂ : Reaches n room ss Q) :
    Reaches n room (s :: ss) fun p => P p ∨ Q p :=
  append h₁ h₂

/-- Searches that are made under a condition on the entry. -/
theorem ite {q : Prop} [Decidable q] (h : q → Reaches n room ss P) :
    Reaches n room (if q then ss else []) fun p => q ∧ P p := by
  by_cases hq : q
  · rw [if_pos hq]
    exact (h hq).congr fun p => by simp [hq]
  · rw [if_neg hq]
    exact nil.congr fun p => by simp [hq]

end Reaches

/-- Every slot but the requested one has the room of the search. -/
def AgreesBut (inv : Inventory db) (proto : ItemPrototype) (src : Source db) (q : Pos)
    (room : Pos → Nat) : Prop :=
  ∀ p, p ≠ q → room p = inv.slotRoom proto src p

theorem roomAt_agrees :
    inv.AgreesBut proto src (bag, slot) (inv.roomAt proto src bag slot swap) := by
  intro p hp
  unfold roomAt
  rw [if_neg fun h => hp h.2]

section Passes

variable {b e : Nat} {nonSpecialized : Bool}

theorem reaches_inventorySlots (hne : inv.isNonEmptyBag src = false)
    (hroom : inv.AgreesBut proto src (bag, slot) room) :
    Reaches n room [mandatory n (inv.canStoreItemInInventorySlots proto src b e merge bag slot)]
      fun p => p ∈ (range' b (e - b)).map (inventorySlotBag0, ·) ∧ p ≠ (bag, slot) ∧
        (inv.itemBut src p).isSome = merge := by
  let js := (range' b (e - b)).filter fun j => !(inventorySlotBag0 == bag && j == slot)
  have hmem : ∀ p : Pos, p ∈ js.map (inventorySlotBag0, ·) ↔
      p ∈ (range' b (e - b)).map (inventorySlotBag0, ·) ∧ p ≠ (bag, slot) := by
    rintro ⟨c, j⟩
    simp only [js, mem_map, mem_filter, Prod.mk.injEq]
    constructor
    · rintro ⟨i, ⟨hi, hs⟩, rfl, rfl⟩
      exact ⟨⟨i, hi, rfl, rfl⟩, by grind⟩
    · rintro ⟨⟨i, hi, rfl, rfl⟩, hs⟩
      exact ⟨i, ⟨hi, by grind⟩, rfl, rfl⟩
  refine ⟨(js.map (inventorySlotBag0, ·)).filter fun p => (inv.itemBut src p).isSome == merge,
    .mandatory fun f t hf => ⟨_, searchSlots_refines hf fun p hp => hroom p ((hmem p).mp hp).2, ?_⟩,
    fun p => by rw [mem_filter, hmem]; simp [and_assoc]⟩
  unfold canStoreItemInInventorySlots
  simp only [hne, Bool.false_eq_true, if_false]
  rfl

/-- The bag in slot `b` is a plain one. -/
def plainAt (inv : Inventory db) (b : Nat) : Bool := (inv.topItem b).any isPlainBag

theorem mem_bagSearchSlots {pBag : Item db} (ht : inv.topItem b = some pBag) (p : Pos) :
    p ∈ bagSearchSlots pBag b slot ↔ p ∈ inv.slotsOfBag b ∧ p.2 ≠ slot := by
  obtain ⟨c, j⟩ := p
  unfold bagSearchSlots slotsOfBag
  rw [ht]
  simp only [mem_map, mem_filter, Prod.mk.injEq]
  constructor
  · rintro ⟨i, ⟨hi, hs⟩, rfl, rfl⟩
    exact ⟨⟨i, hi, rfl, rfl⟩, by simpa using hs⟩
  · rintro ⟨⟨i, hi, rfl, rfl⟩, hs⟩
    exact ⟨i, ⟨hi, by simpa using hs⟩, rfl, rfl⟩

/-- A bag of the right kind is searched. -/
theorem canStoreItemInBag_found {skipBag : Nat} (hne : inv.isNonEmptyBag src = false)
    (hroom : inv.AgreesBut proto src (bag, slot) room) (ho : inv.opensBag proto src b = true)
    (hp : inv.plainAt b = nonSpecialized) (hb : b ≠ skipBag) :
    ∃ ps, (∀ p, p ∈ ps ↔ p ∈ inv.slotsOfBag b ∧ p.2 ≠ slot ∧ (inv.itemBut src p).isSome = merge) ∧
      ∀ f t, f.Refines t → ∃ f', f'.Refines (t.offerAll room ps) ∧
        inv.canStoreItemInBag proto src b merge nonSpecialized skipBag slot f = .ok f' := by
  unfold opensBag at ho
  cases ht : inv.topItem b with
  | none => rw [ht] at ho; cases ho
  | some pBag =>
    rw [ht] at ho
    simp only [Bool.and_eq_true, Bool.not_eq_true'] at ho
    refine ⟨(bagSearchSlots pBag b slot).filter fun p => (inv.itemBut src p).isSome == merge,
      fun p => by rw [mem_filter, mem_bagSearchSlots ht]; simp [and_assoc], fun f t hf =>
      ⟨_, searchSlots_refines hf fun p hp => hroom p fun he => ?_, ?_⟩⟩
    · exact ((mem_bagSearchSlots ht p).mp hp).2 (by rw [he])
    · have hplain : nonSpecialized = isPlainBag pBag := by
        rw [← hp, plainAt, ht, Option.any_some]
      unfold canStoreItemInBag
      simp only [if_neg hb, ht, ho.1, ho.2, hne, hplain, Bool.false_eq_true, if_false,
        bne_self_eq_false, Bool.not_true]
      rfl

theorem canStoreItemInBag_closed (h : b = bag ∨ inv.opensBag proto src b = false ∨
    inv.plainAt b ≠ nonSpecialized) (f : Fill) :
    ∃ res, inv.canStoreItemInBag proto src b merge nonSpecialized bag slot f = .error res ∧
      res ≠ .ok ∧ res ≠ .inventoryFull := by
  unfold canStoreItemInBag
  by_cases hb : b = bag
  · exact ⟨_, if_pos hb, by decide, by decide⟩
  rw [if_neg hb]
  cases ht : inv.topItem b with
  | none => exact ⟨_, rfl, by decide, by decide⟩
  | some pBag =>
    dsimp only
    by_cases hat : src.isAt (inventorySlotBag0, b) = true
    · exact ⟨_, if_pos hat, by decide, by decide⟩
    by_cases hne : inv.isNonEmptyBag src = true
    · exact ⟨_, by rw [if_neg hat, if_pos hne], by decide, by decide⟩
    by_cases hpl : (nonSpecialized != isPlainBag pBag) = true
    · exact ⟨_, by rw [if_neg hat, if_neg hne, if_pos hpl], by decide, by decide⟩
    have hgo : (!itemCanGoIntoBag proto pBag.proto) = true := by
      simp only [opensBag, plainAt, ht, Option.any_some, hb, false_or] at h
      have : isPlainBag pBag = nonSpecialized := by
        simp only [bne_iff_ne, ne_eq, not_not] at hpl
        exact hpl.symm
      simpa [hat, this] using h
    exact ⟨_, by rw [if_neg hat, if_neg hne, if_neg hpl, if_pos hgo], by decide, by decide⟩

/-- The loop over the equipped bags. -/
theorem reaches_bags (hne : inv.isNonEmptyBag src = false)
    (hroom : inv.AgreesBut proto src (bag, slot) room) :
    Reaches n room (bagSlots.map fun i => optional n
        (inv.canStoreItemInBag proto src i merge nonSpecialized bag slot))
      fun p => p ∈ inv.otherBagSlots proto src bag slot ∧ inv.plainAt p.1 = nonSpecialized ∧
        (inv.itemBut src p).isSome = merge := by
  have hbag : ∀ b, ∃ ps, Covers n room [optional n
      (inv.canStoreItemInBag proto src b merge nonSpecialized bag slot)] ps ∧
      ∀ p, p ∈ ps ↔ (b ≠ bag ∧ inv.opensBag proto src b = true ∧ inv.plainAt b = nonSpecialized) ∧
        p ∈ inv.slotsOfBag b ∧ p.2 ≠ slot ∧ (inv.itemBut src p).isSome = merge := by
    intro b
    by_cases h : b ≠ bag ∧ inv.opensBag proto src b = true ∧ inv.plainAt b = nonSpecialized
    · obtain ⟨ps, hps, hf⟩ := canStoreItemInBag_found hne hroom h.2.1 h.2.2 h.1
      exact ⟨ps, .optional hf, fun p => by rw [hps, and_iff_right h]⟩
    · have hc : b = bag ∨ inv.opensBag proto src b = false ∨ inv.plainAt b ≠ nonSpecialized := by
        grind
      refine ⟨[], .passed fun f => ?_, fun p => by simp [h]⟩
      obtain ⟨res, hres, -⟩ := canStoreItemInBag_closed hc f
      exact ⟨res, hres⟩
  choose g hg hgm using hbag
  refine ⟨bagSlots.flatMap g, .bags fun b _ => hg b, fun p => ?_⟩
  unfold otherBagSlots
  simp only [mem_flatMap, hgm, mem_filter, Bool.and_eq_true, ne_eq, decide_not,
    Bool.not_eq_true', decide_eq_false_iff_not]
  have h1 : ∀ b, p ∈ inv.slotsOfBag b → p.1 = b := by
    intro b hb
    unfold slotsOfBag at hb
    cases ht : inv.topItem b with
    | none => rw [ht] at hb; cases hb
    | some pBag =>
      rw [ht] at hb
      obtain ⟨j, -, rfl⟩ := mem_map.mp hb
      rfl
  constructor
  · rintro ⟨b, hb, ⟨h2, h3, h4⟩, h5, h6, h7⟩
    exact ⟨⟨b, ⟨hb, h2, h3⟩, h5, h6⟩, by rw [h1 b h5]; exact h4, h7⟩
  · rintro ⟨⟨b, ⟨hb, h2, h3⟩, h5, h6⟩, h4, h7⟩
    exact ⟨b, hb, ⟨h2, h3, by rw [← h1 b h5]; exact h4⟩, h5, h6, h7⟩

theorem fst_of_mem_slotsOfBag {p : Pos} (h : p ∈ inv.slotsOfBag b) : p.1 = b := by
  unfold slotsOfBag at h
  cases ht : inv.topItem b with
  | none => rw [ht] at h; cases h
  | some pBag =>
    rw [ht] at h
    obtain ⟨j, -, rfl⟩ := mem_map.mp h
    rfl

section

variable (hne : inv.isNonEmptyBag src = false)
include hne

/-- The requested bag is searched as a specialised one and, if it is none, as a plain one. -/
theorem reaches_requestedBag (hb : b ≠ nullBag)
    (hroom : inv.AgreesBut proto src (bag, slot) room) (ho : inv.opensBag proto src b = true) :
    Reaches n room [mandatory n
        (orElseSearch (inv.canStoreItemInBag proto src b merge false nullBag slot)
          (inv.canStoreItemInBag proto src b merge true nullBag slot))]
      fun p => p ∈ inv.slotsOfBag b ∧ p.2 ≠ slot ∧ (inv.itemBut src p).isSome = merge := by
  cases hp : inv.plainAt b with
  | false =>
    obtain ⟨ps, hps, hf⟩ := canStoreItemInBag_found hne hroom ho hp hb
    refine ⟨ps, .mandatory fun f t h => ?_, hps⟩
    obtain ⟨f', hr, hs⟩ := hf f t h
    exact ⟨f', hr, by unfold orElseSearch; rw [hs]⟩
  | true =>
    obtain ⟨ps, hps, hf⟩ := canStoreItemInBag_found hne hroom ho hp hb
    refine ⟨ps, .mandatory fun f t h => ?_, hps⟩
    obtain ⟨f', hr, hs⟩ := hf f t h
    have hc : b = nullBag ∨ inv.opensBag proto src b = false ∨ inv.plainAt b ≠ false :=
      .inr (.inr (by rw [hp]; decide))
    have hfail : ∃ res, inv.canStoreItemInBag proto src b merge false nullBag slot f = .error res :=
      (canStoreItemInBag_closed hc f).imp fun _ h => h.1
    obtain ⟨res, hres⟩ := hfail
    exact ⟨f', hr, by unfold orElseSearch; rw [hres]; exact hs⟩

theorem specificSlot_found
    (ht : inv.takesSlot proto src (bag, slot) swap = true) (h : f.Refines t) :
    ∃ f', f'.Refines (t.offerAll (inv.roomAt proto src bag slot swap) [(bag, slot)]) ∧
      inv.canStoreItemInSpecificSlot proto src (bag, slot) swap f = .ok f' := by
  have hpos := proto.stackable_pos
  have hzero : (0 : UInt32).toNat ≤ proto.stackable.toNat := Nat.le_of_lt hpos
  obtain ⟨h1, h2⟩ := toNat_needSpace f.count hzero
  rw [UInt32.toNat_zero, Nat.sub_zero] at h1
  unfold takesSlot at ht
  unfold canStoreItemInSpecificSlot
  simp only [hne, Bool.false_eq_true, if_false]
  cases hi : (if swap then none else inv.itemBut src (bag, slot)) with
  | none =>
    rw [hi] at ht
    have hroom : inv.roomAt proto src bag slot swap (bag, slot) = proto.stackable.toNat := by
      unfold roomAt slotRoom
      cases swap with
      | true => rw [if_pos ⟨rfl, rfl⟩]
      | false =>
        rw [if_neg Bool.false_ne_true] at hi
        rw [if_neg (fun h => Bool.false_ne_true h.1), hi]
    refine ⟨_, h.push (needSpace proto 0 f.count) ?_ ?_ h2, ?_⟩
    · rw [hroom]; exact hpos.ne'
    · rw [hroom]; exact h1
    · exact if_pos ht
  | some it =>
    cases swap with
    | true => cases hi
    | false =>
      rw [hi] at ht
      rw [if_neg Bool.false_ne_true] at hi
      have hok : it.canBeMergedPartlyWith proto = .ok := eq_of_beq ht
      have hlt := lt_toNat.mp (Item.canBeMergedPartlyWith_ok hok).2.1
      obtain ⟨h1, h2⟩ := toNat_needSpace f.count (Nat.le_of_lt hlt)
      have hroom : inv.roomAt proto src bag slot false (bag, slot) =
          proto.stackable.toNat - it.count.toNat := by
        unfold roomAt slotRoom
        rw [if_neg (fun h => Bool.false_ne_true h.1), hi]
        exact if_pos hok
      refine ⟨_, h.push (needSpace proto it.count f.count) ?_ ?_ h2, ?_⟩
      · rw [hroom]; omega
      · rw [hroom, h1]
      · simp only [hok]

theorem reaches_specificSlot (ho : inv.slotOpen proto src bag slot swap = true) :
    Reaches n (inv.roomAt proto src bag slot swap)
      (inv.specificSlotSearches proto src bag slot swap n) (· ∈ requestedSlot bag slot) := by
  unfold specificSlotSearches requestedSlot
  by_cases h : bag ≠ nullBag ∧ slot ≠ nullSlot
  · rw [if_pos h, if_pos h]
    unfold slotOpen at ho
    rw [beq_false_of_ne h.1, beq_false_of_ne h.2, Bool.false_or, Bool.false_or, Bool.and_eq_true,
      Bool.not_eq_true'] at ho
    rw [ho.1]
    exact ⟨[(bag, slot)], .cons .refuseIf (.mandatory fun f t => specificSlot_found hne ho.2),
      fun p => Iff.rfl⟩
  · rw [if_neg h, if_neg h]
    exact ⟨[], .nil, fun p => Iff.rfl⟩

end

/-- A specialised bag takes no item without a family. -/
theorem bagFamily_of_special (ho : inv.opensBag proto src b = true) (hp : inv.plainAt b = false) :
    proto.bagFamily ≠ 0 := by
  intro h0
  unfold opensBag at ho
  unfold plainAt at hp
  cases ht : inv.topItem b with
  | none => rw [ht] at ho; cases ho
  | some pBag =>
    rw [ht] at ho hp
    simp only [Bool.and_eq_true, Option.any_some] at ho hp
    have hgo := ho.2
    unfold itemCanGoIntoBag at hgo
    unfold isPlainBag at hp
    rw [h0] at hgo
    split_ifs at hgo with h1 h2
    · rw [h1, beq_self_eq_true, Bool.true_and] at hp
      split at hgo <;> simp_all
    · split at hgo <;> cases hgo

end Passes

/-! ## A request that nothing refuses -/

variable {p : Pos} {s : Fill → Except InventoryResult Fill}

theorem isTried_iff : inv.isTried proto src p = true ↔
    1 < proto.stackable ∨ (inv.itemBut src p).isSome = false := by
  unfold isTried
  rw [Bool.or_eq_true, decide_eq_true_iff]
  cases inv.itemBut src p <;> simp

theorem isKeySlot_iff : inv.isKeySlot proto src p = true ↔
    proto.bagFamily = bagFamilyKeys ∨ (inv.itemBut src p).isSome = true := by
  unfold isKeySlot
  rw [Bool.or_eq_true, beq_iff_eq]

theorem mem_searchedSlots : p ∈ inv.searchedSlots proto src bag slot ↔
    p ∈ requestedSlot bag slot ∨
      ((p ∈ inv.requestedBagSlots bag ∨ (p ∈ keyringSlots ∧ inv.isKeySlot proto src p = true) ∨
        p ∈ backpackSlots ∨ p ∈ inv.otherBagSlots proto src bag slot) ∧
        inv.isTried proto src p = true) := by
  simp only [searchedSlots, mem_append, mem_filter, or_assoc]

/-- No slot that is searched has the number `NULL_SLOT`. -/
theorem mem_requestedSlot (hp : p = (bag, slot)) (hbag : bag ≠ nullBag)
    (h : p.2 < nullSlot) : p ∈ requestedSlot bag slot := by
  subst hp
  unfold requestedSlot
  rw [if_pos ⟨hbag, Nat.ne_of_lt h⟩]
  exact mem_singleton_self _

theorem mem_keyringSlots (h : p ∈ keyringSlots) :
    p.1 = inventorySlotBag0 ∧ p.2 < nullSlot := by
  obtain ⟨j, hj, rfl⟩ := mem_map.mp h
  exact ⟨rfl, Nat.lt_trans (mem_range'_1.mp hj).2 (by decide)⟩

theorem mem_backpackSlots (h : p ∈ backpackSlots) :
    p.1 = inventorySlotBag0 ∧ p.2 < nullSlot := by
  obtain ⟨j, hj, rfl⟩ := mem_map.mp h
  exact ⟨rfl, Nat.lt_trans (mem_range'_1.mp hj).2 (by decide)⟩

theorem snd_lt_of_mem_slotsOfBag {b : Nat} (h : p ∈ inv.slotsOfBag b) :
    p.2 < nullSlot := by
  unfold slotsOfBag at h
  cases ht : inv.topItem b with
  | none => rw [ht] at h; cases h
  | some pBag =>
    rw [ht] at h
    obtain ⟨j, hj, rfl⟩ := mem_map.mp h
    have := mem_range.mp hj
    exact Nat.lt_of_lt_of_le this (Nat.le_trans pBag.proto.containerSlots_le (by decide))

theorem otherBagSlots_opens (h : p ∈ inv.otherBagSlots proto src bag slot) :
    inv.opensBag proto src p.1 = true := by
  obtain ⟨b, hb, hp⟩ := mem_flatMap.mp h
  rw [fst_of_mem_slotsOfBag (mem_filter.mp hp).1]
  simpa using (Bool.and_eq_true _ _ ▸ (mem_filter.mp hb).2).2

section Open

variable (hne : inv.isNonEmptyBag src = false) (hroom : inv.AgreesBut proto src (bag, slot) room)

include hne hroom

theorem reaches_backpack :
    Reaches n room [mandatory n (inv.canStoreItemInInventorySlots proto src inventorySlotItemStart
        inventorySlotItemEnd merge bag slot)] fun p =>
      p ∈ backpackSlots ∧ p ≠ (bag, slot) ∧ (inv.itemBut src p).isSome = merge :=
  reaches_inventorySlots hne hroom

theorem reaches_keyring :
    Reaches n room [mandatory n (inv.canStoreItemInInventorySlots proto src keyringSlotStart
        keyringSlotEnd merge bag slot)] fun p =>
      p ∈ keyringSlots ∧ p ≠ (bag, slot) ∧ (inv.itemBut src p).isSome = merge :=
  reaches_inventorySlots hne hroom

theorem reaches_specificBag (ho : inv.bagOpen proto src bag = true) :
    Reaches n room (inv.specificBagSearches proto src bag slot n) fun p =>
      bag ≠ nullBag ∧ p ≠ (bag, slot) ∧ inv.isTried proto src p = true ∧
        (p ∈ inv.requestedBagSlots bag ∨ (bag = inventorySlotBag0 ∧
          ((p ∈ keyringSlots ∧ inv.isKeySlot proto src p = true) ∨ p ∈ backpackSlots))) := by
  unfold specificBagSearches
  refine (Reaches.ite fun h0 => ?_).congr fun p => and_congr_right fun _ => Iff.rfl
  by_cases h255 : bag = inventorySlotBag0
  · have hnone : inv.requestedBagSlots bag = [] := if_neg fun h => h.2 h255
    simp only [if_pos h255, hnone]
    refine ((Reaches.ite fun _ => .cons (reaches_keyring hne hroom)
      (reaches_backpack hne hroom)).append ((Reaches.ite fun _ =>
        reaches_keyring hne hroom).append (reaches_backpack hne hroom))).congr fun p => ?_
    rw [isTried_iff, isKeySlot_iff]
    cases (inv.itemBut src p).isSome <;> simp [h255] <;> grind
  · have hopen : inv.opensBag proto src bag = true := by
      unfold bagOpen at ho
      simpa [h0, h255] using ho
    simp only [h255, if_false, false_and, or_false]
    refine ((Reaches.ite fun _ => reaches_requestedBag hne h0 hroom hopen).append
      (reaches_requestedBag hne h0 hroom hopen)).congr fun p => ?_
    have hslots : p ∈ inv.requestedBagSlots bag ↔ p ∈ inv.slotsOfBag bag := by
      unfold requestedBagSlots
      rw [if_pos ⟨h0, h255⟩]
    have hpos : p ∈ inv.slotsOfBag bag → (p.2 ≠ slot ↔ p ≠ (bag, slot)) := fun h => by
      rw [ne_eq, ne_eq, Prod.ext_iff, fst_of_mem_slotsOfBag h]
      simp
    rw [isTried_iff, hslots]
    cases (inv.itemBut src p).isSome <;> simp <;> grind

theorem reaches_merge :
    Reaches n room (inv.mergeSearches proto src bag slot n) fun p =>
      1 < proto.stackable ∧ (inv.itemBut src p).isSome = true ∧
        (((p ∈ keyringSlots ∨ p ∈ backpackSlots) ∧ p ≠ (bag, slot)) ∨
          p ∈ inv.otherBagSlots proto src bag slot) := by
  unfold mergeSearches
  refine (Reaches.ite fun h1 => ?_).congr fun p => and_congr_right fun _ => Iff.rfl
  refine (((Reaches.cons (reaches_keyring hne hroom)
    (reaches_backpack hne hroom)).append (Reaches.ite fun _ =>
      reaches_bags hne hroom)).append (reaches_bags hne hroom)).congr fun p => ?_
  have hfam : p ∈ inv.otherBagSlots proto src bag slot → inv.plainAt p.1 = false →
      proto.bagFamily ≠ 0 := fun h => bagFamily_of_special (otherBagSlots_opens h)
  cases hp : inv.plainAt p.1 <;> simp <;> grind

theorem reaches_specialBag :
    Reaches n room (inv.specialBagSearches proto src bag slot n) fun p =>
      (inv.itemBut src p).isSome = false ∧
        ((proto.bagFamily = bagFamilyKeys ∧ p ∈ keyringSlots ∧ p ≠ (bag, slot)) ∨
          (p ∈ inv.otherBagSlots proto src bag slot ∧ inv.plainAt p.1 = false)) := by
  unfold specialBagSearches
  refine (Reaches.ite fun h1 => (Reaches.ite fun _ => reaches_keyring hne hroom).append
    (reaches_bags hne hroom)).congr fun p => ?_
  have hfam : p ∈ inv.otherBagSlots proto src bag slot → inv.plainAt p.1 = false →
      proto.bagFamily ≠ 0 := fun h => bagFamily_of_special (otherBagSlots_opens h)
  have hkey : proto.bagFamily = bagFamilyKeys → proto.bagFamily ≠ 0 := fun h => by
    rw [h]; decide
  grind

theorem reaches_freeSlot :
    Reaches n room (inv.freeSlotSearches proto src bag slot n) fun p =>
      (inv.itemBut src p).isSome = false ∧
        ((p ∈ backpackSlots ∧ p ≠ (bag, slot)) ∨
          (p ∈ inv.otherBagSlots proto src bag slot ∧ inv.plainAt p.1 = true)) := by
  unfold freeSlotSearches
  rw [hne]
  refine ((Reaches.cons ⟨[], .refuseIf, fun p => Iff.rfl⟩
    (reaches_backpack hne hroom)).append (reaches_bags hne hroom)).congr fun p => ?_
  simp only [not_mem_nil]
  grind

end Open

/-- Nothing refuses the item: the units are offered to every slot that is searched. -/
theorem reaches_searches (ho : inv.requestOpen proto src bag slot swap = true) :
    Reaches n (inv.roomAt proto src bag slot swap) (inv.searches proto src bag slot swap n)
      (· ∈ inv.searchedSlots proto src bag slot) := by
  unfold requestOpen at ho
  simp only [Bool.and_eq_true, Bool.not_eq_true'] at ho
  obtain ⟨⟨hne, hslot⟩, hbag⟩ := ho
  have hroom : inv.AgreesBut proto src (bag, slot) (inv.roomAt proto src bag slot swap) :=
    roomAt_agrees
  unfold searches
  refine ((((reaches_specificSlot hne hslot).append (reaches_specificBag hne hroom hbag)).append
    (reaches_merge hne hroom)).append (reaches_specialBag hne hroom)).append
    (reaches_freeSlot hne hroom) |>.congr fun p => ?_
  -- the requested slot comes first and is passed over afterwards
  have hfirst : p ∈ keyringSlots ∨ p ∈ backpackSlots ∨ p ∈ inv.requestedBagSlots bag →
      p = (bag, slot) → p ∈ requestedSlot bag slot := by
    intro h he
    refine mem_requestedSlot he ?_ ?_
    · rintro rfl
      obtain h | h | h := h
      · have := (mem_keyringSlots h).1; rw [he] at this; cases this
      · have := (mem_backpackSlots h).1; rw [he] at this; cases this
      · unfold requestedBagSlots at h
        rw [if_neg fun h => h.1 rfl] at h
        cases h
    · obtain h | h | h := h
      · exact (mem_keyringSlots h).2
      · exact (mem_backpackSlots h).2
      · unfold requestedBagSlots at h
        split_ifs at h
        · exact snd_lt_of_mem_slotsOfBag h
        · cases h
  have hbagNe : p ∈ inv.requestedBagSlots bag → bag ≠ nullBag := by
    intro h
    unfold requestedBagSlots at h
    split_ifs at h with hb
    · exact hb.1
    · cases h
  rw [mem_searchedSlots, isTried_iff, isKeySlot_iff]
  by_cases he : p = (bag, slot)
  · cases (inv.itemBut src p).isSome <;> cases inv.plainAt p.1 <;> simp [he] at hfirst ⊢ <;> grind
  · cases (inv.itemBut src p).isSome <;> cases inv.plainAt p.1 <;> simp [he] at hfirst ⊢ <;> grind

/-! ## Refusals -/

/-- The searches end with an error that is no lack of room, and place nothing. With `quiet` they may
leave `no_space_count` alone. -/
def Refused (n : UInt32) (quiet : Prop) (f : Fill) (r : Except CanStore Fill) : Prop :=
  ∃ res o, res ≠ .ok ∧ res ≠ .inventoryFull ∧ (o = some (f.count + n) ∨ (quiet ∧ o = none)) ∧
    r = .error ⟨res, f.dest, o⟩

/-- Every search fails: the sequence is passed over, or ends in a refusal. -/
def Declines (n : UInt32) (ss : List Search) : Prop :=
  ∀ f, ss.foldlM (fun f s => s f) f = .ok f ∨ Refused n True f (ss.foldlM (fun f s => s f) f)

/-- A search that fails whatever was found before. -/
def Fails (s : Fill → Except InventoryResult Fill) : Prop :=
  ∀ f, ∃ res, s f = .error res ∧ res ≠ .ok ∧ res ≠ .inventoryFull

theorem Refused.append {quiet : Prop} (h : Refused n quiet f (ss.foldlM (fun f s => s f) f))
    (ts : List Search) : Refused n quiet f ((ss ++ ts).foldlM (fun f s => s f) f) := by
  obtain ⟨res, o, h1, h2, h3, heq⟩ := h
  refine ⟨res, o, h1, h2, h3, ?_⟩
  rw [foldlM_append, heq]
  rfl

theorem Refused.cons {quiet : Prop} {s : Search}
    (h : Refused n quiet f ([s].foldlM (fun f s => s f) f)) (ts : List Search) :
    Refused n quiet f ((s :: ts).foldlM (fun f s => s f) f) :=
  h.append ts

theorem Fails.orElse {u : Fill → Except InventoryResult Fill} (hs : Fails s) (hu : Fails u) :
    Fails (orElseSearch s u) := by
  intro f
  obtain ⟨res, h, -⟩ := hs f
  obtain ⟨res', h', hr⟩ := hu f
  exact ⟨res', by unfold orElseSearch; rw [h]; exact h', hr⟩

theorem Fails.refused (hs : Fails s) (f : Fill) (quiet : Prop) (ts : List Search) :
    Refused n quiet f ((mandatory n s :: ts).foldlM (fun f s => s f) f) := by
  refine Refused.cons ?_ ts
  obtain ⟨res, h, h1, h2⟩ := hs f
  refine ⟨res, _, h1, h2, .inl rfl, ?_⟩
  rw [foldlM_single]
  unfold mandatory
  rw [h]

namespace Declines

variable {s : Fill → Except InventoryResult Fill}

theorem nil : Declines n [] := fun _ => .inl rfl

theorem append (h₁ : Declines n ss) (h₂ : Declines n ts) : Declines n (ss ++ ts) := by
  intro f
  obtain h | h := h₁ f
  · rw [foldlM_append, h]
    exact h₂ f
  · exact .inr (h.append ts)

theorem cons {s : Search} (h₁ : Declines n [s]) (h₂ : Declines n ss) : Declines n (s :: ss) :=
  append h₁ h₂

theorem ite {q : Prop} [Decidable q] (h : Declines n ss) : Declines n (if q then ss else []) := by
  split_ifs
  · exact h
  · exact nil

theorem mandatory (h : Fails s) : Declines n [mandatory n s] := fun f =>
  .inr (h.refused f True [])

theorem optional (h : Fails s) : Declines n [optional n s] := by
  intro f
  obtain ⟨res, hs, -⟩ := h f
  refine .inl ?_
  rw [foldlM_single]
  unfold Windrunner.optional
  rw [hs]

theorem bags {bs : List Nat} {s : Nat → Fill → Except InventoryResult Fill}
    (h : ∀ b, Fails (s b)) : Declines n (bs.map fun b => Windrunner.optional n (s b)) := by
  induction bs with
  | nil => exact nil
  | cons b bs ih => exact cons (optional (h b)) ih

end Declines

theorem refused_refuseIf {res : InventoryResult} (h1 : res ≠ .ok) (h2 : res ≠ .inventoryFull)
    (f : Fill) (ts : List Search) :
    Refused n True f ((refuseIf true res :: ts).foldlM (fun f s => s f) f) :=
  Refused.cons
    ⟨res, none, h1, h2, .inr ⟨trivial, rfl⟩, by rw [foldlM_single]; rfl⟩ ts

section NonEmptyBag

variable {b e skipBag skipSlot : Nat} {nonSpecialized : Bool}

theorem fails_inventorySlots (hne : inv.isNonEmptyBag src = true) :
    Fails (inv.canStoreItemInInventorySlots proto src b e merge skipBag skipSlot) := fun _ =>
  ⟨_, if_pos hne, by decide, by decide⟩

theorem fails_bag (h : inv.isNonEmptyBag src = true ∨ inv.opensBag proto src b = false) :
    Fails (inv.canStoreItemInBag proto src b merge nonSpecialized skipBag skipSlot) := by
  intro f
  by_cases hc : b = skipBag ∨ inv.opensBag proto src b = false ∨ inv.plainAt b ≠ nonSpecialized
  · exact canStoreItemInBag_closed hc f
  · simp only [not_or, Bool.not_eq_false, not_not] at hc
    obtain ⟨hb, ho, -⟩ := hc
    have hne : inv.isNonEmptyBag src = true := h.resolve_right (by rw [ho]; decide)
    unfold opensBag at ho
    unfold canStoreItemInBag
    cases ht : inv.topItem b with
    | none => rw [ht] at ho; cases ho
    | some pBag =>
      rw [ht] at ho
      simp only [Bool.and_eq_true, Bool.not_eq_true'] at ho
      refine ⟨.canOnlyDoWithEmptyBags, ?_, by decide, by decide⟩
      simp only [if_neg hb, ho.1, hne, Bool.false_eq_true, if_true, if_false]

/-- A bag with contents is refused, whatever place is requested. -/
theorem refused_nonEmptyBag (hne : inv.isNonEmptyBag src = true) (f : Fill) :
    Refused n True f ((inv.searches proto src bag slot swap n).foldlM (fun f s => s f) f) := by
  have hslot : Declines n (inv.specificSlotSearches proto src bag slot swap n) := by
    unfold specificSlotSearches
    refine .ite (.cons (fun f => ?_) (.mandatory fun f =>
      ⟨_, if_pos hne, by decide, by decide⟩))
    cases h : (bag == inventorySlotBag0 && decide (lastItemSlot < slot)) with
    | true => exact .inr (refused_refuseIf (by decide) (by decide) f [])
    | false => exact .inl rfl
  have hslots : ∀ {b e skipBag skipSlot : Nat} {merge : Bool}, Declines n [mandatory n
      (inv.canStoreItemInInventorySlots proto src b e merge skipBag skipSlot)] :=
    .mandatory (fails_inventorySlots hne)
  have hbags : ∀ {nonSpecialized merge : Bool}, Declines n (bagSlots.map fun i => optional n
      (inv.canStoreItemInBag proto src i merge nonSpecialized bag slot)) :=
    .bags fun _ => fails_bag (.inl hne)
  have hor : ∀ {merge : Bool}, Declines n [mandatory n
      (orElseSearch (inv.canStoreItemInBag proto src bag merge false nullBag slot)
        (inv.canStoreItemInBag proto src bag merge true nullBag slot))] :=
    .mandatory ((fails_bag (.inl hne)).orElse (fails_bag (.inl hne)))
  have hbag : Declines n (inv.specificBagSearches proto src bag slot n) := by
    unfold specificBagSearches
    refine .ite ?_
    split_ifs
    · exact .append (.cons hslots hslots) (.append hslots hslots)
    · exact .append (.cons hslots hslots) (.append .nil hslots)
    · exact .append hor hor
    · exact .append .nil (.append hslots hslots)
    · exact .append .nil (.append .nil hslots)
    · exact .append .nil hor
  have hmerge : Declines n (inv.mergeSearches proto src bag slot n) :=
    .ite (.append (.append (.cons hslots hslots) (.ite hbags)) hbags)
  have hspecial : Declines n (inv.specialBagSearches proto src bag slot n) :=
    .ite (.append (.ite hslots) hbags)
  unfold searches
  obtain h | h := (((hslot.append hbag).append hmerge).append hspecial) f
  · rw [foldlM_append, h]
    change Refused n True f ((inv.freeSlotSearches proto src bag slot n).foldlM (fun f s => s f) f)
    unfold freeSlotSearches
    rw [hne, cons_append]
    exact refused_refuseIf (by decide) (by decide) f _
  · exact h.append _

end NonEmptyBag

/-- The requested slot does not take the item. -/
theorem refused_slot (hslot : inv.slotOpen proto src bag slot swap = false) (f : Fill) :
    Refused n True f ((inv.searches proto src bag slot swap n).foldlM (fun f s => s f) f) := by
  unfold slotOpen at hslot
  simp only [Bool.or_eq_false_iff, beq_eq_false_iff_ne] at hslot
  obtain ⟨⟨hb, hs⟩, hslot⟩ := hslot
  unfold searches
  simp only [append_assoc]
  refine Refused.append ?_ _
  unfold specificSlotSearches
  rw [if_pos ⟨hb, hs⟩]
  cases hl : (bag == inventorySlotBag0 && decide (lastItemSlot < slot)) with
  | true => exact refused_refuseIf (by decide) (by decide) f _
  | false =>
    rw [hl, Bool.not_false, Bool.true_and] at hslot
    refine Fails.refused (fun f => ?_) f True []
    unfold takesSlot at hslot
    unfold canStoreItemInSpecificSlot
    by_cases hne : inv.isNonEmptyBag src = true
    · exact ⟨_, if_pos hne, by decide, by decide⟩
    simp only [if_neg hne]
    cases hi : (if swap then none else inv.itemBut src (bag, slot)) with
    | none =>
      rw [hi] at hslot
      dsimp only at hslot
      exact ⟨_, if_neg (by rw [hslot]; decide), by decide, by decide⟩
    | some it =>
      rw [hi] at hslot
      have hm : it.canBeMergedPartlyWith proto ≠ .ok := by simpa using hslot
      refine ⟨it.canBeMergedPartlyWith proto, ?_, hm, ?_⟩
      · dsimp only
        split
        · rename_i h; exact absurd h hm
        · rfl
      · unfold Item.canBeMergedPartlyWith
        split_ifs <;> decide

/-- The requested bag does not take the item. -/
theorem refused_bag (inv : Inventory db) (slot : Nat) (hb : inv.bagOpen proto src bag = false)
    (f : Fill) (ts : List Search) :
    Refused n False f ((inv.specificBagSearches proto src bag slot n ++ ts).foldlM
      (fun f s => s f) f) := by
  unfold bagOpen at hb
  simp only [Bool.or_eq_false_iff, beq_eq_false_iff_ne] at hb
  obtain ⟨⟨h0, h255⟩, hopen⟩ := hb
  have hor : ∀ {merge : Bool}, Fails
      (orElseSearch (inv.canStoreItemInBag proto src bag merge false nullBag slot)
        (inv.canStoreItemInBag proto src bag merge true nullBag slot)) :=
    (fails_bag (.inr hopen)).orElse (fails_bag (.inr hopen))
  refine Refused.append ?_ ts
  unfold specificBagSearches
  rw [if_pos h0, if_neg h255]
  split_ifs
  · exact Fails.refused hor f False _
  · exact Fails.refused hor f False _

/-! ## The answer -/

/-- How a request ends that leaves `left` units unplaced, `n` more being above the limit of the
entry: the result and `no_space_count`. -/
inductive Ending (n left : UInt32) (capacity : Nat) (isOpen : Bool) :
    InventoryResult → Option UInt32 → Prop
  | settled (h : left = 0) (hn : n = 0) : Ending n left capacity isOpen .ok none
  | overLimit (h : left = 0) (hn : n ≠ 0) :
      Ending n left capacity isOpen .cantCarryMoreOfThis (some n)
  | full (h : left ≠ 0) (ho : isOpen = true) :
      Ending n left capacity isOpen .inventoryFull (some (left + n))
  | refused {res : InventoryResult} (ho : isOpen = false) (h1 : res ≠ .ok)
      (h2 : res ≠ .inventoryFull) (hl : left = 0 → capacity = 0) :
      Ending n left capacity isOpen res (some (left + n))
  | silent {res : InventoryResult} (ho : isOpen = false) (h1 : res ≠ .ok)
      (h2 : res ≠ .inventoryFull) (hc : capacity = 0) : Ending n left capacity isOpen res none

/-- An answer to a request of `c` units: as many are placed as there is room for. -/
structure Ends (n c : UInt32) (capacity : Nat) (isOpen : Bool) (a : CanStore) : Prop where
  sum : (a.dest.map (·.count.toNat)).sum = min c.toNat capacity
  ending : ∃ left : UInt32, left.toNat = c.toNat - capacity ∧
    Ending n left capacity isOpen a.res a.noSpaceCount

theorem settle_error {a : CanStore} (h0 : f.count = 0) (h : settle n f = .error a)
    (capacity : Nat) (isOpen : Bool) :
    a.dest = f.dest ∧ Ending n f.count capacity isOpen a.res a.noSpaceCount := by
  unfold settle at h
  rw [if_pos h0] at h
  split_ifs at h with hn
  · cases h
    exact ⟨rfl, .settled h0 hn⟩
  · cases h
    rw [h0, UInt32.zero_add]
    exact ⟨rfl, .overLimit rfl hn⟩

/-- After a mandatory search units are left, or the check has answered. -/
theorem refuseIf_mandatory_left {b : Bool} {res : InventoryResult}
    (h : [refuseIf b res, mandatory n s].foldlM (fun f s => s f) f = .ok f') : f'.count ≠ 0 := by
  rw [foldlM_cons] at h
  unfold refuseIf at h
  split_ifs at h
  · cases h
  · change [mandatory n s].foldlM (fun f s => s f) f = .ok f' at h
    rw [foldlM_single] at h
    unfold mandatory at h
    split at h
    · cases h
    · unfold settle at h
      split_ifs at h with h0
      cases h
      exact h0

theorem searches_left (h : (inv.searches proto src bag slot swap n).foldlM (fun f s => s f) f =
    .ok f') : f'.count ≠ 0 := by
  have hbags : ∀ (bs : List Nat) (g : Fill), g.count ≠ 0 →
      (bs.map fun i => optional n (inv.canStoreItemInBag proto src i false true bag slot)).foldlM
        (fun f s => s f) g = .ok f' → f'.count ≠ 0 := by
    intro bs
    induction bs with
    | nil => rintro g hg ⟨⟩; exact hg
    | cons b bs ih =>
      intro g hg hr
      rw [map_cons, foldlM_cons] at hr
      cases ho : optional n (inv.canStoreItemInBag proto src b false true bag slot) g with
      | error a => rw [ho] at hr; cases hr
      | ok g' =>
        rw [ho] at hr
        refine ih g' ?_ hr
        unfold optional at ho
        split at ho
        · cases ho; exact hg
        · unfold settle at ho
          split_ifs at ho with h0
          cases ho
          exact h0
  unfold searches at h
  rw [foldlM_append] at h
  cases hpre : (inv.specificSlotSearches proto src bag slot swap n ++
    inv.specificBagSearches proto src bag slot n ++ inv.mergeSearches proto src bag slot n ++
      inv.specialBagSearches proto src bag slot n).foldlM (fun f s => s f) f with
  | error a => rw [hpre] at h; cases h
  | ok g =>
    rw [hpre] at h
    change (inv.freeSlotSearches proto src bag slot n).foldlM (fun f s => s f) g = .ok f' at h
    unfold freeSlotSearches at h
    rw [foldlM_append] at h
    cases hm : [refuseIf (inv.isNonEmptyBag src) .nonemptyBagOverOtherBag,
      mandatory n (inv.canStoreItemInInventorySlots proto src inventorySlotItemStart
        inventorySlotItemEnd false bag slot)].foldlM (fun f s => s f) g with
    | error a => rw [hm] at h; cases h
    | ok g' =>
      rw [hm] at h
      exact hbags _ g' (refuseIf_mandatory_left hm) h

theorem refines_end (h : f.Refines ((Alloc.start c.toNat).offerAll room ps)) :
    (f.dest.map (·.count.toNat)).sum = min c.toNat (∑ p ∈ ps.toFinset, room p) ∧
      f.count.toNat = c.toNat - ∑ p ∈ ps.toFinset, room p :=
  ⟨by rw [h.sum, Alloc.offerAll_total], by rw [h.left, Alloc.offerAll_left]⟩

/-- Requests that are refused at once. -/
theorem ends_of_refused (hcap : inv.capacity proto src bag slot swap = 0)
    (ho : inv.requestOpen proto src bag slot swap = false)
    (h : Refused n True ⟨[], c⟩ ((inv.searches proto src bag slot swap n).foldlM
      (fun f s => s f) ⟨[], c⟩)) :
    Ends n c (inv.capacity proto src bag slot swap) (inv.requestOpen proto src bag slot swap)
      (runSearches (inv.searches proto src bag slot swap n) n ⟨[], c⟩) := by
  obtain ⟨res, o, h1, h2, h3, heq⟩ := h
  unfold runSearches
  rw [heq, hcap, ho]
  refine ⟨by simp, c, by simp, ?_⟩
  obtain rfl | ⟨-, rfl⟩ := h3
  · exact .refused rfl h1 h2 fun _ => rfl
  · exact .silent rfl h1 h2 rfl

/-- A request of `c` units places as many of them as there is room for, and answers accordingly. -/
theorem runSearches_ends (inv : Inventory db) (proto : ItemPrototype) (src : Source db)
    (bag slot : Nat) (swap : Bool) (n c : UInt32) :
    Ends n c (inv.capacity proto src bag slot swap) (inv.requestOpen proto src bag slot swap)
      (runSearches (inv.searches proto src bag slot swap n) n ⟨[], c⟩) := by
  cases hne : inv.isNonEmptyBag src with
  | true =>
    refine ends_of_refused ?_ ?_ (refused_nonEmptyBag hne _)
    · simp [capacity, reached, hne]
    · simp [requestOpen, hne]
  | false =>
  cases hslot : inv.slotOpen proto src bag slot swap with
  | false =>
    refine ends_of_refused ?_ ?_ (refused_slot hslot _)
    · simp [capacity, reached, hne, hslot]
    · simp [requestOpen, hne, hslot]
  | true =>
  have hstart := Fill.refines_start c
  cases hbag : inv.bagOpen proto src bag with
  | false =>
    have hopen : inv.requestOpen proto src bag slot swap = false := by
      simp [requestOpen, hne, hslot, hbag]
    have hcap : inv.capacity proto src bag slot swap =
        ∑ p ∈ (requestedSlot bag slot).toFinset, inv.roomAt proto src bag slot swap p := by
      simp [capacity, reached, hne, hslot, hbag]
    obtain ⟨ps, hcov, hmem⟩ := reaches_specificSlot (n := n) hne hslot
    have hps : ps.toFinset = (requestedSlot bag slot).toFinset := by
      ext p; simp only [mem_toFinset, hmem]
    rw [hopen, hcap, ← hps]
    have hrun := hcov _ _ hstart
    unfold runSearches searches
    simp only [append_assoc]
    rw [foldlM_append]
    cases hs : (inv.specificSlotSearches proto src bag slot swap n).foldlM (fun f s => s f)
        (⟨[], c⟩ : Fill) with
    | error a =>
      rw [hs] at hrun
      obtain ⟨f', hr, hz, ha⟩ := hrun
      obtain ⟨h1, h2⟩ := refines_end hr
      obtain ⟨hd, hend⟩ := settle_error hz ha
        (∑ p ∈ ps.toFinset, inv.roomAt proto src bag slot swap p) false
      exact ⟨by rw [← h1, ← hd]; rfl, f'.count, h2, hend⟩
    | ok f' =>
      rw [hs] at hrun
      obtain ⟨h1, h2⟩ := refines_end hrun
      obtain ⟨res, o, hr1, hr2, hr3, heq⟩ := inv.refused_bag slot hbag f'
        (inv.mergeSearches proto src bag slot n ++ (inv.specialBagSearches proto src bag slot n ++
          inv.freeSlotSearches proto src bag slot n))
      obtain rfl := hr3.resolve_right fun h => h.1
      dsimp only [bind, Except.bind]
      rw [heq]
      refine ⟨h1, f'.count, h2, .refused rfl hr1 hr2 fun hz => ?_⟩
      rw [hps]
      unfold specificSlotSearches at hs
      unfold requestedSlot
      split_ifs at hs ⊢
      · exact absurd hz (refuseIf_mandatory_left hs)
      · rfl
  | true =>
    have hopen : inv.requestOpen proto src bag slot swap = true := by
      simp [requestOpen, hne, hslot, hbag]
    have hcap : inv.capacity proto src bag slot swap =
        ∑ p ∈ (inv.searchedSlots proto src bag slot).toFinset,
          inv.roomAt proto src bag slot swap p := by
      simp [capacity, reached, hne, hslot, hbag]
    obtain ⟨ps, hcov, hmem⟩ := reaches_searches (n := n) hopen
    have hps : ps.toFinset = (inv.searchedSlots proto src bag slot).toFinset := by
      ext p; simp only [mem_toFinset, hmem]
    rw [hopen, hcap, ← hps]
    have hrun := hcov _ _ hstart
    unfold runSearches
    cases hs : (inv.searches proto src bag slot swap n).foldlM (fun f s => s f)
        (⟨[], c⟩ : Fill) with
    | error a =>
      rw [hs] at hrun
      obtain ⟨f', hr, hz, ha⟩ := hrun
      obtain ⟨h1, h2⟩ := refines_end hr
      obtain ⟨hd, hend⟩ := settle_error hz ha
        (∑ p ∈ ps.toFinset, inv.roomAt proto src bag slot swap p) true
      exact ⟨by rw [← h1, ← hd], f'.count, h2, hend⟩
    | ok f' =>
      rw [hs] at hrun
      obtain ⟨h1, h2⟩ := refines_end hrun
      exact ⟨h1, f'.count, h2, .full (searches_left hs) rfl⟩

end Inventory

end Windrunner
