import Windrunner.Inventory.Store

/-!
# Where `_CanStoreItem` puts an item

* `Triple n P ss Q`: a sequence of searches takes fills with `P` to fills with `Q`, whether it goes on
  or answers `EQUIP_ERR_OK`. The rules follow the ways the searches are put together.
* `Keeps n P ss`: the same for one property `P`, about every answer, accepted or not.
* `Kept`: what every fill on the way satisfies: distinct destinations that fit, and no unit lost
  between them and the count still to be placed.
* `Closed`, `keeps_searches`: a property of fills that recording one destination keeps is kept by
  the whole sequence of searches.
* `canStoreItem_ok`: an accepted request went through the sequence with its whole count.
-/

namespace Windrunner

open Lib List

variable {db : ItemDb}

/-! ## Rules for sequences of searches -/

/-- From a fill with `P` and units to place, the searches go on with `Q`, or answer; an answer
`EQUIP_ERR_OK` has a fill with `Q` and no unit left, and none was above the limit of the entry. -/
def Triple (n : UInt32) (P : Fill → Prop) (ss : List Search) (Q : Fill → Prop) : Prop :=
  ∀ f, P f → f.count ≠ 0 →
    match ss.foldlM (fun f s => s f) f with
    | .ok f' => Q f' ∧ f'.count ≠ 0
    | .error a => a.res = .ok → n = 0 ∧ ∃ f', Q f' ∧ f'.count = 0 ∧ a.dest = f'.dest

/-- A search takes fills with `P` to fills with `Q`, and never fails with `EQUIP_ERR_OK`. -/
structure Finds (P : Fill → Prop) (s : Fill → Except InventoryResult Fill) (Q : Fill → Prop) :
    Prop where
  found : ∀ f f', P f → f.count ≠ 0 → s f = .ok f' → Q f'
  failed : ∀ f res, s f = .error res → res ≠ .ok

namespace Triple

variable {P Q R : Fill → Prop} {ss ts : List Search} {n : UInt32}
  {s : Fill → Except InventoryResult Fill}

theorem nil : Triple n P [] P := fun _ hP h0 => ⟨hP, h0⟩

theorem append (h₁ : Triple n P ss Q) (h₂ : Triple n Q ts R)
    (hans : ∀ f, Q f → f.count = 0 → R f) : Triple n P (ss ++ ts) R := by
  intro f hP h0
  have h := h₁ f hP h0
  rw [foldlM_append]
  cases hf : ss.foldlM (fun f s => s f) f with
  | error a =>
    rw [hf] at h
    intro ha
    obtain ⟨hn, f', hQ, hz, hd⟩ := h ha
    exact ⟨hn, f', hans f' hQ hz, hz, hd⟩
  | ok f' =>
    rw [hf] at h
    exact h₂ f' h.1 h.2

/-- Two sequences that keep a property, one after the other. -/
theorem seq (h₁ : Triple n P ss P) (h₂ : Triple n P ts P) : Triple n P (ss ++ ts) P :=
  h₁.append h₂ fun _ h _ => h

theorem settle_cases {f : Fill} (hQ : Q f) :
    match settle n f with
    | .ok f' => Q f' ∧ f'.count ≠ 0
    | .error a => a.res = .ok → n = 0 ∧ ∃ f', Q f' ∧ f'.count = 0 ∧ a.dest = f'.dest := by
  unfold settle
  by_cases h0 : f.count = 0
  · rw [if_pos h0]
    split_ifs with hn
    · exact fun _ => ⟨hn, f, hQ, h0, rfl⟩
    · exact nofun
  · rw [if_neg h0]; exact ⟨hQ, h0⟩

theorem single {s : Search} :
    Triple n P [s] Q ↔ ∀ f, P f → f.count ≠ 0 →
      match s f with
      | .ok f' => Q f' ∧ f'.count ≠ 0
      | .error a => a.res = .ok → n = 0 ∧ ∃ f', Q f' ∧ f'.count = 0 ∧ a.dest = f'.dest := by
  have heq : ∀ f : Fill, foldlM (fun f s => s f) f [s] = s f := fun f => by
    simp only [foldlM_cons, foldlM_nil]
    exact bind_pure (s f)
  simp only [Triple, heq]

theorem mandatory (h : Finds P s Q) : Triple n P [mandatory n s] Q := by
  refine single.mpr fun f hP h0 => ?_
  unfold Windrunner.mandatory
  cases hs : s f with
  | error res => exact fun ha => absurd ha (h.failed f res hs)
  | ok f' => exact settle_cases (h.found f f' hP h0 hs)

/-- After a check that did not refuse. -/
theorem refuseIf_cons {c : Bool} {res : InventoryResult} (h : res ≠ .ok)
    (hs : c = false → Triple n P ss Q) : Triple n P (Windrunner.refuseIf c res :: ss) Q := by
  intro f hP h0
  rw [foldlM_cons]
  cases c with
  | true => exact fun ha => absurd ha h
  | false => exact hs rfl f hP h0

end Triple

theorem Finds.orElse {P Q : Fill → Prop} {s t : Fill → Except InventoryResult Fill}
    (hs : Finds P s Q) (ht : Finds P t Q) : Finds P (orElseSearch s t) Q := by
  constructor
  · intro f f' hP h0 h
    unfold orElseSearch at h
    cases hf : s f with
    | ok f'' => rw [hf] at h; cases h; exact hs.found f _ hP h0 hf
    | error _ => rw [hf] at h; exact ht.found f f' hP h0 h
  · intro f res h
    unfold orElseSearch at h
    cases hf : s f with
    | ok f'' => rw [hf] at h; cases h
    | error _ => rw [hf] at h; exact ht.failed f res h

/-- An accepted placement comes from a fill that the searches lead to. -/
theorem Triple.runSearches {P Q : Fill → Prop} {ss : List Search} {n : UInt32} {f : Fill}
    (h : Triple n P ss Q) (hP : P f) (h0 : f.count ≠ 0)
    (hok : (Inventory.runSearches ss n f).res = .ok) :
    n = 0 ∧ ∃ f', Q f' ∧ f'.count = 0 ∧ (Inventory.runSearches ss n f).dest = f'.dest := by
  have := h f hP h0
  unfold Inventory.runSearches at hok ⊢
  cases hf : ss.foldlM (fun f s => s f) f with
  | ok f' => rw [hf] at hok; cases hok
  | error a => rw [hf] at this hok; exact this hok

/-! ## What every answer comes from -/

/-- From a fill with `P` and units to place, the searches go on with `P`, or answer with the
destinations of a fill with `P`: an answer `EQUIP_ERR_OK` has no unit left and none above the limit
of the entry, and `no_space_count` is what is left and what is above. -/
def Keeps (n : UInt32) (P : Fill → Prop) (ss : List Search) : Prop :=
  ∀ f, P f → f.count ≠ 0 →
    match ss.foldlM (fun f s => s f) f with
    | .ok f' => P f' ∧ f'.count ≠ 0
    | .error a => ∃ f', P f' ∧ a.dest = f'.dest ∧ (a.res = .ok → n = 0 ∧ f'.count = 0) ∧
        ∀ k ∈ a.noSpaceCount, k = f'.count + n

namespace Keeps

variable {P : Fill → Prop} {ss ts : List Search} {n : UInt32}
  {s : Fill → Except InventoryResult Fill}

theorem nil : Keeps n P [] := fun _ hP h0 => ⟨hP, h0⟩

/-- Two sequences, one after the other. -/
theorem seq (h₁ : Keeps n P ss) (h₂ : Keeps n P ts) : Keeps n P (ss ++ ts) := by
  intro f hP h0
  have h := h₁ f hP h0
  rw [foldlM_append]
  cases hf : ss.foldlM (fun f s => s f) f with
  | error a => rw [hf] at h; exact h
  | ok f' =>
    rw [hf] at h
    exact h₂ f' h.1 h.2

theorem cons {s : Search} (h₁ : Keeps n P [s]) (h₂ : Keeps n P ss) : Keeps n P (s :: ss) :=
  seq h₁ h₂

theorem of_forall (h : ∀ s ∈ ss, Keeps n P [s]) : Keeps n P ss := by
  induction ss with
  | nil => exact nil
  | cons s ss ih =>
    exact cons (h s (mem_cons_self ..)) (ih fun t ht => h t (mem_cons_of_mem _ ht))

theorem settle_cases {f : Fill} (hP : P f) :
    match settle n f with
    | .ok f' => P f' ∧ f'.count ≠ 0
    | .error a => ∃ f', P f' ∧ a.dest = f'.dest ∧ (a.res = .ok → n = 0 ∧ f'.count = 0) ∧
        ∀ k ∈ a.noSpaceCount, k = f'.count + n := by
  unfold settle
  by_cases h0 : f.count = 0
  · rw [if_pos h0]
    split_ifs with hn
    · exact ⟨f, hP, rfl, fun _ => ⟨hn, h0⟩, by simp⟩
    · exact ⟨f, hP, rfl, nofun, by simp⟩
  · rw [if_neg h0]; exact ⟨hP, h0⟩

theorem single {s : Search} (h : ∀ f, P f → f.count ≠ 0 →
      match s f with
      | .ok f' => P f' ∧ f'.count ≠ 0
      | .error a => ∃ f', P f' ∧ a.dest = f'.dest ∧ (a.res = .ok → n = 0 ∧ f'.count = 0) ∧
          ∀ k ∈ a.noSpaceCount, k = f'.count + n) : Keeps n P [s] := by
  intro f hP h0
  rw [show foldlM (fun f s => s f) f [s] = s f by
    simp only [foldlM_cons, foldlM_nil]
    exact bind_pure (s f)]
  exact h f hP h0

theorem mandatory (h : Finds P s P) : Keeps n P [mandatory n s] := by
  refine single fun f hP h0 => ?_
  unfold Windrunner.mandatory
  cases hs : s f with
  | error res => exact ⟨f, hP, rfl, fun ha => absurd ha (h.failed f res hs), by simp⟩
  | ok f' => exact settle_cases (h.found f f' hP h0 hs)

theorem optional (h : Finds P s P) : Keeps n P [optional n s] := by
  refine single fun f hP h0 => ?_
  unfold Windrunner.optional
  cases hs : s f with
  | error res => exact ⟨hP, h0⟩
  | ok f' => exact settle_cases (h.found f f' hP h0 hs)

theorem refuseIf {c : Bool} {res : InventoryResult} (h : res ≠ .ok) :
    Keeps n P [refuseIf c res] := by
  refine single fun f hP h0 => ?_
  unfold Windrunner.refuseIf
  cases c with
  | true => exact ⟨f, hP, rfl, fun ha => absurd ha h, by simp⟩
  | false => exact ⟨hP, h0⟩

/-- After a check that did not refuse. -/
theorem refuseIf_cons {c : Bool} {res : InventoryResult} (h : res ≠ .ok)
    (hs : c = false → Keeps n P ss) : Keeps n P (Windrunner.refuseIf c res :: ss) := by
  cases c with
  | true => exact fun f hP h0 => ⟨f, hP, rfl, fun ha => absurd ha h, by simp⟩
  | false => exact cons (refuseIf h) (hs rfl)

theorem triple (h : Keeps n P ss) : Triple n P ss P := by
  intro f hP h0
  have := h f hP h0
  cases hf : ss.foldlM (fun f s => s f) f with
  | ok f' => rw [hf] at this; exact this
  | error a =>
    rw [hf] at this
    obtain ⟨f', hP', hd, hok, -⟩ := this
    exact fun ha => ⟨(hok ha).1, f', hP', (hok ha).2, hd⟩

/-- The destinations of an answer, accepted or not. -/
theorem runSearches {f : Fill} (h : Keeps n P ss) (hP : P f) (h0 : f.count ≠ 0) :
    ∃ f', P f' ∧ (Inventory.runSearches ss n f).dest = f'.dest := by
  have := h f hP h0
  unfold Inventory.runSearches
  cases hf : ss.foldlM (fun f s => s f) f with
  | ok f' => rw [hf] at this; exact ⟨f', this.1, rfl⟩
  | error a =>
    rw [hf] at this
    obtain ⟨f', hP', hd, -⟩ := this
    exact ⟨f', hP', hd⟩

end Keeps

/-! ## What a fill satisfies on the way -/

namespace Inventory

variable {inv : Inventory db} {proto : ItemPrototype} {src : Source db} {p : Pos} {f f' : Fill}
  {bag slot N : Nat} {merge : Bool}

/-- An empty slot the item may go to: a slot of `m_items`, the keyring for keys only, or a slot of a
bag other than the item itself that is large enough and takes the item's family. -/
def Allowed (inv : Inventory db) (src : Source db) (proto : ItemPrototype) (p : Pos) : Prop :=
  if p.1 = inventorySlotBag0 then
    isItemSlot p.2 = true ∧
      (keyringSlotStart ≤ p.2 → p.2 < keyringSlotEnd → proto.bagFamily = bagFamilyKeys)
  else
    ∃ bag, inv.itemBut src (inventorySlotBag0, p.1) = some bag ∧ p.2 < bag.bagSize ∧
      itemCanGoIntoBag proto bag.proto = true

/-- The destination `d` is an allowed empty slot, or a stack of the same entry with enough room. -/
structure Fits (inv : Inventory db) (src : Source db) (proto : ItemPrototype) (d : ItemPosCount) :
    Prop where
  pos : 0 < d.count.toNat
  empty : inv.itemBut src d.pos = none →
    inv.Allowed src proto d.pos ∧ d.count.toNat ≤ proto.stackable.toNat
  stack : ∀ it, inv.itemBut src d.pos = some it →
    it.entry = proto.itemId ∧ it.count.toNat + d.count.toNat ≤ proto.stackable.toNat

/-- The destinations found so far and the `f.count` units left make up a request of `N` units. -/
structure Kept (inv : Inventory db) (src : Source db) (proto : ItemPrototype) (bag N : Nat)
    (f : Fill) : Prop where
  distinct : (f.dest.map (·.pos)).Nodup
  exact : (f.dest.map (·.count.toNat)).sum + f.count.toNat = N
  fits : ∀ d ∈ f.dest, inv.Fits src proto d
  /-- Only the requested bag can be one that the code does not look into. -/
  seen : ∀ d ∈ f.dest, visible d.pos = true ∨ (d.pos.1 = bag ∧ bag ≠ nullBag)
  /-- A bag with contents is never placed. -/
  emptied : f.dest ≠ [] → inv.isNonEmptyBag src = false

variable {n count : UInt32} {skipSlot skipBag b : Nat} {nonSpecialized : Bool}

theorem toNat_make {p : Pos} (h : n.toNat < 256) :
    (ItemPosCount.make p n).count.toNat = n.toNat := by
  unfold ItemPosCount.make
  rw [UInt8.toNat_toUInt32, toNat_toUInt8 h]

/-- The units in a slot that may be empty. -/
def held (it : Option (Item db)) : UInt32 := it.elim 0 (·.count)

theorem needSpace_spec (h : n.toNat < proto.stackable.toNat) (h0 : count ≠ 0) :
    0 < (needSpace proto n count).toNat ∧
      n.toNat + (needSpace proto n count).toNat ≤ proto.stackable.toNat ∧
      (needSpace proto n count).toNat ≤ count.toNat := by
  have h1 := ne_zero_toNat.mp h0
  have h2 := toNat_sub (a := proto.stackable) (b := n) (by omega)
  unfold needSpace
  simp only [toNat_ite_gt]
  omega

/-- One destination is recorded: what a search can do to a fill. -/
structure Records (inv : Inventory db) (src : Source db) (proto : ItemPrototype) (bag : Nat)
    (p : Pos) (f f' : Fill) : Prop where
  push : f.push p (needSpace proto (held (inv.itemBut src p)) f.count) = some f'
  le : (needSpace proto (held (inv.itemBut src p)) f.count).toNat ≤ f.count.toNat
  small : (needSpace proto (held (inv.itemBut src p)) f.count).toNat < 256
  fits : inv.Fits src proto (.make p (needSpace proto (held (inv.itemBut src p)) f.count))
  seen : visible p = true ∨ (p.1 = bag ∧ bag ≠ nullBag)
  emptied : inv.isNonEmptyBag src = false

theorem records_of_room (h0 : f.count ≠ 0)
    (hroom : (held (inv.itemBut src p)).toNat < proto.stackable.toNat)
    (hempty : inv.itemBut src p = none → inv.Allowed src proto p)
    (hstack : ∀ it, inv.itemBut src p = some it → it.entry = proto.itemId)
    (hp : f.push p (needSpace proto (held (inv.itemBut src p)) f.count) = some f')
    (hseen : visible p = true ∨ (p.1 = bag ∧ bag ≠ nullBag))
    (hne : inv.isNonEmptyBag src = false) : inv.Records src proto bag p f f' := by
  obtain ⟨h1, h2, h3⟩ := needSpace_spec hroom h0
  have h4 := proto.stackable_le
  have hmake := toNat_make (p := p) (n := needSpace proto (held (inv.itemBut src p)) f.count)
    (by omega)
  refine ⟨hp, h3, by omega, ⟨by omega, fun hn => ⟨hempty hn, by omega⟩, fun it hit => ?_⟩, hseen, hne⟩
  refine ⟨hstack it hit, ?_⟩
  rw [hmake, show it.count = held (inv.itemBut src p) by
    rw [show inv.itemBut src p = some it from hit]; rfl]
  exact h2

theorem records_empty (h0 : f.count ≠ 0) (hi : inv.itemBut src p = none)
    (ha : inv.Allowed src proto p) (hp : f.push p (needSpace proto 0 f.count) = some f')
    (hseen : visible p = true ∨ (p.1 = bag ∧ bag ≠ nullBag))
    (hne : inv.isNonEmptyBag src = false) : inv.Records src proto bag p f f' := by
  have hheld : held (inv.itemBut src p) = 0 := by rw [hi]; rfl
  refine records_of_room h0 ?_ (fun _ => ha) (by simp [hi]) (by rw [hheld]; exact hp) hseen hne
  rw [hheld]; exact proto.stackable_pos

theorem records_stack {it : Item db} (h0 : f.count ≠ 0) (hi : inv.itemBut src p = some it)
    (hm : it.canBeMergedPartlyWith proto = .ok)
    (hp : f.push p (needSpace proto it.count f.count) = some f')
    (hseen : visible p = true ∨ (p.1 = bag ∧ bag ≠ nullBag))
    (hne : inv.isNonEmptyBag src = false) : inv.Records src proto bag p f f' := by
  have hheld : held (inv.itemBut src p) = it.count := by rw [hi]; rfl
  obtain ⟨he, hlt, -⟩ := Item.canBeMergedPartlyWith_ok hm
  refine records_of_room h0 ?_ (by simp [hi]) (fun it' hi' => ?_) (by rw [hheld]; exact hp) hseen hne
  · rw [hheld]; exact lt_toNat.mp hlt
  · rw [hi] at hi'
    cases hi'
    exact he

/-- A property of fills that recording a destination keeps. -/
def Closed (inv : Inventory db) (src : Source db) (proto : ItemPrototype) (bag : Nat)
    (P : Fill → Prop) : Prop :=
  ∀ f f' p, P f → inv.Records src proto bag p f f' → P f'

/-- What is recorded, and what it leaves to be placed. -/
theorem Records.eq (hr : inv.Records src proto bag p f f') :
    ∃ d, d.pos = p ∧ inv.Fits src proto d ∧ (∀ d' ∈ f.dest, d'.pos ≠ p) ∧ f'.dest = f.dest ++ [d] ∧
      d.count.toNat + f'.count.toNat = f.count.toNat := by
  have hp := hr.push
  unfold Fill.push at hp
  split_ifs at hp with hany
  cases hp
  have hsub := toNat_sub hr.le
  have hmake := toNat_make (p := p) hr.small
  refine ⟨_, rfl, hr.fits, by simpa using hany, rfl, ?_⟩
  have := hr.le
  simp only
  omega

theorem kept_closed : inv.Closed src proto bag (inv.Kept src proto bag N) := by
  intro f f' p h hr
  obtain ⟨d, rfl, hfits, hnew, hdest, hcount⟩ := hr.eq
  refine ⟨?_, ?_, ?_, ?_, fun _ => hr.emptied⟩
  · rw [hdest, map_append, nodup_append]
    refine ⟨h.distinct, by simp, ?_⟩
    rintro q hq r hr rfl
    obtain ⟨d', hd', rfl⟩ := mem_map.mp hq
    simp only [map_cons, map_nil, mem_singleton] at hr
    exact hnew d' hd' hr
  · rw [hdest, map_append, sum_append, map_cons, map_nil, sum_singleton]
    have := h.exact
    omega
  · intro d' hd'
    obtain hd' | hd' := mem_append.mp (hdest ▸ hd')
    · exact h.fits d' hd'
    · rw [mem_singleton.mp hd']; exact hfits
  · intro d' hd'
    obtain hd' | hd' := mem_append.mp (hdest ▸ hd')
    · exact h.seen d' hd'
    · rw [mem_singleton.mp hd']; exact hr.seen

/-- The destinations and what is left make up `N`, whatever was there at the start. -/
def SumsTo (N : Nat) (f : Fill) : Prop := (f.dest.map (·.count.toNat)).sum + f.count.toNat = N

theorem sumsTo_closed : inv.Closed src proto bag (SumsTo N) := by
  intro f f' p h hr
  obtain ⟨d, -, -, -, hdest, hcount⟩ := hr.eq
  unfold SumsTo at h ⊢
  rw [hdest, map_append, sum_append, map_cons, map_nil, sum_singleton]
  omega

/-- Every destination has units. -/
def NoneEmpty (f : Fill) : Prop := ∀ d ∈ f.dest, 0 < d.count.toNat

theorem noneEmpty_closed : inv.Closed src proto bag NoneEmpty := by
  intro f f' p h hr d' hd'
  obtain ⟨d, -, hfits, -, hdest, -⟩ := hr.eq
  obtain hd' | hd' := mem_append.mp (hdest ▸ hd')
  · exact h d' hd'
  · rw [mem_singleton.mp hd']; exact hfits.pos

/-- The slots a search goes through: seen, and allowed where the search takes empty ones. -/
def Slots (inv : Inventory db) (src : Source db) (proto : ItemPrototype) (bag : Nat) (merge : Bool)
    (ps : List Pos) : Prop :=
  ∀ p ∈ ps, (visible p = true ∨ (p.1 = bag ∧ bag ≠ nullBag)) ∧
    (merge = false → inv.itemBut src p = none → inv.Allowed src proto p)

theorem trySlot_records (h0 : f.count ≠ 0) (hne : inv.isNonEmptyBag src = false)
    (hs : inv.Slots src proto bag merge [p]) (ht : inv.trySlot proto src merge f p = some f') :
    inv.Records src proto bag p f f' := by
  obtain ⟨hseen, hallow⟩ := hs p (mem_singleton_self p)
  unfold Inventory.trySlot at ht
  cases hi : inv.itemBut src p with
  | none =>
    rw [hi] at ht
    cases merge with
    | true => simp at ht
    | false =>
      simp only [Option.isSome_none, bne_self_eq_false, Bool.false_eq_true, if_false] at ht
      exact records_empty h0 hi (hallow rfl hi) ht hseen hne
  | some it =>
    rw [hi] at ht
    cases merge with
    | false => simp at ht
    | true =>
      simp only [Option.isSome_some, bne_self_eq_false, Bool.false_eq_true, if_false] at ht
      split_ifs at ht with hm
      exact records_stack h0 hi (not_not.mp hm) ht hseen hne

variable {P : Fill → Prop}

theorem Closed.searchSlots {ps : List Pos} (hP : inv.Closed src proto bag P) (h : P f)
    (h0 : f.count ≠ 0) (hne : inv.isNonEmptyBag src = false)
    (hs : inv.Slots src proto bag merge ps) : P (inv.searchSlots proto src merge ps f) := by
  induction ps generalizing f with
  | nil => exact h
  | cons p ps ih =>
    have hps : inv.Slots src proto bag merge ps := fun q hq => hs q (mem_cons_of_mem _ hq)
    have hp : inv.Slots src proto bag merge [p] := fun q hq =>
      hs q (mem_singleton.mp hq ▸ mem_cons_self ..)
    unfold Inventory.searchSlots
    cases ht : inv.trySlot proto src merge f p with
    | none => exact ih h h0 hps
    | some f' =>
      have h' := hP f f' p h (trySlot_records h0 hne hp ht)
      by_cases hz : f'.count = 0
      · simpa only [hz, if_true] using h'
      · simpa only [hz, if_false] using ih h' hz hps

/-! ## The searches keep the invariant -/

theorem itemBut_some {it : Item db} (h : inv.itemBut src p = some it) :
    visible p = true ∧ src.isAt p = false := by
  unfold itemBut at h
  split_ifs at h with hs
  exact ⟨(getItemByPos_some h).1, by simpa using hs⟩

theorem itemBut_top {bag : Item db} (h : inv.topItem b = some bag)
    (hs : src.isAt (inventorySlotBag0, b) = false) :
    inv.itemBut src (inventorySlotBag0, b) = some bag := by
  simp [itemBut, hs, getItemByPos, h]

theorem fitsSpecificSlot_allowed (hf : inv.fitsSpecificSlot proto src p = true)
    (hlast : (p.1 == inventorySlotBag0 && decide (lastItemSlot < p.2)) = false) :
    inv.Allowed src proto p ∧ (visible p = true ∨ p.1 ≠ inventorySlotBag0) := by
  obtain ⟨b, j⟩ := p
  unfold fitsSpecificSlot at hf
  unfold Allowed
  by_cases hb : b = inventorySlotBag0
  · subst hb
    simp only [if_true, Bool.not_eq_true', Bool.or_eq_false_iff, Bool.and_eq_false_iff,
      decide_eq_false_iff_not, bne_eq_false_iff_eq, beq_self_eq_true, Bool.true_and] at hf hlast ⊢
    obtain ⟨⟨hkey, hbuy⟩, -⟩ := hf
    have hslot : isItemSlot j = true := by
      have h1 : ¬ 69 ≤ j ∨ ¬ j < 81 := hbuy
      have h2 : ¬ 112 < j := hlast
      rw [isItemSlot_iff]; omega
    refine ⟨⟨hslot, fun h1 h2 => ?_⟩, .inl (by simp [visible, hslot])⟩
    obtain (h | h) | h := hkey
    · exact absurd h1 h
    · exact absurd h2 h
    · exact h
  · simp only [hb, if_false] at hf ⊢
    cases ht : inv.topItem b with
    | none => rw [ht] at hf; cases hf
    | some bag =>
      simp only [ht, Bool.and_eq_true, Bool.not_eq_true', decide_eq_true_eq] at hf
      exact ⟨⟨bag, itemBut_top ht hf.1.1, hf.1.2, hf.2⟩, .inr hb⟩

theorem canStoreItemInSpecificSlot_error {res : InventoryResult}
    (hs : inv.canStoreItemInSpecificSlot proto src p false f = .error res) : res ≠ .ok := by
  unfold canStoreItemInSpecificSlot at hs
  simp only [Bool.false_eq_true, if_false] at hs
  split at hs
  · cases hs; decide
  split at hs
  · split at hs
    · cases hs
    · cases hs; decide
  · split at hs
    · cases hs
    · rename_i hne; cases hs; exact hne

theorem finds_specificSlot (hP : inv.Closed src proto bag P) (hbag : bag ≠ nullBag)
    (hlast : (bag == inventorySlotBag0 && decide (lastItemSlot < slot)) = false) :
    Finds P (inv.canStoreItemInSpecificSlot proto src (bag, slot) false)
      P := by
  constructor
  · intro f f' h h0 hs
    unfold canStoreItemInSpecificSlot at hs
    simp only [Bool.false_eq_true, if_false] at hs
    cases hne : inv.isNonEmptyBag src with
    | true => simp [hne] at hs
    | false =>
    rw [hne] at hs
    simp only [Bool.false_eq_true, if_false] at hs
    cases hi : inv.itemBut src (bag, slot) with
    | none =>
      rw [hi] at hs
      simp only at hs
      split_ifs at hs with hfit
      cases hs
      obtain ⟨ha, -⟩ := fitsSpecificSlot_allowed hfit hlast
      cases hp : f.push (bag, slot) (needSpace proto 0 f.count) with
      | none => exact h
      | some f'' => exact hP f f'' _ h (records_empty h0 hi ha hp (.inr ⟨rfl, hbag⟩) hne)
    | some it =>
      rw [hi] at hs
      simp only at hs
      split at hs
      · rename_i hm
        cases hs
        cases hp : f.push (bag, slot) (needSpace proto it.count f.count) with
        | none => exact h
        | some f'' => exact hP f f'' _ h (records_stack h0 hi hm hp (.inr ⟨rfl, hbag⟩) hne)
      · cases hs
  · exact fun f res hs => canStoreItemInSpecificSlot_error hs

/-- The slots of a bag that a search goes through. -/
def bagSearchSlots (pBag : Item db) (b skipSlot : Nat) : List Pos :=
  ((range pBag.bagSize).filter (· != skipSlot)).map (b, ·)

theorem canStoreItemInBag_ok
    (h : inv.canStoreItemInBag proto src b merge nonSpecialized skipBag skipSlot f = .ok f') :
    ∃ pBag, inv.topItem b = some pBag ∧ src.isAt (inventorySlotBag0, b) = false ∧
      inv.isNonEmptyBag src = false ∧ nonSpecialized = isPlainBag pBag ∧
      itemCanGoIntoBag proto pBag.proto = true ∧
      f' = inv.searchSlots proto src merge (bagSearchSlots pBag b skipSlot) f := by
  unfold canStoreItemInBag at h
  cases ht : inv.topItem b with
  | none => rw [ht] at h; split_ifs at h
  | some pBag =>
    rw [ht] at h
    simp only at h
    split_ifs at h with hskip hat hne hplain hgo
    cases h
    exact ⟨pBag, rfl, by simpa using hat, by simpa using hne, by simpa using hplain,
      by simpa using hgo, rfl⟩

theorem slots_bag {pBag : Item db} (ht : inv.topItem b = some pBag)
    (hat : src.isAt (inventorySlotBag0, b) = false) (hgo : itemCanGoIntoBag proto pBag.proto = true)
    (hb : isBagSlot b = true ∨ (b = bag ∧ bag ≠ nullBag)) :
    inv.Slots src proto bag merge (bagSearchSlots pBag b skipSlot) := by
  intro q hq
  obtain ⟨j, hj, rfl⟩ := mem_map.mp hq
  have hj' : j < pBag.bagSize := mem_range.mp (mem_filter.mp hj).1
  refine ⟨hb.imp_left fun h => by simp [visible, isBagSlot_ne h, h], fun _ hn => ?_⟩
  unfold Allowed
  by_cases h255 : b = inventorySlotBag0
  · rw [h255, topItem_bag0] at ht; cases ht
  · rw [if_neg h255]
    exact ⟨pBag, itemBut_top ht hat, hj', hgo⟩

theorem canStoreItemInBag_error {res : InventoryResult}
    (h : inv.canStoreItemInBag proto src b merge nonSpecialized skipBag skipSlot f = .error res) :
    res ≠ .ok := by
  unfold canStoreItemInBag at h
  cases ht : inv.topItem b with
  | none => rw [ht] at h; split_ifs at h <;> cases h <;> decide
  | some pBag =>
    rw [ht] at h
    simp only at h
    split_ifs at h <;> cases h <;> decide

theorem finds_bag
    (hP : inv.Closed src proto bag P) (hb : isBagSlot b = true ∨ (b = bag ∧ bag ≠ nullBag)) :
    Finds P (inv.canStoreItemInBag proto src b merge nonSpecialized skipBag skipSlot) P := by
  refine ⟨fun f f' h h0 hs => ?_, fun f res => canStoreItemInBag_error⟩
  obtain ⟨pBag, ht, hat, hne, -, hgo, rfl⟩ := canStoreItemInBag_ok hs
  exact hP.searchSlots h h0 hne (slots_bag ht hat hgo hb)

theorem finds_inventorySlots {e : Nat} (hP : inv.Closed src proto bag P)
    (hslot : ∀ j, b ≤ j → j < e → isItemSlot j = true)
    (hkey : merge = false → ∀ j, b ≤ j → j < e → keyringSlotStart ≤ j →
      proto.bagFamily = bagFamilyKeys) :
    Finds P
      (inv.canStoreItemInInventorySlots proto src b e merge skipBag skipSlot)
      P := by
  constructor
  · intro f f' h h0 hs
    unfold canStoreItemInInventorySlots at hs
    split_ifs at hs with hne
    cases hs
    refine hP.searchSlots h h0 (by simpa using hne) fun q hq => ?_
    obtain ⟨j, hj, rfl⟩ := mem_map.mp hq
    obtain ⟨hj1, hj2⟩ := mem_range'_1.mp (mem_filter.mp hj).1
    have hitem := hslot j hj1 (by omega)
    refine ⟨.inl (by simp [visible, hitem]), fun hm _ => ?_⟩
    unfold Allowed
    rw [if_pos rfl]
    exact ⟨hitem, fun h1 _ => hkey hm j hj1 (by omega) h1⟩
  · intro f res hs
    unfold canStoreItemInInventorySlots at hs
    split_ifs at hs
    cases hs; decide

theorem isItemSlot_backpack {j : Nat} (_ : inventorySlotItemStart ≤ j)
    (h : j < inventorySlotItemEnd) : isItemSlot j = true :=
  isItemSlot_iff.mpr (.inl (Nat.lt_trans h (by decide)))

theorem isItemSlot_keyring {j : Nat} (h1 : keyringSlotStart ≤ j) (h2 : j < keyringSlotEnd) :
    isItemSlot j = true :=
  isItemSlot_iff.mpr (.inr ⟨h1, h2⟩)

theorem isBagSlot_of_mem {i : Nat} (h : i ∈ bagSlots) : isBagSlot i = true :=
  isBagSlot_iff.mpr (.inl (mem_range'_1.mp h))

section

variable (hP : inv.Closed src proto bag P)
include hP

theorem finds_backpack :
    Finds P
      (inv.canStoreItemInInventorySlots proto src inventorySlotItemStart inventorySlotItemEnd merge
        skipBag skipSlot) P := by
  refine finds_inventorySlots hP (fun j => isItemSlot_backpack) fun _ j _ hlt hkey => ?_
  exact absurd (Nat.lt_of_le_of_lt hkey hlt) (by decide)

theorem finds_keyring (h : merge = false → proto.bagFamily = bagFamilyKeys) :
    Finds P
      (inv.canStoreItemInInventorySlots proto src keyringSlotStart keyringSlotEnd merge
        skipBag skipSlot) P :=
  finds_inventorySlots hP (fun _ => isItemSlot_keyring) fun hm _ _ _ _ => h hm

theorem keeps_bags :
    Keeps n P
      (bagSlots.map fun i => optional n
        (inv.canStoreItemInBag proto src i merge nonSpecialized skipBag skipSlot)) := by
  refine Keeps.of_forall fun s hs => ?_
  obtain ⟨i, hi, rfl⟩ := mem_map.mp hs
  exact .optional (finds_bag hP (.inl (isBagSlot_of_mem hi)))

theorem keeps_specificSlot :
    Keeps n P (inv.specificSlotSearches proto src bag slot false n) := by
  unfold specificSlotSearches
  split_ifs with h
  · exact .refuseIf_cons (by decide) fun hlast => .mandatory (finds_specificSlot hP h.1 hlast)
  · exact .nil

theorem keeps_specificBag :
    Keeps n P (inv.specificBagSearches proto src bag slot n) := by
  unfold specificBagSearches
  split_ifs with h0 h1 h2 h3
  · exact .seq (.cons (.mandatory (finds_keyring hP nofun)) (.mandatory (finds_backpack hP)))
      (.seq (.mandatory (finds_keyring hP fun _ => h3)) (.mandatory (finds_backpack hP)))
  · exact .seq (.cons (.mandatory (finds_keyring hP nofun)) (.mandatory (finds_backpack hP)))
      (.seq .nil (.mandatory (finds_backpack hP)))
  · exact .seq (.mandatory (.orElse (finds_bag hP (.inr ⟨rfl, h0⟩)) (finds_bag hP (.inr ⟨rfl, h0⟩))))
      (.mandatory (.orElse (finds_bag hP (.inr ⟨rfl, h0⟩)) (finds_bag hP (.inr ⟨rfl, h0⟩))))
  · rename_i h2 h3
    exact .seq .nil (.seq (.mandatory (finds_keyring hP fun _ => h3)) (.mandatory (finds_backpack hP)))
  · exact .seq .nil (.seq .nil (.mandatory (finds_backpack hP)))
  · exact .seq .nil (.mandatory (.orElse (finds_bag hP (.inr ⟨rfl, h0⟩)) (finds_bag hP (.inr ⟨rfl, h0⟩))))
  · exact .nil

theorem keeps_merge :
    Keeps n P (inv.mergeSearches proto src bag slot n) := by
  unfold mergeSearches
  split_ifs
  · exact .seq (.seq (.cons (.mandatory (finds_keyring hP nofun))
      (.mandatory (finds_backpack hP))) (keeps_bags hP)) (keeps_bags hP)
  · exact .seq (.seq (.cons (.mandatory (finds_keyring hP nofun))
      (.mandatory (finds_backpack hP))) .nil) (keeps_bags hP)
  · exact .nil

theorem keeps_specialBag :
    Keeps n P (inv.specialBagSearches proto src bag slot n) := by
  unfold specialBagSearches
  split_ifs with h1 h2
  · exact .seq (.mandatory (finds_keyring hP fun _ => h2)) (keeps_bags hP)
  · exact .seq .nil (keeps_bags hP)
  · exact .nil

theorem keeps_freeSlot :
    Keeps n P (inv.freeSlotSearches proto src bag slot n) :=
  .seq (.cons (.refuseIf (by decide)) (.mandatory (finds_backpack hP))) (keeps_bags hP)

theorem keeps_searches :
    Keeps n P (inv.searches proto src bag slot false n) :=
  .seq (.seq (.seq (.seq (keeps_specificSlot hP) (keeps_specificBag hP)) (keeps_merge hP))
    (keeps_specialBag hP)) (keeps_freeSlot hP)

end

/-! ## Accepted placements -/

theorem canTakeMoreSimilarItems_zero {entry : Nat} (hget : db.get entry = some proto)
    (h : (inv.canTakeMoreSimilarItems entry count src).2 = 0) :
    (inv.canTakeMoreSimilarItems entry count src).1 = .ok := by
  unfold canTakeMoreSimilarItems at h ⊢
  rw [hget] at h ⊢
  simp only at h ⊢
  split_ifs at h ⊢ with h1 h2
  · -- nothing above the limit, although the sum exceeds it
    simp only at h
    rw [gt_iff_lt, lt_toNat, UInt32.add_comm] at h2
    have hs := congrArg UInt32.toNat h
    rw [UInt32.toNat_zero] at hs
    have := toNat_sub (a := count + inv.getItemCount proto.itemId src.pos) (b := proto.maxCount)
      (by omega)
    omega
  · rfl
  · rfl

/-- An accepted request went through the searches; with nothing above the limit of the entry it did
so with its whole count. -/
theorem canStoreItem_ok {entry : Nat} {dest : List ItemPosCount} {swap : Bool}
    (hc : count ≠ 0) (h : (inv.canStoreItem bag slot dest entry count src swap).res = .ok) :
    ∃ proto n c, db.get entry = some proto ∧ c ≠ 0 ∧ (n = 0 → c = count) ∧
      inv.canStoreItem bag slot dest entry count src swap =
        runSearches (inv.searches proto src bag slot swap n) n ⟨dest, c⟩ := by
  unfold canStoreItem at h ⊢
  cases hget : db.get entry with
  | none => rw [hget] at h; cases swap <;> cases h
  | some proto =>
    rw [hget] at h
    simp only at h ⊢
    split_ifs at h with hloot hbind hall hres
    · exact absurd h hall.1
    · -- part of the request is above the limit
      have hn : (inv.canTakeMoreSimilarItems entry count src).2 ≠ 0 := fun hz =>
        hres (canTakeMoreSimilarItems_zero hget hz)
      refine ⟨proto, _, _, rfl, ?_, fun hz => absurd hz hn, by
        rw [if_neg hloot, if_neg hbind, if_neg hall, if_pos hres]⟩
      intro hz
      exact hall ⟨hres, eq_of_sub_eq_zero hz⟩
    · refine ⟨proto, _, count, rfl, hc, fun _ => rfl, by
        rw [if_neg hloot, if_neg hbind, if_neg hall, if_neg hres]⟩

/-- The destinations of every answer, accepted or not, come from a fill with a closed property. -/
theorem canStoreItem_keeps {entry : Nat} {dest : List ItemPosCount}
    (hP : ∀ proto, inv.Closed src proto bag P) (hc : count ≠ 0) (h : ∀ c, c ≠ 0 → P ⟨dest, c⟩) :
    ∃ f, P f ∧ (inv.canStoreItem bag slot dest entry count src false).dest = f.dest := by
  unfold canStoreItem
  cases db.get entry with
  | none => exact ⟨_, h _ hc, rfl⟩
  | some proto =>
    dsimp only
    split_ifs with hloot hbind hall hres
    · exact ⟨_, h _ hc, rfl⟩
    · exact ⟨_, h _ hc, rfl⟩
    · exact ⟨_, h _ hc, rfl⟩
    · have h0 : count - (inv.canTakeMoreSimilarItems entry count src).2 ≠ 0 := fun hz =>
        hall ⟨hres, eq_of_sub_eq_zero hz⟩
      exact (keeps_searches (hP proto)).runSearches (h _ h0) h0
    · exact (keeps_searches (hP proto)).runSearches (h _ hc) hc

/-- An accepted request adds its count to what the vector held. -/
theorem canStoreItem_sum {entry : Nat} {dest : List ItemPosCount} (hc : count ≠ 0)
    (h : (inv.canStoreItem bag slot dest entry count src false).res = .ok) :
    ((inv.canStoreItem bag slot dest entry count src false).dest.map (·.count.toNat)).sum =
      (dest.map (·.count.toNat)).sum + count.toNat := by
  obtain ⟨proto, n, c, -, hc0, hcn, heq⟩ := canStoreItem_ok hc h
  rw [heq] at h ⊢
  obtain ⟨hn, f, hf, hz, hd⟩ := (keeps_searches sumsTo_closed).triple.runSearches
    (f := ⟨dest, c⟩) rfl hc0 h
  rw [hd, ← hcn hn]
  unfold SumsTo at hf
  rw [hz, UInt32.toNat_zero] at hf
  exact hf

/-! ## Requests for nothing -/

/-- Nothing is left to place and nothing has been placed. -/
def Nothing (f : Fill) : Prop := f.count = 0 ∧ ∀ d ∈ f.dest, d.count = 0

/-- A search of a request for nothing finds nothing. -/
def FindsNothing (s : Fill → Except InventoryResult Fill) : Prop :=
  (∀ f f', Nothing f → s f = .ok f' → Nothing f') ∧ ∀ f res, s f = .error res → res ≠ .ok

theorem needSpace_zero (held : UInt32) : needSpace proto held 0 = 0 := by
  have := toNat_ite_gt (proto.stackable - held) 0
  rw [eq_toNat]
  unfold needSpace
  simp only [UInt32.toNat_zero] at this ⊢
  omega

theorem Nothing.push {held : UInt32} (h : Nothing f)
    (hp : f.push p (needSpace proto held f.count) = some f') : Nothing f' := by
  rw [h.1, needSpace_zero] at hp
  unfold Fill.push at hp
  split_ifs at hp
  cases hp
  refine ⟨by rw [h.1]; rfl, fun d hd => ?_⟩
  obtain hd | hd := mem_append.mp hd
  · exact h.2 d hd
  · rw [mem_singleton.mp hd]; rfl

theorem Nothing.searchSlots {ps : List Pos} (h : Nothing f) :
    Nothing (inv.searchSlots proto src merge ps f) := by
  induction ps generalizing f with
  | nil => exact h
  | cons p ps ih =>
    unfold Inventory.searchSlots
    cases ht : inv.trySlot proto src merge f p with
    | none => exact ih h
    | some f' =>
      have h' : Nothing f' := by
        unfold trySlot at ht
        dsimp only at ht
        split_ifs at ht
        split at ht
        · split_ifs at ht
          exact h.push ht
        · exact h.push ht
      dsimp only
      split_ifs
      · exact h'
      · exact ih h'

theorem findsNothing_specificSlot :
    FindsNothing (inv.canStoreItemInSpecificSlot proto src p false) := by
  have hget : ∀ {held : UInt32} {f f' : Fill}, Nothing f →
      (f.push p (needSpace proto held f.count)).getD f = f' → Nothing f' := by
    intro held f f' h he
    cases hp : f.push p (needSpace proto held f.count) with
    | none => rw [hp] at he; exact he ▸ h
    | some f'' => rw [hp] at he; exact he ▸ h.push hp
  constructor
  · intro f f' h hs
    unfold canStoreItemInSpecificSlot at hs
    simp only [Bool.false_eq_true, if_false] at hs
    split at hs
    · cases hs
    split at hs
    · split at hs
      · cases hs; exact hget h rfl
      · cases hs
    · split at hs
      · cases hs; exact hget h rfl
      · cases hs
  · exact fun f res hs => canStoreItemInSpecificSlot_error hs

theorem findsNothing_bag :
    FindsNothing (inv.canStoreItemInBag proto src b merge nonSpecialized skipBag skipSlot) := by
  refine ⟨fun f f' h hs => ?_, fun f res => canStoreItemInBag_error⟩
  obtain ⟨pBag, -, -, -, -, -, rfl⟩ := canStoreItemInBag_ok hs
  exact h.searchSlots

theorem findsNothing_inventorySlots {e : Nat} :
    FindsNothing (inv.canStoreItemInInventorySlots proto src b e merge skipBag skipSlot) := by
  constructor
  · intro f f' h hs
    unfold canStoreItemInInventorySlots at hs
    split_ifs at hs
    cases hs
    exact h.searchSlots
  · intro f res hs
    unfold canStoreItemInInventorySlots at hs
    split_ifs at hs
    cases hs; decide

theorem FindsNothing.orElse {s t : Fill → Except InventoryResult Fill} (hs : FindsNothing s)
    (ht : FindsNothing t) : FindsNothing (orElseSearch s t) := by
  constructor
  · intro f f' h he
    unfold orElseSearch at he
    cases hf : s f with
    | ok f'' => rw [hf] at he; cases he; exact hs.1 f _ h hf
    | error _ => rw [hf] at he; exact ht.1 f f' h he
  · intro f res he
    unfold orElseSearch at he
    cases hf : s f with
    | ok f'' => rw [hf] at he; cases he
    | error _ => rw [hf] at he; exact ht.2 f res he

/-- Every search of the list leaves a request for nothing alone. -/
def LeavesNothing (ss : List Search) : Prop :=
  ∀ s ∈ ss, ∀ f, Nothing f →
    match s f with
    | .ok f' => Nothing f'
    | .error a => a.res = .ok → ∀ d ∈ a.dest, d.count = 0

theorem settle_nothing (h : Nothing f) :
    match settle n f with
    | .ok f' => Nothing f'
    | .error a => a.res = .ok → ∀ d ∈ a.dest, d.count = 0 := by
  unfold settle
  split_ifs
  · exact fun _ => h.2
  · exact fun _ => h.2
  · exact h

section LeavesNothing

variable {n : UInt32} {s : Fill → Except InventoryResult Fill} {ss ts : List Search}

theorem LeavesNothing.append (h₁ : LeavesNothing ss) (h₂ : LeavesNothing ts) :
    LeavesNothing (ss ++ ts) := fun s hs =>
  (mem_append.mp hs).elim (h₁ s) (h₂ s)

theorem LeavesNothing.cons {s : Search} (h₁ : LeavesNothing [s]) (h₂ : LeavesNothing ss) :
    LeavesNothing (s :: ss) :=
  LeavesNothing.append h₁ h₂

theorem leavesNothing_nil : LeavesNothing [] := nofun

theorem leavesNothing_mandatory (h : FindsNothing s) : LeavesNothing [mandatory n s] := by
  intro t ht f hf
  rw [mem_singleton.mp ht, mandatory]
  cases hs : s f with
  | error res => exact fun ha => absurd ha (h.2 f res hs)
  | ok f' => exact settle_nothing (h.1 f f' hf hs)

theorem leavesNothing_optional (h : FindsNothing s) : LeavesNothing [optional n s] := by
  intro t ht f hf
  rw [mem_singleton.mp ht, optional]
  cases hs : s f with
  | error res => exact hf
  | ok f' => exact settle_nothing (h.1 f f' hf hs)

theorem leavesNothing_refuseIf {c : Bool} {res : InventoryResult} (h : res ≠ .ok) :
    LeavesNothing [refuseIf c res] := by
  intro t ht f hf
  rw [mem_singleton.mp ht, refuseIf]
  cases c with
  | true => exact fun ha => absurd ha h
  | false => exact hf

theorem leavesNothing_bags {nonSpecialized : Bool} {skipBag skipSlot : Nat} :
    LeavesNothing (bagSlots.map fun i => optional n
      (inv.canStoreItemInBag proto src i merge nonSpecialized skipBag skipSlot)) := by
  intro t ht
  obtain ⟨i, -, rfl⟩ := mem_map.mp ht
  exact leavesNothing_optional findsNothing_bag _ (mem_singleton_self _)

theorem leavesNothing_searches :
    LeavesNothing (inv.searches proto src bag slot false n) := by
  have hslots : ∀ {b e skipBag skipSlot : Nat} {merge : Bool}, LeavesNothing [mandatory n
      (inv.canStoreItemInInventorySlots proto src b e merge skipBag skipSlot)] :=
    leavesNothing_mandatory findsNothing_inventorySlots
  have hbags : ∀ {b skipBag skipSlot : Nat} {merge : Bool}, LeavesNothing [mandatory n
      (orElseSearch (inv.canStoreItemInBag proto src b merge false skipBag skipSlot)
        (inv.canStoreItemInBag proto src b merge true skipBag skipSlot))] :=
    leavesNothing_mandatory (findsNothing_bag.orElse findsNothing_bag)
  unfold searches
  refine .append (.append (.append (.append ?_ ?_) ?_) ?_) ?_
  · unfold specificSlotSearches
    split_ifs
    · exact .cons (leavesNothing_refuseIf (by decide))
        (leavesNothing_mandatory findsNothing_specificSlot)
    · exact leavesNothing_nil
  · unfold specificBagSearches
    dsimp only
    split_ifs
    · exact .append (.cons hslots hslots) (.append hslots hslots)
    · exact .append (.cons hslots hslots) (.append leavesNothing_nil hslots)
    · exact .append hbags hbags
    · exact .append leavesNothing_nil (.append hslots hslots)
    · exact .append leavesNothing_nil (.append leavesNothing_nil hslots)
    · exact .append leavesNothing_nil hbags
    · exact leavesNothing_nil
  · unfold mergeSearches
    split_ifs
    · exact .append (.append (.cons hslots hslots) leavesNothing_bags) leavesNothing_bags
    · exact .append (.append (.cons hslots hslots) leavesNothing_nil) leavesNothing_bags
    · exact leavesNothing_nil
  · unfold specialBagSearches
    split_ifs
    · exact .append hslots leavesNothing_bags
    · exact .append leavesNothing_nil leavesNothing_bags
    · exact leavesNothing_nil
  · exact .append (.cons (leavesNothing_refuseIf (by decide)) hslots) leavesNothing_bags

theorem LeavesNothing.runSearches (h : LeavesNothing ss) (hf : Nothing f)
    (hok : (runSearches ss n f).res = .ok) : ∀ d ∈ (Inventory.runSearches ss n f).dest, d.count = 0 := by
  unfold Inventory.runSearches at hok ⊢
  induction ss generalizing f with
  | nil => cases hok
  | cons s ss ih =>
    have hs := h s (mem_cons_self ..) f hf
    rw [foldlM_cons] at hok ⊢
    cases hsf : s f with
    | error a => rw [hsf] at hs hok; exact hs hok
    | ok f' =>
      rw [hsf] at hs hok
      exact ih (fun t ht => h t (mem_cons_of_mem _ ht)) hs hok

end LeavesNothing

/-- A request for nothing that is accepted has no units in its destinations. -/
theorem canStoreItem_nothing {entry : Nat}
    (h : (inv.canStoreItem bag slot [] entry 0 src false).res = .ok) :
    ∀ d ∈ (inv.canStoreItem bag slot [] entry 0 src false).dest, d.count = 0 := by
  unfold canStoreItem at h ⊢
  cases hget : db.get entry with
  | none => rw [hget] at h; cases h
  | some proto =>
    rw [hget] at h
    dsimp only at h ⊢
    by_cases hloot : (src.item inv).any (·.hasTemporaryLoot) = true
    · rw [if_pos hloot] at h; cases h
    by_cases hbind : (src.item inv).any (·.isBindedNotWith inv.owner) = true
    · rw [if_neg hloot, if_pos hbind] at h; cases h
    rw [if_neg hloot, if_neg hbind] at h ⊢
    by_cases hres : (inv.canTakeMoreSimilarItems entry 0 src).1 = .ok
    · simp only [hres, ne_eq, not_true_eq_false, false_and, if_false] at h ⊢
      exact leavesNothing_searches.runSearches ⟨rfl, by simp⟩ h
    · exfalso
      simp only [hres, ne_eq, not_false_eq_true, true_and, if_true] at h
      split_ifs at h with h0
      · exact absurd h hres
      · -- units above the limit are never accepted
        have hn : (inv.canTakeMoreSimilarItems entry 0 src).2 ≠ 0 := fun hz => h0 hz.symm
        have hT : inv.Closed src proto bag fun _ => True := fun _ _ _ _ _ => trivial
        by_cases hc : 0 - (inv.canTakeMoreSimilarItems entry 0 src).2 = 0
        · exact hn (eq_of_sub_eq_zero hc).symm
        · exact hn ((keeps_searches hT).triple.runSearches trivial hc h).1

end Inventory

end Windrunner
