import Windrunner.Inventory.Search
import Windrunner.Inventory.Sound

/-!
# What `_CanStoreItem` reports about units it does not place

* `Accounted`: the destinations and `no_space_count` make up the request, and the destinations stay
  below the limit of the entry.
* `Accountable`: the requests for which that is so (`canStoreItem_accounted_iff`). A player who
  already owns more than the limit is none of them, unless nothing at all can be placed: the part
  above the limit is larger than the request, and the difference wraps around.
-/

namespace Windrunner

open Lib

variable {db : ItemDb}

namespace Inventory

/-- The units of an entry that `GetItemCount` adds up, without the item that is moved. -/
def owned (inv : Inventory db) (src : Source db) (entry : Nat) : Nat :=
  total (fun p it => if src.pos = some p then 0 else unitsAt entry p it) inv.cells

/-- What a caller relies on that goes by `no_space_count`. -/
def Accounted (inv : Inventory db) (src : Source db) (entry : Nat) (count : UInt32) (a : CanStore) :
    Prop :=
  ∀ k ∈ a.noSpaceCount,
    (a.dest.map (·.count.toNat)).sum + k.toNat = count.toNat ∧ k.toNat ≤ count.toNat ∧
      ∀ proto, db.get entry = some proto → 0 < proto.maxCount.toNat →
        (a.dest.map (·.count.toNat)).sum ≤ proto.maxCount.toNat - inv.owned src entry

/-- The request fails before any slot is looked at. -/
def RefusedOutright (inv : Inventory db) (entry : Nat) (count : UInt32) (src : Source db) : Prop :=
  db.get entry = none ∨ (src.item inv).any (·.hasTemporaryLoot) = true ∨
    (src.item inv).any (·.isBindedNotWith inv.owner) = true ∨
    inv.canTakeMoreSimilarItems entry count src = (.cantCarryMoreOfThis, count)

/-- A request to an inventory that takes `room` units stays below the limit of the entry: there is
none, or the player is within it and the sum of the two counts does not wrap around; or what can be
placed is within the limit anyway; or the sum wraps around and everything is placed, so that nothing
is reported. -/
def LimitKept (inv : Inventory db) (proto : ItemPrototype) (src : Source db) (entry : Nat)
    (count : UInt32) (room : Nat) : Prop :=
  proto.maxCount.toNat = 0 ∨
    (inv.owned src entry ≤ proto.maxCount.toNat ∧
      inv.owned src entry + count.toNat < 4294967296) ∨
    room ≤ proto.maxCount.toNat - inv.owned src entry ∨
    (inv.getItemCount entry src.pos + count ≤ proto.maxCount ∧ count.toNat ≤ room)

/-- The requests whose answers add up. -/
def Accountable (inv : Inventory db) (bag slot entry : Nat) (count : UInt32) (src : Source db)
    (swap : Bool) : Prop :=
  inv.RefusedOutright entry count src ∨ ∀ proto, db.get entry = some proto →
    inv.LimitKept proto src entry count (inv.capacity proto src bag slot swap)

variable {inv : Inventory db} {proto : ItemPrototype} {src : Source db} {bag slot entry : Nat}
  {swap : Bool} {count : UInt32}

theorem toNat_getItemCount (inv : Inventory db) (src : Source db) (entry : Nat) :
    (inv.getItemCount entry src.pos).toNat = inv.owned src entry % 4294967296 :=
  UInt32.toNat_ofNat'

/-- An answer that places nothing and reports everything. -/
theorem accounted_nothing {res : InventoryResult} :
    inv.Accounted src entry count ⟨res, [], some count⟩ := by
  intro k hk
  cases hk
  exact ⟨by simp, Nat.le_refl _, fun _ _ _ => Nat.zero_le _⟩

theorem canStoreItem_outright (bag slot : Nat) (swap : Bool)
    (h : inv.RefusedOutright entry count src) :
    ∃ res, inv.canStoreItem bag slot [] entry count src swap = ⟨res, [], some count⟩ := by
  unfold canStoreItem
  cases hget : db.get entry with
  | none => exact ⟨_, rfl⟩
  | some proto =>
    dsimp only
    by_cases hloot : (src.item inv).any (·.hasTemporaryLoot) = true
    · exact ⟨_, if_pos hloot⟩
    by_cases hbind : (src.item inv).any (·.isBindedNotWith inv.owner) = true
    · exact ⟨_, by rw [if_neg hloot, if_pos hbind]⟩
    obtain h | h | h | h := h
    · rw [hget] at h; cases h
    · exact absurd h hloot
    · exact absurd h hbind
    · refine ⟨.cantCarryMoreOfThis, ?_⟩
      rw [if_neg hloot, if_neg hbind, h, if_pos ⟨nofun, rfl⟩]

/-- The check of the limit of the entry: nothing is above it, or a part is. -/
theorem canTakeMoreSimilarItems_cases (inv : Inventory db) (src : Source db) (count : UInt32)
    (hget : db.get entry = some proto) :
    (inv.canTakeMoreSimilarItems entry count src = (.ok, 0) ∧
      (proto.maxCount = 0 ∨ inv.getItemCount entry src.pos + count ≤ proto.maxCount)) ∨
    (inv.canTakeMoreSimilarItems entry count src =
        (.cantCarryMoreOfThis, count + inv.getItemCount entry src.pos - proto.maxCount) ∧
      0 < proto.maxCount.toNat ∧ proto.maxCount < inv.getItemCount entry src.pos + count) := by
  have hid : proto.itemId = entry := db.get_id hget
  unfold canTakeMoreSimilarItems
  rw [hget]
  dsimp only
  rw [hid]
  by_cases h0 : proto.maxCount > 0
  · rw [if_pos h0]
    rw [gt_iff_lt, lt_toNat, UInt32.toNat_zero] at h0
    by_cases hm : inv.getItemCount entry src.pos + count > proto.maxCount
    · rw [if_pos hm]
      exact .inr ⟨rfl, h0, hm⟩
    · rw [if_neg hm]
      rw [gt_iff_lt, lt_toNat] at hm
      exact .inl ⟨rfl, .inr (le_toNat.mpr (by omega))⟩
  · rw [if_neg h0]
    rw [gt_iff_lt, lt_toNat, UInt32.toNat_zero] at h0
    exact .inl ⟨rfl, .inl (eq_toNat.mpr (by rw [UInt32.toNat_zero]; omega))⟩

/-- Every other request goes through the searches, without the part `n` above the limit. -/
theorem canStoreItem_searched (bag slot : Nat) (swap : Bool) (hget : db.get entry = some proto)
    (h : ¬ inv.RefusedOutright entry count src) :
    ∃ n c, inv.canStoreItem bag slot [] entry count src swap =
        runSearches (inv.searches proto src bag slot swap n) n ⟨[], c⟩ ∧
      ((n = 0 ∧ c = count ∧
          (proto.maxCount = 0 ∨ inv.getItemCount entry src.pos + count ≤ proto.maxCount)) ∨
        (0 < proto.maxCount.toNat ∧ proto.maxCount < inv.getItemCount entry src.pos + count ∧
          n = count + inv.getItemCount entry src.pos - proto.maxCount ∧ c = count - n ∧
          c ≠ 0)) := by
  unfold RefusedOutright at h
  simp only [not_or] at h
  obtain ⟨-, hloot, hbind, hall⟩ := h
  unfold canStoreItem
  rw [hget]
  dsimp only
  rw [if_neg hloot, if_neg hbind]
  obtain ⟨heq, hw⟩ | ⟨heq, h0, hm⟩ := inv.canTakeMoreSimilarItems_cases src count hget
  · rw [heq]
    exact ⟨0, count, by simp, .inl ⟨rfl, rfl, hw⟩⟩
  · rw [heq] at hall ⊢
    have hne : count ≠ count + inv.getItemCount entry src.pos - proto.maxCount := fun he =>
      hall (by rw [← he])
    refine ⟨_, _, ?_, .inr ⟨h0, hm, rfl, rfl, fun hz => hne (eq_of_sub_eq_zero hz)⟩⟩
    rw [if_neg fun h => hne h.2, if_pos nofun]

/-- A request with nothing above the limit: the report is right; the limit itself can only be
passed when the sum of the two counts wraps around. -/
theorem accounted_within {a : CanStore} {cap : Nat} {isOpen : Bool}
    (hget : db.get entry = some proto)
    (hw : proto.maxCount = 0 ∨ inv.getItemCount entry src.pos + count ≤ proto.maxCount)
    (h : Ends 0 count cap isOpen a) :
    inv.Accounted src entry count a ↔ inv.LimitKept proto src entry count cap := by
  have howned := inv.toNat_getItemCount src entry
  have hsum := h.sum
  obtain ⟨left, hleft, hend⟩ := h.ending
  unfold LimitKept
  rw [eq_toNat, le_toNat, UInt32.toNat_zero, UInt32.toNat_add, howned] at hw
  rw [le_toNat, UInt32.toNat_add, howned]
  have hlimit : ∀ k : UInt32, a.noSpaceCount = some k → k = left + 0 →
      (inv.Accounted src entry count a ↔ proto.maxCount.toNat = 0 ∨
        min count.toNat cap ≤ proto.maxCount.toNat - inv.owned src entry) := by
    intro k hk hkl
    rw [UInt32.add_zero] at hkl
    subst hkl
    unfold Accounted
    simp only [hk, Option.mem_def, Option.some.injEq, forall_eq', hget, hsum]
    constructor
    · rintro ⟨-, -, h3⟩
      by_cases h0 : proto.maxCount.toNat = 0
      · exact .inl h0
      · exact .inr (h3 (by omega))
    · intro h0
      exact ⟨by omega, by omega, fun h => h0.resolve_left (by omega)⟩
  cases hres : a.noSpaceCount with
  | none =>
    refine iff_of_true (fun k hk => by rw [hres] at hk; cases hk) ?_
    rw [hres] at hend
    generalize a.res = res at hend
    cases hend with
    | settled h0 _ =>
      rw [h0, UInt32.toNat_zero] at hleft
      omega
    | silent _ _ _ hc => omega
  | some k =>
    rw [hres] at hend
    generalize a.res = res at hend
    cases hend with
    | overLimit _ hn => exact absurd rfl hn
    | full h0 _ =>
      rw [hlimit _ hres rfl]
      have := ne_zero_toNat.mp h0
      omega
    | refused _ _ _ hl =>
      rw [hlimit _ hres rfl]
      have hl' : left.toNat = 0 → cap = 0 := fun hz => hl (eq_toNat.mpr hz)
      omega

/-- A request with a part above the limit. -/
theorem accounted_above {a : CanStore} {cap : Nat} {isOpen : Bool} {n c : UInt32}
    (hget : db.get entry = some proto) (h0 : 0 < proto.maxCount.toNat)
    (hm : proto.maxCount < inv.getItemCount entry src.pos + count)
    (hn : n = count + inv.getItemCount entry src.pos - proto.maxCount) (hc : c = count - n)
    (hc0 : c ≠ 0) (h : Ends n c cap isOpen a) :
    inv.Accounted src entry count a ↔ inv.LimitKept proto src entry count cap := by
  have howned := inv.toNat_getItemCount src entry
  have hsum := h.sum
  obtain ⟨left, hleft, hend⟩ := h.ending
  have hk := toNat_lt32 count
  have hcpos := ne_zero_toNat.mp hc0
  rw [lt_toNat, UInt32.toNat_add, howned] at hm
  -- what is above the limit, and what is left of the request without it
  have hnm : n.toNat + proto.maxCount.toNat =
      (inv.owned src entry % 4294967296 + count.toNat) % 4294967296 := by
    have hadd : (count + inv.getItemCount entry src.pos).toNat =
        (inv.owned src entry % 4294967296 + count.toNat) % 4294967296 := by
      rw [UInt32.toNat_add, howned, Nat.add_comm]
    rw [hn, ← hadd]
    exact toNat_sub (by omega)
  have hcn : (n.toNat ≤ count.toNat ∧ c.toNat + n.toNat = count.toNat) ∨
      (count.toNat < n.toNat ∧ c.toNat + n.toNat = count.toNat + 4294967296) := by
    rw [hc]
    by_cases hle : n.toNat ≤ count.toNat
    · exact .inl ⟨hle, toNat_sub hle⟩
    · exact .inr ⟨by omega, toNat_sub_wrap (by omega)⟩
  have hreport : ∀ k : UInt32, a.noSpaceCount = some k →
      (inv.Accounted src entry count a ↔
        min c.toNat cap + k.toNat = count.toNat ∧ k.toNat ≤ count.toNat ∧
          min c.toNat cap ≤ proto.maxCount.toNat - inv.owned src entry) := by
    intro k hk
    unfold Accounted
    simp only [hk, Option.mem_def, Option.some.injEq, forall_eq', hget, hsum, h0, forall_const]
  -- units are left, and are reported together with those above the limit
  have hleftover : (min c.toNat cap + (left + n).toNat = count.toNat ∧
      (left + n).toNat ≤ count.toNat ∧
        min c.toNat cap ≤ proto.maxCount.toNat - inv.owned src entry) ↔
      inv.LimitKept proto src entry count cap := by
    unfold LimitKept
    rw [le_toNat, UInt32.toNat_add, UInt32.toNat_add, howned]
    omega
  cases hres : a.noSpaceCount with
  | none =>
    refine iff_of_true (fun k hk => by rw [hres] at hk; cases hk) ?_
    rw [hres] at hend
    generalize a.res = res at hend
    cases hend with
    | settled _ hn0 =>
      rw [hn0, UInt32.toNat_zero] at hnm
      omega
    | silent _ _ _ hcap =>
      rw [hcap]
      exact .inr (.inr (.inl (Nat.zero_le _)))
  | some k =>
    rw [hreport k hres]
    rw [hres] at hend
    generalize a.res = res at hend
    cases hend with
    | overLimit hz _ =>
      rw [hz, UInt32.zero_add] at hleftover
      exact hleftover
    | full _ _ => exact hleftover
    | refused _ _ _ _ => exact hleftover

/-- The destinations and `no_space_count` add up exactly for the accountable requests. -/
theorem canStoreItem_accounted_iff (inv : Inventory db) (bag slot entry : Nat) (count : UInt32)
    (src : Source db) (swap : Bool) :
    inv.Accounted src entry count (inv.canStoreItem bag slot [] entry count src swap) ↔
      inv.Accountable bag slot entry count src swap := by
  unfold Accountable
  by_cases hr : inv.RefusedOutright entry count src
  · obtain ⟨res, heq⟩ := canStoreItem_outright bag slot swap hr
    rw [heq]
    exact iff_of_true accounted_nothing (.inl hr)
  rw [or_iff_right hr]
  obtain ⟨proto, hget⟩ := Option.ne_none_iff_exists'.mp fun h => hr (.inl h)
  obtain ⟨n, c, heq, hcase⟩ := canStoreItem_searched bag slot swap hget hr
  have hends := inv.runSearches_ends proto src bag slot swap n c
  rw [← heq] at hends
  simp only [hget, Option.some.injEq, forall_eq']
  obtain ⟨rfl, rfl, hw⟩ | ⟨h0, hm, hn, hc, hc0⟩ := hcase
  · exact accounted_within hget hw hends
  · exact accounted_above hget h0 hm hn hc hc0 hends

end Inventory

/-! ## A player above the limit -/

/-- A relic, of which a player may have one. -/
def relicProto : ItemPrototype := singleProto 5512 "Relic" 1

/-- An item template table of the relic. -/
def relicDb : ItemDb where
  get e := if e = 5512 then some relicProto else none
  get_id := by
    intro e p h
    split_ifs at h with h1
    cases h
    exact h1.symm

def relic (guid : Nat) : Item relicDb :=
  { guid, proto := relicProto, isProto := rfl, count := 1, owner := 1 }

/-- A player who got hold of two relics. -/
def twoRelics : Inventory relicDb :=
  ((Inventory.empty 1).place (inventorySlotBag0, 23) (relic 7)).place (inventorySlotBag0, 24)
    (relic 8)

/-- Another relic is to be stored: all fourteen empty slots are destinations, and what is reported
not to fit is more than four thousand million. -/
theorem twoRelics_not_accounted :
    ((twoRelics.canStoreItem nullBag nullSlot [] 5512 1 .none false).dest.map
        (·.count.toNat)).sum = 14 ∧
      (twoRelics.canStoreItem nullBag nullSlot [] 5512 1 .none false).noSpaceCount =
        some 4294967283 ∧
      ¬ twoRelics.Accounted .none 5512 1
        (twoRelics.canStoreItem nullBag nullSlot [] 5512 1 .none false) := by
  have hsum : ((twoRelics.canStoreItem nullBag nullSlot [] 5512 1 .none false).dest.map
      (·.count.toNat)).sum = 14 := by decide +kernel
  have hk : (twoRelics.canStoreItem nullBag nullSlot [] 5512 1 .none false).noSpaceCount =
      some 4294967283 := by decide +kernel
  refine ⟨hsum, hk, fun h => ?_⟩
  have := (h _ hk).2.1
  exact absurd this (by decide)

end Windrunner
