import Windrunner.Loot.Count

/-!
# What a player sees of a loot

`Loot.view` is the packet that `operator<<(ByteBuffer&, LootView const&)` writes. It is put together
from four lists, each with filters of its own; taking looks a slot up by another function.

- **Shape** (`Loot.Shaped`): the lists of the players are about entries that are there and of their
  kind, in every loot that can come about.
- **Agreement** (`Loot.Agrees`): the announced number of records, no slot twice, and every slot that
  can be taken is shown.
- **When** (`LootWorld.agrees_iff`): the kinds of entries for which that fails, and no others.
-/

namespace Windrunner

open Lib
open Option hiding any_eq_true map_map mem_map
open List hiding getElem?_eq_some_iff

inductive PermissionTypes where
  | all
  | group
  | master
  | roundRobin
  | owner
  | none
  deriving DecidableEq, Repr

/-- The slot types that are sent. -/
inductive LootSlotType where
  | allowLoot
  | rollOngoing
  | master
  deriving DecidableEq, Repr

/-- One record of the packet. -/
structure LootRecord where
  slot : UInt8
  itemid : Nat
  count : UInt8
  slotType : LootSlotType
  deriving DecidableEq, Repr

structure LootPacket where
  gold : UInt32
  itemsShown : UInt8
  records : List LootRecord
  deriving DecidableEq, Repr

def LootItem.record (item : LootItem) (slot : Nat) (slotType : LootSlotType) : LootRecord :=
  ⟨UInt8.ofNat slot, item.itemid, item.count, slotType⟩

/-- `LootItem::GetSlotTypeForSharedLoot`; `none` is `MAX_LOOT_SLOT_TYPE`. -/
def LootItem.getSlotTypeForSharedLoot (item : LootItem) (permission : PermissionTypes) (meets : Meets)
    (viewer : Nat) (conditionOk : Bool) : Option LootSlotType :=
  if item.isLooted || item.freeforall || (item.conditionId != 0 && !conditionOk) ||
      !item.allowedForPlayer meets viewer then .none
  else
    match permission with
    | .group => some (if item.isBlocked || item.isUnderthreshold then .allowLoot else .rollOngoing)
    | .all | .owner => some .allowLoot
    | .master => some (if !item.isUnderthreshold then .master else .allowLoot)
    | .roundRobin | .none => .none

namespace Loot

/-- Somebody else is the round robin looter. -/
def waits (l : Loot) (viewer : Nat) : Bool := l.roundRobinPlayer != 0 && viewer != l.roundRobinPlayer

/-- The loops over `items`, one for each permission: the slot type of an item that is shown. -/
def itemSlotType (l : Loot) (meets : Meets) (viewer : Nat) (permission : PermissionTypes)
    (item : LootItem) : Option LootSlotType :=
  if !item.isLooted && !item.freeforall && item.allowedForPlayer meets viewer then
    match permission with
    | .group =>
      if item.isBlocked then some .rollOngoing
      else if !l.waits viewer || !item.isUnderthreshold then some .allowLoot
      else .none
    | .roundRobin => if l.waits viewer then .none else some .allowLoot
    | .master => some .master
    | .all | .owner => some .allowLoot
    | .none => .none
  else .none

/-- A quest entry of the viewer is shown: not looted, and not kept for a round robin looter who has
quest entries too. -/
def showsQuest (l : Loot) (viewer : Nat) (q : QuestItem) (item : LootItem) : Bool :=
  !(q.isLooted || item.isLooted) &&
    !(!item.freeforall && l.waits viewer && (l.playerQuestItems.lookup l.roundRobinPlayer).isSome)

/-- The slot type of a conditional entry of the viewer that is shown. -/
def conditionalSlotType (l : Loot) (meets : Meets) (viewer : Nat) (permission : PermissionTypes)
    (q : QuestItem) (item : LootItem) : Option LootSlotType :=
  match item.getSlotTypeForSharedLoot permission meets viewer (!q.isLooted) with
  | .none => .none
  | some slotType =>
    if !item.freeforall && l.waits viewer && (l.playerConditionalItems.lookup l.roundRobinPlayer).isSome then
      .none
    else some slotType

def itemRecords (l : Loot) (meets : Meets) (viewer : Nat) (permission : PermissionTypes) : List LootRecord :=
  l.items.zipIdx.filterMap fun x => (l.itemSlotType meets viewer permission x.1).map (x.1.record x.2)

/-- The records of the viewer's quest entries. -/
def questRecords (l : Loot) (viewer : Nat) : List LootRecord :=
  ((l.playerQuestItems.lookup viewer).getD []).zipIdx.filterMap fun x =>
    (l.questItems[x.1.index]?).bind fun item =>
      if l.showsQuest viewer x.1 item then some (item.record (l.items.length + x.2) .allowLoot) else .none

/-- The records of the viewer's free-for-all entries. -/
def ffaRecords (l : Loot) (viewer : Nat) : List LootRecord :=
  ((l.playerFFAItems.lookup viewer).getD []).filterMap fun q =>
    (l.items[q.index]?).bind fun item =>
      if !q.isLooted && !item.isLooted then some (item.record q.index .allowLoot) else .none

/-- The records of the viewer's conditional entries. -/
def conditionalRecords (l : Loot) (meets : Meets) (viewer : Nat) (permission : PermissionTypes) :
    List LootRecord :=
  ((l.playerConditionalItems.lookup viewer).getD []).filterMap fun q =>
    (l.items[q.index]?).bind fun item =>
      (l.conditionalSlotType meets viewer permission q item).map (item.record q.index)

/-- `operator<<(ByteBuffer&, LootView const&)`. -/
def view (l : Loot) (meets : Meets) (viewer : Nat) (permission : PermissionTypes) : LootPacket :=
  if permission = .none then ⟨0, 0, []⟩
  else
    let records := l.itemRecords meets viewer permission ++ l.questRecords viewer ++ l.ffaRecords viewer ++
      l.conditionalRecords meets viewer permission
    ⟨l.gold, UInt8.ofNat records.length, records⟩

/-- The packet holds the announced number of records, no slot is in it twice, and every slot that
the viewer could take is in it. -/
structure Agrees (l : Loot) (meets : Meets) (held : Bool) (viewer : Nat) (permission : PermissionTypes) :
    Prop where
  announced : (l.view meets viewer permission).itemsShown.toNat = (l.view meets viewer permission).records.length
  distinct : ((l.view meets viewer permission).records.map (·.slot)).Nodup
  shown : ∀ slot : UInt8, (l.takeable meets held viewer slot.toNat).isSome = true →
    slot ∈ (l.view meets viewer permission).records.map (·.slot)

/-- The lists of the players are about entries that are there, of their kind, and no more than
there is room for. -/
structure Shaped (l : Loot) : Prop where
  items_le : l.items.length ≤ maxNrLootItems
  quest_le : l.questItems.length ≤ maxNrQuestItems
  distinctQuest : l.playerQuestItems.Distinct
  distinctFFA : l.playerFFAItems.Distinct
  distinctConditional : l.playerConditionalItems.Distinct
  quest : ∀ i, l.playerQuestItems.listed i = true → i < l.questItems.length
  ffa : ∀ i, l.playerFFAItems.listed i = true → ∃ item, l.items[i]? = some item ∧ item.freeforall = true
  conditional : ∀ i, l.playerConditionalItems.listed i = true →
    ∃ item, l.items[i]? = some item ∧ item.freeforall = false ∧ item.conditionId ≠ 0

/-! ## Every loot has this shape -/

variable {l l' : Loot} {meets : Meets} {player : Nat}

/-- The item is still of its kind. -/
structure SameKind (item item' : LootItem) : Prop where
  freeforall : item'.freeforall = item.freeforall
  conditionId : item'.conditionId = item.conditionId

theorem SameKind.refl (item : LootItem) : SameKind item item := ⟨rfl, rfl⟩

section

variable (h : Shaped l)
include h

/-- Changes of the entries that keep their kind. -/
theorem Shaped.entries {items questItems : List LootItem}
    (hi : ∀ (i : Nat) item, l.items[i]? = some item → ∃ item', items[i]? = some item' ∧ SameKind item item')
    (hn : items.length ≤ maxNrLootItems) (hq : l.questItems.length ≤ questItems.length)
    (hqn : questItems.length ≤ maxNrQuestItems) (n : UInt8) :
    Shaped { l with items, questItems, unlootedCount := n } := by
  refine ⟨hn, hqn, h.distinctQuest, h.distinctFFA, h.distinctConditional,
    fun i hl => Nat.lt_of_lt_of_le (h.quest i hl) hq, fun i hl => ?_, fun i hl => ?_⟩
  · obtain ⟨item, hitem, hf⟩ := h.ffa i hl
    obtain ⟨item', hitem', hk⟩ := hi i item hitem
    exact ⟨item', hitem', hk.freeforall.trans hf⟩
  · obtain ⟨item, hitem, hf, hc⟩ := h.conditional i hl
    obtain ⟨item', hitem', hk⟩ := hi i item hitem
    exact ⟨item', hitem', hk.freeforall.trans hf, fun h0 => hc (hk.conditionId ▸ h0)⟩

theorem Shaped.modify {f : LootItem → LootItem} (i : Nat) (hf : ∀ item, SameKind item (f item))
    (n : UInt8) : Shaped { l with items := l.items.modify i f, unlootedCount := n } :=
  h.entries (moves_modify SameKind.refl hf) (by rw [length_modify]; exact h.items_le) (Nat.le_refl _)
    h.quest_le n

theorem addItem_shaped (li : LootStoreItem) : Shaped (l.addItem li) := by
  unfold addItem
  by_cases hq : li.needsQuest = true
  · rw [if_pos hq]
    by_cases hl : l.questItems.length < maxNrQuestItems
    · rw [if_pos hl]
      refine h.entries (fun i item hi => ⟨item, hi, .refl item⟩) h.items_le ?_ ?_ l.unlootedCount <;>
        rw [length_append, length_singleton] <;> omega
    · rw [if_neg hl]
      exact h
  · rw [if_neg hq]
    by_cases hl : l.items.length < maxNrLootItems
    · rw [if_pos hl]
      refine h.entries (moves_append SameKind.refl _) ?_ (Nat.le_refl _) h.quest_le _
      rw [length_append, length_singleton]
      omega
    · rw [if_neg hl]
      exact h

theorem fillQuestLoot_shaped (hp : l.playerQuestItems.lookup player = none) :
    Shaped (l.fillQuestLoot meets player) := by
  unfold fillQuestLoot
  by_cases hfull : l.items.length = maxNrLootItems
  · rw [if_pos hfull]
    exact h
  rw [if_neg hfull]
  dsimp only
  generalize his : (positions _ l.questItems).take _ = is
  have hnodup : is.Nodup := his ▸ nodup_positions.sublist (take_sublist _ _)
  refine { h with
    quest_le := by rw [length_markAt]; exact h.quest_le
    distinctQuest := h.distinctQuest.record hp hnodup
    quest := fun i hi => ?_ }
  rw [length_markAt]
  rcases (QuestItemMap.listed_record hp).mp hi with hi | hi
  · exact h.quest i hi
  · exact lt_of_mem_positions (mem_of_mem_take (his ▸ hi))

theorem fillFFALoot_shaped (hp : l.playerFFAItems.lookup player = none) :
    Shaped (l.fillFFALoot meets player) := by
  unfold fillFFALoot
  refine { h with distinctFFA := h.distinctFFA.record hp nodup_positions, ffa := fun i hi => ?_ }
  rcases (QuestItemMap.listed_record hp).mp hi with hi | hi
  · exact h.ffa i hi
  · obtain ⟨item, hitem, hprop⟩ := mem_positions.mp hi
    simp only [Bool.and_eq_true] at hprop
    exact ⟨item, hitem, hprop.1.2⟩

theorem fillConditionalLoot_shaped (hp : l.playerConditionalItems.lookup player = none) :
    Shaped (l.fillConditionalLoot meets player) := by
  unfold fillConditionalLoot
  dsimp only
  generalize his : positions _ l.items = is
  have hmark : ∀ (j : Nat) item, l.items[j]? = some item → ∃ item',
      (markAt (fun item => { item with isCounted := true }) is l.items)[j]? = some item' ∧ SameKind item item' :=
    moves_markAt SameKind.refl is fun _ => ⟨rfl, rfl⟩
  have hs := h.entries hmark (by rw [length_markAt]; exact h.items_le) (Nat.le_refl _) h.quest_le
    l.unlootedCount
  refine ⟨hs.items_le, h.quest_le, h.distinctQuest, h.distinctFFA,
    h.distinctConditional.record hp (his ▸ nodup_positions), h.quest, hs.ffa, fun i hi => ?_⟩
  rcases (QuestItemMap.listed_record hp).mp hi with hi | hi
  · exact hs.conditional i hi
  · rw [← his] at hi
    obtain ⟨item, hitem, hprop⟩ := mem_positions.mp hi
    simp only [Bool.and_eq_true, Bool.not_eq_true', bne_iff_ne] at hprop
    obtain ⟨item', hitem', hk⟩ := hmark i item hitem
    exact ⟨item', hitem', hk.freeforall.trans hprop.1.1.2, fun h0 => hprop.1.2 (hk.conditionId ▸ h0)⟩

/-- Fields that the shape does not read. -/
theorem Shaped.of_eq (hitems : l'.items = l.items) (hquest : l'.questItems = l.questItems)
    (hpq : l'.playerQuestItems = l.playerQuestItems) (hpf : l'.playerFFAItems = l.playerFFAItems)
    (hpc : l'.playerConditionalItems = l.playerConditionalItems) : Shaped l' :=
  ⟨hitems ▸ h.items_le, hquest ▸ h.quest_le, hpq ▸ h.distinctQuest, hpf ▸ h.distinctFFA,
    hpc ▸ h.distinctConditional, hquest ▸ hpq ▸ h.quest, hitems ▸ hpf ▸ h.ffa, hitems ▸ hpc ▸ h.conditional⟩

theorem markUnderthreshold_shaped (m : Moment) : Shaped (l.markUnderthreshold m) := by
  refine h.entries (fun j item hj => ⟨_, by rw [getElem?_map, hj]; rfl, ?_⟩)
    (by rw [length_map]; exact h.items_le) (Nat.le_refl _) h.quest_le l.unlootedCount
  dsimp only
  split_ifs
  · exact ⟨rfl, rfl⟩
  · exact .refl item

end

theorem shaped_filling : Filling Shaped where
  addItem := addItem_shaped
  looters h _ _ := h.of_eq rfl rfl rfl rfl rfl
  quest hp h := fillQuestLoot_shaped h hp
  ffa hp h := fillFFALoot_shaped h hp
  conditional hp h := fillConditionalLoot_shaped h hp
  underthreshold := markUnderthreshold_shaped

theorem take_shaped (h : Shaped l) (s : LootSlot) : Shaped (l.take player s) := by
  have hmarked : Shaped (l.markOwn player s.mark) := by
    cases s.mark with
    | plain => exact h
    | quest pos =>
      exact { h with
        distinctQuest := h.distinctQuest.setLooted
        quest := fun i hi => h.quest i (QuestItemMap.listed_setLooted ▸ hi) }
    | ffa pos =>
      exact { h with
        distinctFFA := h.distinctFFA.setLooted
        ffa := fun i hi => h.ffa i (QuestItemMap.listed_setLooted ▸ hi) }
    | conditional pos =>
      exact { h with
        distinctConditional := h.distinctConditional.setLooted
        conditional := fun i hi => h.conditional i (QuestItemMap.listed_setLooted ▸ hi) }
  unfold take
  dsimp only
  split_ifs
  · exact hmarked.of_eq rfl rfl rfl rfl rfl
  · exact hmarked.entries (fun i item hi => ⟨item, hi, .refl item⟩) hmarked.items_le
      (by rw [length_modify]) (by rw [length_modify]; exact hmarked.quest_le) _
  · exact hmarked.modify (f := fun item => { item with isLooted := true }) s.index (fun _ => ⟨rfl, rfl⟩) _

end Loot

namespace LootWorld

variable {w : LootWorld} {m : Moment} {player slot : Nat}

theorem countTheRoll_shaped {r : Roll} (h : w.loot.Shaped) : (countTheRoll m w r).loot.Shaped := by
  have happly : ∀ (o : Roll.Outcome) item, Loot.SameKind item (o.apply item) := by
    intro o item
    cases o <;> exact ⟨rfl, rfl⟩
  unfold countTheRoll
  cases w.loot.items[r.itemSlot]? with
  | none => exact h
  | some item =>
    dsimp only
    cases r.outcome m item <;> exact h.modify r.itemSlot (happly _) _

theorem foldl_countTheRoll_shaped {rs : List Roll} (h : w.loot.Shaped) :
    (rs.foldl (countTheRoll m) w).loot.Shaped :=
  run_invariant (I := fun w : LootWorld => w.loot.Shaped) (fun _ _ h => countTheRoll_shaped h) h rs

theorem step_shaped {i : LootInput} (h : w.loot.Shaped) : (w.step i).loot.Shaped := by
  cases i with
  | addItem li => exact Loot.addItem_shaped h li
  | fillNotNormalLootFor m player => exact Loot.shaped_filling.fillNotNormalLootFor h ..
  | fillLoot m lis owner group => exact Loot.shaped_filling.fillLoot h ..
  | sendLoot m player =>
    exact sendLoot_marks Loot.shaped_filling
      (fun _ i h => h.modify (f := fun item => { item with isUnderthreshold := true }) i (fun _ => ⟨rfl, rfl⟩) _)
      (fun _ i h => h.modify (f := fun item => { item with isBlocked := true }) i (fun _ => ⟨rfl, rfl⟩) _) h
  | lootRelease m player =>
    unfold step lootRelease
    dsimp only
    split_ifs
    · exact h.of_eq rfl rfl rfl rfl rfl
    · exact h
  | autostoreLootItem m player slot =>
    unfold step autostoreLootItem
    dsimp only
    cases w.taken m player slot with
    | none => exact h
    | some s => exact Loot.take_shaped h s
  | lootMasterGive m player slot target =>
    unfold step lootMasterGive
    dsimp only
    cases w.given m player slot target with
    | none => exact h
    | some item =>
      exact h.modify (f := fun item => { item with count := 0, isLooted := true }) slot (fun _ => ⟨rfl, rfl⟩) _
  | lootRoll m player slot vote => exact foldl_countTheRoll_shaped h
  | leave m player => exact foldl_countTheRoll_shaped h
  | endRoll m => exact foldl_countTheRoll_shaped h
  | lootMoney m player =>
    unfold step lootMoney
    dsimp only
    split_ifs
    · exact h.of_eq rfl rfl rfl rfl rfl
    · exact h

/-- Every loot that comes about has its shape. -/
theorem run_shaped (isCreature : Bool) (gold : UInt32) (is : List LootInput) :
    (run step (start isCreature gold) is).loot.Shaped := by
  refine run_invariant (I := fun w : LootWorld => w.loot.Shaped) (fun _ _ h => step_shaped h) ?_ is
  refine ⟨Nat.zero_le _, Nat.zero_le _, fun p ql hl => ?_, fun p ql hl => ?_, fun p ql hl => ?_, fun i hi => ?_,
    fun i hi => ?_, fun i hi => ?_⟩ <;> first | cases hl | cases hi

end LootWorld

/-! ## The slots that are shown -/

namespace Loot

variable {l : Loot} {meets : Meets} {held : Bool} {viewer n : Nat} {permission : PermissionTypes}

/-- The viewer's entries, with an empty list for none. -/
def questList (l : Loot) (viewer : Nat) : List QuestItem := (l.playerQuestItems.lookup viewer).getD []

def ffaList (l : Loot) (viewer : Nat) : List QuestItem := (l.playerFFAItems.lookup viewer).getD []

def conditionalList (l : Loot) (viewer : Nat) : List QuestItem :=
  (l.playerConditionalItems.lookup viewer).getD []

/-- The slots of the items that are shown. -/
def itemSlots (l : Loot) (meets : Meets) (viewer : Nat) (permission : PermissionTypes) : List Nat :=
  positions (fun item => (l.itemSlotType meets viewer permission item).isSome) l.items

def questSlots (l : Loot) (viewer : Nat) : List Nat :=
  ((l.questList viewer).zipIdx.filter fun x => (l.questItems[x.1.index]?).any (l.showsQuest viewer x.1)).map
    fun x => l.items.length + x.2

def ffaSlots (l : Loot) (viewer : Nat) : List Nat :=
  ((l.ffaList viewer).filter fun q => (l.items[q.index]?).any fun item => !q.isLooted && !item.isLooted).map
    (·.index)

def conditionalSlots (l : Loot) (meets : Meets) (viewer : Nat) (permission : PermissionTypes) : List Nat :=
  ((l.conditionalList viewer).filter fun q =>
    (l.items[q.index]?).any fun item => (l.conditionalSlotType meets viewer permission q item).isSome).map
      (·.index)

theorem map_slot_filterMap {α : Type} {xs : List α} {g : α → Option LootRecord} {p : α → Bool} {n : α → Nat}
    (h : ∀ x, (g x).map (·.slot) = if p x then some (UInt8.ofNat (n x)) else none) :
    (xs.filterMap g).map (·.slot) = ((xs.filter p).map n).map UInt8.ofNat := by
  induction xs with
  | nil => rfl
  | cons x xs ih =>
    have hx := h x
    cases hp : p x with
    | true =>
      rw [hp, if_pos rfl] at hx
      obtain ⟨r, hr, hslot⟩ := map_eq_some_iff.mp hx
      rw [filterMap_cons_some hr, filter_cons_of_pos hp, map_cons, map_cons, map_cons,
        hslot, ih]
    | false =>
      rw [hp, if_neg Bool.false_ne_true, map_eq_none_iff] at hx
      rw [filterMap_cons_none hx, filter_cons_of_neg (by simp [hp]), ih]

/-- The slot numbers of the packet. -/
theorem map_slot_view (hp : permission ≠ .none) :
    (l.view meets viewer permission).records.map (·.slot) =
      (l.itemSlots meets viewer permission ++ l.questSlots viewer ++ l.ffaSlots viewer ++
        l.conditionalSlots meets viewer permission).map UInt8.ofNat := by
  have h1 : (l.itemRecords meets viewer permission).map (·.slot) =
      (l.itemSlots meets viewer permission).map UInt8.ofNat := by
    refine map_slot_filterMap fun x => ?_
    cases hs : l.itemSlotType meets viewer permission x.1 <;> simp [hs, LootItem.record]
  have h2 : (l.questRecords viewer).map (·.slot) = (l.questSlots viewer).map UInt8.ofNat := by
    refine map_slot_filterMap fun x => ?_
    cases l.questItems[x.1.index]? with
    | none => rfl
    | some item => cases hs : l.showsQuest viewer x.1 item <;> simp [hs, LootItem.record]
  have h3 : (l.ffaRecords viewer).map (·.slot) = (l.ffaSlots viewer).map UInt8.ofNat := by
    refine map_slot_filterMap fun q => ?_
    cases l.items[q.index]? with
    | none => rfl
    | some item => cases hq : q.isLooted <;> cases hl : item.isLooted <;> simp [hl, LootItem.record]
  have h4 : (l.conditionalRecords meets viewer permission).map (·.slot) =
      (l.conditionalSlots meets viewer permission).map UInt8.ofNat := by
    refine map_slot_filterMap fun q => ?_
    cases l.items[q.index]? with
    | none => rfl
    | some item => cases hs : l.conditionalSlotType meets viewer permission q item <;> simp [hs, LootItem.record]
  unfold view
  rw [if_neg hp]
  simp only [map_append, h1, h2, h3, h4]

theorem mem_itemSlots : n ∈ l.itemSlots meets viewer permission ↔
    ∃ item, l.items[n]? = some item ∧ (l.itemSlotType meets viewer permission item).isSome = true :=
  mem_positions

theorem mem_questSlots : n ∈ l.questSlots viewer ↔ ∃ pos q item, n = l.items.length + pos ∧
    (l.questList viewer)[pos]? = some q ∧ l.questItems[q.index]? = some item ∧
      l.showsQuest viewer q item = true := by
  unfold questSlots
  simp only [mem_map, mem_filter, Prod.exists, mem_zipIdx_iff_getElem?, Option.any_eq_true]
  constructor
  · rintro ⟨q, pos, ⟨hq, item, hi, hs⟩, rfl⟩
    exact ⟨pos, q, item, rfl, hq, hi, hs⟩
  · rintro ⟨pos, q, item, rfl, hq, hi, hs⟩
    exact ⟨q, pos, ⟨hq, item, hi, hs⟩, rfl⟩

theorem mem_ffaSlots : n ∈ l.ffaSlots viewer ↔ ∃ q item, q ∈ l.ffaList viewer ∧ q.index = n ∧
    l.items[n]? = some item ∧ q.isLooted = false ∧ item.isLooted = false := by
  unfold ffaSlots
  simp only [mem_map, mem_filter, Option.any_eq_true, Bool.and_eq_true, Bool.not_eq_true']
  constructor
  · rintro ⟨q, ⟨hq, item, hi, hql, hl⟩, rfl⟩
    exact ⟨q, item, hq, rfl, hi, hql, hl⟩
  · rintro ⟨q, item, hq, rfl, hi, hql, hl⟩
    exact ⟨q, ⟨hq, item, hi, hql, hl⟩, rfl⟩

theorem mem_conditionalSlots : n ∈ l.conditionalSlots meets viewer permission ↔
    ∃ q item, q ∈ l.conditionalList viewer ∧ q.index = n ∧ l.items[n]? = some item ∧
      (l.conditionalSlotType meets viewer permission q item).isSome = true := by
  unfold conditionalSlots
  simp only [mem_map, mem_filter, Option.any_eq_true]
  constructor
  · rintro ⟨q, ⟨hq, item, hi, hs⟩, rfl⟩
    exact ⟨q, item, hq, rfl, hi, hs⟩
  · rintro ⟨q, item, hq, rfl, hi, hs⟩
    exact ⟨q, ⟨hq, item, hi, hs⟩, rfl⟩

/-- The entries of a list are listed. -/
theorem listed_of_mem {m : QuestItemMap} {q : QuestItem} (h : q ∈ (m.lookup viewer).getD []) :
    m.listed q.index = true := by
  cases hl : m.lookup viewer with
  | none => rw [hl] at h; cases h
  | some ql =>
    rw [hl] at h
    exact QuestItemMap.listed_iff.mpr ⟨viewer, ql, hl, q, h, rfl⟩

theorem nodup_index {m : QuestItemMap} (h : m.Distinct) (viewer : Nat) : (((m.lookup viewer).getD []).map (·.index)).Nodup := by
  cases hl : m.lookup viewer with
  | none => exact nodup_nil
  | some ql => exact h viewer ql hl

/-- A list without repetitions of numbers below `n` has at most `n`. -/
theorem length_le_of_nodup {xs : List Nat} (h : xs.Nodup) (hlt : ∀ x ∈ xs, x < n) : xs.length ≤ n := by
  have hsub := (subperm_of_subset h fun x hx => mem_range.mpr (hlt x hx)).length_le
  rwa [length_range] at hsub

section Shaped

variable (h : Shaped l)

include h

theorem questList_length : (l.questList viewer).length ≤ maxNrQuestItems := by
  have hle := length_le_of_nodup (nodup_index h.distinctQuest viewer) fun i hi => by
    obtain ⟨q, hq, rfl⟩ := mem_map.mp hi
    exact h.quest _ (listed_of_mem hq)
  rw [length_map] at hle
  exact Nat.le_trans hle h.quest_le

/-- The slots of each kind. -/
theorem slot_kinds (meets : Meets) (viewer : Nat) (permission : PermissionTypes) :
    (∀ i ∈ l.itemSlots meets viewer permission, ∃ item, l.items[i]? = some item ∧ item.freeforall = false) ∧
    (∀ i ∈ l.questSlots viewer, l.items.length ≤ i ∧ i < l.items.length + maxNrQuestItems) ∧
    (∀ i ∈ l.ffaSlots viewer, ∃ item, l.items[i]? = some item ∧ item.freeforall = true) ∧
    (∀ i ∈ l.conditionalSlots meets viewer permission,
      ∃ item, l.items[i]? = some item ∧ item.freeforall = false) := by
  refine ⟨fun i hi => ?_, fun i hi => ?_, fun i hi => ?_, fun i hi => ?_⟩
  · obtain ⟨item, hitem, hs⟩ := mem_itemSlots.mp hi
    refine ⟨item, hitem, ?_⟩
    unfold itemSlotType at hs
    cases hf : item.freeforall with
    | false => rfl
    | true => simp [hf] at hs
  · obtain ⟨pos, q, item, rfl, hq, -, -⟩ := mem_questSlots.mp hi
    have hlt := (List.getElem?_eq_some_iff.mp hq).1
    have hle : (l.questList viewer).length ≤ 32 := questList_length h
    have hmax : maxNrQuestItems = 32 := rfl
    omega
  · obtain ⟨q, item, hq, rfl, -⟩ := mem_ffaSlots.mp hi
    exact h.ffa _ (listed_of_mem hq)
  · obtain ⟨q, item, hq, rfl, -⟩ := mem_conditionalSlots.mp hi
    obtain ⟨item', hi', hf, -⟩ := h.conditional _ (listed_of_mem hq)
    exact ⟨item', hi', hf⟩

/-- Every slot number fits a byte. -/
theorem slot_lt (hn : n ∈ l.itemSlots meets viewer permission ++ l.questSlots viewer ++ l.ffaSlots viewer ++
    l.conditionalSlots meets viewer permission) : n < 256 := by
  have hitems : l.items.length ≤ 16 := h.items_le
  have hmax : maxNrQuestItems = 32 := rfl
  have hlt : (∃ item, l.items[n]? = some item) → n < 256 := by
    rintro ⟨item, hi⟩
    have := (List.getElem?_eq_some_iff.mp hi).1
    omega
  obtain ⟨h1, h2, h3, h4⟩ := slot_kinds h meets viewer permission
  simp only [mem_append] at hn
  rcases hn with ((hn | hn) | hn) | hn
  · obtain ⟨item, hi, -⟩ := h1 n hn
    exact hlt ⟨item, hi⟩
  · have := h2 n hn
    omega
  · obtain ⟨item, hi, -⟩ := h3 n hn
    exact hlt ⟨item, hi⟩
  · obtain ⟨item, hi, -⟩ := h4 n hn
    exact hlt ⟨item, hi⟩

theorem mem_slots (hp : permission ≠ .none) (hn : n < 256) :
    UInt8.ofNat n ∈ (l.view meets viewer permission).records.map (·.slot) ↔
      n ∈ l.itemSlots meets viewer permission ++ l.questSlots viewer ++ l.ffaSlots viewer ++
        l.conditionalSlots meets viewer permission := by
  rw [map_slot_view hp, mem_map]
  constructor
  · rintro ⟨i, hi, he⟩
    have hi' := slot_lt h hi
    have := congrArg UInt8.toNat he
    rw [UInt8.toNat_ofNat_of_lt' hi', UInt8.toNat_ofNat_of_lt' hn] at this
    exact this ▸ hi
  · exact fun hi => ⟨n, hi, rfl⟩

/-- The four lists are without repetition, and only the first and the last can share a slot. -/
theorem nodup_slots_iff (hp : permission ≠ .none) :
    ((l.view meets viewer permission).records.map (·.slot)).Nodup ↔
      ∀ n ∈ l.itemSlots meets viewer permission, n ∉ l.conditionalSlots meets viewer permission := by
  obtain ⟨h1, h2, h3, h4⟩ := slot_kinds h meets viewer permission
  have hlen : ∀ {i : Nat} {item : LootItem}, l.items[i]? = some item → i < l.items.length :=
    fun hi => (List.getElem?_eq_some_iff.mp hi).1
  have hnodup : (l.itemSlots meets viewer permission).Nodup ∧ (l.questSlots viewer).Nodup ∧
      (l.ffaSlots viewer).Nodup ∧ (l.conditionalSlots meets viewer permission).Nodup := by
    refine ⟨nodup_positions, ?_, ?_, ?_⟩
    · unfold questSlots
      have hpos : ((l.questList viewer).zipIdx.map (·.2)).Nodup := by
        rw [zipIdx_map_snd]
        exact nodup_range'
      have hsub := (filter_sublist (p := fun x : QuestItem × Nat =>
        (l.questItems[x.1.index]?).any (l.showsQuest viewer x.1)) (l := (l.questList viewer).zipIdx)).map (·.2)
      have := (hpos.sublist hsub).map (f := fun i => l.items.length + i) fun a b hab => Nat.add_left_cancel hab
      rwa [map_map] at this
    · exact (nodup_index h.distinctFFA viewer).sublist (filter_sublist.map _)
    · exact (nodup_index h.distinctConditional viewer).sublist (filter_sublist.map _)
  have hinj : ((l.view meets viewer permission).records.map (·.slot)).Nodup ↔
      (l.itemSlots meets viewer permission ++ l.questSlots viewer ++ l.ffaSlots viewer ++
        l.conditionalSlots meets viewer permission).Nodup := by
    rw [map_slot_view hp]
    refine ⟨List.Nodup.of_map _, List.Nodup.map_on fun x hx y hy he => ?_⟩
    have := congrArg UInt8.toNat he
    rwa [UInt8.toNat_ofNat_of_lt' (slot_lt h hx), UInt8.toNat_ofNat_of_lt' (slot_lt h hy)] at this
  have hkind : ∀ {i : Nat}, (∃ item, l.items[i]? = some item ∧ item.freeforall = false) →
      (∃ item, l.items[i]? = some item ∧ item.freeforall = true) → False := by
    rintro i ⟨item, hi, hf⟩ ⟨item', hi', hf'⟩
    obtain rfl : item = item' := some.inj (hi.symm.trans hi')
    rw [hf] at hf'
    cases hf'
  rw [hinj, nodup_append', nodup_append', nodup_append']
  constructor
  · rintro ⟨-, -, hdisj⟩ n hn hn'
    exact hdisj (mem_append_left _ (mem_append_left _ hn)) hn'
  · intro honce
    refine ⟨⟨⟨hnodup.1, hnodup.2.1, fun n hn hn' => ?_⟩, hnodup.2.2.1, fun n hn hn' => ?_⟩, hnodup.2.2.2,
      fun n hn hn' => ?_⟩
    · obtain ⟨item, hi, -⟩ := h1 n hn
      have := hlen hi
      have := h2 n hn'
      omega
    · rcases mem_append.mp hn with hn | hn
      · exact hkind (h1 n hn) (h3 n hn')
      · obtain ⟨item, hi, -⟩ := h3 n hn'
        have := hlen hi
        have := h2 n hn
        omega
    · simp only [mem_append] at hn
      rcases hn with (hn | hn) | hn
      · exact honce n hn hn'
      · obtain ⟨item, hi, -⟩ := h4 n hn'
        have := hlen hi
        have := h2 n hn
        omega
      · exact hkind (h4 n hn') (h3 n hn)

/-- The packet never announces a wrong number. -/
theorem announced (hp : permission ≠ .none) :
    (l.view meets viewer permission).itemsShown.toNat = (l.view meets viewer permission).records.length := by
  have hlen : (l.itemRecords meets viewer permission ++ l.questRecords viewer ++ l.ffaRecords viewer ++
      l.conditionalRecords meets viewer permission).length < 256 := by
    have h1 : (l.itemRecords meets viewer permission).length ≤ l.items.length :=
      Nat.le_trans (length_filterMap_le ..) (by rw [length_zipIdx])
    have h2 : (l.questRecords viewer).length ≤ (l.questList viewer).length :=
      Nat.le_trans (length_filterMap_le ..) (by rw [length_zipIdx]; exact Nat.le_refl _)
    have h3 : (l.ffaRecords viewer).length ≤ (l.ffaList viewer).length := length_filterMap_le ..
    have h4 : (l.conditionalRecords meets viewer permission).length ≤ (l.conditionalList viewer).length :=
      length_filterMap_le ..
    have hq : (l.questList viewer).length ≤ 32 := questList_length h
    have hi : l.items.length ≤ 16 := h.items_le
    have hf : ((l.ffaList viewer).map (·.index)).length ≤ l.items.length :=
      length_le_of_nodup (nodup_index h.distinctFFA viewer) fun i hi => by
        obtain ⟨q, hq, rfl⟩ := mem_map.mp hi
        obtain ⟨item, hitem, -⟩ := h.ffa _ (listed_of_mem hq)
        exact (List.getElem?_eq_some_iff.mp hitem).1
    have hc : ((l.conditionalList viewer).map (·.index)).length ≤ l.items.length :=
      length_le_of_nodup (nodup_index h.distinctConditional viewer) fun i hi => by
        obtain ⟨q, hq, rfl⟩ := mem_map.mp hi
        obtain ⟨item, hitem, -⟩ := h.conditional _ (listed_of_mem hq)
        exact (List.getElem?_eq_some_iff.mp hitem).1
    rw [length_map] at hf hc
    simp only [length_append]
    omega
  unfold view
  rw [if_neg hp]
  exact UInt8.toNat_ofNat_of_lt' hlen

end Shaped

/-! ## When the window and the taking agree -/

/-- The kinds of entries on which the window and the taking differ do not occur. -/
structure ViewOk (l : Loot) (meets : Meets) (held : Bool) (viewer : Nat) (permission : PermissionTypes) :
    Prop where
  /-- No conditional entry of the viewer is for an item that the loop over the items shows, too. -/
  conditional : ∀ q ∈ l.conditionalList viewer, ∀ item, l.items[q.index]? = some item →
    (l.itemSlotType meets viewer permission item).isSome = true →
      l.conditionalSlotType meets viewer permission q item = .none
  /-- While somebody else is the round robin looter, an item under the threshold can be taken only if
  a conditional entry shows it. -/
  group : permission = .group → l.waits viewer = true → ∀ slot s,
    l.takeable meets held viewer slot = some s → s.mark.isQuest = false → s.item.freeforall = false →
      s.item.isUnderthreshold = true → ∃ q ∈ l.conditionalList viewer, q.index = slot ∧
        (l.conditionalSlotType meets viewer permission q s.item).isSome = true
  /-- While somebody else is the round robin looter, nothing but the viewer's own can be taken. -/
  roundRobin : permission = .roundRobin → l.waits viewer = true → ∀ slot s,
    l.takeable meets held viewer slot = some s → s.mark.isQuest = false → s.item.freeforall = true
  /-- A free-for-all item can be taken only by an entry of the viewer, and while it is not given away. -/
  ffa : ∀ slot s, l.takeable meets held viewer slot = some s → s.mark.isQuest = false →
    s.item.freeforall = true → s.mark.isFFA = true ∧ s.item.isLooted = false
  /-- No quest entry can be taken that is kept for a round robin looter who has quest entries. -/
  quest : ∀ slot s, l.takeable meets held viewer slot = some s → s.mark.isQuest = true →
    s.item.freeforall = false → l.waits viewer = true → l.playerQuestItems.lookup l.roundRobinPlayer = none

theorem mem_getD_of_lookup {m : QuestItemMap} {ql : List QuestItem} (hl : m.lookup viewer = some ql) :
    (m.lookup viewer).getD [] = ql := by
  rw [hl]
  rfl

/-- An item that can be taken and is not under the filters of the window is shown. -/
theorem itemSlotType_isSome {item : LootItem} (hl : item.isLooted = false) (hf : item.freeforall = false)
    (ha : item.allowedForPlayer meets viewer = true) (hp : permission ≠ .none)
    (hg : permission = .group → item.isBlocked = true ∨ l.waits viewer = false ∨ item.isUnderthreshold = false)
    (hr : permission = .roundRobin → l.waits viewer = false) :
    (l.itemSlotType meets viewer permission item).isSome = true := by
  unfold itemSlotType
  rw [if_pos (by simp [hl, hf, ha])]
  cases permission with
  | group =>
    rcases hg rfl with hb | hw | hu
    · simp [hb]
    · simp [hw]; split_ifs <;> rfl
    · simp [hu]; split_ifs <;> rfl
  | roundRobin => simp [hr rfl]
  | none => exact absurd rfl hp
  | all | master | owner => rfl

theorem itemSlotType_group_none {item : LootItem} (hw : l.waits viewer = true) (hb : item.isBlocked = false)
    (hu : item.isUnderthreshold = true) : l.itemSlotType meets viewer .group item = .none := by
  unfold itemSlotType
  simp [hb, hw, hu]

theorem roundRobin_none {item : LootItem} {q : QuestItem} (hw : l.waits viewer = true) :
    l.itemSlotType meets viewer .roundRobin item = .none ∧
      l.conditionalSlotType meets viewer .roundRobin q item = .none := by
  constructor
  · unfold itemSlotType
    simp [hw]
  · unfold conditionalSlotType LootItem.getSlotTypeForSharedLoot
    split_ifs <;> rfl

/-- What can be taken is shown. -/
theorem shown_of_viewOk (hp : permission ≠ .none) (hok : ViewOk l meets held viewer permission) {s : LootSlot}
    (hs : l.takeable meets held viewer n = some s) :
    n ∈ l.itemSlots meets viewer permission ++ l.questSlots viewer ++ l.ffaSlots viewer ++
      l.conditionalSlots meets viewer permission := by
  obtain ⟨hin, ha, hb, -⟩ := takeable_iff.mp hs
  have hplain : s.mark.isQuest = false → s.index = n → l.items[n]? = some s.item → s.item.freeforall = false →
      s.item.isLooted = false → s.item.isBlocked = false →
      n ∈ l.itemSlots meets viewer permission ++ l.questSlots viewer ++ l.ffaSlots viewer ++
        l.conditionalSlots meets viewer permission := by
    intro hq hidx hi hf hl hbl
    by_cases hg : permission = .group ∧ l.waits viewer = true ∧ s.item.isUnderthreshold = true
    · obtain ⟨q, hmem, hqi, hsome⟩ := hok.group hg.1 hg.2.1 n s hs hq hf hg.2.2
      exact mem_append_right _ (mem_conditionalSlots.mpr ⟨q, s.item, hmem, hqi, hi, hsome⟩)
    · refine mem_append_left _ (mem_append_left _ (mem_append_left _ (mem_itemSlots.mpr
        ⟨s.item, hi, itemSlotType_isSome hl hf ha hp (fun h1 => ?_) fun h1 => ?_⟩)))
      · right
        by_contra hne
        simp only [not_or, Bool.not_eq_false] at hne
        exact hg ⟨h1, hne.1, hne.2⟩
      · by_contra hne
        rw [Bool.not_eq_false] at hne
        rw [hok.roundRobin h1 hne n s hs hq] at hf
        cases hf
  have hunblocked : s.mark.isQuest = false → s.item.isBlocked = false := by
    intro hq
    rw [hq] at hb
    exact hb.resolve_left (by simp)
  cases hin with
  | @ffa item pos q hi hf hq hl =>
    obtain ⟨ql, hql, hpos, hidx⟩ := QuestItemMap.find_some hq
    refine mem_append_left _ (mem_append_right _ (mem_ffaSlots.mpr ⟨q, item, ?_, hidx, hi, hl,
      (hok.ffa n _ hs rfl hf).2⟩))
    rw [ffaList, hql]
    exact mem_of_getElem? hpos
  | unlisted hi hf hq hl => cases (hok.ffa n _ hs rfl hf).1
  | plain hi hf hl hcond => exact hplain rfl rfl hi hf hl (hunblocked rfl)
  | conditional hi hf hl hcond hq hql => exact hplain rfl rfl hi hf hl (hunblocked rfl)
  | @quest ql item pos q hslot hpl hq hi hl hql =>
    refine mem_append_left _ (mem_append_left _ (mem_append_right _ (mem_questSlots.mpr
      ⟨pos, q, item, hslot, ?_, hi, ?_⟩)))
    · rw [questList, hpl]
      exact hq
    · unfold showsQuest
      rw [hql, hl]
      cases hf : item.freeforall with
      | true => rfl
      | false =>
        cases hw : l.waits viewer with
        | false => rfl
        | true => rw [hok.quest n _ hs rfl hf hw]; rfl

theorem takeable_lt (h : Shaped l) {s : LootSlot} (hs : l.takeable meets held viewer n = some s) : n < 256 := by
  have hitems : l.items.length ≤ 16 := h.items_le
  have hquest : (l.questList viewer).length ≤ 32 := questList_length h
  have hlt : (∃ item, l.items[n]? = some item) → n < 256 := by
    rintro ⟨item, hi⟩
    have := (List.getElem?_eq_some_iff.mp hi).1
    omega
  obtain ⟨hin, -⟩ := takeable_iff.mp hs
  cases hin with
  | ffa hi | unlisted hi | plain hi | conditional hi => exact hlt ⟨_, hi⟩
  | quest hslot hpl hq hi hl hql =>
    rw [questList, mem_getD_of_lookup hpl] at hquest
    have := (List.getElem?_eq_some_iff.mp hq).1
    omega

/-- A slot that can be taken stands for an item or for a quest entry of the viewer. -/
theorem takeable_kind {s : LootSlot} (hs : l.takeable meets held viewer n = some s) :
    (s.mark.isQuest = false ∧ l.items[n]? = some s.item ∧ s.item.isBlocked = false) ∨
    (s.mark.isQuest = true ∧ ∃ pos q, n = l.items.length + pos ∧ (l.questList viewer)[pos]? = some q ∧
      l.questItems[q.index]? = some s.item) := by
  obtain ⟨hin, -, hb, -⟩ := takeable_iff.mp hs
  cases hin with
  | ffa hi | unlisted hi | plain hi | conditional hi => exact .inl ⟨rfl, hi, hb.resolve_left (by simp [SlotMark.isQuest])⟩
  | quest hslot hpl hq hi hl hql =>
    refine .inr ⟨rfl, _, _, hslot, ?_, hi⟩
    rw [questList, mem_getD_of_lookup hpl]
    exact hq

theorem viewOk_of_agrees (h : Shaped l) (hp : permission ≠ .none) (ha : Agrees l meets held viewer permission) :
    ViewOk l meets held viewer permission := by
  obtain ⟨h1, h2, h3, h4⟩ := slot_kinds h meets viewer permission
  have hshown : ∀ slot s, l.takeable meets held viewer slot = some s →
      slot ∈ l.itemSlots meets viewer permission ++ l.questSlots viewer ++ l.ffaSlots viewer ++
        l.conditionalSlots meets viewer permission := by
    intro slot s hs
    have hlt := takeable_lt h hs
    refine (mem_slots h hp hlt).mp (ha.shown (UInt8.ofNat slot) ?_)
    rw [UInt8.toNat_ofNat_of_lt' hlt, hs]
    rfl
  -- a slot of the items is shown by one of the loops over items
  have hitem : ∀ slot s, l.takeable meets held viewer slot = some s → s.mark.isQuest = false →
      (l.itemSlotType meets viewer permission s.item).isSome = true ∨
      (s.item.freeforall = true ∧ slot ∈ l.ffaSlots viewer) ∨
      (s.item.freeforall = false ∧ ∃ q ∈ l.conditionalList viewer, q.index = slot ∧
        (l.conditionalSlotType meets viewer permission q s.item).isSome = true) := by
    intro slot s hs hq
    obtain ⟨-, hi, -⟩ | ⟨hq', -⟩ := takeable_kind hs
    · have hsame : ∀ {item : LootItem}, l.items[slot]? = some item → item = s.item :=
        fun hi' => some.inj (hi'.symm.trans hi)
      have hmem := hshown slot s hs
      simp only [mem_append] at hmem
      rcases hmem with ((hmem | hmem) | hmem) | hmem
      · obtain ⟨item, hi', hsome⟩ := mem_itemSlots.mp hmem
        exact .inl (hsame hi' ▸ hsome)
      · have := (h2 slot hmem).1
        have := (List.getElem?_eq_some_iff.mp hi).1
        omega
      · obtain ⟨item, hi', hf⟩ := h3 slot hmem
        exact .inr (.inl ⟨hsame hi' ▸ hf, hmem⟩)
      · obtain ⟨item, hi', hf⟩ := h4 slot hmem
        obtain ⟨q, item', hmem, hqi, hi'', hsome⟩ := mem_conditionalSlots.mp hmem
        exact .inr (.inr ⟨hsame hi' ▸ hf, q, hmem, hqi, hsame hi'' ▸ hsome⟩)
    · rw [hq] at hq'
      cases hq'
  refine ⟨fun q hq item hi hsome => ?_, fun hg hw slot s hs hq hf hu => ?_, fun hr hw slot s hs hq => ?_,
    fun slot s hs hq hf => ?_, fun slot s hs hq hf hw => ?_⟩
  · by_contra hne
    refine (nodup_slots_iff h hp).mp ha.distinct q.index (mem_itemSlots.mpr ⟨item, hi, hsome⟩)
      (mem_conditionalSlots.mpr ⟨q, item, hq, rfl, hi, ?_⟩)
    exact isSome_iff_ne_none.mpr hne
  · subst hg
    obtain ⟨-, -, hb⟩ | ⟨hq', -⟩ := takeable_kind hs
    · rcases hitem slot s hs hq with hsome | ⟨hf', -⟩ | ⟨-, hcond⟩
      · rw [itemSlotType_group_none hw hb hu] at hsome
        cases hsome
      · rw [hf] at hf'
        cases hf'
      · exact hcond
    · rw [hq] at hq'
      cases hq'
  · subst hr
    rcases hitem slot s hs hq with hsome | ⟨hf, -⟩ | ⟨-, q, -, -, hsome⟩
    · rw [(roundRobin_none (q := ⟨0, false⟩) hw).1] at hsome
      cases hsome
    · exact hf
    · rw [(roundRobin_none hw).2] at hsome
      cases hsome
  · rcases hitem slot s hs hq with hsome | ⟨-, hmem⟩ | ⟨hf', -⟩
    · unfold itemSlotType at hsome
      simp [hf] at hsome
    · obtain ⟨q, item, hql, hqi, hi, -, hl⟩ := mem_ffaSlots.mp hmem
      obtain ⟨hin, -⟩ := takeable_iff.mp hs
      cases hin with
      | @ffa item' pos q' hi' hf' hq' hl' =>
        obtain rfl : item = item' := some.inj (hi.symm.trans hi')
        exact ⟨rfl, hl⟩
      | unlisted hi' hf' hq' hl' =>
        cases hlook : l.playerFFAItems.lookup viewer with
        | none => rw [ffaList, hlook] at hql; cases hql
        | some ql =>
          rw [ffaList, hlook] at hql
          exact absurd hqi (QuestItemMap.find_none hq' hlook q hql)
      | plain hi' hf' => rw [hf] at hf'; cases hf'
      | conditional hi' hf' => rw [hf] at hf'; cases hf'
      | quest => cases hq
    · rw [hf] at hf'
      cases hf'
  · obtain ⟨hq', -⟩ | ⟨-, pos, q, hslot, hqpos, hi⟩ := takeable_kind hs
    · rw [hq] at hq'
      cases hq'
    have hge : ¬ slot < l.items.length := by omega
    have hmem := hshown slot s hs
    have hnot : ∀ {item : LootItem}, l.items[slot]? ≠ some item :=
      fun hi' => hge (List.getElem?_eq_some_iff.mp hi').1
    simp only [mem_append] at hmem
    rcases hmem with ((hmem | hmem) | hmem) | hmem
    · obtain ⟨item, hi', -⟩ := h1 slot hmem
      exact absurd hi' hnot
    · obtain ⟨pos', q', item, hslot', hqpos', hi', hshow⟩ := mem_questSlots.mp hmem
      obtain rfl : pos' = pos := by omega
      obtain rfl : q' = q := some.inj (hqpos'.symm.trans hqpos)
      obtain rfl : item = s.item := some.inj (hi'.symm.trans hi)
      unfold showsQuest at hshow
      simp only [hf, hw, Bool.not_false, Bool.true_and, Bool.and_eq_true, Bool.not_eq_true',
        isSome_eq_false_iff, isNone_iff_eq_none] at hshow
      exact hshow.2
    · obtain ⟨item, hi', -⟩ := h3 slot hmem
      exact absurd hi' hnot
    · obtain ⟨item, hi', -⟩ := h4 slot hmem
      exact absurd hi' hnot

theorem agrees_of_viewOk (h : Shaped l) (hp : permission ≠ .none) (hok : ViewOk l meets held viewer permission) :
    Agrees l meets held viewer permission := by
  refine ⟨announced h hp, (nodup_slots_iff h hp).mpr fun n hn hn' => ?_, fun slot hs => ?_⟩
  · obtain ⟨item, hi, hsome⟩ := mem_itemSlots.mp hn
    obtain ⟨q, item', hq, rfl, hi', hsome'⟩ := mem_conditionalSlots.mp hn'
    obtain rfl : item = item' := some.inj (hi.symm.trans hi')
    rw [hok.conditional q hq item hi hsome] at hsome'
    cases hsome'
  · obtain ⟨s, hs⟩ := isSome_iff_exists.mp hs
    have hmem := (mem_slots h hp slot.toNat_lt).mpr (shown_of_viewOk hp hok hs)
    rwa [UInt8.ofNat_toNat] at hmem

end Loot

namespace LootWorld

/-- In every loot that comes about, what a viewer sees agrees with what they can take exactly when
none of the entries is of a kind on which the two differ. -/
theorem agrees_iff (isCreature : Bool) (gold : UInt32) (is : List LootInput) (meets : Meets) (held : Bool)
    (viewer : Nat) {permission : PermissionTypes} (hp : permission ≠ .none) :
    (run step (start isCreature gold) is).loot.Agrees meets held viewer permission ↔
      (run step (start isCreature gold) is).loot.ViewOk meets held viewer permission :=
  ⟨Loot.viewOk_of_agrees (run_shaped isCreature gold is) hp,
    Loot.agrees_of_viewOk (run_shaped isCreature gold is) hp⟩

theorem agrees_iff_plain : PermissionTypes.all ≠ .none ∧
    ((run step (start true 0) [.addItem { itemid := 6, count := 1 }, .fillNotNormalLootFor anyMoment 1]).loot.Agrees
        anyMoment.meets false 1 .all ↔
      (run step (start true 0) [.addItem { itemid := 6, count := 1 },
        .fillNotNormalLootFor anyMoment 1]).loot.ViewOk anyMoment.meets false 1 .all) :=
  ⟨by decide, agrees_iff true 0 _ anyMoment.meets false 1 (by decide)⟩

/-- A conditional item is shown twice to a player who has an entry for it; a free-for-all item is
not shown to a player without an entry, who can take it. -/
theorem window_differs :
    ¬ (run step (start true 0) [.addItem { itemid := 6, count := 1, conditionId := 7 },
        .fillNotNormalLootFor anyMoment 1]).loot.Agrees anyMoment.meets false 1 .all ∧
    ¬ (run step (start true 0) [.addItem { itemid := 5, count := 1, partyLoot := true }]).loot.Agrees
        anyMoment.meets false 3 .all := by
  refine ⟨fun h => ?_, fun h => ?_⟩
  · have := h.distinct
    revert this
    decide
  · have := h.shown 0 rfl
    revert this
    decide

end LootWorld

end Windrunner
