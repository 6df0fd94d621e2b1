import Mathlib.Data.UInt
import Windrunner.Lib.Total

/-!
# A loot and how it is filled

* `LootItem`, `QuestItem`, `Loot`: the entries of a loot, and for each player the lists of the quest,
  free-for-all and conditional entries that are theirs to take.
* `Loot.addItem`: one entry from the template.
* `Loot.fillNotNormalLootFor`: the three lists of a player, each made once.
* `Loot.lootItemInSlot`: the entry that a slot number of a player stands for.

What a player's quests, the conditions and the prototypes say is a parameter (`Meets`).
-/

namespace Windrunner

open Lib
open Option hiding map_map mem_map
open List hiding getElem?_eq_some_iff

abbrev maxNrLootItems : Nat := 16

abbrev maxNrQuestItems : Nat := 32

/-- A template entry that the dice have chosen, with the count they gave it; `partyLoot` is the
flag of its prototype. -/
structure LootStoreItem where
  itemid : Nat
  count : UInt8
  conditionId : Nat := 0
  needsQuest : Bool := false
  partyLoot : Bool := false
  deriving DecidableEq, Repr

structure LootItem where
  itemid : Nat
  count : UInt8
  conditionId : Nat
  freeforall : Bool
  needsQuest : Bool
  isLooted : Bool := false
  isBlocked : Bool := false
  isUnderthreshold : Bool := false
  isCounted : Bool := false
  /-- The winner of a roll who had no room for it; `0` for nobody. -/
  lootOwner : Nat := 0
  deriving DecidableEq, Repr

/-- An entry of a player's list: a position in `items` or in `questItems`, and the player's mark. -/
structure QuestItem where
  index : Nat
  isLooted : Bool := false
  deriving DecidableEq, Repr

abbrev QuestItemMap := FinMap Nat (List QuestItem)

/-- What the conditions and the quests of a player (and the prototype of the item) say:
`meets player itemid conditionId needsQuest`. -/
abbrev Meets := Nat → Nat → Nat → Bool → Bool

structure Loot where
  items : List LootItem := []
  questItems : List LootItem := []
  playerQuestItems : QuestItemMap := ∅
  playerFFAItems : QuestItemMap := ∅
  playerConditionalItems : QuestItemMap := ∅
  gold : UInt32 := 0
  unlootedCount : UInt8 := 0
  roundRobinPlayer : Nat := 0
  allowedLooters : List Nat := []

def LootItem.ofStore (li : LootStoreItem) : LootItem where
  itemid := li.itemid
  count := li.count
  conditionId := li.conditionId
  freeforall := li.partyLoot
  needsQuest := li.needsQuest

def LootItem.allowedForPlayer (item : LootItem) (meets : Meets) (player : Nat) : Bool :=
  meets player item.itemid item.conditionId item.needsQuest &&
    (item.lootOwner == 0 || player == item.lootOwner)

/-- The positions of the entries that satisfy `p`. -/
def positions (p : LootItem → Bool) (items : List LootItem) : List Nat :=
  (items.zipIdx.filter fun x => p x.1).map (·.2)

/-- The entries at these positions are changed by `f`. -/
def markAt (f : LootItem → LootItem) (is : List Nat) (items : List LootItem) : List LootItem :=
  items.mapIdx fun i item => if i ∈ is then f item else item

/-- The number of these positions whose entry satisfies `p`. -/
def countAt (p : LootItem → Bool) (is : List Nat) (items : List LootItem) : Nat :=
  is.countP fun i => (items[i]?).any p

/-- A new list of a player; an empty one is not kept. -/
def QuestItemMap.record (m : QuestItemMap) (player : Nat) (is : List Nat) : QuestItemMap :=
  if is = [] then m else m.insert player (is.map fun i => { index := i })

/-- The player's entry at a position of their list becomes looted. -/
def QuestItemMap.setLooted (m : QuestItemMap) (player pos : Nat) : QuestItemMap :=
  match m.lookup player with
  | none => m
  | some ql => m.insert player (ql.modify pos fun q => { q with isLooted := true })

/-- The player's first entry for `index`, with its position. -/
def QuestItemMap.find (m : QuestItemMap) (player index : Nat) : Option (Nat × QuestItem) :=
  match m.lookup player with
  | none => none
  | some ql =>
    match ql.findIdx? (·.index == index) with
    | none => none
    | some pos => (ql[pos]?).map (pos, ·)

namespace Loot

/-- `Loot::AddItem`. Free-for-all and conditional entries are counted when a player's list is
made. -/
def addItem (l : Loot) (li : LootStoreItem) : Loot :=
  if li.needsQuest then
    if l.questItems.length < maxNrQuestItems then
      { l with questItems := l.questItems ++ [.ofStore li] }
    else l
  else if l.items.length < maxNrLootItems then
    { l with
      items := l.items ++ [.ofStore li]
      unlootedCount :=
        if li.conditionId = 0 ∧ li.partyLoot = false then l.unlootedCount + 1 else l.unlootedCount }
  else l

/-- `Loot::FillQuestLoot`. The list stops when it and the items make `maxNrLootItems` together.
Quest entries become blocked when they first appear in a list; one that is not free for all counts
only then. -/
def fillQuestLoot (l : Loot) (meets : Meets) (player : Nat) : Loot :=
  if l.items.length = maxNrLootItems then l
  else
    let is := (positions (fun item => !item.isLooted && item.allowedForPlayer meets player)
      l.questItems).take (maxNrLootItems - l.items.length)
    { l with
      questItems := markAt (fun item => { item with isBlocked := true }) is l.questItems
      playerQuestItems := l.playerQuestItems.record player is
      unlootedCount := l.unlootedCount +
        UInt8.ofNat (countAt (fun item => item.freeforall || !item.isBlocked) is l.questItems) }

/-- `Loot::FillFFALoot`: every entry of the list counts. -/
def fillFFALoot (l : Loot) (meets : Meets) (player : Nat) : Loot :=
  let is := positions (fun item => !item.isLooted && item.freeforall &&
    item.allowedForPlayer meets player) l.items
  { l with
    playerFFAItems := l.playerFFAItems.record player is
    unlootedCount := l.unlootedCount + UInt8.ofNat is.length }

/-- `Loot::FillNonQuestNonFFAConditionalLoot`: an item counts when it first appears in a list. -/
def fillConditionalLoot (l : Loot) (meets : Meets) (player : Nat) : Loot :=
  let is := positions (fun item => !item.isLooted && !item.freeforall && item.conditionId != 0 &&
    item.allowedForPlayer meets player) l.items
  { l with
    items := markAt (fun item => { item with isCounted := true }) is l.items
    playerConditionalItems := l.playerConditionalItems.record player is
    unlootedCount := l.unlootedCount +
      UInt8.ofNat (countAt (fun item => !item.isCounted) is l.items) }

/-- `Loot::FillNotNormalLootFor`. The three functions do nothing for a player who is not in the
world. -/
def fillNotNormalLootFor (l : Loot) (meets : Meets) (inWorld : Nat → Bool) (player : Nat) : Loot :=
  if inWorld player then
    let l := { l with allowedLooters := l.allowedLooters ++ [player] }
    let l := if l.playerQuestItems.lookup player = none then l.fillQuestLoot meets player else l
    let l := if l.playerFFAItems.lookup player = none then l.fillFFALoot meets player else l
    if l.playerConditionalItems.lookup player = none then l.fillConditionalLoot meets player else l
  else l

def isLooted (l : Loot) : Bool := l.gold == 0 && l.unlootedCount == 0

end Loot

/-- Which of the player's own marks goes with a slot. -/
inductive SlotMark where
  | plain
  | quest (pos : Nat)
  | ffa (pos : Nat)
  | conditional (pos : Nat)
  deriving DecidableEq, Repr

/-- What `LootItemInSlot` points at: an entry of `questItems` for a quest mark, else of `items`. -/
structure LootSlot where
  index : Nat
  item : LootItem
  mark : SlotMark
  deriving DecidableEq, Repr

def SlotMark.isQuest : SlotMark → Bool
  | quest _ => true
  | _ => false

def SlotMark.isFFA : SlotMark → Bool
  | ffa _ => true
  | _ => false

namespace Loot

/-- `Loot::LootItemInSlot`. The player's own mark on a free-for-all entry stands in for the mark on
the item; without such an entry the mark on the item decides. -/
def lootItemInSlot (l : Loot) (slot player : Nat) : Option LootSlot :=
  if slot < l.items.length then
    match l.items[slot]? with
    | none => none
    | some item =>
      if item.freeforall then
        match l.playerFFAItems.find player slot with
        | some (pos, q) => if q.isLooted then none else some ⟨slot, item, .ffa pos⟩
        | none => if item.isLooted then none else some ⟨slot, item, .plain⟩
      else if item.isLooted then none
      else if item.conditionId = 0 then some ⟨slot, item, .plain⟩
      else
        match l.playerConditionalItems.find player slot with
        | some (pos, q) => if q.isLooted then none else some ⟨slot, item, .conditional pos⟩
        | none => some ⟨slot, item, .plain⟩
  else
    match l.playerQuestItems.lookup player with
    | none => none
    | some ql =>
      match ql[slot - l.items.length]? with
      | none => none
      | some q =>
        match l.questItems[q.index]? with
        | none => none
        | some item =>
          if item.isLooted || q.isLooted then none
          else some ⟨q.index, item, .quest (slot - l.items.length)⟩

end Loot

/-! ## The lists of the players -/

section Positions

variable {p : LootItem → Bool} {f : LootItem → LootItem} {items : List LootItem} {is : List Nat} {i : Nat}

theorem mem_positions : i ∈ positions p items ↔ ∃ item, items[i]? = some item ∧ p item = true := by
  unfold positions
  simp only [mem_map, mem_filter, Prod.exists, mem_zipIdx_iff_getElem?]
  constructor
  · rintro ⟨item, j, ⟨hj, hp⟩, rfl⟩
    exact ⟨item, hj, hp⟩
  · rintro ⟨item, hi, hp⟩
    exact ⟨item, i, ⟨hi, hp⟩, rfl⟩

theorem nodup_positions : (positions p items).Nodup := by
  unfold positions
  have hsub : ((items.zipIdx.filter fun x => p x.1).map (·.2)).Sublist (items.zipIdx.map (·.2)) :=
    filter_sublist.map _
  refine hsub.nodup ?_
  rw [zipIdx_map_snd]
  exact nodup_range'

theorem getElem?_markAt :
    (markAt f is items)[i]? = (items[i]?).map fun item => if i ∈ is then f item else item := by
  unfold markAt
  rw [getElem?_mapIdx]

theorem length_markAt : (markAt f is items).length = items.length := length_mapIdx

end Positions

namespace QuestItemMap

variable {m : QuestItemMap} {player other pos i : Nat} {is : List Nat} {ql : List QuestItem} {q : QuestItem}

/-- The player has a looted entry for `i`. -/
def Looted (m : QuestItemMap) (player i : Nat) : Prop :=
  ∃ ql, m.lookup player = some ql ∧ ∃ q ∈ ql, q.index = i ∧ q.isLooted = true

/-- No list has two entries for one position. -/
def Distinct (m : QuestItemMap) : Prop := ∀ player ql, m.lookup player = some ql → (ql.map (·.index)).Nodup

theorem lookup_record (h : m.lookup player = none) :
    (m.record player is).lookup other =
      if other = player ∧ is ≠ [] then some (is.map fun i => { index := i }) else m.lookup other := by
  unfold record
  by_cases his : is = []
  · simp [his]
  · rw [if_neg his]
    by_cases ho : other = player
    · subst ho
      rw [AList.lookup_insert, if_pos ⟨rfl, his⟩]
    · rw [AList.lookup_insert_ne ho, if_neg (by simp [ho])]

theorem Distinct.record (hd : m.Distinct) (h : m.lookup player = none) (his : is.Nodup) :
    (m.record player is).Distinct := by
  intro other ql hl
  rw [lookup_record h] at hl
  split_ifs at hl
  · obtain rfl := some.inj hl
    rw [map_map]
    exact (map_id is).symm ▸ his
  · exact hd other ql hl

theorem Looted.record (hl : m.Looted other i) (h : m.lookup player = none) :
    (m.record player is).Looted other i := by
  obtain ⟨ql, hql, hq⟩ := hl
  refine ⟨ql, ?_, hq⟩
  rw [lookup_record h, if_neg, hql]
  rintro ⟨rfl, -⟩
  rw [hql] at h
  cases h

/-- The list of a player after a mark. -/
theorem lookup_setLooted (hql : m.lookup player = some ql) :
    (m.setLooted player pos).lookup other =
      if other = player then some (ql.modify pos fun q => { q with isLooted := true })
      else m.lookup other := by
  unfold setLooted
  rw [hql]
  dsimp only
  by_cases ho : other = player
  · subst ho
    rw [AList.lookup_insert, if_pos rfl]
  · rw [AList.lookup_insert_ne ho, if_neg ho]

theorem map_index_modify : (ql.modify pos fun q => { q with isLooted := true }).map (·.index) =
    ql.map (·.index) := by
  refine ext_getElem? fun n => ?_
  rw [getElem?_map, getElem?_modify, getElem?_map]
  cases ql[n]? with
  | none => rfl
  | some q => by_cases h : pos = n <;> simp [h]

theorem Distinct.setLooted (hd : m.Distinct) : (m.setLooted player pos).Distinct := by
  cases hql : m.lookup player with
  | none =>
    unfold QuestItemMap.setLooted
    rw [hql]
    exact hd
  | some ql =>
    intro other ql' hl
    rw [lookup_setLooted hql] at hl
    split_ifs at hl
    · obtain rfl := some.inj hl
      rw [map_index_modify]
      exact hd player ql hql
    · exact hd other ql' hl

theorem Looted.setLooted (hl : m.Looted other i) : (m.setLooted player pos).Looted other i := by
  obtain ⟨ql, hql, q, hq, hi, hlooted⟩ := hl
  cases hp : m.lookup player with
  | none =>
    unfold QuestItemMap.setLooted
    rw [hp]
    exact ⟨ql, hql, q, hq, hi, hlooted⟩
  | some ql' =>
    by_cases ho : other = player
    · subst ho
      obtain rfl : ql' = ql := some.inj (hp.symm.trans hql)
      obtain ⟨n, hn⟩ := mem_iff_getElem?.mp hq
      refine ⟨_, by rw [lookup_setLooted hp, if_pos rfl], if pos = n then { q with isLooted := true } else q,
        ?_, ?_, ?_⟩
      · refine mem_iff_getElem?.mpr ⟨n, ?_⟩
        rw [getElem?_modify, hn]
        split_ifs <;> rfl
      · split_ifs <;> exact hi
      · split_ifs <;> first | rfl | exact hlooted
    · exact ⟨ql, by rw [lookup_setLooted hp, if_neg ho, hql], q, hq, hi, hlooted⟩

theorem looted_setLooted (hql : m.lookup player = some ql) (hq : ql[pos]? = some q) :
    (m.setLooted player pos).Looted player q.index := by
  refine ⟨_, by rw [lookup_setLooted hql, if_pos rfl], { q with isLooted := true }, ?_, rfl, rfl⟩
  refine mem_iff_getElem?.mpr ⟨pos, ?_⟩
  rw [getElem?_modify_eq, hq]
  rfl

/-- An entry that is not looted is the player's only one for its position. -/
theorem Distinct.not_looted (hd : m.Distinct) (hql : m.lookup player = some ql) (hq : ql[pos]? = some q)
    (hl : q.isLooted = false) : ¬ m.Looted player q.index := by
  rintro ⟨ql', hql', q', hq', hi, hlooted⟩
  obtain rfl : ql = ql' := some.inj (hql.symm.trans hql')
  have hinj := inj_on_of_nodup_map (hd player ql hql) hq' (mem_of_getElem? hq) hi
  rw [hinj, hl] at hlooted
  cases hlooted

theorem find_some {r : Nat × QuestItem} (h : m.find player i = some r) :
    ∃ ql, m.lookup player = some ql ∧ ql[r.1]? = some r.2 ∧ r.2.index = i := by
  unfold find at h
  cases hql : m.lookup player with
  | none => rw [hql] at h; cases h
  | some ql =>
    rw [hql] at h
    dsimp only at h
    cases hpos : ql.findIdx? (·.index == i) with
    | none => rw [hpos] at h; cases h
    | some pos =>
      rw [hpos] at h
      dsimp only at h
      obtain ⟨hlt, hp, -⟩ := findIdx?_eq_some_iff_getElem.mp hpos
      rw [getElem?_eq_getElem hlt, map_some, some.injEq] at h
      subst h
      exact ⟨ql, rfl, getElem?_eq_getElem hlt, by simpa using hp⟩

/-- Without an entry the player has no looted one. -/
theorem find_none (h : m.find player i = none) (hql : m.lookup player = some ql) :
    ∀ q ∈ ql, q.index ≠ i := by
  unfold find at h
  rw [hql] at h
  dsimp only at h
  cases hpos : ql.findIdx? (·.index == i) with
  | none =>
    intro q hq
    simpa using findIdx?_eq_none_iff.mp hpos q hq
  | some pos =>
    rw [hpos] at h
    obtain ⟨hlt, -, -⟩ := findIdx?_eq_some_iff_getElem.mp hpos
    simp [getElem?_eq_getElem hlt] at h

end QuestItemMap

namespace Loot

variable {l : Loot} {slot player : Nat} {s : LootSlot}

/-- The ways in which a slot number stands for an entry that the player can still take. -/
inductive InSlot (l : Loot) (slot player : Nat) : LootSlot → Prop where
  | ffa {item : LootItem} {pos : Nat} {q : QuestItem} (hi : l.items[slot]? = some item)
      (hf : item.freeforall = true) (hq : l.playerFFAItems.find player slot = some (pos, q))
      (hl : q.isLooted = false) : InSlot l slot player ⟨slot, item, .ffa pos⟩
  /-- A free-for-all item of which the player has no entry. -/
  | unlisted {item : LootItem} (hi : l.items[slot]? = some item) (hf : item.freeforall = true)
      (hq : l.playerFFAItems.find player slot = none) (hl : item.isLooted = false) :
      InSlot l slot player ⟨slot, item, .plain⟩
  | plain {item : LootItem} (hi : l.items[slot]? = some item) (hf : item.freeforall = false)
      (hl : item.isLooted = false)
      (hc : item.conditionId = 0 ∨ l.playerConditionalItems.find player slot = none) :
      InSlot l slot player ⟨slot, item, .plain⟩
  | conditional {item : LootItem} {pos : Nat} {q : QuestItem} (hi : l.items[slot]? = some item)
      (hf : item.freeforall = false) (hl : item.isLooted = false) (hc : item.conditionId ≠ 0)
      (hq : l.playerConditionalItems.find player slot = some (pos, q)) (hql : q.isLooted = false) :
      InSlot l slot player ⟨slot, item, .conditional pos⟩
  | quest {ql : List QuestItem} {item : LootItem} {pos : Nat} {q : QuestItem}
      (hs : slot = l.items.length + pos) (hp : l.playerQuestItems.lookup player = some ql)
      (hq : ql[pos]? = some q) (hi : l.questItems[q.index]? = some item)
      (hl : item.isLooted = false) (hql : q.isLooted = false) :
      InSlot l slot player ⟨q.index, item, .quest pos⟩

theorem inSlot_of_eq (h : l.lootItemInSlot slot player = some s) : InSlot l slot player s := by
  unfold lootItemInSlot at h
  by_cases hlt : slot < l.items.length
  · rw [if_pos hlt] at h
    cases hi : l.items[slot]? with
    | none => rw [hi] at h; cases h
    | some item =>
      rw [hi] at h
      dsimp only at h
      by_cases hf : item.freeforall = true
      · rw [if_pos hf] at h
        cases hq : l.playerFFAItems.find player slot with
        | none =>
          rw [hq] at h
          dsimp only at h
          split_ifs at h with hl
          obtain rfl := some.inj h
          exact .unlisted hi hf hq (Bool.eq_false_iff.mpr hl)
        | some r =>
          rw [hq] at h
          dsimp only at h
          split_ifs at h with hl
          obtain rfl := some.inj h
          exact .ffa hi hf hq (Bool.eq_false_iff.mpr hl)
      · rw [if_neg hf] at h
        rw [Bool.not_eq_true] at hf
        by_cases hl : item.isLooted = true
        · rw [if_pos hl] at h
          cases h
        rw [if_neg hl] at h
        rw [Bool.not_eq_true] at hl
        by_cases hc : item.conditionId = 0
        · rw [if_pos hc] at h
          obtain rfl := some.inj h
          exact .plain hi hf hl (.inl hc)
        rw [if_neg hc] at h
        cases hq : l.playerConditionalItems.find player slot with
        | none =>
          rw [hq] at h
          obtain rfl := some.inj h
          exact .plain hi hf hl (.inr hq)
        | some r =>
          rw [hq] at h
          dsimp only at h
          split_ifs at h with hql
          obtain rfl := some.inj h
          exact .conditional hi hf hl hc hq (Bool.eq_false_iff.mpr hql)
  · rw [if_neg hlt] at h
    cases hp : l.playerQuestItems.lookup player with
    | none => rw [hp] at h; cases h
    | some ql =>
      rw [hp] at h
      dsimp only at h
      cases hq : ql[slot - l.items.length]? with
      | none => rw [hq] at h; cases h
      | some q =>
        rw [hq] at h
        dsimp only at h
        cases hi : l.questItems[q.index]? with
        | none => rw [hi] at h; cases h
        | some item =>
          rw [hi] at h
          dsimp only at h
          split_ifs at h with hl
          obtain rfl := some.inj h
          rw [Bool.or_eq_true, not_or, Bool.not_eq_true, Bool.not_eq_true] at hl
          exact .quest (by omega) hp hq hi hl.1 hl.2

/-- `LootItemInSlot` returns exactly these. -/
theorem lootItemInSlot_iff : l.lootItemInSlot slot player = some s ↔ InSlot l slot player s := by
  refine ⟨inSlot_of_eq, fun h => ?_⟩
  unfold lootItemInSlot
  cases h with
  | ffa hi hf hq hl =>
    rw [if_pos (List.getElem?_eq_some_iff.mp hi).1, hi]
    simp [hf, hq, hl]
  | unlisted hi hf hq hl =>
    rw [if_pos (List.getElem?_eq_some_iff.mp hi).1, hi]
    simp [hf, hq, hl]
  | plain hi hf hl hc =>
    rw [if_pos (List.getElem?_eq_some_iff.mp hi).1, hi]
    rcases hc with hc | hc <;> simp [hf, hl, hc]
  | conditional hi hf hl hc hq hql =>
    rw [if_pos (List.getElem?_eq_some_iff.mp hi).1, hi]
    simp [hf, hl, hc, hq, hql]
  | quest hs hp hq hi hl hql =>
    subst hs
    rw [if_neg (by omega), Nat.add_sub_cancel_left, hp]
    simp [hq, hi, hl, hql]

end Loot

end Windrunner
