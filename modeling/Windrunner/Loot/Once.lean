import Windrunner.Lib.Keyed
import Windrunner.Loot.Award

/-!
# A loot is handed out once

- **Marks** (`Loot.Advances`): no step of a loot unsets a looted mark, brings back a count, or loses
  a player's entry that is marked.
- **The record** (`Once`): an entry that is not free for all has made at most one item, and then it
  is looted; a free-for-all entry at most one for each player, and then the player's own entry is
  looted or the count is gone.
- **Rolls** (`RollsOk`): an open roll blocks its slot, so that nobody takes from it meanwhile; an
  item that the master looter gave away under a roll has no count left to win.
- **Runs** (`LootWorld.once_of_run`): `LootWorld.StepOk` excludes the two ways out. A player
  without an entry for a free-for-all item takes it as often as they like, and the master looter
  gives away an item that is already looted.
-/

namespace Windrunner

open Lib
open List hiding getElem?_eq_some_iff

/-- The number of items made from an entry. -/
def createdOf (created : List Created) (quest : Bool) (i : Nat) : Nat :=
  created.countP fun c => c.quest == quest && c.index == i

/-- The number of items made from an entry for one player. -/
def createdFor (created : List Created) (quest : Bool) (i player : Nat) : Nat :=
  created.countP fun c => c.quest == quest && c.index == i && c.player == player

section Record

variable {created : List Created} {quest k : Bool} {i j player p : Nat}

theorem createdOf_append : createdOf (created ++ [⟨k, j, p⟩]) quest i =
    createdOf created quest i + if k = quest ∧ j = i then 1 else 0 := by
  unfold createdOf
  rw [countP_append, countP_singleton]
  congr 1
  simp [Bool.and_eq_true]

theorem createdFor_append : createdFor (created ++ [⟨k, j, p⟩]) quest i player =
    createdFor created quest i player + if k = quest ∧ j = i ∧ p = player then 1 else 0 := by
  unfold createdFor
  rw [countP_append, countP_singleton]
  congr 1
  simp [Bool.and_eq_true, and_assoc]

theorem createdFor_le : createdFor created quest i player ≤ createdOf created quest i := by
  refine countP_mono_left fun c _ hc => ?_
  simp only [Bool.and_eq_true] at hc ⊢
  exact hc.1

theorem createdOf_eq_zero (h : ∀ c ∈ created, c.quest = quest → c.index ≠ i) :
    createdOf created quest i = 0 := by
  refine countP_eq_zero.mpr fun c hc => ?_
  simp only [Bool.and_eq_true, beq_iff_eq, not_and]
  exact h c hc

end Record

/-! ## Marks -/

namespace Loot

variable {l l' l'' : Loot} {f : LootItem → LootItem} {i slot player : Nat} {item : LootItem}

/-- The quest entries, or the others. -/
def entries (l : Loot) : Bool → List LootItem
  | true => l.questItems
  | false => l.items

/-- The lists in which a player marks what they took of the entries. -/
def ownLists (l : Loot) : Bool → QuestItemMap
  | true => l.playerQuestItems
  | false => l.playerFFAItems

/-- The item keeps its kind, and no mark on it is undone. -/
structure ItemAdvances (item item' : LootItem) : Prop where
  freeforall : item'.freeforall = item.freeforall
  looted : item.isLooted = true → item'.isLooted = true
  count : item.count = 0 → item'.count = 0

/-- Besides, a blocked item stays blocked. -/
structure ItemQuiet (item item' : LootItem) : Prop extends ItemAdvances item item' where
  blocked : item.isBlocked = true → item'.isBlocked = true

/-- Every entry is where it was, changed as `R` allows, and no mark of a player is undone. -/
structure Moves (R : LootItem → LootItem → Prop) (l l' : Loot) : Prop where
  entry : ∀ k (i : Nat) item, (l.entries k)[i]? = some item → ∃ item', (l'.entries k)[i]? = some item' ∧ R item item'
  looted : ∀ k player i, (l.ownLists k).Looted player i → (l'.ownLists k).Looted player i
  distinct : (∀ k, (l.ownLists k).Distinct) → ∀ k, (l'.ownLists k).Distinct
  gold : l'.gold = l.gold

/-- No mark is undone. -/
abbrev Advances := Moves ItemAdvances

/-- No mark is undone and no item unblocked. -/
abbrev Quiet := Moves ItemQuiet

theorem ItemAdvances.refl (item : LootItem) : ItemAdvances item item := ⟨rfl, id, id⟩

theorem ItemQuiet.refl (item : LootItem) : ItemQuiet item item := ⟨.refl item, id⟩

theorem ItemAdvances.trans {a b c : LootItem} (h : ItemAdvances a b) (h' : ItemAdvances b c) :
    ItemAdvances a c :=
  ⟨h'.freeforall.trans h.freeforall, fun hl => h'.looted (h.looted hl), fun hc => h'.count (h.count hc)⟩

theorem ItemQuiet.trans {a b c : LootItem} (h : ItemQuiet a b) (h' : ItemQuiet b c) : ItemQuiet a c :=
  ⟨h.toItemAdvances.trans h'.toItemAdvances, fun hb => h'.blocked (h.blocked hb)⟩

section Moves

variable {R : LootItem → LootItem → Prop} (hrefl : ∀ item, R item item)

include hrefl

theorem Moves.refl (l : Loot) : Moves R l l :=
  ⟨fun _ _ item h => ⟨item, h, hrefl item⟩, fun _ _ _ h => h, fun h => h, rfl⟩

/-- Changes of `items` only. -/
theorem moves_items {items : List LootItem}
    (h : ∀ (i : Nat) item, l.items[i]? = some item → ∃ item', items[i]? = some item' ∧ R item item') :
    Moves R l { l with items } := by
  refine ⟨fun k i item hi => ?_, fun k p i hl => ?_, fun hd k => ?_, rfl⟩
  · cases k with
    | false => exact h i item hi
    | true => exact ⟨item, hi, hrefl item⟩
  · cases k <;> exact hl
  · cases k with
    | false => exact hd false
    | true => exact hd true

theorem moves_questItems {questItems : List LootItem}
    (h : ∀ (i : Nat) item, l.questItems[i]? = some item → ∃ item', questItems[i]? = some item' ∧ R item item') :
    Moves R l { l with questItems } := by
  refine ⟨fun k i item hi => ?_, fun k p i hl => ?_, fun hd k => ?_, rfl⟩
  · cases k with
    | false => exact ⟨item, hi, hrefl item⟩
    | true => exact h i item hi
  · cases k <;> exact hl
  · cases k with
    | false => exact hd false
    | true => exact hd true

theorem moves_modify {items : List LootItem} (hf : ∀ item, R item (f item)) (j : Nat) (item : LootItem)
    (hj : items[j]? = some item) : ∃ item', (items.modify i f)[j]? = some item' ∧ R item item' := by
  rw [getElem?_modify, hj]
  by_cases h : i = j
  · exact ⟨f item, by simp [h], hf item⟩
  · exact ⟨item, by simp [h], hrefl item⟩

theorem moves_append {items : List LootItem} (x : LootItem) (j : Nat) (item : LootItem)
    (hj : items[j]? = some item) : ∃ item', (items ++ [x])[j]? = some item' ∧ R item item' := by
  refine ⟨item, ?_, hrefl item⟩
  rw [List.getElem?_append_left (List.getElem?_eq_some_iff.mp hj).1]
  exact hj

theorem moves_markAt {items : List LootItem} (is : List Nat) (hf : ∀ item, R item (f item)) (j : Nat)
    (item : LootItem) (hj : items[j]? = some item) :
    ∃ item', (markAt f is items)[j]? = some item' ∧ R item item' := by
  rw [getElem?_markAt, hj]
  refine ⟨_, rfl, ?_⟩
  split_ifs
  · exact hf item
  · exact hrefl item

end Moves

theorem Moves.trans {R : LootItem → LootItem → Prop} (hR : ∀ {a b c}, R a b → R b c → R a c)
    (h : Moves R l l') (h' : Moves R l' l'') : Moves R l l'' := by
  refine ⟨fun k i item hi => ?_, fun k p i hl => h'.looted k p i (h.looted k p i hl),
    fun hd => h'.distinct (h.distinct hd), h'.gold.trans h.gold⟩
  obtain ⟨item', hi', ha⟩ := h.entry k i item hi
  obtain ⟨item'', hi'', ha'⟩ := h'.entry k i item' hi'
  exact ⟨item'', hi'', hR ha ha'⟩

theorem Advances.trans (h : Advances l l') (h' : Advances l' l'') : Advances l l'' :=
  Moves.trans ItemAdvances.trans h h'

theorem Quiet.trans (h : Quiet l l') (h' : Quiet l' l'') : Quiet l l'' :=
  Moves.trans ItemQuiet.trans h h'

theorem Quiet.refl (l : Loot) : Quiet l l := Moves.refl ItemQuiet.refl l

theorem Quiet.advances (h : Quiet l l') : Advances l l' := by
  refine { h with entry := fun k i item hi => ?_ }
  obtain ⟨item', hi', hq⟩ := h.entry k i item hi
  exact ⟨item', hi', hq.toItemAdvances⟩

/-! ## Filling a loot unsets no mark -/

theorem Moves.counted {R : LootItem → LootItem → Prop} (h : Moves R l l') (n : UInt8) :
    Moves R l { l' with unlootedCount := n } :=
  { h with }

theorem addItem_quiet (l : Loot) (li : LootStoreItem) : Quiet l (l.addItem li) := by
  unfold addItem
  by_cases hq : li.needsQuest = true
  · rw [if_pos hq]
    split_ifs
    · exact moves_questItems ItemQuiet.refl (moves_append ItemQuiet.refl _)
    · exact Quiet.refl l
  · rw [if_neg hq]
    by_cases hl : l.items.length < maxNrLootItems
    · rw [if_pos hl]
      exact (moves_items ItemQuiet.refl (moves_append ItemQuiet.refl _)).counted _
    · rw [if_neg hl]
      exact Quiet.refl l

/-- A new list of a player who had none. -/
theorem moves_record {player : Nat} {is : List Nat} (h : l.playerQuestItems.lookup player = none)
    (his : is.Nodup) :
    Quiet l { l with playerQuestItems := l.playerQuestItems.record player is } := by
  refine ⟨fun k i item hi => ⟨item, by cases k <;> exact hi, .refl item⟩, fun k p i hl => ?_,
    fun hd k => ?_, rfl⟩
  · cases k with
    | false => exact hl
    | true => exact QuestItemMap.Looted.record hl h
  · cases k with
    | false => exact hd false
    | true => exact QuestItemMap.Distinct.record (hd true) h his

theorem fillQuestLoot_quiet {meets : Meets} (h : l.playerQuestItems.lookup player = none) :
    Quiet l (l.fillQuestLoot meets player) := by
  unfold fillQuestLoot
  split_ifs
  · exact Quiet.refl l
  · have hmark : ∀ is, Quiet l { l with
        questItems := markAt (fun item => { item with isBlocked := true }) is l.questItems } :=
      fun is => moves_questItems ItemQuiet.refl
        (moves_markAt ItemQuiet.refl is fun item => ⟨⟨rfl, id, id⟩, fun _ => rfl⟩)
    refine Moves.counted ((hmark _).trans (moves_record h ?_)) _
    exact nodup_positions.sublist (take_sublist _ _)

theorem fillFFALoot_quiet {meets : Meets} (h : l.playerFFAItems.lookup player = none) :
    Quiet l (l.fillFFALoot meets player) := by
  unfold fillFFALoot
  refine ⟨fun k i item hi => ⟨item, by cases k <;> exact hi, .refl item⟩, fun k p i hl => ?_,
    fun hd k => ?_, rfl⟩
  · cases k with
    | false => exact QuestItemMap.Looted.record hl h
    | true => exact hl
  · cases k with
    | false => exact QuestItemMap.Distinct.record (hd false) h nodup_positions
    | true => exact hd true

theorem fillConditionalLoot_quiet (l : Loot) (meets : Meets) (player : Nat) :
    Quiet l (l.fillConditionalLoot meets player) := by
  have hmark : ∀ is, Quiet l { l with
      items := markAt (fun item => { item with isCounted := true }) is l.items } :=
    fun is => moves_items ItemQuiet.refl (moves_markAt ItemQuiet.refl is fun item => ⟨⟨rfl, id, id⟩, id⟩)
  exact ⟨(hmark _).entry, (hmark []).looted, (hmark []).distinct, rfl⟩

theorem markUnderthreshold_quiet (l : Loot) (m : Moment) : Quiet l (l.markUnderthreshold m) := by
  refine moves_items ItemQuiet.refl fun j item hj => ⟨_, by rw [getElem?_map, hj]; rfl, ?_⟩
  dsimp only
  split_ifs
  · exact ⟨⟨rfl, id, id⟩, id⟩
  · exact .refl item

theorem quiet_filling (l : Loot) : Filling (Quiet l) where
  addItem h li := h.trans (addItem_quiet _ li)
  looters h _ _ := { h with }
  quest hnone h := h.trans (fillQuestLoot_quiet hnone)
  ffa hnone h := h.trans (fillFFALoot_quiet hnone)
  conditional _ h := h.trans (fillConditionalLoot_quiet ..)
  underthreshold h m := h.trans (markUnderthreshold_quiet _ m)

end Loot

/-! ## The record -/

/-- No entry has made more items than it may, and what it has made shows in the marks. -/
structure Once (l : Loot) (created : List Created) : Prop where
  distinct : ∀ k, (l.ownLists k).Distinct
  known : ∀ c ∈ created, c.index < (l.entries c.quest).length
  single : ∀ k (i : Nat) item, (l.entries k)[i]? = some item → item.freeforall = false →
    createdOf created k i ≤ 1 ∧ (0 < createdOf created k i → item.isLooted = true)
  shared : ∀ k (i : Nat) item player, (l.entries k)[i]? = some item → item.freeforall = true →
    createdFor created k i player ≤ 1 ∧
      (0 < createdFor created k i player → item.count = 0 ∨ (l.ownLists k).Looted player i)

/-- The open rolls: each blocks its slot, and has nothing to give of an item that was created. -/
structure RollsOk (l : Loot) (created : List Created) (slots : List Nat) : Prop where
  nodup : slots.Nodup
  item : ∀ s ∈ slots, ∃ item, l.items[s]? = some item ∧ item.freeforall = false ∧ item.isBlocked = true ∧
    (0 < createdOf created false s → item.count = 0)

section Once

variable {l l' : Loot} {created : List Created} {k : Bool} {i p : Nat} {item item' : LootItem} {slots : List Nat}

theorem Loot.Advances.length_le (h : l.Advances l') (k : Bool) :
    (l.entries k).length ≤ (l'.entries k).length := by
  rcases Nat.eq_zero_or_pos (l.entries k).length with h0 | hpos
  · omega
  · have hlast := getElem?_eq_getElem (l := l.entries k) (i := (l.entries k).length - 1) (by omega)
    obtain ⟨item', hi', -⟩ := h.entry k _ _ hlast
    have := (List.getElem?_eq_some_iff.mp hi').1
    omega

section

variable (h : Once l created)
include h

/-- An entry that has come new has made nothing. -/
theorem Once.new (hi : (l.entries k).length ≤ i) : createdOf created k i = 0 := by
  refine createdOf_eq_zero fun c hc hk hci => ?_
  have := h.known c hc
  rw [hk, hci] at this
  omega

section

variable (ha : l.Advances l')
include ha

theorem Once.advance : Once l' created := by
  refine ⟨ha.distinct h.distinct, fun c hc => Nat.lt_of_lt_of_le (h.known c hc) (ha.length_le c.quest),
    fun k i item' hi' hf => ?_, fun k i item' player hi' hf => ?_⟩
  · rcases Nat.lt_or_ge i (l.entries k).length with hlt | hge
    · obtain ⟨item'', hi'', hadv⟩ := ha.entry k i _ (getElem?_eq_getElem hlt)
      obtain rfl : item' = item'' := Option.some.inj (hi'.symm.trans hi'')
      obtain ⟨hle, hl⟩ := h.single k i _ (getElem?_eq_getElem hlt) (hadv.freeforall ▸ hf)
      exact ⟨hle, fun hpos => hadv.looted (hl hpos)⟩
    · rw [h.new hge]
      exact ⟨Nat.zero_le 1, fun h0 => absurd h0 (Nat.lt_irrefl 0)⟩
  · rcases Nat.lt_or_ge i (l.entries k).length with hlt | hge
    · obtain ⟨item'', hi'', hadv⟩ := ha.entry k i _ (getElem?_eq_getElem hlt)
      obtain rfl : item' = item'' := Option.some.inj (hi'.symm.trans hi'')
      obtain ⟨hle, hl⟩ := h.shared k i _ player (getElem?_eq_getElem hlt) (hadv.freeforall ▸ hf)
      exact ⟨hle, fun hpos => (hl hpos).imp hadv.count (ha.looted k player i)⟩
    · have h0 : createdFor created k i player = 0 :=
        Nat.le_zero.mp (h.new hge ▸ createdFor_le)
      rw [h0]
      exact ⟨Nat.zero_le 1, fun h0 => absurd h0 (Nat.lt_irrefl 0)⟩

/-- One more item from an entry that has made none (for the player), and is marked now. -/
theorem Once.award (hi : (l.entries k)[i]? = some item)
    (hs : item.freeforall = false → createdOf created k i = 0 ∧
      ∀ item', (l'.entries k)[i]? = some item' → item'.isLooted = true)
    (hf : item.freeforall = true → createdFor created k i p = 0 ∧
      ∀ item', (l'.entries k)[i]? = some item' → item'.count = 0 ∨ (l'.ownLists k).Looted p i) :
    Once l' (created ++ [⟨k, i, p⟩]) := by
  have h' := h.advance ha
  obtain ⟨item', hi', hadv⟩ := ha.entry k i item hi
  refine ⟨h'.distinct, fun c hc => ?_, fun k₁ i₁ item₁ hi₁ hf₁ => ?_, fun k₁ i₁ item₁ p₁ hi₁ hf₁ => ?_⟩
  · rcases mem_append.mp hc with hc | hc
    · exact h'.known c hc
    · rw [mem_singleton.mp hc]
      exact (List.getElem?_eq_some_iff.mp hi').1
  · rw [createdOf_append]
    by_cases he : k = k₁ ∧ i = i₁
    · obtain ⟨rfl, rfl⟩ := he
      obtain rfl : item' = item₁ := Option.some.inj (hi'.symm.trans hi₁)
      obtain ⟨h0, hl⟩ := hs (hadv.freeforall ▸ hf₁)
      rw [h0]
      exact ⟨by simp, fun _ => hl _ hi'⟩
    · rw [if_neg he, Nat.add_zero]
      exact h'.single k₁ i₁ item₁ hi₁ hf₁
  · rw [createdFor_append]
    by_cases he : k = k₁ ∧ i = i₁ ∧ p = p₁
    · obtain ⟨rfl, rfl, rfl⟩ := he
      obtain rfl : item' = item₁ := Option.some.inj (hi'.symm.trans hi₁)
      obtain ⟨h0, hl⟩ := hf (hadv.freeforall ▸ hf₁)
      rw [h0]
      exact ⟨by simp, fun _ => hl _ hi'⟩
    · rw [if_neg he, Nat.add_zero]
      exact h'.shared k₁ i₁ item₁ p₁ hi₁ hf₁

theorem Once.award_single (hi : (l.entries k)[i]? = some item)
    (hf : item.freeforall = false) (h0 : createdOf created k i = 0)
    (hl : ∀ item', (l'.entries k)[i]? = some item' → item'.isLooted = true) :
    Once l' (created ++ [⟨k, i, p⟩]) := by
  refine h.award ha hi (fun _ => ⟨h0, hl⟩) fun h1 => ?_
  rw [hf] at h1
  cases h1

theorem Once.award_shared (hi : (l.entries k)[i]? = some item)
    (hf : item.freeforall = true) (h0 : createdFor created k i p = 0)
    (hl : ∀ item', (l'.entries k)[i]? = some item' → item'.count = 0 ∨ (l'.ownLists k).Looted p i) :
    Once l' (created ++ [⟨k, i, p⟩]) := by
  refine h.award ha hi (fun h1 => ?_) fun _ => ⟨h0, hl⟩
  rw [hf] at h1
  cases h1

end

end

theorem RollsOk.quiet (h : RollsOk l created slots) (hq : l.Quiet l') : RollsOk l' created slots := by
  refine ⟨h.nodup, fun s hs => ?_⟩
  obtain ⟨item, hi, hf, hb, hc⟩ := h.item s hs
  obtain ⟨item', hi', hadv⟩ := hq.entry false s item hi
  exact ⟨item', hi', hadv.freeforall.trans hf, hadv.blocked hb, fun hpos => hadv.count (hc hpos)⟩

theorem RollsOk.perm {slots' : List Nat} (h : RollsOk l created slots) (hp : slots.Perm slots') :
    RollsOk l created slots' :=
  ⟨hp.nodup_iff.mp h.nodup, fun s hs => h.item s (hp.mem_iff.mpr hs)⟩

/-- What leaves the items of the rolls alone leaves the rolls alone. -/
theorem RollsOk.frame {created' : List Created} (h : RollsOk l created slots)
    (hitems : ∀ s ∈ slots, l'.items[s]? = l.items[s]?)
    (hc : ∀ s ∈ slots, createdOf created' false s = createdOf created false s) :
    RollsOk l' created' slots := by
  refine ⟨h.nodup, fun s hs => ?_⟩
  obtain ⟨item, hi, hf, hb, hcount⟩ := h.item s hs
  exact ⟨item, (hitems s hs).trans hi, hf, hb, by rwa [hc s hs]⟩

/-- An entry that is not looted has made nothing. -/
theorem Once.of_unlooted (h : Once l created) (hi : (l.entries k)[i]? = some item)
    (hf : item.freeforall = false) (hl : item.isLooted = false) : createdOf created k i = 0 := by
  obtain ⟨-, hpos⟩ := h.single k i item hi hf
  rcases Nat.eq_zero_or_pos (createdOf created k i) with h0 | h0
  · exact h0
  · rw [hpos h0] at hl
    cases hl

/-- A free-for-all entry that the player has not marked has made nothing for them. -/
theorem Once.of_unmarked (h : Once l created) (hi : (l.entries k)[i]? = some item)
    (hf : item.freeforall = true) (hc : item.count ≠ 0) (hl : ¬ (l.ownLists k).Looted p i) :
    createdFor created k i p = 0 := by
  obtain ⟨-, hpos⟩ := h.shared k i item p hi hf
  rcases Nat.eq_zero_or_pos (createdFor created k i p) with h0 | h0
  · exact h0
  · rcases hpos h0 with h1 | h1
    · exact absurd h1 hc
    · exact absurd h1 hl

end Once

/-- A looted entry of a player is the one that is found. -/
theorem QuestItemMap.Distinct.find_looted {m : QuestItemMap} {player i : Nat} (hd : m.Distinct)
    (h : m.Looted player i) : ∃ x ∈ m.find player i, x.2.isLooted = true := by
  obtain ⟨ql, hql, q, hq, hi, hl⟩ := h
  cases hfind : m.find player i with
  | none => exact absurd hi (find_none hfind hql q hq)
  | some x =>
    refine ⟨x, rfl, ?_⟩
    obtain ⟨ql', hql', hx, hxi⟩ := find_some hfind
    by_contra hne
    rw [Bool.not_eq_true] at hne
    exact hd.not_looted hql' hx hne ⟨ql, hql, q, hq, hi.trans hxi.symm, hl⟩

/-! ## Taking from a slot -/

namespace Loot

variable {l : Loot} {slot player i : Nat} {s : LootSlot} {created : List Created} {slots : List Nat}

/-- The item at `i` becomes looted. -/
theorem lootItem_advances (l : Loot) (i : Nat) :
    Advances l { l with items := l.items.modify i fun item => { item with isLooted := true } } :=
  moves_items ItemAdvances.refl (moves_modify ItemAdvances.refl fun _ => ⟨rfl, fun _ => rfl, id⟩)

theorem lootQuestItem_advances (l : Loot) (i : Nat) :
    Advances l { l with questItems := l.questItems.modify i fun item => { item with isLooted := true } } :=
  moves_questItems ItemAdvances.refl (moves_modify ItemAdvances.refl fun _ => ⟨rfl, fun _ => rfl, id⟩)

/-- The player marks an entry of their own. -/
theorem setLooted_advances (l : Loot) (player pos : Nat) :
    Advances l { l with playerFFAItems := l.playerFFAItems.setLooted player pos } ∧
      Advances l { l with playerQuestItems := l.playerQuestItems.setLooted player pos } := by
  refine ⟨⟨(Moves.refl ItemAdvances.refl l).entry, fun k p i hl => ?_, fun hd k => ?_, rfl⟩,
    ⟨(Moves.refl ItemAdvances.refl l).entry, fun k p i hl => ?_, fun hd k => ?_, rfl⟩⟩
  · cases k with
    | false => exact QuestItemMap.Looted.setLooted hl
    | true => exact hl
  · cases k with
    | false => exact QuestItemMap.Distinct.setLooted (hd false)
    | true => exact hd true
  · cases k with
    | false => exact hl
    | true => exact QuestItemMap.Looted.setLooted hl
  · cases k with
    | false => exact hd false
    | true => exact QuestItemMap.Distinct.setLooted (hd true)

theorem isLooted_modify {items : List LootItem} {item' : LootItem}
    (h : (items.modify i fun item => { item with isLooted := true })[i]? = some item') :
    item'.isLooted = true := by
  rw [getElem?_modify_eq] at h
  obtain ⟨item, -, rfl⟩ := Option.map_eq_some_iff.mp h
  rfl

/-- What is taken has not been made before, and is marked afterwards. -/
theorem take_once (h : Once l created) (hs : InSlot l slot player s) (hc : s.item.count ≠ 0)
    (hlisted : s.item.freeforall = true → s.mark ≠ .plain) :
    Once (l.take player s) (created ++ [⟨s.mark.isQuest, s.index, player⟩]) := by
  cases hs with
  | @ffa item pos q hi hf hq hl =>
    obtain ⟨ql, hql, hpos, hidx⟩ := QuestItemMap.find_some hq
    have ha := (setLooted_advances l player pos).1
    have hunmarked : ¬ l.playerFFAItems.Looted player slot :=
      hidx ▸ (h.distinct false).not_looted hql hpos hl
    have hmark := QuestItemMap.looted_setLooted hql hpos
    rw [hidx] at hmark
    simp only [take, markOwn, hf, if_true]
    exact h.award_shared (k := false) (ha.counted _) hi hf
      (h.of_unmarked (k := false) hi hf hc hunmarked) fun _ _ => .inr hmark
  | unlisted hi hf hq hl => exact absurd rfl (hlisted hf)
  | @plain item hi hf hl hcond =>
    simp only [take, markOwn, hf, Bool.false_eq_true, if_false, SlotMark.isQuest]
    exact h.award_single (k := false) ((lootItem_advances l slot).counted _) hi hf
      (h.of_unlooted (k := false) hi hf hl) fun _ => isLooted_modify
  | @conditional item pos q hi hf hl hcond hq hql =>
    simp only [take, markOwn, hf, Bool.false_eq_true, if_false, SlotMark.isQuest]
    have ha := (lootItem_advances l slot).counted (l.unlootedCount - 1)
    exact h.award_single (k := false) { ha with } hi hf
      (h.of_unlooted (k := false) hi hf hl) fun _ => isLooted_modify
  | @quest ql item pos q hslot hp hq hi hl hql =>
    have ha := (setLooted_advances l player pos).2
    have hunmarked : ¬ l.playerQuestItems.Looted player q.index :=
      (h.distinct true).not_looted hp hq hql
    have hmark := QuestItemMap.looted_setLooted hp hq
    by_cases hf : item.freeforall = true
    · simp only [take, markOwn, hf, if_true]
      exact h.award_shared (k := true) (ha.counted _) hi hf
        (h.of_unmarked (k := true) hi hf hc hunmarked) fun _ _ => .inr hmark
    · rw [Bool.not_eq_true] at hf
      simp only [take, markOwn, hf, Bool.false_eq_true, if_false, SlotMark.isQuest, if_true]
      exact h.award_single (k := true) ((ha.trans (lootQuestItem_advances _ q.index)).counted _) hi hf
        (h.of_unlooted (k := true) hi hf hl) fun _ => isLooted_modify

/-- What a player takes is marked in `items`, or only in another list. -/
theorem take_items (l : Loot) (player : Nat) (s : LootSlot) : (l.take player s).items = l.items ∨
    s.mark.isQuest = false ∧
      (l.take player s).items = l.items.modify s.index fun item => { item with isLooted := true } := by
  have hown : (l.markOwn player s.mark).items = l.items := by
    cases s.mark <;> rfl
  unfold take
  dsimp only
  split_ifs with hf hq
  · exact .inl hown
  · exact .inl hown
  · rw [Bool.not_eq_true] at hq
    exact .inr ⟨hq, by rw [hown]⟩

/-- What is blocked is not taken. -/
theorem take_blocked {j : Nat} {item : LootItem} (hs : InSlot l slot player s)
    (hb : s.mark.isQuest = false → s.item.isBlocked = false) (hi : l.items[j]? = some item)
    (hblocked : item.isBlocked = true) :
    (s.mark.isQuest = false → s.index ≠ j) ∧ (l.take player s).items[j]? = l.items[j]? := by
  have hother : s.mark.isQuest = false → s.index ≠ j := by
    intro hq he
    have hsame : l.items[j]? = some s.item := by
      cases hs with
      | quest => cases hq
      | ffa hi | unlisted hi | plain hi | conditional hi => exact he ▸ hi
    obtain rfl : item = s.item := Option.some.inj (hi.symm.trans hsame)
    rw [hb hq] at hblocked
    cases hblocked
  refine ⟨hother, ?_⟩
  obtain hitems | ⟨hq, hitems⟩ := l.take_items player s
  · rw [hitems]
  · rw [hitems]
    exact getElem?_modify_ne _ _ (hother hq)

/-- Taking from a slot leaves the items of the rolls alone. -/
theorem take_rollsOk (h : RollsOk l created slots) (hs : InSlot l slot player s)
    (hb : s.mark.isQuest = false → s.item.isBlocked = false) :
    RollsOk (l.take player s) (created ++ [⟨s.mark.isQuest, s.index, player⟩]) slots := by
  have hkept : ∀ j ∈ slots, (s.mark.isQuest = false → s.index ≠ j) ∧
      (l.take player s).items[j]? = l.items[j]? := by
    intro j hj
    obtain ⟨item, hi, -, hblocked, -⟩ := h.item j hj
    exact take_blocked hs hb hi hblocked
  refine h.frame (fun j hj => (hkept j hj).2) fun j hj => ?_
  rw [createdOf_append, if_neg, Nat.add_zero]
  rintro ⟨hq, he⟩
  exact (hkept j hj).1 hq he

end Loot

/-! ## Rolls and the master looter -/

namespace LootWorld

variable {w : LootWorld} {m : Moment} {g player slot target : Nat} {pending : List Nat}

/-- What holds of a loot with open rolls; `pending` are the slots of rolls that are just being
counted. -/
structure Sound (g : Nat) (pending : List Nat) (w : LootWorld) : Prop where
  once : Once w.loot w.created
  rolls : RollsOk w.loot w.created (pending ++ w.rolls.rollId.map (·.itemSlot))
  gold : w.paid + w.loot.gold.toNat ≤ g
  unopened : w.lootForBody = false → pending = [] ∧ w.rolls.rollId = [] ∧
    (w.isCreature = true → w.created = [] ∧ w.looting = [])

theorem apply_advances (o : Roll.Outcome) (item : LootItem) : Loot.ItemAdvances item (o.apply item) := by
  cases o <;> exact ⟨rfl, fun h => by first | rfl | exact h, id⟩

/-- The first pending roll is counted. -/
theorem countTheRoll_keeps {r : Roll} (h : Sound g (r.itemSlot :: pending) w) :
    Sound g pending (countTheRoll m w r) := by
  have hopened : w.lootForBody = true := by
    by_contra hne
    rw [Bool.not_eq_true] at hne
    cases (h.unopened hne).1
  obtain ⟨item, hi, hf, hb, hcount⟩ := h.rolls.item r.itemSlot mem_cons_self
  have hnodup := nodup_cons.mp h.rolls.nodup
  have hrest : RollsOk w.loot w.created (pending ++ w.rolls.rollId.map (·.itemSlot)) :=
    ⟨hnodup.2, fun s hs => h.rolls.item s (mem_cons_of_mem _ hs)⟩
  have hother : ∀ s ∈ pending ++ w.rolls.rollId.map (·.itemSlot), r.itemSlot ≠ s :=
    fun s hs he => hnodup.1 (he ▸ hs)
  have ha : ∀ o : Roll.Outcome, w.loot.Advances
      { w.loot with items := w.loot.items.modify r.itemSlot o.apply } :=
    fun o => Loot.moves_items Loot.ItemAdvances.refl
      (Loot.moves_modify Loot.ItemAdvances.refl (apply_advances o))
  have hframe : ∀ o : Roll.Outcome, ∀ s ∈ pending ++ w.rolls.rollId.map (·.itemSlot),
      (w.loot.items.modify r.itemSlot o.apply)[s]? = w.loot.items[s]? :=
    fun o s hs => getElem?_modify_ne _ _ (hother s hs)
  have hopen : ∀ P : Prop, w.lootForBody = false → P := fun P hne => by
    rw [hopened] at hne
    cases hne
  unfold countTheRoll
  rw [hi]
  dsimp only
  cases hout : r.outcome m item with
  | given guid =>
    by_cases hc : item.count = 0
    · -- the master looter was quicker: there is no count left
      simp only [hc, if_true]
      exact ⟨h.once.advance ((ha _).counted _), hrest.frame (hframe _) fun _ _ => rfl, h.gold, hopen _⟩
    · simp only [hc, if_false]
      have h0 : createdOf w.created false r.itemSlot = 0 := by
        rcases Nat.eq_zero_or_pos (createdOf w.created false r.itemSlot) with h0 | h0
        · exact h0
        · exact absurd (hcount h0) hc
      refine ⟨h.once.award_single (k := false) ((ha _).counted _) hi hf h0 fun _ => Loot.isLooted_modify,
        hrest.frame (hframe _) fun s hs => ?_, h.gold, hopen _⟩
      rw [createdOf_append, if_neg fun he => hother s hs he.2, Nat.add_zero]
  | kept guid | absent guid | nothing | allPassed =>
    exact ⟨h.once.advance (ha _), hrest.frame (hframe _) fun _ _ => rfl, h.gold, hopen _⟩

/-- All pending rolls are counted, one after the other. -/
theorem foldl_countTheRoll_keeps {rs : List Roll} (h : Sound g (rs.map (·.itemSlot)) w) :
    Sound g [] (rs.foldl (countTheRoll m) w) := by
  induction rs generalizing w with
  | nil => exact h
  | cons r rs ih => exact ih (countTheRoll_keeps h)

end LootWorld

theorem Roll.countRollVote_itemSlot (r : Roll) (guid : Nat) (vote : ClientVote) :
    (r.countRollVote guid vote.toRollVote).1.itemSlot = r.itemSlot := by
  unfold countRollVote
  cases r.playerVote.lookup guid with
  | none => rfl
  | some v => cases vote <;> rfl

/-- What a vote does to the rolls: it is for none of them, or its roll stays open, or it is the one
that goes to `CountTheRoll`. -/
theorem Rolls.countRollVote_cases (s : Rolls) (guid target slot : Nat) (vote : ClientVote) :
    s.countRollVote guid target slot vote = s ∨
    ∃ (i : Nat) (r : Roll), s.rollId[i]? = some r ∧
      ((r.countRollVote guid vote.toRollVote).2 = false ∧ s.countRollVote guid target slot vote =
          { s with rollId := s.rollId.set i (r.countRollVote guid vote.toRollVote).1 } ∨
        s.countRollVote guid target slot vote =
          { rollId := s.rollId.eraseIdx i, counted := s.counted ++ [(r.countRollVote guid vote.toRollVote).1] }) := by
  unfold countRollVote
  cases hi : s.rollId.findIdx? (isFor target slot) with
  | none => exact .inl rfl
  | some i =>
    dsimp only
    cases hr : s.rollId[i]? with
    | none => exact .inl rfl
    | some r =>
      refine .inr ⟨i, r, hr, ?_⟩
      dsimp only
      cases hd : (r.countRollVote guid vote.toRollVote).2 with
      | true => exact .inr rfl
      | false => exact .inl ⟨rfl, rfl⟩

namespace LootWorld

variable {w : LootWorld} {m : Moment} {g player slot target : Nat}

theorem lootRoll_keeps (h : Sound g [] w) (vote : ClientVote) :
    Sound g [] (w.withRolls m (w.rolls.countRollVote player w.lootGuid slot vote)) := by
  unfold withRolls
  rcases w.rolls.countRollVote_cases player w.lootGuid slot vote with he | ⟨i, r, hr, ⟨-, he⟩ | he⟩
  · rw [he, drop_length]
    exact h
  · rw [he, drop_length]
    have hslots := map_set_key hr (r.countRollVote_itemSlot player vote)
    refine ⟨h.once, (congrArg (RollsOk w.loot w.created) hslots).mpr h.rolls, h.gold, fun hne => ?_⟩
    rw [(h.unopened hne).2.1] at hr
    cases hr
  · rw [he, drop_left]
    refine foldl_countTheRoll_keeps
      (?_ : Sound g ([(r.countRollVote player vote.toRollVote).1].map (·.itemSlot)) _)
    refine ⟨h.once, ?_, h.gold, fun hne => ?_⟩
    · refine h.rolls.perm ?_
      obtain ⟨hlt, hget⟩ := List.getElem?_eq_some_iff.mp hr
      have hperm := (getElem_cons_eraseIdx_perm hlt).map (·.itemSlot)
      rw [map_cons, hget, ← r.countRollVote_itemSlot player vote] at hperm
      exact hperm.symm
    · rw [(h.unopened hne).2.1] at hr
      cases hr

theorem leave_keeps (h : Sound g [] w) : Sound g [] (w.withRolls m (w.rolls.removeRolls player)) := by
  have hslots := Rolls.removeFrom_itemSlot player w.rolls.rollId
  unfold withRolls Rolls.removeRolls
  rw [Rolls.removeFrom_eq] at hslots ⊢
  simp only [append_nil, drop_length, foldl_nil]
  refine ⟨h.once, ?_, h.gold, fun hne => ⟨rfl, ?_, (h.unopened hne).2.2⟩⟩
  · exact (congrArg (RollsOk w.loot w.created) hslots).mpr h.rolls
  · rw [(h.unopened hne).2.1]
    rfl

theorem endRoll_keeps (h : Sound g [] w) : Sound g [] (w.endRoll m) := by
  unfold endRoll
  refine foldl_countTheRoll_keeps ⟨h.once, ?_, h.gold, fun hne => ?_⟩
  · refine h.rolls.perm ?_
    have hperm := (filter_append_perm (fun r : Roll => r.isValid && r.lootedTarget == w.lootGuid)
      w.rolls.rollId).map (·.itemSlot)
    rw [map_append] at hperm
    refine hperm.symm.trans ?_
    unfold Rolls.endRoll
    simp only
    exact .refl _
  · have hnil := (h.unopened hne).2.1
    unfold Rolls.endRoll
    rw [hnil]
    exact ⟨rfl, rfl, (h.unopened hne).2.2⟩

/-- The open rolls and the loot, while the rolls of a corpse are being started. -/
structure Starting (w w' : LootWorld) : Prop where
  quiet : w.loot.Quiet w'.loot
  created : w'.created = w.created
  paid : w'.paid = w.paid
  lootForBody : w'.lootForBody = w.lootForBody

theorem blocked_modify {items : List LootItem} {item : LootItem} {i : Nat} (hi : items[i]? = some item) :
    (items.modify i fun item => { item with isBlocked := true })[i]? = some { item with isBlocked := true } := by
  rw [getElem?_modify_eq, hi]
  rfl

/-- One turn of the loop: nothing, or a mark on an item of low quality, or a new roll among members of
the group. -/
theorem rollSlot_cases (m : Moment) (method : LootMethod) (w : LootWorld) (slot : Nat) :
    rollSlot m method w slot = w ∨
    ∃ item, w.loot.items[slot]? = some item ∧ item.freeforall = false ∧
      (rollSlot m method w slot = { w with loot := { w.loot with
          items := w.loot.items.modify slot fun item => { item with isUnderthreshold := true } } } ∨
        ∃ looters : Looters, (∀ p ∈ looters.guids, p ∈ m.members.guids) ∧
          rollSlot m method w slot = { w with
            rolls := { w.rolls with rollId := w.rolls.rollId ++ [.start w.lootGuid slot looters] }
            loot := { w.loot with
              items := w.loot.items.modify slot fun item => { item with isBlocked := true } } }) := by
  unfold rollSlot
  cases hi : w.loot.items[slot]? with
  | none => exact .inl rfl
  | some item =>
    dsimp only
    by_cases hf : item.freeforall = true
    · rw [if_pos hf]
      exact .inl rfl
    rw [if_neg hf]
    rw [Bool.not_eq_true] at hf
    cases m.quality item.itemid with
    | none => exact .inl rfl
    | some q =>
      dsimp only
      by_cases hq : m.lootThreshold ≤ q
      · rw [if_pos hq]
        unfold startLootRoll
        dsimp only
        generalize hlooters : m.members.filter _ = looters
        split_ifs with hl
        · exact .inl rfl
        · refine .inr ⟨item, rfl, hf, .inr ⟨looters, fun p hp => ?_, ?_⟩⟩
          · rw [← hlooters] at hp
            exact (mem_filter.mp hp).1
          · unfold Rolls.startLootRoll
            rw [if_neg hl]
      · rw [if_neg hq]
        exact .inr ⟨item, rfl, hf, .inl rfl⟩

/-- What the marks of `isUnderthreshold` and `isBlocked` keep, sending a loot keeps. -/
theorem sendLoot_marks {P : Loot → Prop} (hfill : Loot.Filling P)
    (hunder : ∀ l i, P l → P { l with items := l.items.modify i fun item => { item with isUnderthreshold := true } })
    (hblocked : ∀ l i, P l → P { l with items := l.items.modify i fun item => { item with isBlocked := true } })
    (h : P w.loot) : P (w.sendLoot m player).loot := by
  have hgroup : ∀ (method : LootMethod) (w : LootWorld), P w.loot → P (w.groupLoot m method).loot := by
    intro method w h
    refine run_invariant (I := fun w : LootWorld => P w.loot) (fun w slot h => ?_) h _
    obtain he | ⟨item, -, -, he | ⟨looters, -, he⟩⟩ := rollSlot_cases m method w slot
    · rwa [he]
    · rw [he]
      exact hunder w.loot slot h
    · rw [he]
      exact hblocked w.loot slot h
  have hopen : P (w.openBody m).loot := by
    unfold openBody
    by_cases hc : w.isCreature = true ∧ w.lootForBody = false
    · rw [if_pos hc]
      dsimp only
      split
      · exact hgroup _ _ h
      · exact hgroup _ _ h
      · exact h
    · rw [if_neg hc]
      exact h
  unfold sendLoot masterLoot
  dsimp only
  split_ifs
  · exact hfill.underthreshold hopen m
  · exact hopen

/-- One turn of the loop, for a slot without a roll. -/
theorem rollSlot_keeps (method : LootMethod)
    (hr : RollsOk w.loot [] (w.rolls.rollId.map (·.itemSlot)))
    (hs : slot ∉ w.rolls.rollId.map (·.itemSlot)) :
    Starting w (rollSlot m method w slot) ∧
      RollsOk (rollSlot m method w slot).loot [] ((rollSlot m method w slot).rolls.rollId.map (·.itemSlot)) ∧
      ∀ s ∈ (rollSlot m method w slot).rolls.rollId.map (·.itemSlot),
        s ∈ w.rolls.rollId.map (·.itemSlot) ∨ s = slot := by
  obtain he | ⟨item, hi, hf, he | ⟨looters, -, he⟩⟩ := rollSlot_cases m method w slot
  · rw [he]
    exact ⟨⟨.refl _, rfl, rfl, rfl⟩, hr, fun s hs => .inl hs⟩
  · rw [he]
    have hquiet : w.loot.Quiet { w.loot with
        items := w.loot.items.modify slot fun item => { item with isUnderthreshold := true } } :=
      Loot.moves_items Loot.ItemQuiet.refl (Loot.moves_modify Loot.ItemQuiet.refl
        fun item => ⟨⟨rfl, id, id⟩, id⟩)
    exact ⟨⟨hquiet, rfl, rfl, rfl⟩, hr.quiet hquiet, fun s hs => .inl hs⟩
  · rw [he]
    have hquiet : w.loot.Quiet { w.loot with
        items := w.loot.items.modify slot fun item => { item with isBlocked := true } } :=
      Loot.moves_items Loot.ItemQuiet.refl (Loot.moves_modify Loot.ItemQuiet.refl
        fun item => ⟨⟨rfl, id, id⟩, fun _ => rfl⟩)
    have hr' := hr.quiet hquiet
    simp only [map_append, map_cons, map_nil]
    refine ⟨⟨hquiet, rfl, rfl, rfl⟩, ⟨?_, fun s hmem => ?_⟩, fun s hmem => ?_⟩
    · exact hr.nodup.append (nodup_singleton _) (disjoint_singleton.mpr hs)
    · rcases mem_append.mp hmem with hmem | hmem
      · exact hr'.item s hmem
      · obtain rfl : s = slot := mem_singleton.mp hmem
        exact ⟨_, blocked_modify hi, hf, rfl, fun h0 => absurd h0 (Nat.lt_irrefl 0)⟩
    · rcases mem_append.mp hmem with hmem | hmem
      · exact .inl hmem
      · exact .inr (mem_singleton.mp hmem)

/-- The loop over slots without rolls. -/
theorem foldl_rollSlot_keeps (method : LootMethod) {js : List Nat}
    (hr : RollsOk w.loot [] (w.rolls.rollId.map (·.itemSlot))) (hjs : js.Nodup)
    (hs : ∀ j ∈ js, j ∉ w.rolls.rollId.map (·.itemSlot)) :
    Starting w (js.foldl (rollSlot m method) w) ∧
      RollsOk (js.foldl (rollSlot m method) w).loot []
        ((js.foldl (rollSlot m method) w).rolls.rollId.map (·.itemSlot)) := by
  induction js generalizing w with
  | nil => exact ⟨⟨.refl _, rfl, rfl, rfl⟩, hr⟩
  | cons j js ih =>
    obtain ⟨hj, hjs⟩ := nodup_cons.mp hjs
    obtain ⟨hst, hr', hslots⟩ := rollSlot_keeps (m := m) method hr (hs j mem_cons_self)
    obtain ⟨hst', hr''⟩ := ih hr' hjs fun i hi hmem => by
      rcases hslots i hmem with hmem | rfl
      · exact hs i (mem_cons_of_mem _ hi) hmem
      · exact hj hi
    exact ⟨⟨hst.quiet.trans hst'.quiet, hst'.created.trans hst.created, hst'.paid.trans hst.paid,
      hst'.lootForBody.trans hst.lootForBody⟩, hr''⟩

section

variable (h : Sound g [] w)
include h

theorem Sound.quiet {l : Loot} (hq : w.loot.Quiet l) : Sound g [] { w with loot := l } :=
  ⟨h.once.advance hq.advances, h.rolls.quiet hq, hq.gold.symm ▸ h.gold, h.unopened⟩

theorem groupLoot_keeps (hc : w.isCreature = true) (hb : w.lootForBody = false)
    (method : LootMethod) : Sound g [] ({ w with lootForBody := true }.groupLoot m method) ∧
      ({ w with lootForBody := true }.groupLoot m method).lootForBody = true := by
  obtain ⟨-, hnil, hnew⟩ := h.unopened hb
  have hr : RollsOk w.loot [] (w.rolls.rollId.map (·.itemSlot)) := by
    rw [hnil]
    exact ⟨nodup_nil, fun s hs => by cases hs⟩
  obtain ⟨hst, hr'⟩ := foldl_rollSlot_keeps (w := { w with lootForBody := true }) (m := m) method hr
    (nodup_range (n := w.loot.items.length)) fun j _ => by
      show j ∉ w.rolls.rollId.map (·.itemSlot)
      rw [hnil]
      exact not_mem_nil
  have hcreated := hst.created.trans (hnew hc).1
  refine ⟨⟨?_, ?_, ?_, fun hne => ?_⟩, hst.lootForBody⟩
  · rw [groupLoot, hst.created]
    exact h.once.advance hst.quiet.advances
  · rw [groupLoot, hcreated]
    exact hr'
  · rw [groupLoot, hst.paid, hst.quiet.gold]
    exact h.gold
  · rw [groupLoot, hst.lootForBody] at hne
    cases hne

/-- The first look at a corpse opens it. -/
theorem openBody_keeps :
    Sound g [] (w.openBody m) ∧ ((w.openBody m).lootForBody = false → (w.openBody m).isCreature = false) := by
  have hopened : ∀ {w' : LootWorld}, Sound g [] w' ∧ w'.lootForBody = true →
      Sound g [] w' ∧ (w'.lootForBody = false → w'.isCreature = false) := by
    rintro w' ⟨h', ht⟩
    exact ⟨h', fun hne => by rw [ht] at hne; cases hne⟩
  unfold openBody
  by_cases hfirst : w.isCreature = true ∧ w.lootForBody = false
  · rw [if_pos hfirst]
    have hsame : Sound g [] { w with lootForBody := true } :=
      ⟨h.once, h.rolls, h.gold, fun hne => by cases hne⟩
    dsimp only
    split
    · exact hopened (groupLoot_keeps h hfirst.1 hfirst.2 _)
    · exact hopened (groupLoot_keeps h hfirst.1 hfirst.2 _)
    · exact hopened ⟨hsame, rfl⟩
  · rw [if_neg hfirst]
    refine ⟨h, fun hne => ?_⟩
    rw [← Bool.not_eq_true]
    exact fun hc => hfirst ⟨hc, hne⟩

theorem sendLoot_keeps : Sound g [] (w.sendLoot m player) := by
  obtain ⟨h, hc⟩ := openBody_keeps (m := m) h
  have hmaster : Sound g [] ((w.openBody m).masterLoot m player) ∧
      (((w.openBody m).masterLoot m player).lootForBody = false →
        ((w.openBody m).masterLoot m player).isCreature = false) := by
    unfold masterLoot
    split_ifs
    · exact ⟨h.quiet (Loot.markUnderthreshold_quiet _ m), hc⟩
    · exact ⟨h, hc⟩
  obtain ⟨h, hc⟩ := hmaster
  refine ⟨h.once, h.rolls, h.gold, fun hne => ⟨rfl, (h.unopened hne).2.1, fun h1 => ?_⟩⟩
  have h2 := hc hne
  rw [show ((w.openBody m).masterLoot m player).isCreature = true from h1] at h2
  cases h2

/-- Nothing is created from a corpse that was never opened. -/
theorem Sound.opened (hl : w.looting ≠ []) :
    w.lootForBody = false → w.isCreature = true → False :=
  fun hne hc => hl ((h.unopened hne).2.2 hc).2

theorem autostoreLootItem_keeps
    (hok : ∀ s ∈ w.taken m player slot, s.item.freeforall = true → s.mark ≠ .plain) :
    Sound g [] (w.autostoreLootItem m player slot) := by
  unfold autostoreLootItem
  cases ht : w.taken m player slot with
  | none => exact h
  | some s =>
    obtain ⟨hs, hcount, hb, hlooting⟩ := taken_spec ht
    refine ⟨Loot.take_once h.once hs hcount (hok s ht), Loot.take_rollsOk h.rolls hs hb, ?_, fun hne =>
      ⟨rfl, (h.unopened hne).2.1, fun hc => (h.opened hlooting hne hc).elim⟩⟩
    have hgold : (w.loot.take player s).gold = w.loot.gold := by
      unfold Loot.take
      cases s.mark <;> dsimp only [Loot.markOwn] <;> split_ifs <;> rfl
    rw [hgold]
    exact h.gold

end

/-- The master looter may give what is not looted, and an item for all to those who have not taken
it. -/
def MayGive (w : LootWorld) (item : LootItem) (slot target : Nat) : Prop :=
  item.count ≠ 0 → if item.freeforall = true
    then ∀ x ∈ w.loot.playerFFAItems.find target slot, x.2.isLooted = false
    else item.isLooted = false

instance {item : LootItem} : Decidable (w.MayGive item slot target) := by
  unfold MayGive
  infer_instance

theorem giveAway_advances (l : Loot) (slot : Nat) : l.Advances (l.giveAway slot) :=
  Loot.Moves.counted (Loot.moves_items Loot.ItemAdvances.refl (Loot.moves_modify Loot.ItemAdvances.refl
    (f := fun item => { item with count := 0, isLooted := true }) fun _ => ⟨rfl, fun _ => rfl, fun _ => rfl⟩)) _

theorem giveAway_item {l : Loot} {item' : LootItem} (h : (l.giveAway slot).items[slot]? = some item') :
    item'.isLooted = true ∧ item'.count = 0 := by
  unfold Loot.giveAway at h
  rw [getElem?_modify_eq] at h
  obtain ⟨item, -, rfl⟩ := Option.map_eq_some_iff.mp h
  exact ⟨rfl, rfl⟩

/-- A roll on the slot has nothing left to give, and the others are left alone. -/
theorem giveAway_rollsOk {l : Loot} {created created' : List Created} {slots : List Nat}
    (h : RollsOk l created slots)
    (hc : ∀ s, s ≠ slot → createdOf created' false s = createdOf created false s) :
    RollsOk (l.giveAway slot) created' slots := by
  refine ⟨h.nodup, fun s hs => ?_⟩
  obtain ⟨item, hi, hf, hb, hcount⟩ := h.item s hs
  by_cases he : slot = s
  · subst he
    refine ⟨{ item with count := 0, isLooted := true }, ?_, hf, hb, fun _ => rfl⟩
    unfold Loot.giveAway
    rw [getElem?_modify_eq, hi]
    rfl
  · refine ⟨item, (getElem?_modify_ne _ _ he).trans hi, hf, hb, ?_⟩
    rwa [hc s (Ne.symm he)]

theorem lootMasterGive_keeps (h : Sound g [] w)
    (hok : ∀ item ∈ w.given m player slot target, w.MayGive item slot target) :
    Sound g [] (w.lootMasterGive m player slot target) := by
  unfold lootMasterGive
  cases hg : w.given m player slot target with
  | none => exact h
  | some item =>
    obtain ⟨hi, hlooting⟩ := given_spec hg
    have hmay := hok item hg
    dsimp only
    have hunopened : ∀ c, w.lootForBody = false → [] = ([] : List Nat) ∧ w.rolls.rollId = [] ∧
        (w.isCreature = true → c = ([] : List Created) ∧ w.looting = []) :=
      fun c hne => ⟨rfl, (h.unopened hne).2.1, fun hc => (h.opened hlooting hne hc).elim⟩
    by_cases hc : item.count = 0
    · rw [if_pos hc]
      exact ⟨h.once.advance (giveAway_advances _ slot), giveAway_rollsOk h.rolls fun _ _ => rfl, h.gold,
        hunopened _⟩
    · rw [if_neg hc]
      refine ⟨?_, giveAway_rollsOk h.rolls fun s hs => ?_, h.gold, hunopened _⟩
      · unfold MayGive at hmay
        by_cases hf : item.freeforall = true
        · have hunmarked : ¬ w.loot.playerFFAItems.Looted target slot := by
            intro hl
            obtain ⟨x, hx, hxl⟩ := (h.once.distinct false).find_looted hl
            have hx' := hmay hc
            rw [if_pos hf] at hx'
            rw [hx' x hx] at hxl
            cases hxl
          exact h.once.award_shared (k := false) (giveAway_advances _ slot) hi hf
            (h.once.of_unmarked (k := false) hi hf hc hunmarked) fun _ hi' => .inl (giveAway_item hi').2
        · have hl := hmay hc
          rw [if_neg hf] at hl
          rw [Bool.not_eq_true] at hf
          exact h.once.award_single (k := false) (giveAway_advances _ slot) hi hf
            (h.once.of_unlooted (k := false) hi hf hl) fun _ hi' => (giveAway_item hi').1
      · rw [createdOf_append, if_neg fun he => hs he.2.symm, Nat.add_zero]

theorem toInt_le (x : UInt32) : x.toInt32.toInt ≤ x.toNat := by
  have h : x.toInt32.toInt = (x.toNat : Int).bmod (2 ^ 32) := by
    rw [← UInt32.toNat_toBitVec, ← BitVec.toInt_eq_toNat_bmod]
    rfl
  rw [h, Int.bmod]
  split_ifs <;> omega

/-- The shares are no more than the gold there was. -/
theorem payout_le (gold : UInt32) (n : Option Nat) : payout gold n ≤ gold.toNat := by
  cases n with
  | none => exact toInt_le gold
  | some n =>
    have hshare : (UInt32.ofNat (gold.toNat / n)).toNat = gold.toNat / n :=
      UInt32.toNat_ofNat_of_lt' (Nat.lt_of_le_of_lt (Nat.div_le_self ..) gold.toNat_lt)
    calc payout gold (some n) ≤ n * ((UInt32.ofNat (gold.toNat / n)).toNat : Int) :=
          Int.mul_le_mul_of_nonneg_left (toInt_le _) (Int.natCast_nonneg n)
      _ = ((n * (gold.toNat / n) : Nat) : Int) := by rw [hshare, Int.natCast_mul]
      _ ≤ gold.toNat := Int.ofNat_le.mpr (Nat.mul_div_le ..)

theorem lootMoney_keeps (h : Sound g [] w) : Sound g [] (w.lootMoney m player) := by
  unfold lootMoney
  split_ifs
  · refine ⟨⟨h.once.distinct, h.once.known, h.once.single, h.once.shared⟩,
      ⟨h.rolls.nodup, h.rolls.item⟩, ?_, h.unopened⟩
    · have hpay := payout_le w.loot.gold ((m.playersNear player).map length)
      have hg := h.gold
      show w.paid + payout w.loot.gold ((m.playersNear player).map length) + ((0 : UInt32).toNat : Int) ≤ g
      rw [UInt32.toNat_zero]
      omega
  · exact h

theorem lootRelease_keeps (h : Sound g [] w) : Sound g [] (w.lootRelease m player) := by
  have hunopened : w.lootForBody = false → [] = ([] : List Nat) ∧ w.rolls.rollId = [] ∧
      (w.isCreature = true → w.created = [] ∧ w.looting.filter (· ≠ player) = []) := by
    intro hne
    obtain ⟨-, hr, hc⟩ := h.unopened hne
    exact ⟨rfl, hr, fun h1 => ⟨(hc h1).1, by rw [(hc h1).2]; rfl⟩⟩
  unfold lootRelease
  split_ifs
  · exact ⟨⟨h.once.distinct, h.once.known, h.once.single, h.once.shared⟩, ⟨h.rolls.nodup, h.rolls.item⟩,
      h.gold, hunopened⟩
  · exact ⟨h.once, h.rolls, h.gold, hunopened⟩

/-! ## Runs -/

/-- Nobody takes a free-for-all item of which they have no entry, and the master looter gives
nothing that was handed out. -/
def StepOk (w : LootWorld) (i : LootInput) : Prop :=
  match i with
  | .autostoreLootItem m player slot =>
    ∀ s ∈ w.taken m player slot, s.item.freeforall = true → s.mark ≠ .plain
  | .lootMasterGive m player slot target => ∀ item ∈ w.given m player slot target, w.MayGive item slot target
  | _ => True

theorem step_keeps {i : LootInput} (h : Sound g [] w) (hok : w.StepOk i) : Sound g [] (w.step i) := by
  cases i with
  | addItem li => exact h.quiet (Loot.addItem_quiet ..)
  | fillNotNormalLootFor m player => exact h.quiet ((Loot.quiet_filling _).fillNotNormalLootFor (.refl _) ..)
  | fillLoot m lis owner group => exact h.quiet ((Loot.quiet_filling _).fillLoot (.refl _) ..)
  | sendLoot m player => exact sendLoot_keeps h
  | lootRelease m player => exact lootRelease_keeps h
  | autostoreLootItem m player slot => exact autostoreLootItem_keeps h hok
  | lootMasterGive m player slot target => exact lootMasterGive_keeps h hok
  | lootRoll m player slot vote => exact lootRoll_keeps h vote
  | leave m player => exact leave_keeps h
  | endRoll m => exact endRoll_keeps h
  | lootMoney m player => exact lootMoney_keeps h

/-- Every entry that is not free for all has made at most one item, every other at most one for each
player, and no more gold was paid than there was. -/
structure HandedOutOnce (gold : UInt32) (w : LootWorld) : Prop where
  single : ∀ k (i : Nat) item, (w.loot.entries k)[i]? = some item → item.freeforall = false →
    createdOf w.created k i ≤ 1
  shared : ∀ k (i : Nat) item player, (w.loot.entries k)[i]? = some item → item.freeforall = true →
    createdFor w.created k i player ≤ 1
  gold : w.paid ≤ gold.toNat

theorem start_sound (isCreature : Bool) (gold : UInt32) : Sound gold.toNat [] (start isCreature gold) := by
  refine ⟨⟨fun k => ?_, fun c hc => (by cases hc), fun k i item hi => ?_, fun k i item p hi => ?_⟩,
    ⟨nodup_nil, fun s hs => (by cases hs)⟩, ?_, fun _ => ⟨rfl, rfl, fun _ => ⟨rfl, rfl⟩⟩⟩
  · cases k <;> exact fun p ql hl => by cases hl
  · cases k <;> cases hi
  · cases k <;> cases hi
  · show (0 : Int) + gold.toNat ≤ gold.toNat
    omega

/-- A run in which nobody takes a free-for-all item without an entry of theirs, and nothing is
given away twice, hands the loot out once. -/
theorem once_of_run (isCreature : Bool) (gold : UInt32) (is : List LootInput)
    (h : AlongRun step StepOk (start isCreature gold) is) :
    HandedOutOnce gold (run step (start isCreature gold) is) := by
  have hs : Sound gold.toNat [] (run step (start isCreature gold) is) :=
    run_keeps (fun w i hs hok => step_keeps hs hok) (start_sound isCreature gold) h
  refine ⟨fun k i item hi hf => (hs.once.single k i item hi hf).1,
    fun k i item p hi hf => (hs.once.shared k i item p hi hf).1, ?_⟩
  have := hs.gold
  omega

/-- Two players take their copy of a free-for-all item and the gold; the other item is given to one of
them. -/
def fairRun : List LootInput :=
  [.addItem { itemid := 5, count := 1, partyLoot := true }, .addItem { itemid := 6, count := 1 },
    .fillNotNormalLootFor anyMoment 1, .fillNotNormalLootFor anyMoment 2, .sendLoot anyMoment 1,
    .sendLoot anyMoment 2, .autostoreLootItem anyMoment 1 0, .autostoreLootItem anyMoment 2 0,
    .lootMoney anyMoment 1, .lootMasterGive masterMoment 1 1 2]

instance {i : LootInput} : Decidable (w.StepOk i) := by
  unfold StepOk
  cases i <;> infer_instance

theorem once_of_run_fair :
    AlongRun step StepOk (start true 7) fairRun ∧ HandedOutOnce 7 (run step (start true 7) fairRun) :=
  have h : AlongRun step StepOk (start true 7) fairRun := by decide
  ⟨h, once_of_run true 7 fairRun h⟩

/-- A player for whom the loot was never filled opens it and takes the free-for-all item twice; and
an item that was taken is given away once more, when the group has changed to master loot. -/
theorem handed_out_twice :
    ¬ HandedOutOnce 0 (run step (start true 0)
      [.addItem { itemid := 5, count := 1, partyLoot := true }, .sendLoot anyMoment 3,
        .autostoreLootItem anyMoment 3 0, .autostoreLootItem anyMoment 3 0]) ∧
    ¬ HandedOutOnce 0 (run step (start true 0)
      [.addItem { itemid := 6, count := 1 }, .fillNotNormalLootFor anyMoment 1, .sendLoot anyMoment 1,
        .autostoreLootItem anyMoment 1 0, .lootMasterGive masterMoment 1 0 1]) := by
  refine ⟨fun h => ?_, fun h => ?_⟩
  · have := h.shared false 0 _ 3 rfl rfl
    revert this
    decide
  · have := h.single false 0 _ rfl rfl
    revert this
    decide

end LootWorld

end Windrunner
