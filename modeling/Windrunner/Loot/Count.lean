import Windrunner.Loot.Once

/-!
# The unlooted counter

`unlootedCount` goes up in four functions and down in three. `Loot.openAwards` is what it should
be: the awards of a loot that are still open, as a natural number.

* `Loot.counted`: the same number read off the flags by which the code decides what to count
  (`isCounted`, `isBlocked`); `Loot.Counted` says that the flags mean what they should.
* `LootWorld.CountOk`: every award is one of an entry that was counted and is open.
* `LootWorld.count_of_run`: the counter is then the number of open awards, modulo 256.
-/

namespace Windrunner

open Lib
open Option hiding any_eq_true mem_map
open List hiding getElem?_eq_some_iff

/-- Somebody's list has an entry for `i`. -/
def QuestItemMap.listed (m : QuestItemMap) (i : Nat) : Bool :=
  m.entries.any fun x => x.2.any (·.index == i)

namespace Loot

/-- The free-for-all entries that their player has not looted. -/
def openFFA (l : Loot) : Nat := total (fun _ ql => ql.countP fun q => !q.isLooted) l.playerFFAItems

/-- The entries for free-for-all quest items that their player has not looted. -/
def openQuestFFA (l : Loot) : Nat :=
  total (fun _ ql => ql.countP fun q => !q.isLooted && (l.questItems[q.index]?).any (·.freeforall))
    l.playerQuestItems

/-- The awards that are still open: the unlooted items that are plain, or conditional and in
somebody's list; for each player the free-for-all entries; the unlooted quest items in somebody's
list, or for each player when they are free for all. -/
def openAwards (l : Loot) : Nat :=
  l.items.zipIdx.countP (fun x => !x.1.isLooted && !x.1.freeforall &&
      (x.1.conditionId == 0 || l.playerConditionalItems.listed x.2)) +
    l.openFFA +
    l.questItems.zipIdx.countP (fun x => !x.1.isLooted && !x.1.freeforall && l.playerQuestItems.listed x.2) +
    l.openQuestFFA

/-- An unlooted item that has been counted. -/
def isOpenItem (item : LootItem) : Bool :=
  !item.isLooted && !item.freeforall && (item.conditionId == 0 || item.isCounted)

def isOpenQuestItem (item : LootItem) : Bool := !item.isLooted && !item.freeforall && item.isBlocked

/-- The open awards, by the flags of the items. -/
def counted (l : Loot) : Nat :=
  l.items.countP isOpenItem + l.openFFA + l.questItems.countP isOpenQuestItem + l.openQuestFFA

/-- The counter is right modulo 256, and the flags say which entries are in a list. -/
structure Counted (l : Loot) : Prop where
  count : l.unlootedCount = UInt8.ofNat l.counted
  conditional : ∀ (i : Nat) item, l.items[i]? = some item →
    (item.isCounted = true ↔ l.playerConditionalItems.listed i = true)
  quest : ∀ (i : Nat) item, l.questItems[i]? = some item →
    (item.isBlocked = true ↔ l.playerQuestItems.listed i = true)
  conditional_lt : ∀ i, l.playerConditionalItems.listed i = true → i < l.items.length
  quest_lt : ∀ i, l.playerQuestItems.listed i = true → i < l.questItems.length

end Loot

/-! ## Lists and marks -/

namespace QuestItemMap

variable {m : QuestItemMap} {player pos i : Nat} {is : List Nat} {ql : List QuestItem} {q : QuestItem}

theorem listed_iff : m.listed i = true ↔ ∃ player ql, m.lookup player = some ql ∧ ∃ q ∈ ql, q.index = i := by
  unfold listed
  simp only [any_eq_true, beq_iff_eq]
  constructor
  · rintro ⟨⟨player, ql⟩, hx, hq⟩
    exact ⟨player, ql, AList.mem_lookup_iff.mpr hx, hq⟩
  · rintro ⟨player, ql, hl, hq⟩
    exact ⟨⟨player, ql⟩, AList.mem_lookup_iff.mp hl, hq⟩

theorem listed_record (h : m.lookup player = none) :
    (m.record player is).listed i = true ↔ m.listed i = true ∨ i ∈ is := by
  rw [listed_iff, listed_iff]
  constructor
  · rintro ⟨other, ql, hl, q, hq, hi⟩
    rw [lookup_record h] at hl
    split_ifs at hl with hc
    · obtain rfl := some.inj hl
      obtain ⟨j, hj, rfl⟩ := mem_map.mp hq
      exact .inr (hi ▸ hj)
    · exact .inl ⟨other, ql, hl, q, hq, hi⟩
  · rintro (⟨other, ql, hl, q, hq, hi⟩ | hi)
    · refine ⟨other, ql, ?_, q, hq, hi⟩
      rw [lookup_record h, if_neg, hl]
      rintro ⟨rfl, -⟩
      rw [h] at hl
      cases hl
    · refine ⟨player, is.map fun i => { index := i }, ?_, { index := i }, mem_map_of_mem hi, rfl⟩
      rw [lookup_record h, if_pos ⟨rfl, ne_nil_of_mem hi⟩]

theorem listed_setLooted : (m.setLooted player pos).listed i = m.listed i := by
  rw [Bool.eq_iff_iff, listed_iff, listed_iff]
  cases hql : m.lookup player with
  | none =>
    unfold setLooted
    rw [hql]
  | some ql =>
    have hmem : ∀ {l : List QuestItem}, (∃ q ∈ l, q.index = i) ↔ i ∈ l.map (·.index) := by
      intro l
      rw [mem_map]
    simp only [hmem]
    constructor
    · rintro ⟨other, ql', hl, hi⟩
      rw [lookup_setLooted hql] at hl
      split_ifs at hl
      · obtain rfl := some.inj hl
        rw [map_index_modify] at hi
        exact ⟨player, ql, hql, hi⟩
      · exact ⟨other, ql', hl, hi⟩
    · rintro ⟨other, ql', hl, hi⟩
      by_cases ho : other = player
      · subst ho
        obtain rfl : ql = ql' := some.inj (hql.symm.trans hl)
        exact ⟨other, _, by rw [lookup_setLooted hql, if_pos rfl], by rwa [map_index_modify]⟩
      · exact ⟨other, ql', by rw [lookup_setLooted hql, if_neg ho, hl], hi⟩

/-- A new list adds its entries. -/
theorem total_record (f : QuestItem → Bool) (h : m.lookup player = none) :
    total (fun _ ql => ql.countP f) (m.record player is) =
      total (fun _ ql => ql.countP f) m + is.countP fun i => f { index := i } := by
  unfold record
  by_cases his : is = []
  · simp [his]
  · rw [if_neg his, total_insert_new h, countP_map]
    rfl

/-- A mark changes the share of one entry. -/
theorem total_setLooted (f : QuestItem → Bool) (hql : m.lookup player = some ql) (hq : ql[pos]? = some q) :
    total (fun _ ql => ql.countP f) (m.setLooted player pos) + (if f q then 1 else 0) =
      total (fun _ ql => ql.countP f) m + if f { q with isLooted := true } then 1 else 0 := by
  have hins := total_insert (fun _ ql => ql.countP f) m player
    (ql.modify pos fun q => { q with isLooted := true })
  have hmod := countP_modify f (fun q => { q with isLooted := true }) hq
  rw [weightAt_some hql] at hins
  unfold setLooted
  rw [hql]
  dsimp only
  omega

end QuestItemMap

/-- Marking the items at some positions changes a count by their share. -/
theorem countP_markAt {p q : LootItem → Bool} {f : LootItem → LootItem} {is : List Nat} {items : List LootItem}
    (his : is.Nodup) (h : ∀ i ∈ is, ∃ item, items[i]? = some item ∧
      (if p (f item) then 1 else 0) = (if p item then 1 else 0) + if q item then 1 else 0) :
    (markAt f is items).countP p = items.countP p + countAt q is items := by
  induction is with
  | nil =>
    have hnil : markAt f [] items = items := ext_getElem? fun j => by simp [getElem?_markAt]
    rw [hnil]
    rfl
  | cons i is ih =>
    obtain ⟨hi, his⟩ := nodup_cons.mp his
    obtain ⟨item, hitem, hshare⟩ := h i mem_cons_self
    have hcons : markAt f (i :: is) items = (markAt f is items).modify i f := by
      refine ext_getElem? fun j => ?_
      rw [getElem?_modify, getElem?_markAt, getElem?_markAt]
      cases items[j]? with
      | none => rfl
      | some item =>
        by_cases hj : j = i
        · subst hj; simp [hi]
        · simp [hj, Ne.symm hj]
    have hat : (markAt f is items)[i]? = some item := by
      rw [getElem?_markAt, hitem]
      simp [hi]
    have hmod := countP_modify p f hat
    have hrest := ih his fun j hj => h j (mem_cons_of_mem _ hj)
    have hcount : countAt q (i :: is) items = countAt q is items + if q item then 1 else 0 := by
      unfold countAt
      rw [countP_cons, hitem]
      rfl
    rw [hcons, hcount]
    omega

/-! ## Filling a loot -/

namespace Loot

variable {l l' : Loot} {meets : Meets} {player : Nat}

/-- Quest entries that come new are in nobody's list. -/
theorem openQuestFFA_append (h : ∀ i, l.playerQuestItems.listed i = true → i < l.questItems.length)
    (x : LootItem) : openQuestFFA { l with questItems := l.questItems ++ [x] } = l.openQuestFFA := by
  refine total_congr fun other ql hl => countP_congr fun q hq => ?_
  have hlt := h q.index (QuestItemMap.listed_iff.mpr ⟨other, ql, hl, q, hq, rfl⟩)
  rw [getElem?_append_left hlt]

variable {items : List LootItem} {f : LootItem → LootItem}

theorem getElem?_append_singleton {x item : LootItem} {i : Nat}
    (h : (items ++ [x])[i]? = some item) : items[i]? = some item ∨ i = items.length ∧ item = x := by
  rw [getElem?_append] at h
  split_ifs at h with hi
  · exact .inl h
  · obtain ⟨hlt, hx⟩ := List.getElem?_eq_some_iff.mp h
    simp only [length_singleton] at hlt
    exact .inr ⟨by omega, by simpa using hx.symm⟩

theorem addItem_counted (h : Counted l) (li : LootStoreItem) : Counted (l.addItem li) := by
  unfold addItem
  by_cases hq : li.needsQuest = true
  · rw [if_pos hq]
    by_cases hl : l.questItems.length < maxNrQuestItems
    · rw [if_pos hl]
      refine ⟨?_, h.conditional, fun i item hi => ?_, h.conditional_lt, fun i hi => ?_⟩
      · have hnew : isOpenQuestItem (.ofStore li) = false := by simp [isOpenQuestItem, LootItem.ofStore]
        rw [counted, openQuestFFA_append h.quest_lt, countP_append, countP_singleton, hnew]
        exact h.count
      · rcases getElem?_append_singleton hi with hi | ⟨rfl, rfl⟩
        · exact h.quest i item hi
        · refine ⟨fun hb => (by cases hb), fun hb => ?_⟩
          exact absurd (h.quest_lt _ hb) (Nat.lt_irrefl _)
      · rw [length_append]
        exact Nat.lt_add_right _ (h.quest_lt i hi)
    · rw [if_neg hl]
      exact h
  · rw [if_neg hq]
    by_cases hl : l.items.length < maxNrLootItems
    · rw [if_pos hl]
      refine ⟨?_, fun i item hi => ?_, h.quest, fun i hi => ?_, h.quest_lt⟩
      · have hnew : isOpenItem (.ofStore li) = (li.conditionId == 0 && !li.partyLoot) := by
          simp [isOpenItem, LootItem.ofStore, Bool.and_comm]
        have hcount : counted { l with items := l.items ++ [.ofStore li] } =
            l.counted + if li.conditionId = 0 ∧ li.partyLoot = false then 1 else 0 := by
          unfold counted
          rw [countP_append, countP_singleton, hnew]
          simp only [Bool.and_eq_true, beq_iff_eq, Bool.not_eq_true']
          show l.items.countP isOpenItem + _ + l.openFFA + l.questItems.countP isOpenQuestItem +
            l.openQuestFFA = _
          omega
        show (if li.conditionId = 0 ∧ li.partyLoot = false then l.unlootedCount + 1 else l.unlootedCount) =
          UInt8.ofNat (counted { l with items := l.items ++ [.ofStore li] })
        rw [hcount]
        split_ifs
        · rw [UInt8.ofNat_add, h.count]
          rfl
        · exact h.count
      · rcases getElem?_append_singleton hi with hi | ⟨rfl, rfl⟩
        · exact h.conditional i item hi
        · refine ⟨fun hb => (by cases hb), fun hb => ?_⟩
          exact absurd (h.conditional_lt _ hb) (Nat.lt_irrefl _)
      · rw [length_append]
        exact Nat.lt_add_right _ (h.conditional_lt i hi)
    · rw [if_neg hl]
      exact h

/-- The flag that a list sets on its items is set exactly on what is listed. -/
theorem flag_markAt {flag : LootItem → Bool} {m : QuestItemMap} {is : List Nat} (hf : ∀ item, flag (f item) = true) (hm : m.lookup player = none)
    (h : ∀ (i : Nat) item, items[i]? = some item → (flag item = true ↔ m.listed i = true)) (i : Nat)
    (item : LootItem) (hi : (markAt f is items)[i]? = some item) :
    flag item = true ↔ (m.record player is).listed i = true := by
  rw [QuestItemMap.listed_record hm]
  rw [getElem?_markAt] at hi
  obtain ⟨item', hi', rfl⟩ := map_eq_some_iff.mp hi
  by_cases hmem : i ∈ is
  · rw [if_pos hmem]
    exact ⟨fun _ => .inr hmem, fun _ => hf item'⟩
  · rw [if_neg hmem, h i item' hi']
    exact ⟨.inl, fun h => h.resolve_right hmem⟩

theorem lt_of_mem_positions {p : LootItem → Bool} {i : Nat} (h : i ∈ positions p items) :
    i < items.length := by
  obtain ⟨item, hi, -⟩ := mem_positions.mp h
  exact (List.getElem?_eq_some_iff.mp hi).1

theorem fillFFALoot_counted (h : Counted l) (hp : l.playerFFAItems.lookup player = none) :
    Counted (l.fillFFALoot meets player) := by
  unfold fillFFALoot
  refine { h with count := ?_ }
  generalize positions _ l.items = is
  have hffa : openFFA { l with playerFFAItems := l.playerFFAItems.record player is } = l.openFFA + is.length := by
    unfold openFFA
    rw [QuestItemMap.total_record _ hp]
    simp
  have hcount : counted { l with playerFFAItems := l.playerFFAItems.record player is } =
      l.counted + is.length := by
    unfold counted
    rw [hffa]
    show l.items.countP isOpenItem + _ + l.questItems.countP isOpenQuestItem + l.openQuestFFA = _
    omega
  show l.unlootedCount + UInt8.ofNat is.length =
    UInt8.ofNat (counted { l with playerFFAItems := l.playerFFAItems.record player is })
  rw [hcount, UInt8.ofNat_add, h.count]

theorem fillConditionalLoot_counted (h : Counted l) (hp : l.playerConditionalItems.lookup player = none) :
    Counted (l.fillConditionalLoot meets player) := by
  unfold fillConditionalLoot
  dsimp only
  generalize his : positions _ l.items = is
  have hmem : ∀ i ∈ is, ∃ item, l.items[i]? = some item ∧ item.isLooted = false ∧ item.freeforall = false ∧
      item.conditionId ≠ 0 := by
    intro i hi
    rw [← his] at hi
    obtain ⟨item, hitem, hprop⟩ := mem_positions.mp hi
    simp only [Bool.and_eq_true, Bool.not_eq_true', bne_iff_ne] at hprop
    exact ⟨item, hitem, hprop.1.1.1, hprop.1.1.2, hprop.1.2⟩
  have hnodup : is.Nodup := his ▸ nodup_positions
  refine ⟨?_, flag_markAt (fun _ => rfl) hp h.conditional, h.quest, fun i hi => ?_, h.quest_lt⟩
  · have hitems : (markAt (fun item => { item with isCounted := true }) is l.items).countP isOpenItem =
        l.items.countP isOpenItem + countAt (fun item => !item.isCounted) is l.items := by
      refine countP_markAt hnodup fun i hi => ?_
      obtain ⟨item, hitem, hl, hf, hc⟩ := hmem i hi
      refine ⟨item, hitem, ?_⟩
      cases hcnt : item.isCounted <;> simp [isOpenItem, hl, hf, hc, hcnt]
    show l.unlootedCount + UInt8.ofNat (countAt (fun item => !item.isCounted) is l.items) =
      UInt8.ofNat ((markAt (fun item => { item with isCounted := true }) is l.items).countP isOpenItem +
        l.openFFA + l.questItems.countP isOpenQuestItem + l.openQuestFFA)
    rw [hitems, h.count, ← UInt8.ofNat_add]
    congr 1
    unfold counted
    omega
  · rw [length_markAt]
    rcases (QuestItemMap.listed_record hp).mp hi with hi | hi
    · exact h.conditional_lt i hi
    · exact lt_of_mem_positions (his ▸ hi)

/-- What counts is free for all, or was in no list before. -/
theorem countAt_or (is : List Nat) (items : List LootItem) :
    countAt (fun item => item.freeforall || !item.isBlocked) is items =
      countAt (·.freeforall) is items + countAt (fun item => !item.freeforall && !item.isBlocked) is items := by
  unfold countAt
  induction is with
  | nil => rfl
  | cons i is ih =>
    simp only [countP_cons, ih]
    cases items[i]? with
    | none => simp
    | some item => cases hf : item.freeforall <;> cases hb : item.isBlocked <;> simp [hf, hb] <;> omega

theorem any_markAt {flag : LootItem → Bool} {is : List Nat}
    (hf : ∀ item, flag (f item) = flag item) (i : Nat) :
    ((markAt f is items)[i]?).any flag = (items[i]?).any flag := by
  rw [getElem?_markAt]
  cases items[i]? with
  | none => rfl
  | some item => by_cases hmem : i ∈ is <;> simp [hmem, hf]

theorem fillQuestLoot_counted (h : Counted l) (hp : l.playerQuestItems.lookup player = none) :
    Counted (l.fillQuestLoot meets player) := by
  unfold fillQuestLoot
  by_cases hfull : l.items.length = maxNrLootItems
  · rw [if_pos hfull]
    exact h
  rw [if_neg hfull]
  dsimp only
  generalize his : (positions _ l.questItems).take _ = is
  have hsub : ∀ i ∈ is, ∃ item, l.questItems[i]? = some item ∧ item.isLooted = false := by
    intro i hi
    rw [← his] at hi
    obtain ⟨item, hitem, hprop⟩ := mem_positions.mp (mem_of_mem_take hi)
    simp only [Bool.and_eq_true, Bool.not_eq_true'] at hprop
    exact ⟨item, hitem, hprop.1⟩
  have hnodup : is.Nodup := his ▸ nodup_positions.sublist (take_sublist _ _)
  refine ⟨?_, h.conditional, flag_markAt (fun _ => rfl) hp h.quest, h.conditional_lt, fun i hi => ?_⟩
  · have hitems : (markAt (fun item => { item with isBlocked := true }) is l.questItems).countP isOpenQuestItem =
        l.questItems.countP isOpenQuestItem +
          countAt (fun item => !item.freeforall && !item.isBlocked) is l.questItems := by
      refine countP_markAt hnodup fun i hi => ?_
      obtain ⟨item, hitem, hl⟩ := hsub i hi
      refine ⟨item, hitem, ?_⟩
      cases hf : item.freeforall <;> cases hb : item.isBlocked <;> simp [isOpenQuestItem, hl, hf, hb]
    have hffa : openQuestFFA { l with
        questItems := markAt (fun item => { item with isBlocked := true }) is l.questItems
        playerQuestItems := l.playerQuestItems.record player is } =
        l.openQuestFFA + countAt (·.freeforall) is l.questItems := by
      have hany : ∀ i : Nat, ((markAt (fun item => { item with isBlocked := true }) is l.questItems)[i]?).any
          (·.freeforall) = (l.questItems[i]?).any (·.freeforall) := any_markAt fun _ => rfl
      unfold openQuestFFA
      simp only [hany]
      rw [QuestItemMap.total_record _ hp]
      rfl
    show l.unlootedCount + UInt8.ofNat (countAt (fun item => item.freeforall || !item.isBlocked) is l.questItems) =
      UInt8.ofNat (l.items.countP isOpenItem + l.openFFA +
        (markAt (fun item => { item with isBlocked := true }) is l.questItems).countP isOpenQuestItem +
        openQuestFFA { l with
          questItems := markAt (fun item => { item with isBlocked := true }) is l.questItems
          playerQuestItems := l.playerQuestItems.record player is })
    rw [hitems, hffa, countAt_or, h.count, ← UInt8.ofNat_add]
    congr 1
    unfold counted
    omega
  · rw [length_markAt]
    rcases (QuestItemMap.listed_record hp).mp hi with hi | hi
    · exact h.quest_lt i hi
    · obtain ⟨item, hitem, -⟩ := hsub i hi
      exact (List.getElem?_eq_some_iff.mp hitem).1

/-- Fields that nothing of the count reads. -/
theorem Counted.of_eq (h : Counted l) (hitems : l'.items = l.items) (hquest : l'.questItems = l.questItems)
    (hpq : l'.playerQuestItems = l.playerQuestItems) (hpf : l'.playerFFAItems = l.playerFFAItems)
    (hpc : l'.playerConditionalItems = l.playerConditionalItems) (hn : l'.unlootedCount = l.unlootedCount) :
    Counted l' := by
  have hc : l'.counted = l.counted := by
    unfold counted openFFA openQuestFFA
    rw [hitems, hquest, hpq, hpf]
  exact ⟨by rw [hn, hc, h.count], hitems ▸ hpc ▸ h.conditional, hquest ▸ hpq ▸ h.quest,
    hitems ▸ hpc ▸ h.conditional_lt, hquest ▸ hpq ▸ h.quest_lt⟩

/-- A change of one item that leaves alone what the count reads. -/
theorem Counted.modify (h : Counted l) (i : Nat)
    (hopen : ∀ item, isOpenItem (f item) = isOpenItem item) (hf : ∀ item, (f item).isCounted = item.isCounted) :
    Counted { l with items := l.items.modify i f } := by
  have hcount : (l.items.modify i f).countP isOpenItem = l.items.countP isOpenItem := by
    cases hi : l.items[i]? with
    | none => rw [modify_eq_self (getElem?_eq_none_iff.mp hi)]
    | some item =>
      have := countP_modify isOpenItem f hi
      rw [hopen] at this
      omega
  refine ⟨?_, fun j item hj => ?_, h.quest, fun j hj => ?_, h.quest_lt⟩
  · show l.unlootedCount = UInt8.ofNat ((l.items.modify i f).countP isOpenItem + l.openFFA +
      l.questItems.countP isOpenQuestItem + l.openQuestFFA)
    rw [hcount]
    exact h.count
  · rw [getElem?_modify] at hj
    obtain ⟨item', hj', rfl⟩ := map_eq_some_iff.mp hj
    rw [← h.conditional j item' hj']
    split_ifs
    · rw [hf]
    · exact Iff.rfl
  · rw [length_modify]
    exact h.conditional_lt j hj

theorem markUnderthreshold_counted (h : Counted l) (m : Moment) : Counted (l.markUnderthreshold m) := by
  unfold markUnderthreshold
  refine ⟨?_, fun j item hj => ?_, h.quest, fun j hj => ?_, h.quest_lt⟩
  · have hcount : (l.items.map fun item =>
        if (m.quality item.itemid).any (· < m.lootThreshold) then { item with isUnderthreshold := true }
        else item).countP isOpenItem = l.items.countP isOpenItem := by
      rw [countP_map]
      refine countP_congr fun item _ => ?_
      simp only [Function.comp_apply]
      split_ifs <;> rfl
    show l.unlootedCount = UInt8.ofNat (_ + l.openFFA + l.questItems.countP isOpenQuestItem + l.openQuestFFA)
    rw [hcount]
    exact h.count
  · rw [getElem?_map] at hj
    obtain ⟨item', hj', rfl⟩ := map_eq_some_iff.mp hj
    rw [← h.conditional j item' hj']
    split_ifs <;> rfl
  · rw [length_map]
    exact h.conditional_lt j hj

theorem counted_filling : Filling Counted where
  addItem := addItem_counted
  looters h _ _ := h.of_eq rfl rfl rfl rfl rfl rfl
  quest hp h := fillQuestLoot_counted h hp
  ffa hp h := fillFFALoot_counted h hp
  conditional hp h := fillConditionalLoot_counted h hp
  underthreshold := markUnderthreshold_counted

/-! ## Awards -/

/-- One award less, and the counter goes down by one. -/
theorem Counted.award (hc : l.counted = l'.counted + 1) (hn : l'.unlootedCount = l.unlootedCount - 1)
    (h : l.unlootedCount = UInt8.ofNat l.counted) : l'.unlootedCount = UInt8.ofNat l'.counted := by
  rw [hn, h, hc, UInt8.ofNat_add]
  exact UInt8.add_sub_cancel _ _

/-- The item of a slot is given away as one of the open ones. -/
theorem Counted.lootItem {i : Nat} {item : LootItem} (h : Counted l)
    (hi : l.items[i]? = some item) (hopen : isOpenItem item = true) (hf : ∀ item, (f item).isLooted = true)
    (hflag : ∀ item, (f item).isCounted = item.isCounted) {m : QuestItemMap}
    (hm : ∀ i, m.listed i = l.playerConditionalItems.listed i) :
    Counted { l with
      items := l.items.modify i f
      playerConditionalItems := m
      unlootedCount := l.unlootedCount - 1 } := by
  refine ⟨Counted.award (l := l) ?_ rfl h.count, fun j item hj => ?_, h.quest, fun j hj => ?_, h.quest_lt⟩
  · have hmod := countP_modify isOpenItem f hi
    have hclosed : isOpenItem (f item) = false := by simp [isOpenItem, hf]
    rw [hopen, hclosed] at hmod
    show l.counted = (l.items.modify i f).countP isOpenItem + l.openFFA +
      l.questItems.countP isOpenQuestItem + l.openQuestFFA + 1
    simp only [if_true, Bool.false_eq_true, if_false] at hmod
    unfold counted
    omega
  · rw [hm]
    rw [getElem?_modify] at hj
    obtain ⟨item', hj', rfl⟩ := map_eq_some_iff.mp hj
    rw [← h.conditional j item' hj']
    split_ifs
    · rw [hflag]
    · exact Iff.rfl
  · rw [hm] at hj
    rw [length_modify]
    exact h.conditional_lt j hj

/-- The slot stands for an award that was counted. -/
def isCountedSlot (s : LootSlot) : Bool := s.mark.isQuest || s.mark.isFFA || isOpenItem s.item

theorem take_counted {slot : Nat} {s : LootSlot} (h : Counted l) (hs : InSlot l slot player s)
    (hopen : isCountedSlot s = true) : Counted (l.take player s) := by
  cases hs with
  | @ffa item pos q hi hf hq hl =>
    obtain ⟨ql, hql, hpos, -⟩ := QuestItemMap.find_some hq
    have htotal := QuestItemMap.total_setLooted (fun q => !q.isLooted) hql hpos
    simp only [hl, Bool.not_false, Bool.not_true, if_true, Bool.false_eq_true, if_false] at htotal
    simp only [take, markOwn, hf, if_true]
    refine { h with count := Counted.award (l := l) ?_ rfl h.count }
    show l.items.countP isOpenItem + total (fun _ ql => ql.countP fun q => !q.isLooted) l.playerFFAItems +
      l.questItems.countP isOpenQuestItem + l.openQuestFFA =
      l.items.countP isOpenItem +
        total (fun _ ql => ql.countP fun q => !q.isLooted) (l.playerFFAItems.setLooted player pos) +
        l.questItems.countP isOpenQuestItem + l.openQuestFFA + 1
    omega
  | unlisted hi hf hq hl => simp [isCountedSlot, isOpenItem, SlotMark.isQuest, SlotMark.isFFA, hf] at hopen
  | @plain item hi hf hl hcond =>
    simp only [take, markOwn, hf, Bool.false_eq_true, if_false, SlotMark.isQuest]
    exact h.lootItem (f := fun item => { item with isLooted := true }) hi hopen (fun _ => rfl)
      (fun _ => rfl) fun _ => rfl
  | @conditional item pos q hi hf hl hcond hq hql =>
    simp only [take, markOwn, hf, Bool.false_eq_true, if_false, SlotMark.isQuest]
    exact h.lootItem (f := fun item => { item with isLooted := true }) hi hopen (fun _ => rfl)
      (fun _ => rfl) fun _ => QuestItemMap.listed_setLooted
  | @quest ql item pos q hslot hp hq hi hl hql =>
    have hlisted : l.playerQuestItems.listed q.index = true :=
      QuestItemMap.listed_iff.mpr ⟨player, ql, hp, q, mem_of_getElem? hq, rfl⟩
    have htotal := QuestItemMap.total_setLooted
      (fun q => !q.isLooted && (l.questItems[q.index]?).any (·.freeforall)) hp hq
    simp only [hi, hql, any_some, Bool.not_false, Bool.true_and, Bool.not_true, Bool.false_and,
      Bool.false_eq_true, if_false] at htotal
    by_cases hf : item.freeforall = true
    · simp only [hf, if_true] at htotal
      simp only [take, markOwn, hf, if_true]
      refine ⟨Counted.award (l := l) ?_ rfl h.count, h.conditional, fun i item hi => ?_, h.conditional_lt,
        fun i hi => ?_⟩
      · show l.items.countP isOpenItem + l.openFFA + l.questItems.countP isOpenQuestItem +
          total (fun _ ql => ql.countP fun q => !q.isLooted && (l.questItems[q.index]?).any (·.freeforall))
            l.playerQuestItems =
          l.items.countP isOpenItem + l.openFFA + l.questItems.countP isOpenQuestItem +
          total (fun _ ql => ql.countP fun q => !q.isLooted && (l.questItems[q.index]?).any (·.freeforall))
            (l.playerQuestItems.setLooted player pos) + 1
        omega
      · show _ ↔ (l.playerQuestItems.setLooted player pos).listed i = true
        rw [QuestItemMap.listed_setLooted]
        exact h.quest i item hi
      · exact h.quest_lt i (QuestItemMap.listed_setLooted ▸ hi)
    · rw [Bool.not_eq_true] at hf
      simp only [hf, Bool.false_eq_true, if_false] at htotal
      simp only [take, markOwn, hf, Bool.false_eq_true, if_false, SlotMark.isQuest, if_true]
      have hmod := countP_modify isOpenQuestItem (fun item => { item with isLooted := true }) hi
      have hbefore : isOpenQuestItem item = true := by
        simp [isOpenQuestItem, hl, hf, (h.quest _ _ hi).mpr hlisted]
      have hafter : isOpenQuestItem { item with isLooted := true } = false := by simp [isOpenQuestItem]
      simp only [hbefore, hafter, if_true, Bool.false_eq_true, if_false] at hmod
      have hany : ∀ i : Nat, ((l.questItems.modify q.index fun item => { item with isLooted := true })[i]?).any
          (·.freeforall) = (l.questItems[i]?).any (·.freeforall) := by
        intro i
        rw [getElem?_modify]
        cases l.questItems[i]? with
        | none => rfl
        | some item => by_cases he : q.index = i <;> simp [he]
      refine ⟨Counted.award (l := l) ?_ rfl h.count, h.conditional, fun i item hi => ?_, h.conditional_lt,
        fun i hi => ?_⟩
      · unfold counted openQuestFFA
        simp only [hany]
        show l.items.countP isOpenItem + l.openFFA + l.questItems.countP isOpenQuestItem +
          total (fun _ ql => ql.countP fun q => !q.isLooted && (l.questItems[q.index]?).any (·.freeforall))
            l.playerQuestItems =
          l.items.countP isOpenItem + l.openFFA +
          (l.questItems.modify q.index fun item => { item with isLooted := true }).countP isOpenQuestItem +
          total (fun _ ql => ql.countP fun q => !q.isLooted && (l.questItems[q.index]?).any (·.freeforall))
            (l.playerQuestItems.setLooted player pos) + 1
        omega
      · show _ ↔ (l.playerQuestItems.setLooted player pos).listed i = true
        rw [QuestItemMap.listed_setLooted]
        rw [getElem?_modify] at hi
        obtain ⟨item', hi', rfl⟩ := map_eq_some_iff.mp hi
        rw [← h.quest i item' hi']
        split_ifs <;> rfl
      · rw [length_modify]
        exact h.quest_lt i (QuestItemMap.listed_setLooted ▸ hi)

end Loot

/-! ## Runs -/

namespace LootWorld

variable {w : LootWorld} {m : Moment} {player slot target : Nat}

/-- A roll that gives its item away gives an open one that was counted. -/
def countedRoll (m : Moment) (w : LootWorld) (r : Roll) : Bool :=
  (w.loot.items[r.itemSlot]?).all fun item =>
    match r.outcome m item with
    | .given _ => Loot.isOpenItem item
    | _ => true

/-- The rolls that a step ends, counted one after the other. -/
def CountedRolls (m : Moment) (w : LootWorld) (rs : List Roll) : Prop :=
  AlongRun (countTheRoll m) (fun w r => countedRoll m w r = true) w rs

/-- Every award is one of an entry that was counted and is open. -/
def CountOk (w : LootWorld) (i : LootInput) : Prop :=
  match i with
  | .autostoreLootItem m player slot => ∀ s ∈ w.taken m player slot, Loot.isCountedSlot s = true
  | .lootMasterGive m player slot target =>
    ∀ item ∈ w.given m player slot target, Loot.isOpenItem item = true
  | .lootRoll m player slot vote =>
    let rolls := w.rolls.countRollVote player w.lootGuid slot vote
    CountedRolls m { w with rolls } (rolls.counted.drop w.rolls.counted.length)
  | .leave m player =>
    let rolls := w.rolls.removeRolls player
    CountedRolls m { w with rolls } (rolls.counted.drop w.rolls.counted.length)
  | .endRoll m => CountedRolls m { w with rolls := w.rolls.endRoll w.lootGuid }
      (w.rolls.rollId.filter fun r => r.isValid && r.lootedTarget == w.lootGuid)
  | _ => True

theorem countTheRoll_counted {r : Roll} (h : w.loot.Counted) (hr : countedRoll m w r = true) :
    (countTheRoll m w r).loot.Counted := by
  unfold countTheRoll
  unfold countedRoll at hr
  cases hi : w.loot.items[r.itemSlot]? with
  | none => exact h
  | some item =>
    rw [hi, all_some] at hr
    dsimp only
    cases hout : r.outcome m item with
    | given guid =>
      rw [hout] at hr
      exact h.lootItem (f := (Roll.Outcome.given guid).apply) hi hr (fun _ => rfl) (fun _ => rfl) fun _ => rfl
    | kept guid => exact h.modify r.itemSlot (fun _ => rfl) fun _ => rfl
    | absent guid => exact h.modify r.itemSlot (fun _ => rfl) fun _ => rfl
    | nothing => exact h.modify r.itemSlot (fun _ => rfl) fun _ => rfl
    | allPassed => exact h.modify r.itemSlot (fun _ => rfl) fun _ => rfl

theorem foldl_countTheRoll_counted {rs : List Roll} (h : w.loot.Counted) (hr : CountedRolls m w rs) :
    (rs.foldl (countTheRoll m) w).loot.Counted :=
  run_keeps (I := fun w : LootWorld => w.loot.Counted) (fun _ _ h hr => countTheRoll_counted h hr) h hr

theorem step_counted {i : LootInput} (h : w.loot.Counted) (hok : w.CountOk i) : (w.step i).loot.Counted := by
  cases i with
  | addItem li => exact Loot.addItem_counted h li
  | fillNotNormalLootFor m player => exact Loot.counted_filling.fillNotNormalLootFor h ..
  | fillLoot m lis owner group => exact Loot.counted_filling.fillLoot h ..
  | sendLoot m player =>
    exact sendLoot_marks Loot.counted_filling (fun _ i h => h.modify i (fun _ => rfl) fun _ => rfl)
      (fun _ i h => h.modify i (fun _ => rfl) fun _ => rfl) h
  | lootRelease m player =>
    unfold step lootRelease
    dsimp only
    split_ifs
    · exact h.of_eq rfl rfl rfl rfl rfl rfl
    · exact h
  | autostoreLootItem m player slot =>
    unfold step autostoreLootItem
    dsimp only
    cases ht : w.taken m player slot with
    | none => exact h
    | some s => exact Loot.take_counted h (taken_spec ht).1 (hok s ht)
  | lootMasterGive m player slot target =>
    unfold step lootMasterGive
    dsimp only
    cases hg : w.given m player slot target with
    | none => exact h
    | some item =>
      exact h.lootItem (f := fun item => { item with count := 0, isLooted := true }) (given_spec hg).1
        (hok item hg) (fun _ => rfl) (fun _ => rfl) fun _ => rfl
  | lootRoll m player slot vote => exact foldl_countTheRoll_counted h hok
  | leave m player => exact foldl_countTheRoll_counted h hok
  | endRoll m => exact foldl_countTheRoll_counted h hok
  | lootMoney m player =>
    unfold step lootMoney
    dsimp only
    split_ifs
    · exact h.of_eq rfl rfl rfl rfl rfl rfl
    · exact h

end LootWorld

/-- What the flags count is what is open. -/
theorem Loot.Counted.counted_eq {l : Loot} (h : l.Counted) : l.counted = l.openAwards := by
  have hzip : ∀ (items : List LootItem) (p : LootItem → Bool) (p' : LootItem × Nat → Bool),
      (∀ (i : Nat) item, items[i]? = some item → p item = p' (item, i)) →
      items.countP p = items.zipIdx.countP p' := by
    intro items p p' hp
    calc items.countP p = (items.zipIdx.map (·.1)).countP p := by rw [zipIdx_map_fst]
      _ = items.zipIdx.countP fun x => p x.1 := countP_map
      _ = items.zipIdx.countP p' := countP_congr fun x hx => by
          rw [hp x.2 x.1 (mem_zipIdx_iff_getElem?.mp hx)]
  unfold counted openAwards
  rw [hzip l.items isOpenItem _ fun i item hi => ?_, hzip l.questItems isOpenQuestItem _ fun i item hi => ?_]
  · unfold isOpenQuestItem
    rw [Bool.eq_iff_iff.mpr (h.quest i item hi)]
  · unfold isOpenItem
    rw [Bool.eq_iff_iff.mpr (h.conditional i item hi)]

namespace LootWorld

theorem start_counted (isCreature : Bool) (gold : UInt32) : (start isCreature gold).loot.Counted := by
  refine ⟨rfl, fun i item hi => ?_, fun i item hi => ?_, fun i hi => ?_, fun i hi => ?_⟩ <;> cases hi

/-- In a run whose awards are all of entries that were counted and are open, the counter is the
number of open awards exactly as long as that is below 256, and then the loot counts as looted
exactly when there is nothing left. -/
theorem count_of_run (isCreature : Bool) (gold : UInt32) (is : List LootInput)
    (h : AlongRun step CountOk (start isCreature gold) is) :
    let l := (run step (start isCreature gold) is).loot
    (l.unlootedCount.toNat = l.openAwards ↔ l.openAwards ≤ 255) ∧
      (l.openAwards ≤ 255 → (l.isLooted = true ↔ l.gold = 0 ∧ l.openAwards = 0)) := by
  have hc : (run step (start isCreature gold) is).loot.Counted :=
    run_keeps (I := fun w : LootWorld => w.loot.Counted) (fun _ _ h hok => step_counted h hok)
      (start_counted isCreature gold) h
  intro l
  have hmod : l.unlootedCount.toNat = l.openAwards % 256 := by
    rw [hc.count, hc.counted_eq]
    exact UInt8.toNat_ofNat'
  refine ⟨⟨fun he => ?_, fun hle => ?_⟩, fun hle => ?_⟩
  · rw [he] at hmod
    omega
  · rw [hmod]
    omega
  · unfold Loot.isLooted
    rw [Bool.and_eq_true, beq_iff_eq, beq_iff_eq, ← UInt8.toNat_inj, hmod, Nat.mod_eq_of_lt (by omega)]
    rfl

instance {w : LootWorld} {i : LootInput} : Decidable (w.CountOk i) :=
  match i with
  | .autostoreLootItem m player slot => inferInstanceAs (Decidable
      (∀ s ∈ w.taken m player slot, Loot.isCountedSlot s = true))
  | .lootMasterGive m player slot target => inferInstanceAs (Decidable
      (∀ item ∈ w.given m player slot target, Loot.isOpenItem item = true))
  | .lootRoll .. | .leave .. | .endRoll _ => AlongRun.decidable ..
  | .addItem _ | .fillNotNormalLootFor .. | .fillLoot .. | .sendLoot .. | .lootRelease .. | .lootMoney .. =>
    inferInstanceAs (Decidable True)

/-- Two players, a free-for-all item and a plain one; one of them takes a copy of the first. -/
def sharedRun : List LootInput :=
  [.addItem { itemid := 5, count := 1, partyLoot := true }, .addItem { itemid := 6, count := 1 },
    .fillNotNormalLootFor anyMoment 1, .fillNotNormalLootFor anyMoment 2, .sendLoot anyMoment 1,
    .autostoreLootItem anyMoment 1 0]

theorem count_of_run_shared :
    AlongRun step CountOk (start true 0) sharedRun ∧
      (run step (start true 0) sharedRun).loot.unlootedCount.toNat =
        (run step (start true 0) sharedRun).loot.openAwards := by
  have h : AlongRun step CountOk (start true 0) sharedRun := by decide
  exact ⟨h, (count_of_run true 0 sharedRun h).1.mpr (by decide)⟩

/-- A player without an entry takes a free-for-all item, and the counter wraps; and sixteen
free-for-all items for sixteen players make a loot that counts as looted. -/
theorem count_wrong :
    (run step (start true 0) [.addItem { itemid := 5, count := 1, partyLoot := true },
        .sendLoot anyMoment 3, .autostoreLootItem anyMoment 3 0]).loot.unlootedCount.toNat ≠
      (run step (start true 0) [.addItem { itemid := 5, count := 1, partyLoot := true },
        .sendLoot anyMoment 3, .autostoreLootItem anyMoment 3 0]).loot.openAwards ∧
    (run step (start true 0) (replicate 16 (.addItem { itemid := 5, count := 1, partyLoot := true }) ++
      (range 16).map (.fillNotNormalLootFor anyMoment))).loot.isLooted = true ∧
    (run step (start true 0) (replicate 16 (.addItem { itemid := 5, count := 1, partyLoot := true }) ++
      (range 16).map (.fillNotNormalLootFor anyMoment))).loot.openAwards = 256 := by
  decide +kernel

end LootWorld

end Windrunner
