import Windrunner.Loot.Settle

/-!
# Finished rolls in a run

Every call of `CountTheRoll` that a run makes, by the last vote or by the end of the time or of the group,
is for a roll whose counters are at least its votes, and whose item is blocked and nobody's
(`LootWorld.Rolling`). So `Roll.outcome_good_iff` says of each of them what becomes of the item
(`LootWorld.run_obtained_iff`). Where every call so far has left its item to be had, no item is
blocked without a roll.
-/

namespace Windrunner

open Lib
open Option hiding map_map
open List hiding getElem?_eq_some_iff

/-- The item without the marks that no roll goes by. -/
def LootItem.bare (item : LootItem) : LootItem := { item with isUnderthreshold := false, isCounted := false }

theorem LootItem.Waiting.of_bare {item item' : LootItem} (h : item.Waiting) (he : item'.bare = item.bare) :
    item'.Waiting := by
  have hb : item'.bare.isBlocked = item.bare.isBlocked := congrArg LootItem.isBlocked he
  have ho : item'.bare.lootOwner = item.bare.lootOwner := congrArg LootItem.lootOwner he
  have hl : item'.bare.isLooted = item.bare.isLooted := congrArg LootItem.isLooted he
  have hc : item'.bare.count = item.bare.count := congrArg LootItem.count he
  exact ⟨hb.trans h.blocked, ho.trans h.noOwner, fun hi => hc.trans (h.looted (hl.symm.trans hi))⟩

/-! ## Filling a loot -/

namespace Loot

variable {l l' l'' : Loot} {meets : Meets} {i : Nat} {item item' : LootItem}

/-- `l'` is `l` with more items, as the template has them. -/
def Grows (l l' : Loot) : Prop :=
  ∃ lis : List LootStoreItem, l'.items.map LootItem.bare = l.items.map LootItem.bare ++ lis.map LootItem.ofStore

theorem Grows.of_eq (h : l'.items.map LootItem.bare = l.items.map LootItem.bare) : Grows l l' :=
  ⟨[], by rw [h, map_nil, append_nil]⟩

theorem Grows.trans (h : Grows l l') (h' : Grows l' l'') : Grows l l'' := by
  obtain ⟨lis, he⟩ := h
  obtain ⟨lis', he'⟩ := h'
  exact ⟨lis ++ lis', by rw [he', he, append_assoc, map_append]⟩

/-- An item that was there is there. -/
theorem Grows.kept (h : Grows l l') (hi : l.items[i]? = some item) :
    ∃ item', l'.items[i]? = some item' ∧ item'.bare = item.bare := by
  obtain ⟨lis, he⟩ := h
  have hlt := (List.getElem?_eq_some_iff.mp hi).1
  have hget := congrArg (fun items : List LootItem => items[i]?) he
  rw [getElem?_append_left (by rwa [length_map]), getElem?_map, getElem?_map, hi] at hget
  exact map_eq_some_iff.mp hget

/-- An item that is there was there, or comes from the template. -/
theorem Grows.cases (h : Grows l l') (hi : l'.items[i]? = some item') :
    (∃ item, l.items[i]? = some item ∧ item'.bare = item.bare) ∨ ∃ li, item'.bare = .ofStore li := by
  obtain ⟨lis, he⟩ := h
  have hget := congrArg (fun items : List LootItem => items[i]?) he
  rw [getElem?_map, hi, map_some] at hget
  obtain hlt | hge := Nat.lt_or_ge i (l.items.map LootItem.bare).length
  · rw [getElem?_append_left hlt, getElem?_map] at hget
    obtain ⟨item, hitem, hbare⟩ := map_eq_some_iff.mp hget.symm
    exact .inl ⟨item, hitem, hbare.symm⟩
  · rw [getElem?_append_right hge, getElem?_map] at hget
    obtain ⟨li, -, hli⟩ := map_eq_some_iff.mp hget.symm
    exact .inr ⟨li, hli.symm⟩

theorem bare_markAt {f : LootItem → LootItem} (hf : ∀ item, (f item).bare = item.bare) (is : List Nat)
    (items : List LootItem) : (markAt f is items).map LootItem.bare = items.map LootItem.bare := by
  refine ext_getElem? fun i => ?_
  rw [getElem?_map, getElem?_map, getElem?_markAt, Option.map_map]
  refine congrArg (Option.map · items[i]?) (funext fun item => ?_)
  dsimp only [Function.comp]
  split_ifs
  · exact hf item
  · rfl

/-- An item after a change of the one at `i`. -/
theorem of_modify {f : LootItem → LootItem} {items : List LootItem} {j : Nat}
    (h : (items.modify i f)[j]? = some item') :
    ∃ item, items[j]? = some item ∧ (i = j ∧ item' = f item ∨ i ≠ j ∧ item' = item) := by
  rw [getElem?_modify] at h
  obtain ⟨item, hj, he⟩ := map_eq_some_iff.mp h
  refine ⟨item, hj, ?_⟩
  by_cases hij : i = j
  · rw [if_pos hij] at he
    exact .inl ⟨hij, he.symm⟩
  · rw [if_neg hij] at he
    exact .inr ⟨hij, he.symm⟩

theorem bare_modify {f : LootItem → LootItem} (hf : ∀ item, (f item).bare = item.bare) (i : Nat)
    (items : List LootItem) : (items.modify i f).map LootItem.bare = items.map LootItem.bare := by
  refine ext_getElem? fun j => ?_
  rw [getElem?_map, getElem?_map, getElem?_modify]
  cases items[j]? with
  | none => rfl
  | some item =>
    refine congrArg some ?_
    dsimp only
    split_ifs
    · exact hf item
    · rfl

theorem addItem_grows (l : Loot) (li : LootStoreItem) : Grows l (l.addItem li) := by
  unfold addItem
  split_ifs
  · exact .of_eq rfl
  · exact .of_eq rfl
  · exact ⟨[li], by rw [map_append]; rfl⟩
  · exact ⟨[li], by rw [map_append]; rfl⟩
  · exact .of_eq rfl

theorem markUnderthreshold_grows (l : Loot) (m : Moment) : Grows l (l.markUnderthreshold m) := by
  refine .of_eq ?_
  unfold markUnderthreshold
  rw [map_map]
  refine map_congr_left fun item _ => ?_
  dsimp only [Function.comp]
  split_ifs <;> rfl

theorem grows_filling (l : Loot) : Filling (Grows l) where
  addItem h li := h.trans (addItem_grows _ li)
  looters h _ _ := h.trans (.of_eq rfl)
  quest _ h := by
    unfold fillQuestLoot
    split_ifs
    · exact h
    · exact h.trans (.of_eq rfl)
  ffa _ h := h.trans (.of_eq rfl)
  conditional _ h := h.trans (.of_eq (bare_markAt (f := fun item => { item with isCounted := true }) (fun _ => rfl) _ _))
  underthreshold h m := h.trans (markUnderthreshold_grows _ m)

end Loot

/-! ## The calls of a step -/

/-- What holds at every moment: dice show 1 at least, and no player has the guid 0. -/
structure Moment.Real (m : Moment) : Prop where
  dice : ∀ g, 1 ≤ m.dice g
  members : 0 ∉ m.members.guids

/-- The moments at which rolls start or end are real ones. -/
def LootInput.Real : LootInput → Prop
  | .sendLoot m _ | .lootRoll m .. | .leave m _ | .endRoll m => m.Real
  | _ => True

/-- A call of `CountTheRoll`, with the loot as the call finds it. -/
structure RollCall where
  moment : Moment
  world : LootWorld
  roll : Roll

/-- The master looter has not given the item away, and who wins it voted for it and is online. -/
def RollCall.Settles (c : RollCall) : Prop :=
  ∃ item, c.world.loot.items[c.roll.itemSlot]? = some item ∧ item.count ≠ 0 ∧ c.roll.Settles c.moment

namespace LootWorld

variable {w : LootWorld} {m : Moment} {r : Roll} {rs pending : List Roll} {item : LootItem} {c : RollCall}
  {good : Prop} {player slot target : Nat}

/-- The rolls are counted one after the other. -/
def countCalls (m : Moment) (w : LootWorld) : List Roll → List RollCall
  | [] => []
  | r :: rs => ⟨m, w, r⟩ :: countCalls m (countTheRoll m w r) rs

/-- The calls of `withRolls` and `endRoll` in a step. -/
def calls (w : LootWorld) (i : LootInput) : List RollCall :=
  match i with
  | .lootRoll m player slot vote =>
    let rolls := w.rolls.countRollVote player w.lootGuid slot vote
    countCalls m { w with rolls } (rolls.counted.drop w.rolls.counted.length)
  | .leave m player =>
    let rolls := w.rolls.removeRolls player
    countCalls m { w with rolls } (rolls.counted.drop w.rolls.counted.length)
  | .endRoll m =>
    countCalls m { w with rolls := w.rolls.endRoll w.lootGuid }
      (w.rolls.rollId.filter fun r => r.isValid && r.lootedTarget == w.lootGuid)
  | _ => []

/-- From `w` to `w'` the item of the roll has been stored for one player who deserves it, or is kept
for them, or everybody passed and it is there for all. -/
def Obtained (w w' : LootWorld) (r : Roll) : Prop :=
  ∃ item, w'.loot.items[r.itemSlot]? = some item ∧
    ((∃ g, r.Deserves g ∧ item.isLooted = true ∧ w'.created = w.created ++ [⟨false, r.itemSlot, g⟩]) ∨
      (∃ g, r.Deserves g ∧ item.ObtainableBy g ∧ w'.created = w.created) ∨
      (r.AllPassed ∧ (∀ g, item.ObtainableBy g) ∧ w'.created = w.created))

/-- An item that can be had is not blocked. -/
theorem Obtained.free {w' : LootWorld} (h : w.Obtained w' r) (hi : w'.loot.items[r.itemSlot]? = some item) :
    item.isLooted = true ∨ item.isBlocked = false := by
  obtain ⟨item', hi', hcases⟩ := h
  obtain rfl : item = item' := some.inj (hi.symm.trans hi')
  obtain ⟨_, -, hlooted, -⟩ | ⟨_, -, hfree, -⟩ | ⟨-, hfree, -⟩ := hcases
  · exact .inl hlooted
  · exact .inr hfree.2.1
  · exact .inr (hfree 0).2.1

section

variable (hi : w.loot.items[r.itemSlot]? = some item)
include hi

theorem countTheRoll_items :
    (countTheRoll m w r).loot.items = w.loot.items.modify r.itemSlot (r.outcome m item).apply ∧
      (countTheRoll m w r).created = w.created ++ (r.outcome m item).made item r.itemSlot := by
  unfold countTheRoll
  rw [hi]
  dsimp only
  cases r.outcome m item with
  | given guid =>
    refine ⟨rfl, ?_⟩
    unfold Roll.Outcome.made
    dsimp only
    split_ifs
    · exact (append_nil _).symm
    · rfl
  | kept guid | absent guid | nothing | allPassed => exact ⟨rfl, (append_nil _).symm⟩

theorem countTheRoll_frame :
    (countTheRoll m w r).rolls = w.rolls ∧ (countTheRoll m w r).lootForBody = w.lootForBody := by
  unfold countTheRoll
  rw [hi]
  dsimp only
  cases r.outcome m item <;> exact ⟨rfl, rfl⟩

/-- `Obtained` says of the loot what `Outcome.Good` says of the outcome. -/
theorem obtained_iff_good :
    w.Obtained (countTheRoll m w r) r ↔ (r.outcome m item).Good r item r.itemSlot := by
  obtain ⟨hitems, hcreated⟩ := countTheRoll_items (m := m) hi
  have hget : (countTheRoll m w r).loot.items[r.itemSlot]? = some ((r.outcome m item).apply item) := by
    rw [hitems, getElem?_modify_eq, hi]
    rfl
  unfold Obtained Roll.Outcome.Good
  simp only [hget, some.injEq, exists_eq_left', hcreated, append_cancel_left_eq,
    append_right_eq_self]

end

/-! ## The open rolls of a run -/

/-- The slots of the pending and the open rolls. -/
def slots (pending : List Roll) (rolls : Rolls) : List Nat := (pending ++ rolls.rollId).map (·.itemSlot)

/-- What holds between the steps of a run, and while `pending` are being counted. When every call so
far was `good`, what is blocked has a roll. -/
structure Rolling (good : Prop) (pending : List Roll) (w : LootWorld) : Prop where
  nodup : (slots pending w.rolls).Nodup
  waiting : ∀ i ∈ slots pending w.rolls, ∃ item, w.loot.items[i]? = some item ∧ item.Waiting
  counted : ∀ r ∈ pending, r.Counted
  tallied : ∀ r ∈ w.rolls.rollId, r.Tallied
  blocked : good → ∀ (i : Nat) item, w.loot.items[i]? = some item → item.isBlocked = true →
    item.isLooted = false → i ∈ slots pending w.rolls
  unopened : w.lootForBody = false → pending = [] ∧ w.rolls.rollId = [] ∧
    (w.isCreature = true → w.looting = [] ∧ Loot.Grows {} w.loot)

theorem Rolling.grow {l : Loot} (h : Rolling good [] w) (hg : w.loot.Grows l) :
    Rolling good [] { w with loot := l } := by
  refine ⟨h.nodup, fun i hi => ?_, h.counted, h.tallied, fun hgood i item' hi hb hl => ?_, fun hne => ?_⟩
  · obtain ⟨item, hi, hw⟩ := h.waiting i hi
    obtain ⟨item', hi', he⟩ := hg.kept hi
    exact ⟨item', hi', hw.of_bare he⟩
  · obtain ⟨item, hitem, he⟩ | ⟨li, he⟩ := hg.cases hi
    · have hb' : item'.bare.isBlocked = item.bare.isBlocked := congrArg LootItem.isBlocked he
      have hl' : item'.bare.isLooted = item.bare.isLooted := congrArg LootItem.isLooted he
      exact h.blocked hgood i item hitem (hb'.symm.trans hb) (hl'.symm.trans hl)
    · have hb' : item'.bare.isBlocked = (LootItem.ofStore li).isBlocked := congrArg LootItem.isBlocked he
      cases hb.symm.trans hb'
  · obtain ⟨-, hnil, hc⟩ := h.unopened hne
    exact ⟨rfl, hnil, fun hcreature => ⟨(hc hcreature).1, (hc hcreature).2.trans hg⟩⟩

/-- The rolls change, but not what they are about. -/
theorem Rolling.reroll {rolls : Rolls} (h : Rolling good [] w)
    (hperm : (slots pending rolls).Perm (slots [] w.rolls)) (hcounted : ∀ r ∈ pending, r.Counted)
    (htallied : ∀ r ∈ rolls.rollId, r.Tallied) : Rolling good pending { w with rolls } := by
  refine ⟨hperm.nodup_iff.mpr h.nodup, fun i hi => h.waiting i (hperm.mem_iff.mp hi), hcounted, htallied,
    fun hgood i item hi hb hl => hperm.mem_iff.mpr (h.blocked hgood i item hi hb hl), fun hne => ?_⟩
  obtain ⟨-, hnil, hc⟩ := h.unopened hne
  have hslots : slots [] w.rolls = [] := by
    unfold slots
    rw [hnil]
    rfl
  rw [hslots] at hperm
  obtain ⟨hp, hr⟩ := append_eq_nil_iff.mp (map_eq_nil_iff.mp hperm.eq_nil)
  exact ⟨hp, hr, hc⟩

/-- The call for the first of the pending rolls. -/
theorem countTheRoll_rolling (h : Rolling good (r :: pending) w)
    (hok : good → w.Obtained (countTheRoll m w r) r) : Rolling good pending (countTheRoll m w r) := by
  obtain ⟨item, hi, hw⟩ := h.waiting r.itemSlot mem_cons_self
  obtain ⟨hitems, -⟩ := countTheRoll_items (m := m) hi
  obtain ⟨hrolls, hbody⟩ := countTheRoll_frame (m := m) hi
  obtain ⟨hr, hnodup⟩ : r.itemSlot ∉ slots pending w.rolls ∧ (slots pending w.rolls).Nodup :=
    nodup_cons.mp h.nodup
  have hother : ∀ i, r.itemSlot ≠ i → (countTheRoll m w r).loot.items[i]? = w.loot.items[i]? := by
    intro i hne
    rw [hitems]
    exact getElem?_modify_ne _ _ hne
  refine ⟨?_, fun i hi => ?_, fun r' hr' => h.counted r' (mem_cons_of_mem _ hr'), ?_,
    fun hgood i item' hi' hb hl => ?_, fun hne => ?_⟩
  · rw [hrolls]
    exact hnodup
  · rw [hrolls] at hi
    rw [hother i fun he => hr (he ▸ hi)]
    exact h.waiting i (mem_cons_of_mem _ hi)
  · rw [hrolls]
    exact h.tallied
  · rw [hrolls]
    by_cases he : r.itemSlot = i
    · -- the item of the roll is looted now, or is no longer blocked
      subst he
      obtain hlooted | hfree := (hok hgood).free hi'
      · cases hl.symm.trans hlooted
      · cases hb.symm.trans hfree
    · rw [hother i he] at hi'
      exact (mem_cons.mp (h.blocked hgood i item' hi' hb hl)).resolve_left (Ne.symm he)
  · cases (h.unopened (hbody ▸ hne)).1

/-- Every call finds its roll pending. -/
theorem mem_countCalls (h : Rolling good rs w)
    (hok : ∀ c ∈ countCalls m w rs, good → c.world.Obtained (countTheRoll c.moment c.world c.roll) c.roll) :
    (∀ c ∈ countCalls m w rs, c.moment = m ∧ ∃ pending, Rolling good (c.roll :: pending) c.world) ∧
      Rolling good [] (rs.foldl (countTheRoll m) w) := by
  induction rs generalizing w with
  | nil => exact ⟨fun c hc => (by cases hc), h⟩
  | cons r rs ih =>
    have hfirst := countTheRoll_rolling h (hok ⟨m, w, r⟩ mem_cons_self)
    obtain ⟨hcalls, hlast⟩ := ih hfirst fun c hc => hok c (mem_cons_of_mem _ hc)
    refine ⟨fun c hc => ?_, hlast⟩
    obtain rfl | hc := mem_cons.mp hc
    · exact ⟨rfl, rs, h⟩
    · exact hcalls c hc

/-- The roll that a vote ends is pending when it is counted. -/
theorem lootRoll_pending (h : Rolling good [] w) (vote : ClientVote) :
    Rolling good
      ((w.rolls.countRollVote player w.lootGuid slot vote).counted.drop w.rolls.counted.length)
      { w with rolls := w.rolls.countRollVote player w.lootGuid slot vote } := by
  obtain he | ⟨i, r, hr, hcase⟩ := w.rolls.countRollVote_cases player w.lootGuid slot vote
  · rw [he, drop_length]
    exact h
  have hmem : r ∈ w.rolls.rollId := mem_of_getElem? hr
  obtain ⟨hcounted, htallied⟩ := Roll.countRollVote_tallied (h.tallied r hmem) player vote
  have hslot := r.countRollVote_itemSlot player vote
  obtain ⟨hd, he⟩ | he := hcase
  · rw [he, drop_length]
    refine h.reroll ?_ (fun r' hr' => by cases hr') fun r' hr' => ?_
    · exact .of_eq (map_set_key hr hslot)
    · obtain hr' | rfl := mem_or_eq_of_mem_set hr'
      · exact h.tallied r' hr'
      · exact htallied hd
  · rw [he, drop_left]
    refine h.reroll ?_ (fun r' hr' => ?_) fun r' hr' => h.tallied r' (mem_of_mem_eraseIdx hr')
    · obtain ⟨hlt, hget⟩ := List.getElem?_eq_some_iff.mp hr
      have hperm := (getElem_cons_eraseIdx_perm hlt).map (·.itemSlot)
      rw [map_cons, hget, ← hslot] at hperm
      exact hperm
    · rw [mem_singleton.mp hr']
      exact hcounted

/-- Nobody's leaving ends a roll. -/
theorem leave_pending (h : Rolling good [] w) (player : Nat) :
    (w.rolls.removeRolls player).counted.drop w.rolls.counted.length = [] ∧
      Rolling good [] { w with rolls := w.rolls.removeRolls player } := by
  have hslots := Rolls.removeFrom_itemSlot player w.rolls.rollId
  unfold Rolls.removeRolls
  rw [Rolls.removeFrom_eq] at hslots ⊢
  simp only [append_nil, drop_length, true_and]
  refine h.reroll (.of_eq hslots) (fun r hr => by cases hr) fun r hr => ?_
  obtain ⟨r', hr', rfl⟩ := mem_map.mp hr
  have htallied := h.tallied r' hr'
  cases hl : r'.playerVote.lookup player with
  | none => exact htallied
  | some vote => exact Roll.erase_tallied htallied hl

theorem endRoll_pending (h : Rolling good [] w) :
    Rolling good (w.rolls.rollId.filter fun r => r.isValid && r.lootedTarget == w.lootGuid)
      { w with rolls := w.rolls.endRoll w.lootGuid } := by
  refine h.reroll ?_ (fun r hr => (h.tallied r (mem_filter.mp hr).1).toCounted) fun r hr =>
    h.tallied r (mem_filter.mp hr).1
  exact (filter_append_perm (fun r : Roll => r.isValid && r.lootedTarget == w.lootGuid)
    w.rolls.rollId).map (·.itemSlot)

/-! ## The first look at a corpse -/

/-- While the rolls of a corpse are being started, nothing of it has been given to anybody. -/
structure Opening (w : LootWorld) : Prop extends Rolling True [] w where
  body : w.lootForBody = true
  fresh : ∀ (i : Nat) item, w.loot.items[i]? = some item → item.isLooted = false ∧ item.lootOwner = 0

theorem rollSlot_opening (method : LootMethod) (hm : 0 ∉ m.members.guids) (h : Opening w)
    (hs : slot ∉ slots [] w.rolls) :
    Opening (rollSlot m method w slot) ∧
      ∀ i ∈ slots [] (rollSlot m method w slot).rolls, i ∈ slots [] w.rolls ∨ i = slot := by
  obtain he | ⟨item, hi, -, he | ⟨looters, hlooters, he⟩⟩ := rollSlot_cases m method w slot
  · rw [he]
    exact ⟨h, fun i hi => .inl hi⟩
  · rw [he]
    have hgrows : w.loot.Grows { w.loot with
        items := w.loot.items.modify slot fun item => { item with isUnderthreshold := true } } :=
      .of_eq (Loot.bare_modify (f := fun item => { item with isUnderthreshold := true }) (fun _ => rfl) _ _)
    refine ⟨⟨h.toRolling.grow hgrows, h.body, fun i item' hi' => ?_⟩, fun i hi => .inl hi⟩
    obtain ⟨item, hitem, ⟨-, rfl⟩ | ⟨-, rfl⟩⟩ := Loot.of_modify hi'
    · exact h.fresh i item hitem
    · exact h.fresh i item' hitem
  · rw [he]
    have hslots : slots [] { w.rolls with rollId := w.rolls.rollId ++ [.start w.lootGuid slot looters] } =
        slots [] w.rolls ++ [slot] := by
      unfold slots
      rw [nil_append, nil_append, map_append]
      rfl
    have hnew : (w.loot.items.modify slot fun item => { item with isBlocked := true })[slot]? =
        some { item with isBlocked := true } := blocked_modify hi
    refine ⟨⟨⟨?_, fun i hmem => ?_, h.counted, fun r hr => ?_, fun _ i item' hi' hb hl => ?_, fun hne => ?_⟩,
      h.body, fun i item' hi' => ?_⟩, fun i hmem => ?_⟩
    · rw [hslots]
      exact h.nodup.append (nodup_singleton _) (disjoint_singleton.mpr hs)
    · rw [hslots] at hmem
      by_cases hsi : slot = i
      · obtain ⟨hl, ho⟩ := h.fresh slot item hi
        subst hsi
        refine ⟨_, hnew, rfl, ho, fun h1 => ?_⟩
        cases hl.symm.trans h1
      · obtain hmem | hmem := mem_append.mp hmem
        · obtain ⟨item', hi', hw⟩ := h.waiting i hmem
          exact ⟨item', (getElem?_modify_ne _ _ hsi).trans hi', hw⟩
        · exact absurd (mem_singleton.mp hmem).symm hsi
    · obtain hr | hr := mem_append.mp hr
      · exact h.tallied r hr
      · rw [mem_singleton.mp hr]
        exact Roll.start_tallied _ _ fun h0 => hm (hlooters 0 h0)
    · rw [hslots]
      obtain ⟨item, hitem, ⟨rfl, -⟩ | ⟨-, rfl⟩⟩ := Loot.of_modify hi'
      · exact mem_append_right _ (mem_singleton_self _)
      · exact mem_append_left _ (h.blocked trivial i item' hitem hb hl)
    · cases h.body.symm.trans hne
    · obtain ⟨item, hitem, ⟨-, rfl⟩ | ⟨-, rfl⟩⟩ := Loot.of_modify hi'
      · exact h.fresh i item hitem
      · exact h.fresh i item' hitem
    · rw [hslots] at hmem
      exact (mem_append.mp hmem).imp_right mem_singleton.mp

theorem foldl_rollSlot_opening (method : LootMethod) (hm : 0 ∉ m.members.guids) {js : List Nat}
    (h : Opening w) (hjs : js.Nodup) (hs : ∀ j ∈ js, j ∉ slots [] w.rolls) :
    Opening (js.foldl (rollSlot m method) w) := by
  induction js generalizing w with
  | nil => exact h
  | cons j js ih =>
    obtain ⟨hj, hjs⟩ := nodup_cons.mp hjs
    obtain ⟨h', hslots⟩ := rollSlot_opening method hm h (hs j mem_cons_self)
    refine ih h' hjs fun i hi hmem => ?_
    obtain hmem | rfl := hslots i hmem
    · exact hs i (mem_cons_of_mem _ hi) hmem
    · exact hj hi

theorem Rolling.of_true (h : Rolling True pending w) : Rolling good pending w :=
  { h with blocked := fun _ => h.blocked trivial }

/-- A corpse that was not opened is as the template has it, and then the rolls start. -/
theorem openBody_rolling (h : Rolling good [] w) (hm : 0 ∉ m.members.guids) :
    Rolling good [] (w.openBody m) ∧
      ((w.openBody m).lootForBody = false → (w.openBody m).isCreature = false) := by
  unfold openBody
  by_cases hfirst : w.isCreature = true ∧ w.lootForBody = false
  · rw [if_pos hfirst]
    obtain ⟨-, hnil, hc⟩ := h.unopened hfirst.2
    have hgrown := (hc hfirst.1).2
    have hslots : slots [] w.rolls = [] := by
      unfold slots
      rw [hnil]
      rfl
    have hnew : ∀ (i : Nat) item, w.loot.items[i]? = some item →
        item.isLooted = false ∧ item.lootOwner = 0 ∧ item.isBlocked = false := by
      intro i item hi
      obtain ⟨_, hno, -⟩ | ⟨li, he⟩ := hgrown.cases hi
      · cases hno
      · have hl : item.bare.isLooted = (LootItem.ofStore li).isLooted := congrArg LootItem.isLooted he
        have ho : item.bare.lootOwner = (LootItem.ofStore li).lootOwner := congrArg LootItem.lootOwner he
        have hb : item.bare.isBlocked = (LootItem.ofStore li).isBlocked := congrArg LootItem.isBlocked he
        exact ⟨hl, ho, hb⟩
    have hopening : Opening { w with lootForBody := true } := by
      refine ⟨{ h with blocked := fun _ i item hi hb _ => ?_, unopened := fun hne => ?_ }, rfl,
        fun i item hi => ⟨(hnew i item hi).1, (hnew i item hi).2.1⟩⟩
      · cases hb.symm.trans (hnew i item hi).2.2
      · cases hne
    have hdone : ∀ {w' : LootWorld}, Opening w' →
        Rolling good [] w' ∧ (w'.lootForBody = false → w'.isCreature = false) := by
      rintro w' h'
      exact ⟨h'.toRolling.of_true, fun hne => by cases h'.body.symm.trans hne⟩
    have hrange : ∀ method, Opening ({ w with lootForBody := true }.groupLoot m method) :=
      fun method => foldl_rollSlot_opening method hm hopening nodup_range fun j _ hj => by
        rw [show slots [] ({ w with lootForBody := true } : LootWorld).rolls = [] from hslots] at hj
        cases hj
    dsimp only
    split
    · exact hdone (hrange _)
    · exact hdone (hrange _)
    · exact hdone hopening
  · rw [if_neg hfirst]
    refine ⟨h, fun hne => ?_⟩
    rw [← Bool.not_eq_true]
    exact fun hc => hfirst ⟨hc, hne⟩

/-! ## Every step -/

section

variable (h : Rolling good [] w)
include h

theorem sendLoot_rolling (hm : 0 ∉ m.members.guids) :
    Rolling good [] (w.sendLoot m player) := by
  obtain ⟨h, hc⟩ := openBody_rolling h hm
  have hmaster : Rolling good [] ((w.openBody m).masterLoot m player) ∧
      (((w.openBody m).masterLoot m player).lootForBody = false →
        ((w.openBody m).masterLoot m player).isCreature = false) := by
    unfold masterLoot
    split_ifs
    · exact ⟨h.grow (Loot.markUnderthreshold_grows _ m), hc⟩
    · exact ⟨h, hc⟩
  obtain ⟨h, hc⟩ := hmaster
  refine { h with unopened := fun hne =>
    ⟨rfl, (h.unopened hne).2.1, fun h1 => ?_⟩ }
  cases (hc hne).symm.trans h1

theorem lootRelease_rolling : Rolling good [] (w.lootRelease m player) := by
  have hunopened : ∀ l : Loot, l.items = w.loot.items → w.lootForBody = false → [] = ([] : List Roll) ∧
      w.rolls.rollId = [] ∧ (w.isCreature = true → w.looting.filter (· ≠ player) = [] ∧ Loot.Grows {} l) := by
    intro l hl hne
    obtain ⟨-, hr, hc⟩ := h.unopened hne
    refine ⟨rfl, hr, fun h1 => ⟨by rw [(hc h1).1]; rfl, (hc h1).2.trans (.of_eq (by rw [hl]))⟩⟩
  unfold lootRelease
  split_ifs
  · exact { h with unopened := hunopened _ rfl }
  · exact { h with unopened := hunopened _ rfl }

/-- A change of one item that sets looted, and leaves an item of a roll without a count. -/
theorem Rolling.loot {l : Loot} {created : List Created} (hlooting : w.looting ≠ [])
    (hkept : ∀ (i : Nat) item, i ∈ slots [] w.rolls → w.loot.items[i]? = some item → item.Waiting →
      ∃ item', l.items[i]? = some item' ∧ item'.Waiting)
    (hblocked : ∀ (i : Nat) item', l.items[i]? = some item' → item'.isBlocked = true → item'.isLooted = false →
      ∃ item, w.loot.items[i]? = some item ∧ item.isBlocked = true ∧ item.isLooted = false) :
    Rolling good [] { w with loot := l, created } := by
  refine ⟨h.nodup, fun i hi => ?_, h.counted, h.tallied, fun hgood i item' hi hb hl => ?_, fun hne =>
    ⟨rfl, (h.unopened hne).2.1, fun hc => absurd ((h.unopened hne).2.2 hc).1 hlooting⟩⟩
  · obtain ⟨item, hitem, hw⟩ := h.waiting i hi
    exact hkept i item hi hitem hw
  · obtain ⟨item, hitem, hb', hl'⟩ := hblocked i item' hi hb hl
    exact h.blocked hgood i item hitem hb' hl'

theorem autostoreLootItem_rolling : Rolling good [] (w.autostoreLootItem m player slot) := by
  unfold autostoreLootItem
  cases ht : w.taken m player slot with
  | none => exact h
  | some s =>
    obtain ⟨hs, -, hb, hlooting⟩ := taken_spec ht
    refine h.loot hlooting (fun i item hi hitem hw => ?_) fun i item' hi' hb' hl' => ?_
    · exact ⟨item, ((Loot.take_blocked hs hb hitem hw.blocked).2).trans hitem, hw⟩
    · obtain hitems | ⟨-, hitems⟩ := w.loot.take_items player s
      · rw [hitems] at hi'
        exact ⟨item', hi', hb', hl'⟩
      · rw [hitems] at hi'
        obtain ⟨item, hitem, ⟨-, rfl⟩ | ⟨-, rfl⟩⟩ := Loot.of_modify hi'
        · cases hl'
        · exact ⟨item', hitem, hb', hl'⟩

theorem lootMasterGive_rolling :
    Rolling good [] (w.lootMasterGive m player slot target) := by
  unfold lootMasterGive
  cases hg : w.given m player slot target with
  | none => exact h
  | some item =>
    obtain ⟨-, hlooting⟩ := given_spec hg
    refine h.loot hlooting (fun i item hi hitem hw => ?_) fun i item' hi' hb' hl' => ?_
    · by_cases hsi : slot = i
      · subst hsi
        refine ⟨{ item with count := 0, isLooted := true }, ?_, hw.blocked, hw.noOwner, fun _ => rfl⟩
        unfold Loot.giveAway
        rw [getElem?_modify_eq, hitem]
        rfl
      · exact ⟨item, (getElem?_modify_ne _ _ hsi).trans hitem, hw⟩
    · obtain ⟨item₀, hitem, ⟨-, rfl⟩ | ⟨-, rfl⟩⟩ := Loot.of_modify hi'
      · cases hl'
      · exact ⟨item', hitem, hb', hl'⟩

theorem lootMoney_rolling : Rolling good [] (w.lootMoney m player) := by
  unfold lootMoney
  split_ifs
  · refine { h with unopened := fun hne => ?_ }
    obtain ⟨-, hnil, hc⟩ := h.unopened hne
    exact ⟨rfl, hnil, fun hcreature => ⟨(hc hcreature).1, (hc hcreature).2.trans (.of_eq rfl)⟩⟩
  · exact h

end

/-- Every call so far was good, and so are those of this step. -/
def AllObtained (w : LootWorld) (i : LootInput) : Prop :=
  ∀ c ∈ w.calls i, c.world.Obtained (countTheRoll c.moment c.world c.roll) c.roll

/-- A step, and the calls that it makes: each for a pending roll at a real moment. -/
theorem step_rolling {i : LootInput} (h : Rolling good [] w) (hi : i.Real)
    (hok : good → w.AllObtained i) : Rolling good [] (w.step i) ∧
      ∀ c ∈ w.calls i, c.moment.Real ∧ ∃ pending, Rolling good (c.roll :: pending) c.world := by
  have hcounted : ∀ {m : Moment} {rs : List Roll} {w' : LootWorld}, m.Real → Rolling good rs w' →
      (good → ∀ c ∈ countCalls m w' rs, c.world.Obtained (countTheRoll c.moment c.world c.roll) c.roll) →
      Rolling good [] (rs.foldl (countTheRoll m) w') ∧ ∀ c ∈ countCalls m w' rs,
        c.moment.Real ∧ ∃ pending, Rolling good (c.roll :: pending) c.world := by
    intro m rs w' hm h' hok'
    obtain ⟨hcalls, hlast⟩ := mem_countCalls h' fun c hc hgood => hok' hgood c hc
    refine ⟨hlast, fun c hc => ?_⟩
    obtain ⟨rfl, hpending⟩ := hcalls c hc
    exact ⟨hm, hpending⟩
  have hnone : ∀ {w' : LootWorld}, Rolling good [] w' → Rolling good [] w' ∧
      ∀ c ∈ ([] : List RollCall), c.moment.Real ∧ ∃ pending, Rolling good (c.roll :: pending) c.world :=
    fun h' => ⟨h', fun c hc => by cases hc⟩
  cases i with
  | addItem li => exact hnone (h.grow (Loot.addItem_grows ..))
  | fillNotNormalLootFor m player => exact hnone (h.grow ((Loot.grows_filling _).fillNotNormalLootFor (.of_eq rfl) ..))
  | fillLoot m lis owner group => exact hnone (h.grow ((Loot.grows_filling _).fillLoot (.of_eq rfl) ..))
  | sendLoot m player => exact hnone (sendLoot_rolling h hi.members)
  | lootRelease m player => exact hnone (lootRelease_rolling h)
  | autostoreLootItem m player slot => exact hnone (autostoreLootItem_rolling h)
  | lootMasterGive m player slot target => exact hnone (lootMasterGive_rolling h)
  | lootRoll m player slot vote => exact hcounted hi (lootRoll_pending h vote) hok
  | leave m player =>
    obtain ⟨hnil, h'⟩ := leave_pending h player
    refine hcounted hi ?_ hok
    rw [hnil]
    exact h'
  | endRoll m => exact hcounted hi (endRoll_pending h) hok
  | lootMoney m player => exact hnone (lootMoney_rolling h)

theorem start_rolling (isCreature : Bool) (gold : UInt32) : Rolling good [] (start isCreature gold) := by
  refine ⟨nodup_nil, fun i hi => (by cases hi), fun r hr => (by cases hr), fun r hr => (by cases hr),
    fun _ i item hi => (by cases hi), fun _ => ⟨rfl, rfl, fun _ => ⟨rfl, .of_eq rfl⟩⟩⟩

theorem call_obtained_iff (hm : c.moment.Real) (h : Rolling good (c.roll :: pending) c.world) :
    c.world.Obtained (countTheRoll c.moment c.world c.roll) c.roll ↔ c.Settles := by
  obtain ⟨item, hi, hw⟩ := h.waiting c.roll.itemSlot mem_cons_self
  have hc := h.counted c.roll mem_cons_self
  rw [obtained_iff_good hi, Roll.outcome_good_iff hc hw hm.dice]
  constructor
  · exact fun hs => ⟨item, hi, hs⟩
  · rintro ⟨item', hi', hs⟩
    obtain rfl : item = item' := some.inj (hi.symm.trans hi')
    exact hs

/-- In every run every finished roll leaves its item to be had by whom it is for exactly when it
settles. Where all rolls did, what is blocked has an open roll. -/
theorem run_obtained_iff (isCreature : Bool) (gold : UInt32) (is : List LootInput)
    (h : AlongRun step (fun _ i => i.Real) (start isCreature gold) is) :
    AlongRun step (fun w i => ∀ c ∈ w.calls i,
      (c.world.Obtained (countTheRoll c.moment c.world c.roll) c.roll ↔ c.Settles)) (start isCreature gold) is ∧
    (AlongRun step (fun w i => ∀ c ∈ w.calls i, c.Settles) (start isCreature gold) is →
      ∀ (i : Nat) item, (run step (start isCreature gold) is).loot.items[i]? = some item →
        item.isBlocked = true → item.isLooted = false →
        ∃ r ∈ (run step (start isCreature gold) is).rolls.rollId, r.itemSlot = i) := by
  constructor
  · refine AlongRun.imp (I := Rolling False []) (fun w i hw hi => ?_) (start_rolling isCreature gold) h
    obtain ⟨hw', hcalls⟩ := step_rolling hw hi False.elim
    refine ⟨fun c hc => ?_, hw'⟩
    obtain ⟨hm, pending, hc⟩ := hcalls c hc
    exact call_obtained_iff hm hc
  · intro hsettles i item hi hb hl
    have hrolling : Rolling True [] (run step (start isCreature gold) is) := by
      refine run_keeps (fun w i hw hi => ?_) (start_rolling isCreature gold) (h.and hsettles)
      have hobtained : w.AllObtained i := fun c hc => by
        have hw' : Rolling False [] w := hw.of_true
        obtain ⟨hm, pending, hc'⟩ := (step_rolling hw' hi.1 False.elim).2 c hc
        exact (call_obtained_iff hm hc').mpr (hi.2 c hc)
      exact (step_rolling hw hi.1 fun _ => hobtained).1
    exact mem_map.mp (hrolling.blocked trivial i item hi hb hl)

/-- A group rolls for what falls, and every die shows more for a higher guid. -/
def rollMoment : Moment :=
  { anyMoment with recipientMethod := some .groupLoot, dice := fun player => player + 1 }

/-- Player 2 has logged out. -/
def awayMoment : Moment := { rollMoment with online := fun player => player == 1 }

/-- A corpse with one item, which two players see. -/
def openCorpse : List LootInput :=
  [.addItem { itemid := 5, count := 1 }, .fillNotNormalLootFor rollMoment 1, .fillNotNormalLootFor rollMoment 2,
    .sendLoot rollMoment 1]

/-- Player 2 would take the item with greed, but player 1 needs it. -/
def needRun : List LootInput :=
  openCorpse ++ [.lootRoll rollMoment 1 0 .need, .lootRoll rollMoment 2 0 .greed]

theorem rollMoment_real : rollMoment.Real := ⟨fun g => Nat.le_add_left 1 g, by decide⟩

theorem run_obtained_need :
    AlongRun step (fun w i => ∀ c ∈ w.calls i,
      (c.world.Obtained (countTheRoll c.moment c.world c.roll) c.roll ↔ c.Settles)) (start true 0) needRun ∧
    (run step (start true 0) needRun).created = [⟨false, 0, 1⟩] :=
  have h : AlongRun step (fun _ i => i.Real) (start true 0) needRun :=
    ⟨trivial, trivial, trivial, rollMoment_real, rollMoment_real, rollMoment_real, trivial⟩
  ⟨(run_obtained_iff true 0 needRun h).1, by decide⟩

/-- The winner of a need roll is away when the time is over: nobody has the item, and it stays blocked
without a roll. And who voted for need and then passed leaves the item to the first of the map, who has
not voted. -/
theorem need_winner_away :
    (∃ c ∈ (run step (start true 0) (openCorpse ++ [.lootRoll rollMoment 2 0 .need])).calls
      (.endRoll awayMoment), ¬ c.world.Obtained (countTheRoll c.moment c.world c.roll) c.roll) ∧
    (∃ c ∈ (run step (start true 0) (openCorpse ++ [.lootRoll rollMoment 2 0 .need])).calls
      (.lootRoll rollMoment 2 0 .pass), c.roll.playerVote.lookup 1 = some .notEmittedYet ∧
        (countTheRoll c.moment c.world c.roll).created = [⟨false, 0, 1⟩]) := by
  refine ⟨⟨_, mem_cons_self, fun h => ?_⟩, ⟨_, mem_cons_self, ?_⟩⟩
  · have hfree := h.free rfl
    revert hfree
    decide
  · decide

end LootWorld

end Windrunner
