import Windrunner.Lib.Highest
import Windrunner.Loot.Once

/-!
# What a finished roll leaves

`CountTheRoll` decides by the counters of a roll whom it asks for, and by the vote map who wins. The
counters are at least what the map says (`Roll.Tallied`), but not always the same: a second vote leaves
the first one counted.

- **The winner** (`Roll.winner_wins`): the best of those who voted so, or the first in the map when
  nobody did.
- **The item** (`Roll.outcome_good_iff`): it can be had afterwards by whom it is for exactly when who
  wins voted for it and is online (`Roll.Settles`), and the master looter has not given it away.
-/

namespace Windrunner

open Lib

namespace Roll

variable {r : Roll} {guid g : Nat} {vote w : RollVote} {v : ClientVote} {m : Moment}

/-! ## The counters -/

/-- What `CountTheRoll` can rely on: no vote of the map is left out, and 0 is nobody. -/
structure Counted (r : Roll) : Prop where
  need : r.votesFor .need ≤ r.totalNeed.toNat
  greed : r.votesFor .greed ≤ r.totalGreed.toNat
  real : r.playerVote.lookup 0 = none

/-- What an open roll keeps besides. The counters are far from a wrap. -/
structure Tallied (r : Roll) : Prop extends Counted r where
  pass : r.votesFor .pass ≤ r.totalPass.toNat
  sum : r.totalPass.toNat + r.totalNeed.toNat + r.totalGreed.toNat ≤ 254

theorem votesFor_pos_iff : 0 < r.votesFor vote ↔ ∃ g, r.playerVote.lookup g = some vote := by
  constructor
  · intro h
    by_contra hno
    refine Nat.lt_irrefl 0 (Nat.lt_of_lt_of_eq h (total_eq_zero fun x hx => if_neg ?_))
    rintro rfl
    exact hno ⟨x.1, List.mem_dlookup r.playerVote.nodupKeys hx⟩
  · rintro ⟨g, hg⟩
    have hle := le_total (f := fun _ x => if x = vote then 1 else 0) hg
    rw [if_pos rfl] at hle
    exact hle

theorem Counted.none_need (h : r.Counted) (h0 : ¬ 0 < r.totalNeed) (g : Nat) :
    r.playerVote.lookup g ≠ some .need := by
  intro hg
  have hpos := votesFor_pos_iff.mpr ⟨g, hg⟩
  have hle := h.need
  rw [UInt8.lt_iff_toNat_lt] at h0
  simp at h0
  omega

theorem Counted.none_greed (h : r.Counted) (h0 : ¬ 0 < r.totalGreed) (g : Nat) :
    r.playerVote.lookup g ≠ some .greed := by
  intro hg
  have hpos := votesFor_pos_iff.mpr ⟨g, hg⟩
  have hle := h.greed
  rw [UInt8.lt_iff_toNat_lt] at h0
  simp at h0
  omega

theorem start_tallied (target slot : Nat) {looters : Looters} (h : 0 ∉ looters.guids) :
    (start target slot looters).Tallied := by
  have hvotes : ∀ w, w ≠ .notEmittedYet → (start target slot looters).votesFor w = 0 := by
    intro w hw
    unfold votesFor
    refine total_eq_zero fun x hx => if_neg ?_
    unfold start at hx
    dsimp only at hx
    obtain ⟨g, -, rfl⟩ := List.mem_map.mp hx
    exact fun hxw => hw hxw.symm
  refine ⟨⟨?_, ?_, ?_⟩, ?_, ?_⟩
  · rw [hvotes _ (by decide)]
    exact Nat.zero_le _
  · rw [hvotes _ (by decide)]
    exact Nat.zero_le _
  · refine AList.lookup_eq_none.mpr fun hin => h ?_
    obtain ⟨v, hv⟩ := List.mem_keys.mp (AList.mem_keys.mp hin)
    unfold start at hv
    dsimp only at hv
    obtain ⟨g, hg, heq⟩ := List.mem_map.mp hv
    rw [← (Sigma.mk.inj heq).1]
    exact hg
  · rw [hvotes _ (by decide)]
    exact Nat.zero_le _
  · exact Nat.zero_le _

/-- A vote raises its own counter by one, and the votes of its kind by one at most. -/
theorem countRollVote_tallied (h : r.Tallied) (guid : Nat) (v : ClientVote) :
    (r.countRollVote guid v.toRollVote).1.Counted ∧
      ((r.countRollVote guid v.toRollVote).2 = false →
        (r.countRollVote guid v.toRollVote).1.Tallied) := by
  unfold countRollVote
  cases hold : r.playerVote.lookup guid with
  | none => exact ⟨h.toCounted, fun _ => h⟩
  | some old =>
    have hins : ∀ w, total (fun _ x => if x = w then 1 else 0)
        (r.playerVote.insert guid v.toRollVote) ≤ r.votesFor w + if v.toRollVote = w then 1 else 0 := by
      intro w
      have ht := total_insert (fun _ x => if x = w then 1 else 0) r.playerVote guid v.toRollVote
      have hle : r.votesFor w = total (fun _ x => if x = w then 1 else 0) r.playerVote := rfl
      omega
    have hreal : (r.playerVote.insert guid v.toRollVote).lookup 0 = none := by
      have hne : (0 : Nat) ≠ guid := by
        rintro rfl
        rw [h.real] at hold
        cases hold
      rw [AList.lookup_insert_ne hne]
      exact h.real
    have hneed := h.need
    have hgreed := h.greed
    have hpass := h.pass
    have hsum := h.sum
    have hn := hins .need
    have hg := hins .greed
    have hp := hins .pass
    dsimp only
    generalize hr' : r.setVote guid v.toRollVote = r'
    have hmap : r'.playerVote = r.playerVote.insert guid v.toRollVote := by
      rw [← hr']; cases v <;> rfl
    have hvotes : ∀ w, r'.votesFor w = total (fun _ x => if x = w then 1 else 0)
        (r.playerVote.insert guid v.toRollVote) := fun w => by rw [votesFor, hmap]
    have hall : r'.votesFor .need ≤ r'.totalNeed.toNat ∧ r'.votesFor .greed ≤ r'.totalGreed.toNat ∧
        r'.votesFor .pass ≤ r'.totalPass.toNat := by
      rw [hvotes, hvotes, hvotes]
      subst hr'
      cases v <;> simp only [setVote, ClientVote.toRollVote, reduceCtorEq, if_true, if_false] at hn hg hp ⊢
      · have := toNat_succ8 (a := r.totalPass) (by omega); omega
      · have := toNat_succ8 (a := r.totalNeed) (by omega); omega
      · have := toNat_succ8 (a := r.totalGreed) (by omega); omega
    have hc : r'.Counted := ⟨hall.1, hall.2.1, by rw [hmap]; exact hreal⟩
    refine ⟨hc, fun hdone => ⟨hc, hall.2.2, ?_⟩⟩
    rw [decide_eq_false_iff_not] at hdone
    have hbyte := r'.totalPlayersRolling.toNat_lt
    omega

/-- A player who leaves takes their vote along, and one of its counter. -/
theorem erase_tallied (h : r.Tallied) (hl : r.playerVote.lookup guid = some vote) :
    (r.erase guid vote).Tallied := by
  have hvotes : ∀ w, (r.erase guid vote).votesFor w + (if vote = w then 1 else 0) = r.votesFor w := by
    intro w
    have ht := total_erase (fun _ x => if x = w then 1 else 0) r.playerVote guid
    rw [weightAt_some hl] at ht
    exact ht
  have hneed := h.need
  have hgreed := h.greed
  have hpass := h.pass
  have hsum := h.sum
  have hn := hvotes .need
  have hg := hvotes .greed
  have hp := hvotes .pass
  have hreal : (r.erase guid vote).playerVote.lookup 0 = none := by
    have hne : (0 : Nat) ≠ guid := by
      rintro rfl
      rw [h.real] at hl
      cases hl
    exact (AList.lookup_erase_ne hne).trans h.real
  have hall : (r.erase guid vote).votesFor .need ≤ (r.erase guid vote).totalNeed.toNat ∧
      (r.erase guid vote).votesFor .greed ≤ (r.erase guid vote).totalGreed.toNat ∧
      (r.erase guid vote).votesFor .pass ≤ (r.erase guid vote).totalPass.toNat ∧
      (r.erase guid vote).totalPass.toNat + (r.erase guid vote).totalNeed.toNat +
        (r.erase guid vote).totalGreed.toNat ≤ 254 := by
    cases vote <;> simp only [reduceCtorEq, if_true, if_false] at hn hg hp <;>
      simp only [erase, reduceCtorEq, if_true, if_false] at hn hg hp ⊢
    · have := toNat_pred8 (a := r.totalPass) (by omega); omega
    · have := toNat_pred8 (a := r.totalNeed) (by omega); omega
    · have := toNat_pred8 (a := r.totalGreed) (by omega); omega
    · omega
    · omega
  exact ⟨⟨hall.1, hall.2.1, hreal⟩, hall.2.2.1, hall.2.2.2⟩

/-! ## The winner -/

/-- The player who voted `vote` and has the highest roll of those: the first one in the map where
rolls are the same. -/
def Best (r : Roll) (vote : RollVote) (m : Moment) (g : Nat) : Prop :=
  r.playerVote.lookup g = some vote ∧ ∀ h, r.playerVote.lookup h = some vote →
    m.dice h < m.dice g ∨ (m.dice h = m.dice g ∧ mapKey m.place g ≤ mapKey m.place h)

/-- The first player of the map, whatever the vote. -/
def First (r : Roll) (m : Moment) (g : Nat) : Prop :=
  (r.playerVote.lookup g).isSome ∧
    ∀ h, (r.playerVote.lookup h).isSome → mapKey m.place g ≤ mapKey m.place h

theorem mapKey_injective (place : Nat → Nat) : Function.Injective (mapKey place) :=
  fun _ _ h => congrArg (fun k => (ofLex k).2) h

theorem Best.unique {h : Nat} (hg : r.Best vote m g) (hh : r.Best vote m h) : g = h := by
  obtain hlt | ⟨heq, hle⟩ := hg.2 h hh.1
  · have hge := hh.2 g hg.1
    omega
  · obtain hlt | ⟨-, hge⟩ := hh.2 g hg.1
    · omega
    · exact mapKey_injective m.place (le_antisymm hle hge)

theorem First.unique {h : Nat} (hg : r.First m g) (hh : r.First m h) : g = h :=
  mapKey_injective m.place (le_antisymm (hg.2 h hh.1) (hh.2 g hg.1))

variable {place : Nat → Nat}

theorem mem_votes {x : Σ _ : Nat, RollVote} :
    x ∈ r.votes place ↔ r.playerVote.lookup x.1 = some x.2 := by
  unfold votes
  rw [List.mem_insertionSort]
  exact (List.mem_dlookup_iff r.playerVote.nodupKeys).symm

theorem votes_sorted (r : Roll) (place : Nat → Nat) :
    (r.votes place).Pairwise fun x y => mapKey place x.1 ≤ mapKey place y.1 :=
  List.pairwise_insertionSort (fun x y : Σ _ : Nat, RollVote => mapKey place x.1 ≤ mapKey place y.1)
    r.playerVote.entries

theorem votes_eq_nil (h : r.votes place = []) (g : Nat) : r.playerVote.lookup g = none := by
  rw [Option.eq_none_iff_forall_not_mem]
  intro v hv
  have hmem : (⟨g, v⟩ : Σ _ : Nat, RollVote) ∈ r.votes place := mem_votes.mpr hv
  rw [h] at hmem
  cases hmem

/-- Who wins when `vote` is asked for. -/
inductive Wins (r : Roll) (vote : RollVote) (m : Moment) : Option Nat → Prop
  | best (g : Nat) (h : r.Best vote m g) : Wins r vote m (some g)
  | first (g : Nat) (hnone : ∀ h, r.playerVote.lookup h ≠ some vote) (h : r.First m g) :
    Wins r vote m (some g)
  | empty (h : ∀ g, r.playerVote.lookup g = none) : Wins r vote m none

/-- The dice show 1 at least, so somebody who voted so beats the player that the loop begins with. -/
theorem winner_wins (r : Roll) (vote : RollVote) (hdice : ∀ g, 1 ≤ m.dice g) :
    r.Wins vote m (r.winner vote m) := by
  unfold winner
  cases hv : r.votes m.place with
  | nil => exact .empty fun g => votes_eq_nil hv g
  | cons x rest =>
    dsimp only
    have hloop : (fun (best : Nat × Nat) (y : Σ _ : Nat, RollVote) =>
        if y.2 = vote ∧ best.2 < m.dice y.1 then (y.1, m.dice y.1) else best) =
        keepHighest (fun y : Σ _ : Nat, RollVote => y.2 = vote) Sigma.fst fun y => m.dice y.1 := rfl
    rw [← hv, hloop]
    obtain ⟨hnone, heq⟩ | ⟨y, hy, -, heq⟩ := foldl_highest (fun y : Σ _ : Nat, RollVote => y.2 = vote)
      Sigma.fst (fun y => m.dice y.1) (r.votes m.place) (x.1, 0)
    · rw [heq]
      refine .first x.1 (fun h hh => ?_) ⟨?_, fun h hh => ?_⟩
      · have hzero := hnone ⟨h, vote⟩ (mem_votes.mpr hh) rfl
        have hone := hdice h
        dsimp only at hzero
        omega
      · have hmem : x ∈ r.votes m.place := by rw [hv]; exact List.mem_cons_self
        rw [mem_votes.mp hmem]
        rfl
      · obtain ⟨v, hlook⟩ := Option.isSome_iff_exists.mp hh
        have hmem : (⟨h, v⟩ : Σ _ : Nat, RollVote) ∈ r.votes m.place := mem_votes.mpr hlook
        have hsorted := r.votes_sorted m.place
        rw [hv] at hmem hsorted
        obtain hx | hmem := List.mem_cons.mp hmem
        · rw [← hx]
        · exact (List.pairwise_cons.mp hsorted).1 _ hmem
    · rw [heq]
      obtain ⟨hmem, hvote⟩ := hy.mem
      refine .best y.1 ⟨?_, fun h hh => ?_⟩
      · rw [← hvote]
        exact mem_votes.mp hmem
      · have hin : (⟨h, vote⟩ : Σ _ : Nat, RollVote) ∈ r.votes m.place := mem_votes.mpr hh
        exact hy.key_le (r.votes_sorted m.place) hin rfl

/-- The player may win: a vote for need, or one for greed when there is none for need. -/
def Deserves (r : Roll) (g : Nat) : Prop :=
  r.playerVote.lookup g = some .need ∨
    (∀ h, r.playerVote.lookup h ≠ some .need) ∧ r.playerVote.lookup g = some .greed

def AllPassed (r : Roll) : Prop :=
  ∀ h, r.playerVote.lookup h ≠ some .need ∧ r.playerVote.lookup h ≠ some .greed

/-- Who wins voted for it, and is online. A counter may have a vote that has been changed since; then
the first player of the map is asked. -/
def Settles (r : Roll) (m : Moment) : Prop :=
  if 0 < r.totalNeed then
    (∃ g, r.Best .need m g ∧ m.online g = true) ∨
      (∀ h, r.playerVote.lookup h ≠ some .need) ∧
        ∃ g, r.First m g ∧ r.playerVote.lookup g = some .greed ∧ m.online g = true
  else if 0 < r.totalGreed then ∃ g, r.Best .greed m g ∧ m.online g = true
  else True

end Roll

namespace LootItem

variable {item : LootItem} {player : Nat}

/-- The item is there for the player, who may take it as far as conditions and quests go. -/
def ObtainableBy (item : LootItem) (player : Nat) : Prop :=
  item.isLooted = false ∧ item.isBlocked = false ∧ item.count ≠ 0 ∧
    ∀ meets : Meets, meets player item.itemid item.conditionId item.needsQuest = true →
      item.allowedForPlayer meets player = true

/-- As a roll finds the item. What the master looter has given away has no count left. -/
structure Waiting (item : LootItem) : Prop where
  blocked : item.isBlocked = true
  noOwner : item.lootOwner = 0
  looted : item.isLooted = true → item.count = 0

theorem obtainableBy_iff : item.ObtainableBy player ↔ item.isLooted = false ∧ item.isBlocked = false ∧
    item.count ≠ 0 ∧ (item.lootOwner = 0 ∨ player = item.lootOwner) := by
  unfold ObtainableBy allowedForPlayer
  refine and_congr_right fun _ => and_congr_right fun _ => and_congr_right fun _ => ?_
  constructor
  · intro h
    simpa using h (fun _ _ _ _ => true) rfl
  · intro h meets hm
    simpa [hm] using h

theorem Waiting.unlooted (h : item.Waiting) (hc : item.count ≠ 0) : item.isLooted = false := by
  rw [Bool.eq_false_iff]
  exact fun hl => hc (h.looted hl)

end LootItem

namespace Roll

variable {r : Roll} {m : Moment} {item : LootItem} {o : Outcome} {slot g : Nat}

/-- The items that an outcome creates -/
def Outcome.made (o : Outcome) (item : LootItem) (slot : Nat) : List Created :=
  match o with
  | given guid => if item.count = 0 then [] else [⟨false, slot, guid⟩]
  | _ => []

/-- The item is stored for one who deserves it, or kept for them, or free when nobody wants it. -/
def Outcome.Good (o : Outcome) (r : Roll) (item : LootItem) (slot : Nat) : Prop :=
  (∃ g, r.Deserves g ∧ (o.apply item).isLooted = true ∧ o.made item slot = [⟨false, slot, g⟩]) ∨
    (∃ g, r.Deserves g ∧ (o.apply item).ObtainableBy g ∧ o.made item slot = []) ∨
    (r.AllPassed ∧ (∀ g, (o.apply item).ObtainableBy g) ∧ o.made item slot = [])

theorem good_given :
    (Outcome.given g).Good r item slot ↔ item.count ≠ 0 ∧ r.Deserves g := by
  unfold Outcome.Good Outcome.made Outcome.apply
  dsimp only
  constructor
  · rintro (⟨g', hg, -, hmade⟩ | ⟨g', -, ho, -⟩ | ⟨-, ho, -⟩)
    · split_ifs at hmade with hc
      have hguid : g = g' := by simpa using hmade
      exact ⟨hc, hguid ▸ hg⟩
    · exact absurd ho.1 (by simp)
    · exact absurd (ho 0).1 (by simp)
  · rintro ⟨hc, hg⟩
    exact .inl ⟨g, hg, rfl, if_neg hc⟩

theorem good_kept (hw : item.Waiting) (hg0 : g ≠ 0) :
    (Outcome.kept g).Good r item slot ↔ item.count ≠ 0 ∧ r.Deserves g := by
  unfold Outcome.Good Outcome.made Outcome.apply
  simp only [LootItem.obtainableBy_iff]
  constructor
  · rintro (⟨g', -, -, hmade⟩ | ⟨g', hg, ⟨-, -, hc, howner⟩, -⟩ | ⟨-, ho, -⟩)
    · cases hmade
    · exact ⟨hc, howner.resolve_left hg0 ▸ hg⟩
    · have hother := (ho (g + 1)).2.2.2
      omega
  · rintro ⟨hc, hg⟩
    exact .inr (.inl ⟨g, hg, ⟨hw.unlooted hc, trivial, hc, .inr rfl⟩, trivial⟩)

/-- Nothing was made of the item, and it is still blocked. -/
theorem not_good (hw : item.Waiting) (hmade : o.made item slot = [])
    (hblocked : (o.apply item).isBlocked = item.isBlocked) : ¬ o.Good r item slot := by
  rintro (⟨g, -, -, hone⟩ | ⟨g, -, ho, -⟩ | ⟨-, ho, -⟩)
  · rw [hmade] at hone
    cases hone
  · exact absurd (hblocked.symm.trans ho.2.1) (by simp [hw.blocked])
  · exact absurd (hblocked.symm.trans (ho 0).2.1) (by simp [hw.blocked])

theorem good_allPassed (hw : item.Waiting) (hr : r.AllPassed) :
    Outcome.allPassed.Good r item slot ↔ item.count ≠ 0 := by
  unfold Outcome.Good Outcome.made Outcome.apply
  simp only [LootItem.obtainableBy_iff]
  constructor
  · rintro (⟨g, -, -, hmade⟩ | ⟨g, -, ⟨-, -, hc, -⟩, -⟩ | ⟨-, ho, -⟩)
    · cases hmade
    · exact hc
    · exact (ho 0).2.2.1
  · intro hc
    exact .inr (.inr ⟨hr, fun g => ⟨hw.unlooted hc, trivial, hc, .inl hw.noOwner⟩, trivial⟩)

/-- The winner `g` of a roll gets the item, or has it kept; `o` is what happens when they are not
online. -/
theorem good_won (hw : item.Waiting) (hg0 : g ≠ 0) (hmade : o.made item slot = [])
    (hblocked : (o.apply item).isBlocked = item.isBlocked) :
    (if m.online g = true then
      if m.canStoreNewItem g item.itemid item.count = true then .given g else .kept g
      else o).Good r item slot ↔ item.count ≠ 0 ∧ r.Deserves g ∧ m.online g = true := by
  by_cases hon : m.online g = true
  · rw [if_pos hon, and_iff_left hon]
    split
    · exact good_given
    · exact good_kept hw hg0
  · rw [if_neg hon]
    exact iff_of_false (not_good hw hmade hblocked) fun h => hon h.2.2

/-- The winner among those who asked for need. -/
theorem Wins.need_iff (h : r.Wins .need m (some g)) : r.Deserves g ∧ m.online g = true ↔
    (∃ g, r.Best .need m g ∧ m.online g = true) ∨
      (∀ h, r.playerVote.lookup h ≠ some .need) ∧
        ∃ g, r.First m g ∧ r.playerVote.lookup g = some .greed ∧ m.online g = true := by
  cases h with
  | best _ hb =>
    constructor
    · exact fun hg => .inl ⟨g, hb, hg.2⟩
    · rintro (⟨g', hb', hon⟩ | ⟨hnone, -⟩)
      · exact ⟨.inl hb.1, hb.unique hb' ▸ hon⟩
      · exact absurd hb.1 (hnone g)
  | first _ hnone hf =>
    constructor
    · rintro ⟨hg | ⟨-, hg⟩, hon⟩
      · exact absurd hg (hnone g)
      · exact .inr ⟨hnone, g, hf, hg, hon⟩
    · rintro (⟨g', hb', -⟩ | ⟨-, g', hf', hg, hon⟩)
      · exact absurd hb'.1 (hnone g')
      · obtain rfl := hf.unique hf'
        exact ⟨.inr ⟨hnone, hg⟩, hon⟩

/-- The winner among those who asked for greed, when nobody asked for need. -/
theorem Wins.greed_iff (h : r.Wins .greed m (some g)) (hneed : ∀ g, r.playerVote.lookup g ≠ some .need) :
    r.Deserves g ∧ m.online g = true ↔ ∃ g, r.Best .greed m g ∧ m.online g = true := by
  cases h with
  | best _ hb =>
    constructor
    · exact fun hg => ⟨g, hb, hg.2⟩
    · rintro ⟨g', hb', hon⟩
      exact ⟨.inr ⟨hneed, hb.1⟩, hb.unique hb' ▸ hon⟩
  | first _ hnone hf =>
    constructor
    · rintro ⟨hg | ⟨-, hg⟩, -⟩
      · exact absurd hg (hneed g)
      · exact absurd hg (hnone g)
    · rintro ⟨g', hb', -⟩
      exact absurd hb'.1 (hnone g')

/-- When the item can be had afterwards by whom it is for. -/
theorem outcome_good_iff (hc : r.Counted) (hw : item.Waiting) (hdice : ∀ g, 1 ≤ m.dice g) :
    (r.outcome m item).Good r item slot ↔ item.count ≠ 0 ∧ r.Settles m := by
  -- whoever wins is in the map, so is somebody
  have hreal : ∀ {vote g}, r.Wins vote m (some g) → g ≠ 0 := by
    rintro vote g h rfl
    cases h with
    | best _ hb => exact absurd hb.1 (by simp [hc.real])
    | first _ _ hf => exact absurd hf.1 (by simp [hc.real])
  unfold outcome Settles
  by_cases hneed : 0 < r.totalNeed
  · rw [if_pos hneed, if_pos hneed]
    have hwin := winner_wins r .need hdice
    revert hwin
    cases r.winner .need m with
    | none =>
      rintro ⟨⟩
      rename_i hempty
      refine iff_of_false (not_good hw rfl rfl) ?_
      rintro ⟨-, ⟨g, hb, -⟩ | ⟨-, g, hf, -⟩⟩
      · exact absurd hb.1 (by simp [hempty])
      · exact absurd hf.1 (by simp [hempty])
    | some g =>
      intro hwin
      exact (good_won hw (hreal hwin) rfl rfl).trans (and_congr_right fun _ => hwin.need_iff)
  · rw [if_neg hneed, if_neg hneed]
    have hnone := hc.none_need hneed
    by_cases hgreed : 0 < r.totalGreed
    · rw [if_pos hgreed, if_pos hgreed]
      have hwin := winner_wins r .greed hdice
      revert hwin
      cases r.winner .greed m with
      | none =>
        rintro ⟨⟩
        rename_i hempty
        refine iff_of_false (not_good hw rfl rfl) ?_
        rintro ⟨-, g, hb, -⟩
        exact absurd hb.1 (by simp [hempty])
      | some g =>
        intro hwin
        exact (good_won hw (hreal hwin) rfl rfl).trans (and_congr_right fun _ => hwin.greed_iff hnone)
    · rw [if_neg hgreed, if_neg hgreed, and_true]
      exact good_allPassed hw fun g => ⟨hnone g, hc.none_greed hgreed g⟩

end Roll

end Windrunner
