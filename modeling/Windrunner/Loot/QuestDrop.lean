import Mathlib.Tactic.NormNum
import Windrunner.Loot.Generate

/-!
# The prediction of quest drops

`HaveQuestLootFor` says whether a loot can have a quest item before it is rolled. It looks the
references of a template up in the store that the template is in; `Process` finds them in
`reference_loot_template`.

* `LootTemplate.Adds`: a run of `Process` gives an entry to `AddItem`.
* `LootTemplate.Leads`: the references of a template, looked up in a store, lead to an entry. It
  is what the prediction computes (`anyDrop_iff`), and for references that can be rolled it is what
  some run of `Process` does (`leads_of_adds`, `exists_adds`).
-/

namespace Windrunner

open Lib List
open Option hiding any_eq_true

variable {db : LootDb} {luck luck' luck'' : LootLuck} {reference store : LootStore} {rate : Bool}
  {drop p : LootStoreEntry → Bool} {e r : LootStoreEntry} {g : LootGroup} {t t' : LootTemplate}
  {s s' s₁ : Filling} {n groupId fuel : Nat}

/-! ## Dice -/

namespace LootLuck

/-- All but the dice is the same. -/
structure SameOdds (luck luck' : LootLuck) : Prop where
  conditionMeets : luck'.conditionMeets = luck.conditionMeets
  crossFaction : luck'.crossFaction = luck.crossFaction
  gatheringChanceMod : luck'.gatheringChanceMod = luck.gatheringChanceMod

/-- The first `n` throws are the same too. -/
structure AgreeBelow (n : Nat) (luck luck' : LootLuck) : Prop extends SameOdds luck luck' where
  chance : ∀ i < n, luck'.chance i = luck.chance i
  pick : ∀ i < n, luck'.pick i = luck.pick i

theorem SameOdds.trans (h : SameOdds luck luck') (h' : SameOdds luck' luck'') :
    SameOdds luck luck'' :=
  ⟨h'.conditionMeets.trans h.conditionMeets, h'.crossFaction.trans h.crossFaction,
    h'.gatheringChanceMod.trans h.gatheringChanceMod⟩

theorem AgreeBelow.mono {m : Nat} (h : AgreeBelow n luck luck') (hmn : m ≤ n) :
    AgreeBelow m luck luck' where
  toSameOdds := h.toSameOdds
  chance i hi := h.chance i (hi.trans_le hmn)
  pick i hi := h.pick i (hi.trans_le hmn)

theorem AgreeBelow.trans (h : AgreeBelow n luck luck') (h' : AgreeBelow n luck' luck'') :
    AgreeBelow n luck luck'' where
  toSameOdds := h.toSameOdds.trans h'.toSameOdds
  chance i hi := (h'.chance i hi).trans (h.chance i hi)
  pick i hi := (h'.pick i hi).trans (h.pick i hi)

/-- The dice show `v` at the throw `n`, and `k` at the one after it. -/
def fix (luck : LootLuck) (n : Nat) (v : ℚ) (hv : 0 ≤ v ∧ v < 100) (k : Nat) : LootLuck :=
  { luck with
    chance := fun i => if i = n then v else luck.chance i
    chance_mem := fun i => by
      split
      · exact hv
      · exact luck.chance_mem i
    pick := fun i => if i = n + 1 then k else luck.pick i }

theorem agreeBelow_fix (luck : LootLuck) (n : Nat) (v : ℚ) (hv : 0 ≤ v ∧ v < 100) (k : Nat) :
    AgreeBelow n luck (luck.fix n v hv k) where
  conditionMeets := rfl
  crossFaction := rfl
  gatheringChanceMod := rfl
  chance _ hi := if_neg (Nat.ne_of_lt hi)
  pick _ hi := if_neg (Nat.ne_of_lt (hi.trans (Nat.lt_succ_self n)))

@[simp] theorem fix_chance (luck : LootLuck) (n : Nat) (v : ℚ) (hv : 0 ≤ v ∧ v < 100) (k : Nat) :
    (luck.fix n v hv k).chance n = v := if_pos rfl

@[simp] theorem fix_pick (luck : LootLuck) (n : Nat) (v : ℚ) (hv : 0 ≤ v ∧ v < 100) (k : Nat) :
    (luck.fix n v hv k).pick (n + 1) = k := if_pos rfl

theorem exists_low (luck : LootLuck) (n : Nat) : ∃ low, AgreeBelow n luck low ∧ low.chance n = 0 :=
  have hzero : (0 : ℚ) ≤ 0 ∧ (0 : ℚ) < 100 := by norm_num
  ⟨luck.fix n 0 hzero 0, agreeBelow_fix luck n 0 hzero 0, fix_chance luck n 0 hzero 0⟩

end LootLuck

open LootLuck

/-! ## What can be rolled -/

namespace LootStoreEntry

/-- The chance of an entry that is below 100 and is rolled. -/
def rolledChance (db : LootDb) (luck : LootLuck) (rate : Bool) (e : LootStoreEntry) : ℚ :=
  if e.isRef then e.chance * if rate then db.rateReferenced else 1
  else
    let qualityModifier := ((db.getItemPrototype e.itemid).filter fun _ => rate).elim 1
      fun proto => db.rateQuality proto.quality
    e.chance * qualityModifier * (100 + luck.gatheringChanceMod e.itemid) / 100

theorem roll_eq (e : LootStoreEntry) (s : Filling) : e.roll db luck rate s =
    if 100 ≤ e.chance then (true, s) else s.rollChance luck (e.rolledChance db luck rate) := by
  unfold roll rolledChance
  split_ifs <;> rfl

/-- Some dice pass the entry. -/
def MayRoll (db : LootDb) (luck : LootLuck) (rate : Bool) (e : LootStoreEntry) : Prop :=
  100 ≤ e.chance ∨ 0 < e.rolledChance db luck rate

theorem MayRoll.congr (h : SameOdds luck luck') (hm : e.MayRoll db luck rate) :
    e.MayRoll db luck' rate := by
  unfold MayRoll rolledChance at hm ⊢
  rwa [h.gatheringChanceMod]

theorem mayRoll_of_roll (h : (e.roll db luck rate s).1 = true) : e.MayRoll db luck rate := by
  rw [roll_eq] at h
  split_ifs at h with h100
  · exact .inl h100
  · exact .inr ((luck.chance_mem _).1.trans_lt (of_decide_eq_true h))

/-- The lowest throw passes what can be passed. -/
theorem roll_of_mayRoll (h : e.MayRoll db luck rate) (hlow : luck.chance s.throws = 0) :
    (e.roll db luck rate s).1 = true := by
  rw [roll_eq]
  split_ifs with h100
  · rfl
  · exact decide_eq_true (hlow ▸ h.resolve_left h100)

variable (db luck rate) in
theorem roll_throws (e : LootStoreEntry) (s : Filling) :
    s.throws ≤ (e.roll db luck rate s).2.throws := by
  rw [roll_eq]
  split_ifs
  · exact Nat.le_refl _
  · exact Nat.le_succ _

theorem roll_agree (h : AgreeBelow n luck luck') (e : LootStoreEntry) (s : Filling)
    (hn : (e.roll db luck rate s).2.throws ≤ n) : e.roll db luck' rate s = e.roll db luck rate s := by
  have hsame : e.rolledChance db luck' rate = e.rolledChance db luck rate := by
    unfold rolledChance
    rw [h.gatheringChanceMod]
  rw [roll_eq] at hn
  rw [roll_eq, roll_eq, hsame]
  split_ifs at hn ⊢
  · rfl
  · unfold Filling.rollChance
    rw [h.chance s.throws hn]

end LootStoreEntry

namespace LootGroup

theorem rollExplicit_congr (h : SameOdds luck luck') (v : ℚ) (l : List LootStoreEntry) :
    rollExplicit luck' v l = rollExplicit luck v l := by
  induction l generalizing v with
  | nil => rfl
  | cons e l ih =>
    unfold rollExplicit LootStoreEntry.allowedForTeam
    rw [h.conditionMeets, h.gatheringChanceMod]
    simp only [ih]

/-- The entries one of which is taken when no explicitly chanced one is. -/
def eligible (luck : LootLuck) (g : LootGroup) : List LootStoreEntry :=
  if !g.hasConditionalEqualChancedItem || luck.crossFaction then g.equalChanced
  else g.equalChanced.filter (·.allowedForTeam luck)

theorem eligible_congr (h : SameOdds luck luck') (g : LootGroup) :
    g.eligible luck' = g.eligible luck := by
  unfold eligible LootStoreEntry.allowedForTeam
  rw [h.conditionMeets, h.crossFaction]

theorem rollEqual_eq (luck : LootLuck) (g : LootGroup) (throw : Nat) :
    g.rollEqual luck throw = (g.eligible luck)[luck.pick throw % (g.eligible luck).length]? := by
  unfold rollEqual eligible
  split <;> rfl

/-- Some dice take the entry from the group. -/
def Rolls (luck : LootLuck) (g : LootGroup) (e : LootStoreEntry) : Prop :=
  ∃ v, 0 ≤ v ∧ v < 100 ∧ (rollExplicit luck v g.explicitlyChanced = some e ∨
    (rollExplicit luck v g.explicitlyChanced = none ∧ e ∈ g.eligible luck))

theorem Rolls.congr (h : SameOdds luck luck') (hr : g.Rolls luck e) : g.Rolls luck' e := by
  obtain ⟨v, h0, h100, hv⟩ := hr
  refine ⟨v, h0, h100, ?_⟩
  rwa [rollExplicit_congr h, eligible_congr h]

theorem rolls_of_roll {throw : Nat} (h : g.roll luck throw = some e) : g.Rolls luck e := by
  obtain ⟨h0, h100⟩ := luck.chance_mem throw
  refine ⟨luck.chance throw, h0, h100, ?_⟩
  unfold roll at h
  obtain h | ⟨hnone, h⟩ := or_eq_some_iff.mp h
  · exact .inl h
  · rw [rollEqual_eq] at h
    exact .inr ⟨hnone, mem_of_getElem? h⟩

/-- With the dice fixed at its throws the group gives the entry. -/
theorem exists_roll (h : g.Rolls luck e) (n : Nat) : ∃ v hv k,
    g.roll (luck.fix n v hv k) n = some e := by
  obtain ⟨v, h0, h100, hv⟩ := h
  have hodds (k : Nat) := (agreeBelow_fix luck n v ⟨h0, h100⟩ k).toSameOdds
  have hroll (k : Nat) : g.roll (luck.fix n v ⟨h0, h100⟩ k) n =
      (rollExplicit luck v g.explicitlyChanced).or (g.eligible luck)[k % (g.eligible luck).length]? := by
    rw [roll, rollEqual_eq, fix_chance, fix_pick, rollExplicit_congr (hodds k), eligible_congr (hodds k)]
  obtain hv | ⟨hnone, hmem⟩ := hv
  · exact ⟨v, ⟨h0, h100⟩, 0, by rw [hroll, hv, some_or]⟩
  · obtain ⟨k, hk, rfl⟩ := mem_iff_getElem.mp hmem
    refine ⟨v, ⟨h0, h100⟩, k, ?_⟩
    rw [hroll, hnone, none_or, Nat.mod_eq_of_lt hk, getElem?_eq_getElem hk]

theorem roll_agree {N : Nat} (h : AgreeBelow N luck luck') (g : LootGroup) {throw : Nat}
    (hN : throw + 2 ≤ N) : g.roll luck' throw = g.roll luck throw := by
  unfold roll
  rw [rollEqual_eq, rollEqual_eq, rollExplicit_congr h.toSameOdds, eligible_congr h.toSameOdds,
    h.chance throw (by omega), h.pick (throw + 1) (by omega)]

end LootGroup

theorem Filling.addItem_agree {N : Nat} (h : AgreeBelow N luck luck') (s : Filling) (e : LootStoreEntry)
    (hN : s.throws + 1 ≤ N) : s.addItem db luck' e = s.addItem db luck e := by
  unfold Filling.addItem
  rw [h.pick s.throws hN]

variable (db) in
theorem LootGroup.process_agree {N : Nat} (h : AgreeBelow N luck luck') (g : LootGroup) (s : Filling) :
    s.throws ≤ (g.process db luck s).throws ∧ ((g.process db luck s).throws ≤ N →
      g.process db luck' s = g.process db luck s) := by
  unfold LootGroup.process
  dsimp only
  cases hroll : g.roll luck s.throws with
  | none =>
    refine ⟨Nat.le_add_right _ _, fun hN => ?_⟩
    rw [g.roll_agree h hN, hroll]
    rfl
  | some e =>
    refine ⟨Nat.le_add_right _ 3, fun hN => ?_⟩
    have hN' : s.throws + 3 ≤ N := hN
    rw [g.roll_agree h (by omega), hroll]
    exact Filling.addItem_agree h _ e hN'

variable (db) in
theorem groups_agree {N : Nat} (h : AgreeBelow N luck luck') (l : List LootGroup) (s : Filling) :
    s.throws ≤ (l.foldl (fun s g => g.process db luck s) s).throws ∧
      ((l.foldl (fun s g => g.process db luck s) s).throws ≤ N →
        l.foldl (fun s g => g.process db luck' s) s = l.foldl (fun s g => g.process db luck s) s) := by
  induction l generalizing s with
  | nil => exact ⟨Nat.le_refl _, fun _ => rfl⟩
  | cons g l ih =>
    rw [foldl_cons, foldl_cons]
    obtain ⟨hle, hg⟩ := g.process_agree db h s
    obtain ⟨hle', hl⟩ := ih (g.process db luck s)
    refine ⟨hle.trans hle', fun hN => ?_⟩
    rw [hg (hle'.trans hN)]
    exact hl hN

namespace LootTemplate

/-- `Process` looks at no other throws than those that it makes. -/
theorem agrees_processWalk {N : Nat} (h : AgreeBelow N luck luck') :
    (processWalk db luck reference rate).Agrees (processWalk db luck' reference rate)
      Filling.throws N where
  jobs _ := rfl
  act e s := by
    have hle := e.roll_throws db luck rate s
    have hroll : (e.roll db luck rate s).2.throws ≤ N →
        e.roll db luck' rate s = e.roll db luck rate s := e.roll_agree h s
    unfold processWalk
    dsimp only
    by_cases hpass : (!(e.roll db luck rate s).1) = true
    · simp only [if_pos hpass]
      exact ⟨hle, fun hN => by rw [hroll hN, if_pos hpass]⟩
    simp only [if_neg hpass]
    by_cases href : e.isRef = true
    · simp only [if_pos href]
      exact ⟨hle, fun hN => by rw [hroll hN, if_neg hpass]⟩
    · simp only [if_neg href]
      refine ⟨Nat.le_succ_of_le hle, fun hN => ?_⟩
      rw [hroll (Nat.le_of_succ_le hN), if_neg hpass, Filling.addItem_agree h _ _ hN]
  finish a s := by
    unfold processWalk
    dsimp only
    split_ifs
    · cases a.1.groups[a.2 - 1]? with
      | none => exact ⟨Nat.le_refl _, fun _ => rfl⟩
      | some g => exact g.process_agree db h s
    · exact groups_agree db h a.1.groups s

/-- The entries of a template are processed. -/
def processEntries (db : LootDb) (luck : LootLuck) (reference : LootStore) (rate : Bool) (fuel : Nat)
    (l : List LootStoreEntry) (s : Filling) : Option Filling :=
  l.foldlM (processEntry db luck reference rate (process db luck reference rate fuel)) s

/-- They are processed as those of a template without groups. -/
theorem processEntries_eq (fuel : Nat) (l : List LootStoreEntry) (s : Filling) :
    processEntries db luck reference rate fuel l s =
      (processWalk db luck reference rate).run (fuel + 1) ({ entries := l }, 0) s := by
  rw [← process_eq, process, if_neg (not_not.mpr rfl), bind_eq_bind]
  exact (bind_fun_some _).symm

variable (db luck rate) in
theorem processEntries_finish (h : reference.Acyclic (·.maxcount != 0)) (l : List LootStoreEntry)
    (s : Filling) : ∃ fuel s', processEntries db luck reference rate fuel l s = some s' := by
  obtain ⟨fuel, hfuel⟩ := Walk.run_of_acc
    ((follows_processWalk db luck reference rate).acc h { entries := l } 0) s
  obtain ⟨s', hs'⟩ := isSome_iff_exists.mp hfuel
  refine ⟨fuel, s', ?_⟩
  rw [processEntries_eq]
  exact Walk.run_mono (Nat.le_succ fuel) hs'

theorem processEntries_agree {N : Nat} (h : AgreeBelow N luck luck') {l : List LootStoreEntry}
    (hr : processEntries db luck reference rate fuel l s = some s') : s.throws ≤ s'.throws ∧
      (s'.throws ≤ N → processEntries db luck' reference rate fuel l s = some s') := by
  rw [processEntries_eq] at hr ⊢
  exact (agrees_processWalk h).run hr

/-! ## Chains of references -/

/-- References that pass `follow`, looked up in `store`, lead from the template, or from one of its
groups, to an entry that passes `here` or a group that passes `among`. -/
inductive Leads (store : LootStore) (follow here : LootStoreEntry → Prop) (among : LootGroup → Prop) :
    LootTemplate → Nat → Prop where
  | entry {t : LootTemplate} {e : LootStoreEntry} : e ∈ t.entries → e.isRef = false → here e →
      Leads store follow here among t 0
  | group {t : LootTemplate} {g : LootGroup} : g ∈ t.groups → among g → Leads store follow here among t 0
  | ofGroup {t : LootTemplate} {n : Nat} {g : LootGroup} : t.groups[n]? = some g → among g →
      Leads store follow here among t (n + 1)
  | reference {t t' : LootTemplate} {r : LootStoreEntry} : r ∈ t.entries → r.isRef = true → follow r →
      store.getLootFor r.ref = some t' → Leads store follow here among t' r.group →
      Leads store follow here among t 0

/-- To an entry that passes `drop`, whatever its chance -/
def LeadsToDrop (drop : LootStoreEntry → Bool) (store : LootStore) : LootTemplate → Nat → Prop :=
  Leads store (fun _ => True) (fun e => drop e = true) fun g => g.anyDrop drop = true

/-- By references that can be rolled to an entry that passes `p` and can be rolled -/
def MayLead (db : LootDb) (luck : LootLuck) (reference : LootStore) (rate : Bool)
    (p : LootStoreEntry → Bool) : LootTemplate → Nat → Prop :=
  Leads reference (fun r => r.MayRoll db luck rate ∧ r.maxcount ≠ 0)
    (fun e => e.MayRoll db luck rate ∧ p e = true) fun g => ∃ e, g.Rolls luck e ∧ p e = true

/-! ## The prediction -/

theorem anyM_some_true {α : Type} {f : α → Option Bool} {l : List α} (h : l.anyM f = some true) :
    ∃ a ∈ l, f a = some true := by
  induction l with
  | nil => cases h
  | cons a l ih =>
    rw [anyM, bind_eq_bind, bind_eq_some_iff] at h
    obtain ⟨b, hb, h⟩ := h
    cases b with
    | true => exact ⟨a, mem_cons_self, hb⟩
    | false =>
      obtain ⟨c, hc, hf⟩ := ih h
      exact ⟨c, mem_cons_of_mem _ hc, hf⟩

theorem anyM_some_false {α : Type} {f : α → Option Bool} {l : List α} (h : l.anyM f = some false) :
    ∀ a ∈ l, f a = some false := by
  induction l with
  | nil => exact nofun
  | cons a l ih =>
    rw [anyM, bind_eq_bind, bind_eq_some_iff] at h
    obtain ⟨b, hb, h⟩ := h
    cases b with
    | true => cases h
    | false => exact forall_mem_cons.mpr ⟨hb, ih h⟩

/-- An entry of the template itself, or a reference from which it goes on -/
theorem anyDropEntry_true {go : LootTemplate → Nat → Option Bool}
    (hgo : ∀ t groupId, go t groupId = some true → LeadsToDrop drop store t groupId)
    (he : e ∈ t.entries) (h : anyDropEntry drop store go e = some true) : LeadsToDrop drop store t 0 := by
  unfold anyDropEntry at h
  split at h
  case isTrue href =>
    split at h
    · cases h
    · next t' ht' => exact Leads.reference he href trivial ht' (hgo _ _ h)
  case isFalse href => exact Leads.entry he (eq_false_of_ne_true href) (some_inj.mp h)

/-- The prediction is true exactly if references looked up in the store itself lead to a drop. -/
theorem anyDrop_iff {found : Bool} (h : t.anyDrop drop store fuel groupId = some found) :
    found = true ↔ LeadsToDrop drop store t groupId := by
  induction fuel generalizing t groupId found with
  | zero => cases h
  | succ fuel ih =>
    unfold anyDrop at h
    cases groupId with
    | succ n =>
      rw [if_pos (Nat.succ_ne_zero n)] at h
      obtain rfl := some_inj.mp h
      rw [Nat.add_sub_cancel, Option.any_eq_true]
      constructor
      · rintro ⟨g, hg, hdrop⟩
        exact Leads.ofGroup hg hdrop
      · intro hlead
        cases hlead with
        | ofGroup hg hdrop => exact ⟨_, hg, hdrop⟩
    | zero =>
      rw [if_neg (not_not.mpr rfl), bind_eq_bind, bind_eq_some_iff] at h
      obtain ⟨entries, hentries, h⟩ := h
      obtain rfl := some_inj.mp h
      rw [Bool.or_eq_true, any_eq_true]
      constructor
      · rintro (rfl | ⟨g, hg, hdrop⟩)
        · obtain ⟨e, he, hdrop⟩ := anyM_some_true hentries
          exact anyDropEntry_true (fun t groupId h => (ih h).mp rfl) he hdrop
        · exact Leads.group hg hdrop
      · intro hlead
        cases entries with
        | true => exact .inl rfl
        | false =>
          -- No entry has led to a drop.
          have hnone := anyM_some_false hentries
          cases hlead with
          | entry he href hdrop =>
            have hfalse := hnone _ he
            rw [anyDropEntry, href, if_neg Bool.false_ne_true, hdrop] at hfalse
            cases hfalse
          | group hg hdrop => exact .inr ⟨_, hg, hdrop⟩
          | reference he href _ ht' hlead =>
            have hfalse := hnone _ he
            rw [anyDropEntry, href, if_pos rfl, ht'] at hfalse
            exact absurd ((ih hfalse).mpr hlead) Bool.false_ne_true

/-! ## Runs -/

/-- Processing the template from `s` comes to give the entry to `AddItem`. -/
inductive Adds (db : LootDb) (luck : LootLuck) (reference : LootStore) (rate : Bool) :
    LootTemplate → Nat → Filling → LootStoreEntry → Prop where
  | entry {t : LootTemplate} {pre post : List LootStoreEntry} {e : LootStoreEntry} {fuel : Nat}
      {s s₁ : Filling} : t.entries = pre ++ e :: post →
      processEntries db luck reference rate fuel pre s = some s₁ →
      (e.roll db luck rate s₁).1 = true → e.isRef = false → Adds db luck reference rate t 0 s e
  | reference {t t' : LootTemplate} {pre post : List LootStoreEntry} {r e : LootStoreEntry}
      {fuel k : Nat} {s s₁ s₂ : Filling} : t.entries = pre ++ r :: post →
      processEntries db luck reference rate fuel pre s = some s₁ →
      (r.roll db luck rate s₁).1 = true → r.isRef = true → reference.getLootFor r.ref = some t' →
      k < r.maxcount.toNat →
      (replicate k t').foldlM (fun s t' => process db luck reference rate fuel t' r.group s)
        (r.roll db luck rate s₁).2 = some s₂ →
      Adds db luck reference rate t' r.group s₂ e → Adds db luck reference rate t 0 s e
  | group {t : LootTemplate} {pre post : List LootGroup} {g : LootGroup} {e : LootStoreEntry}
      {fuel : Nat} {s s₁ : Filling} :
      processEntries db luck reference rate fuel t.entries s = some s₁ →
      t.groups = pre ++ g :: post →
      g.roll luck (pre.foldl (fun s g => g.process db luck s) s₁).throws = some e →
      Adds db luck reference rate t 0 s e
  | ofGroup {t : LootTemplate} {n : Nat} {g : LootGroup} {s : Filling} {e : LootStoreEntry} :
      t.groups[n]? = some g → g.roll luck s.throws = some e →
      Adds db luck reference rate t (n + 1) s e

/-- What is added has been led to. -/
theorem leads_of_adds (h : Adds db luck reference rate t groupId s e) (hp : p e = true) :
    MayLead db luck reference rate p t groupId := by
  induction h with
  | entry ht _ hroll href =>
    refine Leads.entry (ht ▸ mem_append_right _ mem_cons_self) href ?_
    exact ⟨LootStoreEntry.mayRoll_of_roll hroll, hp⟩
  | reference ht _ hroll href ht' hk _ _ ih =>
    refine Leads.reference (ht ▸ mem_append_right _ mem_cons_self) href ?_ ht' (ih hp)
    refine ⟨LootStoreEntry.mayRoll_of_roll hroll, fun hzero => ?_⟩
    rw [hzero] at hk
    exact absurd hk (Nat.not_lt_zero _)
  | group _ ht hroll =>
    exact Leads.group (ht ▸ mem_append_right _ mem_cons_self)
      ⟨_, LootGroup.rolls_of_roll hroll, hp⟩
  | ofGroup hg hroll => exact Leads.ofGroup hg ⟨_, LootGroup.rolls_of_roll hroll, hp⟩

/-- What is led to is added, if the dice are right from the throws on that are still to be made. -/
theorem exists_adds (hacyclic : reference.Acyclic (·.maxcount != 0))
    (h : MayLead db luck reference rate p t groupId) (hodds : SameOdds luck luck') (s : Filling) :
    ∃ luck'' e, AgreeBelow s.throws luck' luck'' ∧ Adds db luck'' reference rate t groupId s e ∧
      p e = true := by
  induction h generalizing luck' s with
  | entry he href hhere =>
    obtain ⟨pre, post, ht⟩ := append_of_mem he
    obtain ⟨fuel, s₁, hs₁⟩ := processEntries_finish db luck' rate hacyclic pre s
    obtain ⟨low, hagree, hlow⟩ := exists_low luck' s₁.throws
    obtain ⟨hle, hpre⟩ := processEntries_agree hagree hs₁
    have hroll := LootStoreEntry.roll_of_mayRoll (hhere.1.congr (hodds.trans hagree.toSameOdds)) hlow
    exact ⟨low, _, hagree.mono hle, .entry ht (hpre (Nat.le_refl _)) hroll href, hhere.2⟩
  | @reference t t' r he href hfollow ht' _ ih =>
    obtain ⟨pre, post, ht⟩ := append_of_mem he
    obtain ⟨fuel, s₁, hs₁⟩ := processEntries_finish db luck' rate hacyclic pre s
    obtain ⟨low, hagree, hlow⟩ := exists_low luck' s₁.throws
    have hroll := LootStoreEntry.roll_of_mayRoll (hfollow.1.congr (hodds.trans hagree.toSameOdds)) hlow
    -- From here on the dice are those for the template that is referred to.
    obtain ⟨luck'', e, hbelow, hadds, hp⟩ := ih (hodds.trans hagree.toSameOdds)
      (r.roll db low rate s₁).2
    have hbefore := hagree.trans (hbelow.mono (r.roll_throws db low rate s₁))
    obtain ⟨hle, hpre⟩ := processEntries_agree hbefore hs₁
    have hsame := r.roll_agree hbelow s₁ (Nat.le_refl _)
    have hmax : 0 < r.maxcount.toNat := Nat.pos_of_ne_zero fun hzero => hfollow.2 (UInt8.toNat_inj.mp hzero)
    refine ⟨luck'', e, hbefore.mono hle, ?_, hp⟩
    refine .reference (k := 0) ht (hpre (Nat.le_refl _)) ?_ href ht' hmax ?_ hadds
    · rw [hsame]
      exact hroll
    · rw [hsame]
      rfl
  | group hg hamong =>
    obtain ⟨e, hrolls, hp⟩ := hamong
    obtain ⟨pre, post, ht⟩ := append_of_mem hg
    obtain ⟨fuel, s₁, hs₁⟩ := processEntries_finish db luck' rate hacyclic _ s
    obtain ⟨v, hv, k, hroll⟩ := LootGroup.exists_roll (hrolls.congr hodds)
      (pre.foldl (fun s g => g.process db luck' s) s₁).throws
    have hagree := agreeBelow_fix luck' (pre.foldl (fun s g => g.process db luck' s) s₁).throws v hv k
    obtain ⟨hle', hgroups⟩ := groups_agree db hagree pre s₁
    obtain ⟨hle, hentries⟩ := processEntries_agree hagree hs₁
    refine ⟨_, e, hagree.mono (hle.trans hle'), .group (hentries hle') ht ?_, hp⟩
    rw [hgroups (Nat.le_refl _)]
    exact hroll
  | ofGroup hg hamong =>
    obtain ⟨e, hrolls, hp⟩ := hamong
    obtain ⟨v, hv, k, hroll⟩ := LootGroup.exists_roll (hrolls.congr hodds) s.throws
    exact ⟨_, e, agreeBelow_fix luck' s.throws v hv k, .ofGroup hg hroll, hp⟩

/-- An item is in one of the lists of a loot. -/
def HasItem (s : Filling) (itemid : Nat) (needsQuest : Bool) : Prop :=
  ∃ li ∈ s.loot.items ++ s.loot.questItems, li.itemid = itemid ∧ li.needsQuest = needsQuest

theorem mem_addItem {l : Loot} {x : LootStoreItem} {li : LootItem}
    (h : li ∈ (l.addItem x).items ++ (l.addItem x).questItems) :
    li ∈ l.items ++ l.questItems ∨ li = .ofStore x := by
  rw [List.mem_append] at h ⊢
  unfold Loot.addItem at h
  split at h
  · split at h
    · rw [List.mem_append, List.mem_singleton] at h
      tauto
    · exact .inl h
  · split at h
    · rw [List.mem_append, List.mem_singleton] at h
      tauto
    · exact .inl h

theorem hasItem_addItem {itemid : Nat} {needsQuest : Bool}
    (h : HasItem (s.addItem db luck e) itemid needsQuest) :
    HasItem s itemid needsQuest ∨ (e.itemid = itemid ∧ e.needsQuest = needsQuest) := by
  obtain ⟨li, hmem, hitem, hquest⟩ := h
  obtain hold | rfl := mem_addItem hmem
  · exact .inl ⟨li, hold, hitem, hquest⟩
  · exact .inr ⟨hitem, hquest⟩

theorem hasItem_group {itemid : Nat} {needsQuest : Bool}
    (h : HasItem (g.process db luck s) itemid needsQuest) :
    HasItem s itemid needsQuest ∨
      ∃ e, g.roll luck s.throws = some e ∧ e.itemid = itemid ∧ e.needsQuest = needsQuest := by
  unfold LootGroup.process at h
  dsimp only at h
  cases hroll : g.roll luck s.throws with
  | none =>
    rw [hroll] at h
    exact .inl h
  | some e =>
    rw [hroll] at h
    exact (hasItem_addItem h).imp_right fun he => ⟨e, rfl, he⟩

theorem hasItem_roll {itemid : Nat} {needsQuest : Bool} :
    HasItem (e.roll db luck rate s).2 itemid needsQuest ↔ HasItem s itemid needsQuest := by
  unfold HasItem
  rw [e.roll_loot s]

theorem hasItem_entries {itemid : Nat} {needsQuest : Bool}
    (h : processEntries db luck reference rate fuel t.entries s = some s')
    (ih : ∀ {t : LootTemplate} {groupId : Nat} {s s' : Filling},
      t.process db luck reference rate fuel groupId s = some s' → HasItem s' itemid needsQuest →
      HasItem s itemid needsQuest ∨
        ∃ e, Adds db luck reference rate t groupId s e ∧ e.itemid = itemid ∧ e.needsQuest = needsQuest)
    (hitem : HasItem s' itemid needsQuest) : HasItem s itemid needsQuest ∨
      ∃ e, Adds db luck reference rate t 0 s e ∧ e.itemid = itemid ∧ e.needsQuest = needsQuest := by
  obtain hitem | ⟨pre, e, post, s₁, s₂, ht, hpre, he, hbefore, hafter⟩ :=
    foldlM_appears (Q := fun s => HasItem s itemid needsQuest) h hitem
  · exact .inl hitem
  refine .inr ?_
  have hbefore' : ¬ HasItem (e.roll db luck rate s₁).2 itemid needsQuest := mt hasItem_roll.mp hbefore
  unfold processEntry at he
  dsimp only at he
  split at he
  · obtain rfl := Option.some_inj.mp he
    exact absurd hafter hbefore'
  next hroll =>
  rw [Bool.not_eq_true, Bool.not_eq_false'] at hroll
  split at he
  · next href =>
    split at he
    · obtain rfl := Option.some_inj.mp he
      exact absurd hafter hbefore'
    next t' ht' =>
    -- One of the repetitions of the reference has brought the item.
    obtain hitem | ⟨before, t'', rest, s₃, s₄, hrep, hrun, hgo, hnot, hin⟩ :=
      foldlM_appears (Q := fun s => HasItem s itemid needsQuest) he hafter
    · exact absurd hitem hbefore'
    obtain ⟨hlen, hcopies, hcopy⟩ := List.replicate_eq_append_iff.mp hrep
    obtain rfl : t'' = t' := List.eq_of_mem_replicate (hcopy ▸ List.mem_cons_self)
    rw [hcopies] at hrun
    obtain hitem | ⟨a, hadds, ha⟩ := ih hgo hin
    · exact absurd hitem hnot
    rw [List.length_cons] at hlen
    exact ⟨a, .reference ht hpre hroll href ht' (by omega) hrun hadds, ha⟩
  · next href =>
    obtain rfl := Option.some_inj.mp he
    obtain hitem | he := hasItem_addItem hafter
    · exact absurd hitem hbefore'
    · exact ⟨e, .entry ht hpre hroll (eq_false_of_ne_true href), he⟩

/-- What is in a loot after `Process` and not before has been added. -/
theorem adds_of_hasItem {itemid : Nat} {needsQuest : Bool}
    (h : t.process db luck reference rate fuel groupId s = some s')
    (hitem : HasItem s' itemid needsQuest) : HasItem s itemid needsQuest ∨
      ∃ e, Adds db luck reference rate t groupId s e ∧ e.itemid = itemid ∧ e.needsQuest = needsQuest := by
  induction fuel generalizing t groupId s s' with
  | zero => cases h
  | succ fuel ih =>
    unfold process at h
    cases groupId with
    | succ n =>
      rw [if_pos (Nat.succ_ne_zero n)] at h
      obtain rfl := Option.some_inj.mp h
      rw [Nat.add_sub_cancel] at hitem
      cases hg : t.groups[n]? with
      | none =>
        rw [hg] at hitem
        exact .inl hitem
      | some g =>
        rw [hg] at hitem
        refine (hasItem_group hitem).imp_right ?_
        rintro ⟨e, hroll, he⟩
        exact ⟨e, .ofGroup hg hroll, he⟩
    | zero =>
      rw [if_neg (not_not.mpr rfl), Option.bind_eq_bind, Option.bind_eq_some_iff] at h
      obtain ⟨s₁, hentries, h⟩ := h
      obtain rfl := Option.some_inj.mp h
      have hgroups : t.groups.foldlM (fun s g => some (g.process db luck s)) s₁ =
          some (t.groups.foldl (fun s g => g.process db luck s) s₁) := List.foldlM_pure
      obtain hitem | ⟨pre, g, post, s₂, s₃, ht, hpre, hg, hbefore, hafter⟩ :=
        foldlM_appears (Q := fun s => HasItem s itemid needsQuest) hgroups hitem
      · exact hasItem_entries hentries ih hitem
      · refine .inr ?_
        obtain rfl := Option.some_inj.mp hg
        obtain hitem | ⟨e, hroll, he⟩ := hasItem_group hafter
        · exact absurd hitem hbefore
        have hpre' : pre.foldlM (fun s g => some (g.process db luck s)) s₁ =
            some (pre.foldl (fun s g => g.process db luck s) s₁) := List.foldlM_pure
        obtain rfl := Option.some_inj.mp (hpre'.symm.trans hpre)
        exact ⟨e, .group hentries ht hroll, he⟩

/-! ## What is in the loot -/

/-- For one template and what is asked of its entries: what can be added is predicted exactly if
references in the store lead to a drop wherever those that can be rolled lead to what is asked. -/
theorem predicted_iff (hreference : reference.Acyclic (·.maxcount != 0))
    (hstore : store.Acyclic fun _ => true) (t : LootTemplate) :
    (∀ luck e, Adds db luck reference rate t 0 {} e → p e = true →
        ∃ fuel, t.anyDrop drop store fuel 0 = some true) ↔
      ∀ luck, MayLead db luck reference rate p t 0 → LeadsToDrop drop store t 0 := by
  constructor
  · intro h luck hlead
    obtain ⟨luck', e, -, hadds, hp⟩ := exists_adds hreference hlead ⟨rfl, rfl, rfl⟩ {}
    obtain ⟨fuel, hfuel⟩ := h luck' e hadds hp
    exact (anyDrop_iff hfuel).mp rfl
  · intro h luck e hadds hp
    obtain ⟨fuel, found, hfuel⟩ := anyDrop_finishes hstore t
    obtain rfl := (anyDrop_iff hfuel).mpr (h luck (leads_of_adds hadds hp))
    exact ⟨fuel, hfuel⟩

end LootTemplate

/-! ## The stores -/

namespace LootStore

def haveQuestLootFor (db : LootDb) (s : LootStore) (fuel lootId : Nat) : Option Bool :=
  match s.getLootFor lootId with
  | none => some false
  | some t => t.hasQuestDrop db s fuel

def haveQuestLootForPlayer (db : LootDb) (s : LootStore) (player : LootQuester) (fuel lootId : Nat) :
    Option Bool :=
  match s.getLootFor lootId with
  | none => some false
  | some t => t.hasQuestDropForPlayer db s player fuel

end LootStore

namespace LootTables

variable (tables : LootTables) (db : LootDb) (name : LootStoreName) (lootId : Nat)

/-- What `Process` can add for a quest is predicted. -/
structure PredictsQuestLoot : Prop where
  quest : ∀ t, (tables name).getLootFor lootId = some t → ∀ luck e,
    t.Adds db luck (tables .reference) name.ratesAllowed 0 {} e → e.needsQuest = true →
    ∃ fuel, (tables name).haveQuestLootFor db fuel lootId = some true
  player : ∀ (player : LootQuester) t, (tables name).getLootFor lootId = some t → ∀ luck e,
    t.Adds db luck (tables .reference) name.ratesAllowed 0 {} e →
    player.hasQuestForItem e.itemid = true →
    ∃ fuel, (tables name).haveQuestLootForPlayer db player fuel lootId = some true

/-- Where references in `reference_loot_template` that can be rolled lead to an entry for a quest,
references in the store itself lead to one. -/
structure LeadsInStore : Prop where
  quest : ∀ t, (tables name).getLootFor lootId = some t → ∀ luck,
    LootTemplate.MayLead db luck (tables .reference) name.ratesAllowed (·.needsQuest) t 0 →
    LootTemplate.LeadsToDrop (fun e => e.needsQuest || db.itemStartsQuest e.itemid) (tables name) t 0
  player : ∀ (player : LootQuester) t, (tables name).getLootFor lootId = some t → ∀ luck,
    LootTemplate.MayLead db luck (tables .reference) name.ratesAllowed
      (fun e => player.hasQuestForItem e.itemid) t 0 →
    LootTemplate.LeadsToDrop (fun e => player.hasQuestForItem e.itemid ||
      player.itemStartsQuestPlayerHasNotDone db e.itemid) (tables name) t 0

variable {tables}

theorem predictsQuestLoot_iff (h : ∀ name, (tables name).Acyclic fun _ => true) :
    tables.PredictsQuestLoot db name lootId ↔ tables.LeadsInStore db name lootId := by
  have hreference := (h .reference).mono (p := (·.maxcount != 0)) fun _ _ => rfl
  have hquest : ∀ {t fuel}, (tables name).getLootFor lootId = some t →
      (tables name).haveQuestLootFor db fuel lootId = t.hasQuestDrop db (tables name) fuel := by
    intro t fuel ht
    rw [LootStore.haveQuestLootFor, ht]
  have hplayer : ∀ {player t fuel}, (tables name).getLootFor lootId = some t →
      (tables name).haveQuestLootForPlayer db player fuel lootId =
        t.hasQuestDropForPlayer db (tables name) player fuel := by
    intro player t fuel ht
    rw [LootStore.haveQuestLootForPlayer, ht]
  constructor
  · intro hp
    refine ⟨fun t ht => ?_, fun player t ht => ?_⟩
    · have hquest' := hp.quest t ht
      simp only [hquest ht] at hquest'
      exact (LootTemplate.predicted_iff hreference (h name) t).mp hquest'
    · have hplayer' := hp.player player t ht
      simp only [hplayer ht] at hplayer'
      exact (LootTemplate.predicted_iff hreference (h name) t).mp hplayer'
  · intro hl
    refine ⟨fun t ht => ?_, fun player t ht => ?_⟩
    · simp only [hquest ht]
      exact (LootTemplate.predicted_iff hreference (h name) t).mpr (hl.quest t ht)
    · simp only [hplayer ht]
      exact (LootTemplate.predicted_iff hreference (h name) t).mpr (hl.player player t ht)

/-- Then a loot with a quest item, or with one that the player has a quest for, has been predicted. -/
theorem PredictsQuestLoot.loot {db : LootDb} {name : LootStoreName} {lootId : Nat}
    (h : tables.PredictsQuestLoot db name lootId) {t : LootTemplate}
    (ht : (tables name).getLootFor lootId = some t) {luck : LootLuck} {fuel : Nat} {s : Filling}
    (hs : t.process db luck (tables .reference) name.ratesAllowed fuel 0 {} = some s) {itemid : Nat}
    {needsQuest : Bool} (hitem : LootTemplate.HasItem s itemid needsQuest) :
    (needsQuest = true → ∃ fuel, (tables name).haveQuestLootFor db fuel lootId = some true) ∧
      ∀ player, player.hasQuestForItem itemid = true →
        ∃ fuel, (tables name).haveQuestLootForPlayer db player fuel lootId = some true := by
  obtain hitem | ⟨e, hadds, rfl, rfl⟩ := LootTemplate.adds_of_hasItem hs hitem
  · obtain ⟨li, hli, -⟩ := hitem
    exact absurd hli List.not_mem_nil
  · exact ⟨h.quest t ht luck e hadds, fun player => h.player player t ht luck e hadds⟩

/-! ## A quest item in a reference -/

/-- A game object has its quest item in a template that it refers to. -/
def questInReference : LootStoreName → List LootRow
  | .gameobject => [{ entry := 1, item := 2, chanceOrQuestChance := 100, mincountOrRef := -2 }]
  | .reference => [{ entry := 2, item := 7, chanceOrQuestChance := -100 }]
  | _ => []

def oneItem : LootDb := { getItemPrototype := fun id => if id = 7 then some {} else none }

theorem questInReference_getLootFor (name : LootStoreName) (id : Nat) :
    (load oneItem questInReference name).getLootFor id =
      if name = .gameobject ∧ id = 1 then some { entries := [⟨2, 100, -2, 0, false, 1, 0⟩] }
      else if name = .reference ∧ id = 2 then some { entries := [⟨7, 100, 1, 0, true, 1, 0⟩] }
      else none := by
  have hgameobject : (load oneItem questInReference .gameobject).templates =
      (∅ : FinMap Nat LootTemplate).insert 1 { entries := [⟨2, 100, -2, 0, false, 1, 0⟩] } := by
    rfl
  have hreference : (load oneItem questInReference .reference).templates =
      (∅ : FinMap Nat LootTemplate).insert 2 { entries := [⟨7, 100, 1, 0, true, 1, 0⟩] } := by
    have hloads : (⟨2, 7, -100, 0, 1, 1, 0⟩ : LootRow).loads oneItem = true := by decide +kernel
    show (LootStore.addRow oneItem {} ⟨2, 7, -100, 0, 1, 1, 0⟩).templates = _
    rw [LootStore.addRow, if_pos hloads]
    rfl
  unfold LootStore.getLootFor
  cases name with
  | gameobject =>
    rw [hgameobject]
    by_cases hid : id = 1
    · rw [hid, AList.lookup_insert]
      rfl
    · rw [AList.lookup_insert_ne hid, if_neg fun h => hid h.2]
      rfl
  | reference =>
    rw [hreference]
    by_cases hid : id = 2
    · rw [hid, AList.lookup_insert]
      rfl
    · rw [AList.lookup_insert_ne hid, if_neg (fun h => by cases h.1), if_neg fun h => hid h.2]
      rfl
  | _ => rfl

/-- No template is referred to in the store that it is in. -/
theorem questInReference_acyclic (name : LootStoreName) :
    (load oneItem questInReference name).Acyclic fun _ => true := by
  have hsource : ∀ {id id'}, (load oneItem questInReference name).RefersTo (fun _ => true) id id' →
      name = .gameobject ∧ id = 1 ∧ id' = 2 := by
    rintro id id' ⟨t, ht, e, he, href, -, -, rfl⟩
    rw [questInReference_getLootFor] at ht
    split_ifs at ht with h₁ h₂
    · obtain rfl := some_inj.mp ht
      obtain rfl := mem_singleton.mp he
      exact ⟨h₁.1, h₁.2, rfl⟩
    · obtain rfl := some_inj.mp ht
      obtain rfl := mem_singleton.mp he
      exact absurd href (by decide)
  intro id h
  obtain ⟨_, hfirst, -⟩ := Relation.TransGen.head'_iff.mp h
  obtain ⟨_, -, hlast⟩ := Relation.TransGen.tail'_iff.mp h
  have hfrom := (hsource hfirst).2.1
  have hto := (hsource hlast).2.2
  omega

/-- The prediction does not hold for the game object. -/
theorem questInReference_predictsQuestLoot_iff :
    (load oneItem questInReference).PredictsQuestLoot oneItem .gameobject 1 ↔
      (load oneItem questInReference).LeadsInStore oneItem .gameobject 1 :=
  predictsQuestLoot_iff oneItem .gameobject 1 questInReference_acyclic

/-- Every loot of the game object has the quest item, and `HaveQuestLootFor` says no. -/
theorem questInReference_not_predicted :
    ¬ ∀ (db : LootDb) (rows : LootStoreName → List LootRow) (name : LootStoreName) (lootId : Nat),
      (∀ name, (load db rows name).Acyclic fun _ => true) →
      ∀ t, (load db rows name).getLootFor lootId = some t → ∀ luck fuel s,
        t.process db luck (load db rows .reference) name.ratesAllowed fuel 0 {} = some s →
        s.loot.questItems ≠ [] →
        ∃ fuel, (load db rows name).haveQuestLootFor db fuel lootId = some true := by
  intro h
  have hloot : (LootTemplate.process oneItem LootTemplate.lowLuck
      (load oneItem questInReference .reference) true 2 { entries := [⟨2, 100, -2, 0, false, 1, 0⟩] }
      0 {}).any (fun s => s.loot.questItems ≠ []) = true := by
    decide +kernel
  obtain ⟨s, hs, hquest⟩ := (Option.any_eq_true _ _).mp hloot
  obtain ⟨fuel, hfuel⟩ := h oneItem questInReference .gameobject 1 questInReference_acyclic _
    (questInReference_getLootFor .gameobject 1) _ _ s hs (of_decide_eq_true hquest)
  rw [LootStore.haveQuestLootFor, questInReference_getLootFor] at hfuel
  -- The reference is looked up among the game objects, where there is nothing.
  have hlead := (LootTemplate.anyDrop_iff hfuel).mp rfl
  cases hlead with
  | entry he href _ =>
    obtain rfl := mem_singleton.mp he
    exact absurd href (by decide)
  | group hg _ => exact absurd hg not_mem_nil
  | reference he _ _ ht' _ =>
    obtain rfl := mem_singleton.mp he
    rw [questInReference_getLootFor, if_neg (by decide), if_neg (by decide)] at ht'
    cases ht'

end LootTables

end Windrunner
