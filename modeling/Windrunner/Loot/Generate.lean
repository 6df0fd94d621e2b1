import Windrunner.Lib.Walk
import Windrunner.Loot.Template

/-!
# Loot generation comes to an end

Nothing in `LootTemplate.process` or `LootTemplate.anyDrop` decreases, and the loader takes
references as they are: it is the references that decide. Both are recursions through references
(`Lib.Walk`), and `finish_iff` says that they finish for every template exactly if no store has
templates that refer to each other in a circle. A reference to a group does not go on.
-/

namespace Windrunner

open Lib List Option

variable {db : LootDb} {luck : LootLuck} {reference store : LootStore} {rate : Bool}
  {drop : LootStoreEntry → Bool} {p : LootStoreEntry → Bool} {id id' : Nat} {t t' : LootTemplate}

/-- A template refers to another one as a whole, in an entry that passes `p`. -/
def LootStore.RefersTo (s : LootStore) (p : LootStoreEntry → Bool) (id id' : Nat) : Prop :=
  ∃ t, s.getLootFor id = some t ∧
    ∃ e ∈ t.entries, e.isRef = true ∧ e.group = 0 ∧ p e = true ∧ e.ref = id'

/-- No template comes back to itself. -/
def LootStore.Acyclic (s : LootStore) (p : LootStoreEntry → Bool) : Prop :=
  ∀ id, ¬ Relation.TransGen (s.RefersTo p) id id

/-- The loot has no more than its limits. -/
structure Loot.Fits (l : Loot) : Prop where
  items : l.items.length ≤ maxNrLootItems
  questItems : l.questItems.length ≤ maxNrQuestItems

namespace LootTables

/-- `Process` finishes, whatever the dice throw, with a loot within its limits. -/
def ProcessFinishes (tables : LootTables) (db : LootDb) : Prop :=
  ∀ name id t, (tables name).getLootFor id = some t →
    ∀ (luck : LootLuck) (s : Filling), s.loot.Fits → ∃ fuel s',
      t.process db luck (tables .reference) name.ratesAllowed fuel 0 s = some s' ∧ s'.loot.Fits

/-- So do the questions for quest drops. -/
structure Finish (tables : LootTables) (db : LootDb) : Prop where
  process : tables.ProcessFinishes db
  hasQuestDrop : ∀ name id t, (tables name).getLootFor id = some t →
    ∃ fuel found, t.hasQuestDrop db (tables name) fuel = some found
  hasQuestDropForPlayer : ∀ name id t, (tables name).getLootFor id = some t →
    ∀ player, ∃ fuel found, t.hasQuestDropForPlayer db (tables name) player fuel = some found

end LootTables

/-! ## The recursions as walks -/

namespace LootTemplate

/-- The template that a reference goes on with, `n` times. -/
def referenced (store : LootStore) (e : LootStoreEntry) (n : Nat) : List (LootTemplate × Nat) :=
  (store.getLootFor e.ref).elim [] fun t => replicate n (t, e.group)

def processWalk (db : LootDb) (luck : LootLuck) (reference : LootStore) (rate : Bool) :
    Walk (LootTemplate × Nat) LootStoreEntry Filling where
  jobs a := if a.2 ≠ 0 then [] else a.1.entries
  act e s :=
    let rolled := e.roll db luck rate s
    if !rolled.1 then (rolled.2, [])
    else if e.isRef then (rolled.2, referenced reference e e.maxcount.toNat)
    else (rolled.2.addItem db luck e, [])
  finish a s :=
    if a.2 ≠ 0 then (a.1.groups[a.2 - 1]?).elim s fun g => g.process db luck s
    else a.1.groups.foldl (fun s g => g.process db luck s) s

theorem processEntry_eq (go : LootTemplate × Nat → Filling → Option Filling) :
    processEntry db luck reference rate (fun t groupId => go (t, groupId)) =
      (processWalk db luck reference rate).visit go := by
  funext s e
  unfold processEntry Walk.visit processWalk referenced
  dsimp only
  split_ifs
  · rfl
  · cases reference.getLootFor e.ref with
    | none => rfl
    | some t =>
      show foldlM _ _ _ = foldlM _ _ (replicate _ (t, e.group))
      rw [← map_replicate (f := fun t => (t, e.group)), foldlM_map]
  · rfl

theorem process_eq (fuel : Nat) (t : LootTemplate) (groupId : Nat) (s : Filling) :
    t.process db luck reference rate fuel groupId s =
      (processWalk db luck reference rate).run fuel (t, groupId) s := by
  induction fuel generalizing t groupId s with
  | zero => rfl
  | succ fuel ih =>
    rw [LootTemplate.process, Walk.run]
    by_cases hg : groupId = 0
    · have hgo : process db luck reference rate fuel = fun t groupId =>
          (processWalk db luck reference rate).run fuel (t, groupId) :=
        funext fun t => funext fun groupId => funext fun s => ih t groupId s
      rw [if_neg (not_not.mpr hg), hgo, processEntry_eq, hg]
      exact map_eq_bind.symm
    · simp [processWalk, hg]

/-- The state is whether a drop has been found. -/
def anyDropWalk (drop : LootStoreEntry → Bool) (store : LootStore) :
    Walk (LootTemplate × Nat) LootStoreEntry Bool where
  jobs a := if a.2 ≠ 0 then [] else a.1.entries
  act e found :=
    if found then (true, [])
    else if e.isRef then (false, referenced store e 1)
    else (drop e, [])
  finish a found :=
    if a.2 ≠ 0 then (a.1.groups[a.2 - 1]?).any (·.anyDrop drop)
    else found || a.1.groups.any (·.anyDrop drop)

theorem anyM_eq_foldlM {β : Type} (f : β → Option Bool) (l : List β) :
    l.anyM f = l.foldlM (fun found b => if found then some true else f b) false := by
  have hfound : ∀ l : List β,
      l.foldlM (fun found b => if found then some true else f b) true = some true := by
    intro l
    induction l with
    | nil => rfl
    | cons b l ih => exact ih
  induction l with
  | nil => rfl
  | cons b l ih =>
    rw [anyM, foldlM_cons]
    refine congrArg (bind (f b)) (funext fun found => ?_)
    cases found with
    | true => exact (hfound l).symm
    | false => exact ih

theorem anyDropEntry_eq (go : LootTemplate × Nat → Bool → Option Bool) :
    (fun found e => if found then some true
      else anyDropEntry drop store (fun t groupId => go (t, groupId) false) e) =
      (anyDropWalk drop store).visit go := by
  funext found e
  unfold anyDropEntry Walk.visit anyDropWalk referenced
  dsimp only
  split_ifs
  · rfl
  · cases store.getLootFor e.ref with
    | none => rfl
    | some t => simp
  · rfl

theorem anyDrop_eq (fuel : Nat) (t : LootTemplate) (groupId : Nat) :
    t.anyDrop drop store fuel groupId = (anyDropWalk drop store).run fuel (t, groupId) false := by
  induction fuel generalizing t groupId with
  | zero => rfl
  | succ fuel ih =>
    rw [LootTemplate.anyDrop, Walk.run]
    by_cases hg : groupId = 0
    · have hgo : anyDrop drop store fuel = fun t groupId =>
          (anyDropWalk drop store).run fuel (t, groupId) false :=
        funext fun t => funext fun groupId => ih t groupId
      rw [if_neg (not_not.mpr hg), hgo, anyM_eq_foldlM, hg]
      rw [anyDropEntry_eq]
      exact map_eq_bind.symm
    · simp [anyDropWalk, hg]

end LootTemplate

/-! ## Chains of references -/

namespace LootStore

theorem acc_iff (s : LootStore) (p : LootStoreEntry → Bool) :
    (∀ id, Acc (fun id' id => s.RefersTo p id id') id) ↔ s.Acyclic p := by
  have hkeys : ∀ id' id, s.RefersTo p id id' → id ∈ s.templates.keys := by
    rintro id' id ⟨t, ht, -⟩
    exact AList.mem_keys.mp (AList.lookup_isSome.mp (isSome_iff_exists.mpr ⟨t, ht⟩))
  rw [acc_iff_acyclic s.templates.keys hkeys]
  refine forall_congr' fun id => not_congr ?_
  exact Relation.transGen_swap

theorem Acyclic.mono {s : LootStore} {q : LootStoreEntry → Bool} (h : s.Acyclic q)
    (hpq : ∀ e, p e = true → q e = true) : s.Acyclic p := by
  intro id hid
  have hle : s.RefersTo p ≤ s.RefersTo q := by
    rintro id id' ⟨t, ht, e, he, href, hg, hp, rfl⟩
    exact ⟨t, ht, e, he, href, hg, hpq e hp, rfl⟩
  exact h id (Relation.TransGen.mono hle id id hid)

end LootStore

namespace LootTemplate

section Chains

variable {σ : Type} {W : Walk (LootTemplate × Nat) LootStoreEntry σ}

/-- The walk visits templates for their references in `store` that pass `p`, and for nothing
else. -/
def Follows (W : Walk (LootTemplate × Nat) LootStoreEntry σ) (store : LootStore)
    (p : LootStoreEntry → Bool) : Prop :=
  ∀ a' a, W.Visits a' a → a.2 = 0 ∧ ∃ e ∈ a.1.entries, e.isRef = true ∧ p e = true ∧
    store.getLootFor e.ref = some a'.1 ∧ a'.2 = e.group

/-- Without circles, no chain of visits goes on for ever. -/
theorem Follows.acc (hW : Follows W store p) (h : store.Acyclic p) (t : LootTemplate)
    (groupId : Nat) : Acc W.Visits (t, groupId) := by
  have hgroup : ∀ t groupId, groupId ≠ 0 → Acc W.Visits (t, groupId) := fun t groupId hg =>
    Acc.intro _ fun a' ha' => absurd (hW a' _ ha').1 hg
  have hid : ∀ id t, store.getLootFor id = some t → Acc W.Visits (t, 0) := by
    intro id
    induction (store.acc_iff p).mpr h id with
    | intro id _ ih =>
      intro t ht
      refine Acc.intro _ fun a' ha' => ?_
      obtain ⟨-, e, he, href, hp, ht', hg⟩ := hW a' _ ha'
      rcases a' with ⟨t', groupId⟩
      by_cases h0 : groupId = 0
      · rw [h0] at hg ⊢
        exact ih e.ref ⟨t, ht, e, he, href, hg.symm, hp, rfl⟩ t' ht'
      · exact hgroup t' groupId h0
  by_cases h0 : groupId = 0
  · refine Acc.intro _ fun a' ha' => ?_
    obtain ⟨-, e, -, -, -, ht', -⟩ := hW a' _ ha'
    rcases a' with ⟨t', groupId'⟩
    by_cases h0' : groupId' = 0
    · rw [h0']
      exact hid e.ref t' ht'
    · exact hgroup t' groupId' h0'
  · exact hgroup t groupId h0

/-- Visits that are made in any case and have an end leave no circles. -/
theorem acyclic_of_acc {M : LootTemplate × Nat → LootTemplate × Nat → Prop}
    (hM : ∀ id t, store.getLootFor id = some t → ∀ e ∈ t.entries, e.isRef = true → e.group = 0 →
      p e = true → ∀ t', store.getLootFor e.ref = some t' → M (t', 0) (t, 0))
    (h : ∀ id t, store.getLootFor id = some t → Acc M (t, 0)) : store.Acyclic p := by
  have hid : ∀ (a : LootTemplate × Nat), Acc M a → ∀ id t, store.getLootFor id = some t →
      a = (t, 0) → Acc (fun id' id => store.RefersTo p id id') id := by
    intro a ha
    induction ha with
    | intro a _ ih =>
      rintro id t ht rfl
      refine Acc.intro id fun id' ⟨t₁, ht₁, e, he, href, hg, hp, hid'⟩ => ?_
      obtain rfl : t = t₁ := some_inj.mp (ht.symm.trans ht₁)
      cases ht' : store.getLootFor id' with
      | none =>
        refine Acc.intro id' fun _ ⟨t', ht'', _⟩ => ?_
        exact absurd (ht'.symm.trans ht'') (some_ne_none t').symm
      | some t' => exact ih (t', 0) (hM id t ht e he href hg hp t' (hid' ▸ ht')) id' t' ht' rfl
  rw [← LootStore.acc_iff]
  intro id
  cases ht : store.getLootFor id with
  | none =>
    refine Acc.intro id fun _ ⟨t, ht', _⟩ => ?_
    exact absurd (ht.symm.trans ht') (some_ne_none t).symm
  | some t => exact hid (t, 0) (h id t ht) id t ht rfl

theorem mem_referenced {e : LootStoreEntry} {n : Nat} {a : LootTemplate × Nat} :
    a ∈ referenced store e n ↔ n ≠ 0 ∧ store.getLootFor e.ref = some a.1 ∧ a.2 = e.group := by
  rcases a with ⟨t, groupId⟩
  unfold referenced
  cases ht : store.getLootFor e.ref with
  | none => simp
  | some t' =>
    rw [elim_some, mem_replicate, Prod.mk.injEq, some_inj]
    exact and_congr_right fun _ => and_congr_left fun _ => eq_comm

end Chains

variable (db luck rate reference) in
theorem follows_processWalk :
    Follows (processWalk db luck reference rate) reference (·.maxcount != 0) := by
  rintro a' ⟨t, groupId⟩ ⟨e, he, s, ha'⟩
  have h0 : groupId = 0 := by
    by_contra h0
    simp [processWalk, h0] at he
  subst h0
  unfold processWalk at ha'
  dsimp only at ha'
  split at ha'
  · exact absurd ha' not_mem_nil
  split at ha'
  · rename_i href
    obtain ⟨hn, ht, hg⟩ := mem_referenced.mp ha'
    refine ⟨rfl, e, he, href, ?_, ht, hg⟩
    rw [bne_iff_ne]
    intro hmax
    rw [hmax] at hn
    exact hn rfl
  · exact absurd ha' not_mem_nil

variable (drop store) in
theorem follows_anyDropWalk : Follows (anyDropWalk drop store) store fun _ => true := by
  rintro a' ⟨t, groupId⟩ ⟨e, he, s, ha'⟩
  have h0 : groupId = 0 := by
    by_contra h0
    simp [anyDropWalk, h0] at he
  subst h0
  unfold anyDropWalk at ha'
  dsimp only at ha'
  split at ha'
  · exact absurd ha' not_mem_nil
  split at ha'
  · rename_i href
    obtain ⟨-, ht, hg⟩ := mem_referenced.mp ha'
    exact ⟨rfl, e, he, href, rfl, ht, hg⟩
  · exact absurd ha' not_mem_nil

end LootTemplate

/-! ## The limits -/

theorem Loot.Fits.addItem {l : Loot} (h : l.Fits) (li : LootStoreItem) : (l.addItem li).Fits := by
  unfold Loot.addItem
  split
  · split
    · rename_i hroom
      refine ⟨h.items, ?_⟩
      rw [length_append, length_singleton]
      exact hroom
    · exact h
  · split
    · rename_i hroom
      refine ⟨?_, h.questItems⟩
      rw [length_append, length_singleton]
      exact hroom
    · exact h

theorem LootGroup.process_fits (g : LootGroup) {s : Filling} (h : s.loot.Fits) :
    (g.process db luck s).loot.Fits := by
  unfold LootGroup.process
  cases g.roll luck s.throws with
  | none => exact h
  | some e => exact h.addItem _

theorem LootStoreEntry.roll_loot (e : LootStoreEntry) (s : Filling) :
    (e.roll db luck rate s).2.loot = s.loot := by
  unfold LootStoreEntry.roll Filling.rollChance
  split_ifs <;> rfl

namespace LootTemplate

theorem keeps_fits : (processWalk db luck reference rate).Keeps fun s => s.loot.Fits where
  act e s h := by
    have hroll : (e.roll db luck rate s).2.loot.Fits := e.roll_loot s ▸ h
    unfold processWalk
    dsimp only
    split_ifs
    · exact hroll
    · exact hroll
    · exact hroll.addItem _
  finish a s h := by
    unfold processWalk
    dsimp only
    split_ifs
    · cases a.1.groups[a.2 - 1]? with
      | none => exact h
      | some g => exact g.process_fits h
    · exact foldlRecOn (motive := fun s : Filling => s.loot.Fits) a.1.groups _ h
        fun s hs g _ => g.process_fits hs

/-- Without circles among the references that are rolled, `Process` finishes. -/
theorem process_finishes (h : reference.Acyclic (·.maxcount != 0)) (t : LootTemplate) {s : Filling}
    (hs : s.loot.Fits) : ∃ fuel s', t.process db luck reference rate fuel 0 s = some s' ∧
      s'.loot.Fits := by
  obtain ⟨fuel, hfuel⟩ := Walk.run_of_acc
    ((follows_processWalk db luck reference rate).acc h t 0) s
  obtain ⟨s', hs'⟩ := isSome_iff_exists.mp hfuel
  exact ⟨fuel, s', (process_eq fuel t 0 s).trans hs', keeps_fits.run hs hs'⟩

theorem anyDrop_finishes (h : store.Acyclic fun _ => true) (t : LootTemplate) :
    ∃ fuel found, t.anyDrop drop store fuel 0 = some found := by
  obtain ⟨fuel, hfuel⟩ := Walk.run_of_acc
    ((follows_anyDropWalk store drop).acc h t 0) false
  obtain ⟨found, hfound⟩ := isSome_iff_exists.mp hfuel
  exact ⟨fuel, found, (anyDrop_eq fuel t 0).trans hfound⟩

/-- When no entry passes, every reference is followed. -/
theorem acyclic_of_anyDrop (h : ∀ id t, store.getLootFor id = some t →
    ∃ fuel, (t.anyDrop (fun _ => false) store fuel 0).isSome) : store.Acyclic fun _ => true := by
  have hkeeps : (anyDropWalk (fun _ => false) store).Keeps (· = false) :=
    { act := by
        rintro e s rfl
        cases href : e.isRef <;> simp [anyDropWalk, href]
      finish := by
        rintro ⟨t, groupId⟩ s rfl
        have hnone : ∀ g : LootGroup, g.anyDrop (fun _ => false) = false := fun g => by
          simp [LootGroup.anyDrop]
        unfold anyDropWalk
        simp [hnone] }
  refine acyclic_of_acc (M := (anyDropWalk (fun _ => false) store).MustVisit (· = false))
    (fun id t ht e he href hg _ t' ht' => ⟨e, he, ?_⟩) fun id t ht => ?_
  · rintro s rfl
    unfold anyDropWalk
    dsimp only
    rw [if_neg Bool.false_ne_true, if_pos href]
    exact mem_referenced.mpr ⟨Nat.one_ne_zero, ht', hg.symm⟩
  · obtain ⟨fuel, hfuel⟩ := h id t ht
    rw [anyDrop_eq] at hfuel
    exact Walk.acc_of_run hkeeps rfl hfuel

/-- Dice that always throw the lowest number. -/
def lowLuck : LootLuck where
  chance _ := 0
  chance_mem _ := by decide
  pick _ := 0
  conditionMeets _ := true
  crossFaction := false
  gatheringChanceMod _ := 0

variable (db) in
/-- When every reference has a chance, the lowest throws follow every reference. -/
theorem acyclic_of_process
    (hchance : ∀ id t, store.getLootFor id = some t → ∀ e ∈ t.entries, e.isRef = true → 0 < e.chance)
    (h : ∀ id t, store.getLootFor id = some t →
      ∃ fuel, (t.process db lowLuck store false fuel 0 {}).isSome) :
    store.Acyclic (·.maxcount != 0) := by
  have hkeeps : (processWalk db lowLuck store false).Keeps fun _ => True :=
    ⟨fun _ _ _ => trivial, fun _ _ _ => trivial⟩
  refine acyclic_of_acc (M := (processWalk db lowLuck store false).MustVisit fun _ => True)
    (fun id t ht e he href hg hmax t' ht' => ⟨e, he, fun s _ => ?_⟩) fun id t ht => ?_
  · have hroll : (e.roll db lowLuck false s).1 = true := by
      have hpos := hchance id t ht e he href
      by_cases h100 : e.chance ≥ 100
      · rw [LootStoreEntry.roll, if_pos h100]
      · rw [LootStoreEntry.roll, if_neg h100, if_pos href]
        simpa [Filling.rollChance, lowLuck] using hpos
    have hn : e.maxcount.toNat ≠ 0 := by
      rw [bne_iff_ne] at hmax
      exact fun hzero => hmax (UInt8.toNat_inj.mp hzero)
    unfold processWalk
    dsimp only
    rw [hroll, if_neg (by simp), if_pos href]
    exact mem_referenced.mpr ⟨hn, ht', hg.symm⟩
  · obtain ⟨fuel, hfuel⟩ := h id t ht
    rw [process_eq] at hfuel
    exact Walk.acc_of_run hkeeps trivial hfuel

end LootTemplate

/-! ## What the loader takes -/

namespace LootStore

/-- Every reference of the store has a chance. -/
def Chanced (s : LootStore) : Prop :=
  ∀ id t, s.getLootFor id = some t → ∀ e ∈ t.entries, e.isRef = true → 0 < e.chance

theorem storeEntry_chance {r : LootRow} (h : r.loads db = true)
    (href : r.storeEntry.isRef = true) : 0 < r.storeEntry.chance := by
  have hvalid : r.storeEntry.isValid db = true := by
    unfold LootRow.loads at h
    split_ifs at h
    exact h
  have hneg : r.storeEntry.mincountOrRef < 0 := by simpa [LootStoreEntry.isRef] using href
  have hnz : r.storeEntry.mincountOrRef ≠ 0 := fun he => absurd (he ▸ hneg) (by decide)
  have hnp : ¬ r.storeEntry.mincountOrRef > 0 := fun hp =>
    Int32.lt_irrefl (Int32.lt_trans hneg hp)
  unfold LootStoreEntry.isValid at hvalid
  rw [if_neg hnz, if_neg hnp] at hvalid
  have hchance : r.chanceOrQuestChance ≠ 0 := by
    intro hzero
    simp [LootRow.storeEntry, hzero] at hvalid
  exact abs_pos.mpr hchance

/-- What an added entry leaves of the entries of a template. -/
theorem mem_addEntry {t : LootTemplate} {e e' : LootStoreEntry}
    (h : e' ∈ (t.addEntry e).entries) : e' ∈ t.entries ∨ e' = e := by
  unfold LootTemplate.addEntry at h
  split_ifs at h
  · exact .inl h
  · simpa using h

theorem Chanced.addRow {s : LootStore} (h : s.Chanced) (r : LootRow) : (s.addRow db r).Chanced := by
  unfold LootStore.addRow
  split_ifs with hr
  · intro id t ht e he href
    by_cases hid : id = r.entry
    · subst hid
      obtain rfl : _ = t := some_inj.mp ((AList.lookup_insert _).symm.trans ht)
      obtain he | rfl := mem_addEntry he
      · cases hold : s.getLootFor r.entry with
        | none =>
          rw [hold] at he
          exact absurd he not_mem_nil
        | some t =>
          rw [hold] at he
          exact h r.entry t hold e he href
      · exact storeEntry_chance hr href
    · exact h id t ((AList.lookup_insert_ne hid).symm.trans ht) e he href
  · exact h

theorem loadLootTable_chanced (rows : List LootRow) : (loadLootTable db rows).Chanced :=
  foldlRecOn (motive := Chanced) rows _
    (fun _ t ht => absurd (ht : none = some t) (some_ne_none t).symm)
    fun _ hs r _ => hs.addRow r

end LootStore

/-! ## Circles -/

namespace LootTables

variable (db) (rows : LootStoreName → List LootRow)

/-- `Process` finishes for every template exactly if the references that are rolled have no
circle. -/
theorem processFinishes_iff : (load db rows).ProcessFinishes db ↔
    (load db rows .reference).Acyclic (·.maxcount != 0) := by
  constructor
  · intro h
    refine LootTemplate.acyclic_of_process db (LootStore.loadLootTable_chanced _) ?_
    intro id t ht
    obtain ⟨fuel, s', hs', -⟩ := h .reference id t ht LootTemplate.lowLuck {}
      ⟨Nat.zero_le _, Nat.zero_le _⟩
    exact ⟨fuel, hs' ▸ rfl⟩
  · exact fun h name id t ht luck s hs => LootTemplate.process_finishes h t hs

/-- Loot generation finishes for every template exactly if no store has a circle of references. -/
theorem finish_iff : (load db rows).Finish db ↔
    ∀ name, (load db rows name).Acyclic fun _ => true := by
  constructor
  · intro h name
    refine LootTemplate.acyclic_of_anyDrop fun id t ht => ?_
    obtain ⟨fuel, found, hfound⟩ := h.hasQuestDropForPlayer name id t ht
      { hasQuestForItem := fun _ => false, questRewardStatus := fun _ => true }
    have hdrop : (fun e : LootStoreEntry => (false || LootQuester.itemStartsQuestPlayerHasNotDone
        { hasQuestForItem := fun _ => false, questRewardStatus := fun _ => true } db e.itemid)) =
        fun _ => false := by
      funext e
      simp [LootQuester.itemStartsQuestPlayerHasNotDone]
    refine ⟨fuel, ?_⟩
    rw [← hdrop]
    exact isSome_iff_exists.mpr ⟨found, hfound⟩
  · intro h
    exact
      { process := fun name id t ht luck s hs =>
          LootTemplate.process_finishes ((h .reference).mono fun _ _ => rfl) t hs
        hasQuestDrop := fun name id t ht => LootTemplate.anyDrop_finishes (h name) t
        hasQuestDropForPlayer := fun name id t ht player =>
          LootTemplate.anyDrop_finishes (h name) t }

/-- A reference template with a sure reference to itself, which no check reports. -/
def selfReference : LootStoreName → List LootRow
  | .reference => [{ entry := 1, item := 0, chanceOrQuestChance := 100, mincountOrRef := -1 }]
  | _ => []

theorem selfReference_not_finish :
    ¬ ∀ (db : LootDb) (rows : LootStoreName → List LootRow),
      (∀ name id t, (load db rows name).getLootFor id = some t →
        (load db rows).checkLootRefs t = []) → (load db rows).Finish db := by
  intro h
  let db : LootDb := { getItemPrototype := fun _ => none }
  let e : LootStoreEntry := ⟨0, 100, -1, 0, false, 1, 0⟩
  have hload : ∀ name id, (load db selfReference name).getLootFor id =
      if name = .reference ∧ id = 1 then some { entries := [e] } else none := by
    intro name id
    have hrow : (load db selfReference .reference).templates =
        (∅ : FinMap Nat LootTemplate).insert 1 { entries := [e] } := by
      rfl
    cases name with
    | reference =>
      show (load db selfReference .reference).templates.lookup id = _
      rw [hrow]
      by_cases hid : id = 1
      · rw [hid, AList.lookup_insert]
        rfl
      · rw [AList.lookup_insert_ne hid, if_neg fun h => hid h.2]
        rfl
    | _ => rfl
  have hfinish := h db selfReference ?_
  · have hcircle := (processFinishes_iff db selfReference).mp hfinish.process 1
    refine hcircle (.single ⟨{ entries := [e] }, (hload .reference 1).trans (if_pos ⟨rfl, rfl⟩), e,
      mem_singleton_self e, ?_⟩)
    decide
  · intro name id t ht
    rw [hload] at ht
    split_ifs at ht
    obtain rfl : _ = t := some_inj.mp ht
    have hthere : ((load db selfReference .reference).getLootFor e.ref).isNone = false := by
      rw [hload]
      rfl
    have hrefs : (load db selfReference).checkLootRefs { entries := [e] } =
        [e.ref].filter fun id => ((load db selfReference .reference).getLootFor id).isNone := rfl
    rw [hrefs, filter_cons_of_neg (by rw [hthere]; exact Bool.false_ne_true)]
    rfl

end LootTables

end Windrunner
