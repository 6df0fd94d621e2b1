import Windrunner.Reputation.Faction
import Mathlib.Data.List.Nodup

/-!
# A player's reputation over runs

Every faction that has reputation has its place in the list, and what is kept of it is kept by place.

* `Place`: an entry and its place. `initFactions_find`, `loadFromDB_find`, `saveToDB_rows` say what
  the loops over factions and rows leave at each.
* `Kept`: the invariant; `kept_step`.
* `locked_step_iff`, `restored_iff`: when a faction stays at war, and when a load gives back what was
  saved.
-/

namespace Windrunner

open Lib SortedMap Option
open FactionFlags (Derived)
open FactionState (Writes Holds)

/-! ## Places -/

namespace FactionStore

variable {s : FactionStore} {a b id : Nat} {e e' : FactionEntry}

/-- The entry that a place of the reputation list belongs to. -/
def Place (s : FactionStore) (a : Nat) (e : FactionEntry) : Prop :=
  e ∈ s.entries ∧ e.canHaveReputation = true ∧ e.repListId = a

theorem repListId_inj (h : e.repListId = e'.repListId) : e.reputationListId = e'.reputationListId :=
  Int32.toBitVec_inj.mp (congrArg UInt32.toBitVec (UInt32.toNat_inj.mp h))

/-- An entry with the number of a place has the place. -/
theorem Place.eq (h : s.Place a e) (he : e' ∈ s.entries) (ha : e'.repListId = a) : e' = e :=
  (s.places e h.1 e' he h.2.1 (repListId_inj (h.2.2.trans ha.symm))).symm

theorem eq_of_id (he : e ∈ s.entries) (he' : e' ∈ s.entries) (h : e.id = e'.id) : e = e' :=
  List.inj_on_of_nodup_map s.ids he he' h

theorem getFactionEntry_eq_some : s.getFactionEntry id = some e ↔ e ∈ s.entries ∧ e.id = id := by
  unfold getFactionEntry
  constructor
  · intro h
    exact ⟨List.mem_of_find?_eq_some h, by simpa using List.find?_some h⟩
  · rintro ⟨he, rfl⟩
    cases hf : s.entries.find? (·.id = e.id) with
    | none => exact absurd (by simp) (List.find?_eq_none.mp hf e he)
    | some e' =>
      rw [eq_of_id (List.mem_of_find?_eq_some hf) he (by simpa using List.find?_some hf)]

end FactionStore

open FactionStore (Place)

namespace ReputationMgr

variable {s : FactionStore} {m : ReputationMgr} {a b : Nat} {e : FactionEntry} {st : FactionState}

/-! ## Loops over factions and rows -/

/-- Every place of the list has its faction's defaults. -/
theorem initFactions_find (a : Nat) :
    (∀ e, s.Place a e → (initFactions s).find a =
      some { id := e.id, flags := s.getDefaultStateFlags e }) ∧
    ((∀ e, ¬ s.Place a e) → (initFactions s).find a = none) := by
  have hfold := find_foldl (f := fun m (e : FactionEntry) => insert m e.repListId
      ({ id := e.id, flags := s.getDefaultStateFlags e } : FactionState))
    (k := fun e => some e.repListId)
    (g := fun e _ => some { id := e.id, flags := s.getDefaultStateFlags e })
    (fun m e c => by rw [find_insert]; grind)
    (l := s.entries.filter (·.canHaveReputation)) ?_ ∅ a
  · refine ⟨fun e he => ?_, fun hne => ?_⟩
    · exact hfold.1 e (List.mem_filter.mpr ⟨he.1, he.2.1⟩) (by rw [he.2.2])
    · refine hfold.2 fun e he hk => ?_
      obtain ⟨he, hc⟩ := List.mem_filter.mp he
      exact hne e ⟨he, hc, some.inj hk⟩
  · have hnodup : (s.entries.filter (·.canHaveReputation)).Nodup :=
      (List.Nodup.of_map _ s.ids).filter _
    refine hnodup.imp_of_mem fun {x y} hx hy hne c hxc hyc => hne ?_
    obtain ⟨hx, hcx⟩ := List.mem_filter.mp hx
    exact ((show s.Place c x from ⟨hx, hcx, some.inj hxc⟩).eq (List.mem_filter.mp hy).1
      (some.inj hyc)).symm

/-- The place that a row is loaded to. -/
def placeOf (s : FactionStore) (id : Nat) : Option Nat :=
  ((s.getFactionEntry id).filter (·.canHaveReputation)).map (·.repListId)

/-- A row is loaded to the place of its faction. -/
theorem placeOf_eq_some {id : Nat} : placeOf s id = some a ↔ ∃ e, s.Place a e ∧ e.id = id := by
  unfold placeOf
  rw [map_eq_some_iff]
  constructor
  · rintro ⟨e, he, rfl⟩
    obtain ⟨he, hc⟩ := filter_eq_some_iff.mp he
    obtain ⟨hm, hid⟩ := FactionStore.getFactionEntry_eq_some.mp he
    exact ⟨e, ⟨hm, hc, rfl⟩, hid⟩
  · rintro ⟨e, he, hid⟩
    exact ⟨e, filter_eq_some_iff.mpr
      ⟨FactionStore.getFactionEntry_eq_some.mpr ⟨he.1, hid⟩, he.2.1⟩, he.2.2⟩

/-- What a row makes of the faction of its place. -/
def loaded (s : FactionStore) (forced : Nat → Option ReputationRank) (id : Nat)
    (r : Int32 × FactionFlags) (st : FactionState) : FactionState :=
  st.load ((s.getFactionEntry id).elim 0 s.getBaseReputation) (forced id) r.1 r.2

/-- A row is loaded to its own place only. -/
theorem loadRow_find {forced : Nat → Option ReputationRank} (f : SortedMap Nat FactionState)
    (id : Nat) (r : Int32 × FactionFlags) (c : Nat) :
    (loadRow s forced f id r.1 r.2).find c =
      if placeOf s id = some c then (f.find c).map (loaded s forced id r) else f.find c := by
  unfold loadRow placeOf loaded
  cases he : s.getFactionEntry id with
  | none => simp
  | some e =>
    by_cases hc : e.canHaveReputation = true
    · dsimp only
      rw [if_pos hc, find_modify, filter_some, if_pos hc]
      by_cases h : c = e.repListId
      · subst h
        simp
      · simp [h, Ne.symm h]
    · simp [hc]

/-- No two rows are of one place, so each faction is loaded from its row. -/
theorem loadFromDB_find (m : ReputationMgr) (a : Nat) :
    (∀ e r, s.Place a e → m.rows.find e.id = some r → (m.loadFromDB s).factions.find a =
      some (loaded s m.forcedReactions e.id r
        { id := e.id, flags := s.getDefaultStateFlags e })) ∧
    ((∀ e, ¬ s.Place a e) → (m.loadFromDB s).factions.find a = none) := by
  have hfold := find_foldl
    (f := fun f (x : Nat × Int32 × FactionFlags) => loadRow s m.forcedReactions f x.1 x.2.1 x.2.2)
    (k := fun x => placeOf s x.1)
    (g := fun x o => o.map (loaded s m.forcedReactions x.1 x.2))
    (fun f x c => loadRow_find f x.1 x.2 c) (l := m.rows.entries) ?_ (initFactions s) a
  · refine ⟨fun e r he hr => ?_, fun hne => ?_⟩
    · refine (hfold.1 (e.id, r) (mem_entries_iff.mpr hr)
        (placeOf_eq_some.mpr ⟨e, he, rfl⟩)).trans ?_
      rw [(initFactions_find a).1 e he]
      rfl
    · refine (hfold.2 fun x _ hx => ?_).trans ((initFactions_find a).2 hne)
      obtain ⟨e, he, -⟩ := placeOf_eq_some.mp hx
      exact hne e he
  · refine m.rows.keys_pairwise.imp fun {x y} hne c hx hy => hne ?_
    obtain ⟨e, he, hx⟩ := placeOf_eq_some.mp hx
    obtain ⟨e', he', hy⟩ := placeOf_eq_some.mp hy
    rw [← hx, ← hy, he.eq he'.1 he'.2.2]

/-! ## The invariant -/

/-- What is kept of a faction with a place. -/
structure FactionKept (s : FactionStore) (m : ReputationMgr) (a : Nat) (e : FactionEntry)
    (st : FactionState) : Prop where
  id : st.id = e.id
  derived : Derived (s.getDefaultStateFlags e) st.flags
  /-- A record that needs no save is in its row. -/
  saved : st.needSave = false → m.rows.find e.id = some (st.standing, st.flags)
  bounds : m.changed a = true → reputationBottom ≤ s.getBaseReputation e + st.standing ∧
    s.getBaseReputation e + st.standing ≤ reputationCap
  low : m.sunk a = true → reputationToRank (s.getBaseReputation e + st.standing) ≤ .hostile

structure Kept (s : FactionStore) (m : ReputationMgr) : Prop where
  /-- No reaction is forced. -/
  forced : ∀ id, m.forcedReactions id = none
  place : ∀ a st, m.factions.find a = some st → ∃ e, s.Place a e ∧ FactionKept s m a e st
  full : ∀ a e, s.Place a e → (m.factions.find a).isSome = true

/-- A plain faction whose rank sank to hostile stays at war. -/
def Locked (m : ReputationMgr) : Prop :=
  ∀ a st, m.factions.find a = some st → m.sunk a = true → st.Warring

/-- The reputation with a faction that was changed is between the bounds. -/
def InBounds (s : FactionStore) (m : ReputationMgr) : Prop :=
  ∀ a st e, m.factions.find a = some st → s.Place a e → m.changed a = true →
    reputationBottom ≤ s.getBaseReputation e + st.standing ∧
      s.getBaseReputation e + st.standing ≤ reputationCap

/-- A save and a load give back every standing and every flag. -/
def Restored (s : FactionStore) (m : ReputationMgr) : Prop :=
  ∀ a, ((m.saveToDB.loadFromDB s).factions.find a).map (fun st => (st.standing, st.flags)) =
    (m.factions.find a).map fun st => (st.standing, st.flags)

def Restorable (s : FactionStore) (m : ReputationMgr) : Prop :=
  ∀ a st e, m.factions.find a = some st → s.Place a e →
    st.Restorable (s.getDefaultStateFlags e) (s.getBaseReputation e)

theorem Kept.at (h : Kept s m) (hf : m.factions.find a = some st) (he : s.Place a e) :
    FactionKept s m a e st := by
  obtain ⟨e', he', hk⟩ := h.place a st hf
  rw [he.eq he'.1 he'.2.2] at hk
  exact hk

theorem Kept.inBounds (h : Kept s m) : m.InBounds s :=
  fun _ _ _ hf he hc => (h.at hf he).bounds hc

/-! ## Writes -/

/-- A write to one faction that leaves its standing. -/
theorem Kept.write (h : Kept s m) (a : Nat) {f : FactionState → FactionState}
    (hw : ∀ st, Writes st (f st)) (hs : ∀ st, (f st).standing = st.standing) :
    Kept s (m.modify a f) := by
  refine ⟨h.forced, fun b st hb => ?_, fun b e he => ?_⟩
  · have hb' := (find_modify m.factions a f b).symm.trans hb
    split_ifs at hb' with hab
    · obtain ⟨st₀, h₀, rfl⟩ := map_eq_some_iff.mp hb'
      obtain ⟨e, he, hk⟩ := h.place b st₀ h₀
      refine ⟨e, he, (hw st₀).id.trans hk.id, (hw st₀).derived _ hk.derived, fun hn => ?_, ?_, ?_⟩
      · have heq := (hw st₀).saved hn
        rw [heq] at hn ⊢
        exact hk.saved hn
      · rw [hs]
        exact hk.bounds
      · rw [hs]
        exact hk.low
    · obtain ⟨e, he, hk⟩ := h.place b st hb'
      exact ⟨e, he, hk.id, hk.derived, hk.saved, hk.bounds, hk.low⟩
  · show ((m.factions.modify a f).find b).isSome = true
    rw [find_modify]
    have := h.full b e he
    split_ifs
    · rw [isSome_map]
      exact this
    · exact this

theorem modify_find (f : FactionState → FactionState) (b : Nat) :
    (m.modify a f).factions.find b = if b = a then (m.factions.find b).map f else m.factions.find b :=
  find_modify m.factions a f b

theorem add_sub_cancel_left (x y : Int32) : x + (y - x) = y := by
  rw [Int32.add_comm, Int32.sub_add_cancel]

/-- A change keeps the faction within the bounds, and at war if it sank. -/
theorem setOneFactionReputation_keeps (h : Kept s m) (hl : m.Locked) (he : e ∈ s.entries)
    (standing : Int32) (incremental : Bool) :
    Kept s (m.setOneFactionReputation s e standing incremental false) ∧
      (m.setOneFactionReputation s e standing incremental false).Locked := by
  unfold setOneFactionReputation
  cases hf : m.factions.find e.repListId with
  | none => exact ⟨h, hl⟩
  | some st =>
    obtain ⟨e', he', hk⟩ := h.place _ _ hf
    obtain rfl := he'.eq he rfl
    have hw : FactionState.Writes st
        (st.setOneReputation (s.getBaseReputation e) standing incremental false) :=
      st.writes_setOneReputation standing incremental false
    have hstand : (st.setOneReputation (s.getBaseReputation e) standing incremental false).standing =
        FactionState.newReputation (s.getBaseReputation e) st standing incremental -
          s.getBaseReputation e := st.setOneReputation_standing standing incremental
    refine ⟨⟨h.forced, fun b st' hb => ?_, fun b e' he'' => ?_⟩, fun b st' hb hsunk => ?_⟩
    · rw [modify_find] at hb
      split_ifs at hb with hab
      · subst hab
        rw [hf] at hb
        obtain rfl := some.inj hb
        refine ⟨e, he', hw.id.trans hk.id, hw.derived _ hk.derived, fun hn => ?_, fun _ => ?_, ?_⟩
        · have heq := hw.saved hn
          dsimp only at hn ⊢
          rw [heq] at hn ⊢
          exact hk.saved hn
        · rw [hstand, add_sub_cancel_left]
          exact FactionState.newReputation_bounds st standing incremental
        · intro hsunk
          -- the base is taken off and added again
          rw [hstand, add_sub_cancel_left]
          dsimp only at hsunk
          rw [Function.update_self, Bool.and_eq_true, decide_eq_true_eq] at hsunk
          exact hsunk.1
      · obtain ⟨e', he'', hk'⟩ := h.place b st' hb
        refine ⟨e', he'', hk'.id, hk'.derived, hk'.saved, ?_, ?_⟩
        · dsimp only
          rw [Function.update_of_ne hab]
          exact hk'.bounds
        · dsimp only
          rw [Function.update_of_ne hab]
          exact hk'.low
    · rw [modify_find]
      split_ifs with hab
      · rw [hab, hf]
        rfl
      · exact h.full b e' he''
    · rw [modify_find] at hb
      dsimp only at hsunk
      split_ifs at hb with hab
      · subst hab
        rw [hf] at hb
        obtain rfl := some.inj hb
        rw [Function.update_self, Bool.and_eq_true, decide_eq_true_eq, Bool.or_eq_true,
          decide_eq_true_eq] at hsunk
        exact FactionState.warring_setOneReputation hsunk.1 (hsunk.2.symm.imp_right (hl _ st hf))
      · rw [Function.update_of_ne hab] at hsunk
        exact hl b st' hb hsunk

/-- So does the share of it that other factions get. -/
theorem spill_keeps (incremental : Bool) (shares : List (Nat × ReputationRank))
    (amounts : List Int32) (h : Kept s m) (hl : m.Locked) :
    Kept s (spill s incremental false shares amounts m) ∧
      (spill s incremental false shares amounts m).Locked := by
  induction shares generalizing amounts m with
  | nil => exact ⟨h, hl⟩
  | cons x shares ih =>
    cases amounts with
    | nil => exact ⟨h, hl⟩
    | cons amount amounts =>
      unfold spill
      dsimp only
      cases he : s.getFactionEntry x.1 with
      | none => exact ih amounts h hl
      | some e =>
        dsimp only
        split_ifs
        · obtain ⟨h', hl'⟩ := setOneFactionReputation_keeps h hl
            (FactionStore.getFactionEntry_eq_some.mp he).1 amount incremental
          exact ih amounts h' hl'
        · exact ih amounts h hl

/-! ## Saving and loading -/

theorem saveToDB_find (m : ReputationMgr) (a : Nat) :
    m.saveToDB.factions.find a = (m.factions.find a).map fun st => { st with needSave := false } :=
  find_mapVal _ _ _

/-- After a save every faction is in its row. -/
theorem saveToDB_rows (h : Kept s m) (hf : m.factions.find a = some st) (he : s.Place a e) :
    m.saveToDB.rows.find e.id = some (st.standing, st.flags) := by
  have hk := h.at hf he
  have hfold := find_foldl
    (f := fun rows (x : Nat × FactionState) =>
      if x.2.needSave then insert rows x.2.id (x.2.standing, x.2.flags) else rows)
    (k := fun x => some x.2.id)
    (g := fun x o => if x.2.needSave then some (x.2.standing, x.2.flags) else o)
    (fun rows x c => ?_) (l := m.factions.entries) ?_ m.rows e.id
  · refine (hfold.1 (a, st) (mem_entries_iff.mpr hf) (by rw [hk.id])).trans ?_
    split_ifs with hn
    · rfl
    · exact hk.saved ((Bool.not_eq_true _).mp hn)
  · split_ifs with hn hc hc
    · rw [find_insert, if_pos (some.inj hc).symm]
    · rw [find_insert, if_neg fun he => hc (by rw [he])]
    · rfl
    · rfl
  · refine m.factions.keys_pairwise.imp_of_mem fun {x y} hx hy hne c hxc hyc => hne ?_
    obtain ⟨ex, hex, hkx⟩ := h.place x.1 x.2 (mem_entries_iff.mp hx)
    obtain ⟨ey, hey, hky⟩ := h.place y.1 y.2 (mem_entries_iff.mp hy)
    have hid : ex.id = ey.id := by
      rw [← hkx.id, ← hky.id, some.inj hxc, some.inj hyc]
    rw [← hex.2.2, ← hey.2.2, FactionStore.eq_of_id hex.1 hey.1 hid]

/-- A save writes every record that needs one. -/
theorem save_keeps (h : Kept s m) (hl : m.Locked) : Kept s m.saveToDB ∧ m.saveToDB.Locked := by
  refine ⟨⟨h.forced, fun a st hf => ?_, fun a e he => ?_⟩, fun a st hf hsunk => ?_⟩
  · rw [saveToDB_find] at hf
    obtain ⟨st₀, h₀, rfl⟩ := map_eq_some_iff.mp hf
    obtain ⟨e, he, hk⟩ := h.place a st₀ h₀
    have hrow := saveToDB_rows h h₀ he
    exact ⟨e, he, hk.id, hk.derived, fun _ => hrow, hk.bounds, hk.low⟩
  · rw [saveToDB_find, isSome_map]
    exact h.full a e he
  · rw [saveToDB_find] at hf
    obtain ⟨st₀, h₀, rfl⟩ := map_eq_some_iff.mp hf
    exact hl a st₀ h₀ hsunk

/-- What a relog makes of a faction. -/
theorem relog_find (h : Kept s m) (hf : m.factions.find a = some st) (he : s.Place a e) :
    ∃ st', (m.saveToDB.loadFromDB s).factions.find a = some st' ∧
      Holds st' e.id st.standing
        (FactionState.loadedFlags (s.getDefaultStateFlags e) (s.getBaseReputation e) st.standing
          st.flags) ∧
      Derived (s.getDefaultStateFlags e) st'.flags ∧
      (st'.needSave = false → st'.flags = st.flags) := by
  have hrow := saveToDB_rows h hf he
  have hload := (loadFromDB_find m.saveToDB a).1 e _ he hrow
  unfold loaded at hload
  rw [FactionStore.getFactionEntry_eq_some.mpr ⟨he.1, rfl⟩,
    show m.saveToDB.forcedReactions e.id = none from h.forced e.id] at hload
  obtain ⟨st₁, h₁, hw, heq⟩ := FactionState.load_spec (s.getBaseReputation e)
    { id := e.id, flags := s.getDefaultStateFlags e } st.standing st.flags
  dsimp only [elim_some] at hload
  rw [heq] at hload
  refine ⟨_, hload, ?_, ?_, ?_⟩
  · split_ifs
    · exact h₁
    · exact h₁
  · have hd := hw.derived _ (.refl _)
    split_ifs
    · exact hd
    · exact hd
  · split_ifs with hfl
    · exact fun _ => hfl
    · intro hn
      have := hw.saved hn
      rw [this] at hn
      cases hn

/-- Every faction is loaded from the row that the save has written. -/
theorem relog_keeps (h : Kept s m) : Kept s (m.saveToDB.loadFromDB s) ∧
    (m.saveToDB.loadFromDB s).Locked := by
  -- every faction comes from the one at its place
  have hsource : ∀ a st', (m.saveToDB.loadFromDB s).factions.find a = some st' →
      ∃ st e, m.factions.find a = some st ∧ s.Place a e := by
    intro a st' hf
    by_cases hex : ∃ e, s.Place a e
    · obtain ⟨e, he⟩ := hex
      obtain ⟨st, hst⟩ := isSome_iff_exists.mp (h.full a e he)
      exact ⟨st, e, hst, he⟩
    · rw [(loadFromDB_find m.saveToDB a).2 (not_exists.mp hex)] at hf
      cases hf
  refine ⟨⟨h.forced, fun a st' hf => ?_, fun a e he => ?_⟩, fun a st' hf hsunk => ?_⟩
  · obtain ⟨st, e, hst, he⟩ := hsource a st' hf
    obtain ⟨st'', hf', hh, hd, hs⟩ := relog_find h hst he
    obtain rfl := some.inj (hf.symm.trans hf')
    have hk := h.at hst he
    refine ⟨e, he, hh.1, hd, fun hn => ?_, ?_, ?_⟩
    · rw [hh.2.1, hs hn]
      exact saveToDB_rows h hst he
    · rw [hh.2.1]
      exact hk.bounds
    · rw [hh.2.1]
      exact hk.low
  · obtain ⟨st, hst⟩ := isSome_iff_exists.mp (h.full a e he)
    obtain ⟨st', hf', -⟩ := relog_find h hst he
    rw [hf']
    rfl
  · obtain ⟨st, e, hst, he⟩ := hsource a st' hf
    obtain ⟨st'', hf', hh, -, -⟩ := relog_find h hst he
    obtain rfl := some.inj (hf.symm.trans hf')
    exact FactionState.warring_loaded hh ((h.at hst he).low hsunk)

/-- A save and a load give everything back exactly when every faction is restorable. -/
theorem restored_iff (h : Kept s m) : m.Restored s ↔ m.Restorable s := by
  constructor
  · intro hr a st e hf he
    obtain ⟨st', hf', hh, -, -⟩ := relog_find h hf he
    have := hr a
    rw [hf', hf] at this
    have hflags : st'.flags = st.flags := congrArg Prod.snd (some.inj this)
    rw [hh.2.2] at hflags
    exact (FactionState.load_flags_eq_iff (h.at hf he).derived).mp hflags
  · intro hr a
    cases hf : m.factions.find a with
    | none =>
      rw [(loadFromDB_find m.saveToDB a).2 fun e he => ?_]
      have := h.full a e he
      rw [hf] at this
      cases this
    | some st =>
      obtain ⟨e, he, hk⟩ := h.place a st hf
      obtain ⟨st', hf', hh, -, -⟩ := relog_find h hf he
      rw [hf']
      have hflags := (FactionState.load_flags_eq_iff hk.derived).mpr (hr a st e hf he)
      rw [← hh.2.2] at hflags
      rw [map_some, map_some, hh.2.1, hflags]

/-! ## Runs -/

/-- The client does not end the war with a plain faction while its rank is the one that it sank to. -/
def Allowed (m : ReputationMgr) : ReputationInput → Bool
  | .setAtWar listId false => (m.factions.find listId).all fun st => !(m.sunk listId && st.isPlain)
  | _ => true

/-- Every step keeps what is kept of the factions. -/
theorem kept_step (h : Kept s m) (hl : m.Locked) (i : ReputationInput) : Kept s (m.step s i) := by
  cases i with
  | setReputation id standing incremental noSpillover amounts =>
    unfold step
    dsimp only
    cases he : s.getFactionEntry id with
    | none => exact h
    | some e =>
      have he := (FactionStore.getFactionEntry_eq_some.mp he).1
      dsimp only [setReputation]
      split_ifs
      · exact (setOneFactionReputation_keeps h hl he standing incremental).1
      · obtain ⟨h', hl'⟩ := spill_keeps incremental (s.spillover e.id) amounts h hl
        exact (setOneFactionReputation_keeps h' hl' he standing incremental).1
  | setAtWar listId flag =>
    refine h.write listId (fun st => st.writes_setAtWarById flag) fun st => ?_
    unfold FactionState.setAtWarById
    split_ifs
    · rfl
    · exact (st.setAtWar_eq flag).2.1
  | setInactive listId inactive =>
    exact h.write listId (fun st => st.writes_setInactive inactive) fun st =>
      (st.setInactive_eq inactive).2.1
  | save => exact (save_keeps h hl).1
  | relog => exact (relog_keeps h).1

/-- A write to one faction that keeps its war. -/
theorem Locked.write (hl : m.Locked) {f : FactionState → FactionState}
    (hf : ∀ st : FactionState, st.Warring → (f st).Warring) : (m.modify a f).Locked := by
  intro b st hb hs
  have hb := (modify_find f b).symm.trans hb
  split_ifs at hb
  · obtain ⟨st₀, h₀, rfl⟩ := map_eq_some_iff.mp hb
    exact hf st₀ (hl b st₀ h₀ hs)
  · exact hl b st hb hs

/-- One step keeps the wars exactly when it is allowed. -/
theorem locked_step_iff (h : Kept s m) (hl : m.Locked) (i : ReputationInput) :
    (m.step s i).Locked ↔ m.Allowed i = true := by
  cases i with
  | setReputation id standing incremental noSpillover amounts =>
    refine iff_of_true ?_ rfl
    unfold step
    dsimp only
    cases he : s.getFactionEntry id with
    | none => exact hl
    | some e =>
      have he := (FactionStore.getFactionEntry_eq_some.mp he).1
      dsimp only [setReputation]
      split_ifs
      · exact (setOneFactionReputation_keeps h hl he standing incremental).2
      · obtain ⟨h', hl'⟩ := spill_keeps incremental (s.spillover e.id) amounts h hl
        exact (setOneFactionReputation_keeps h' hl' he standing incremental).2
  | setAtWar listId flag =>
    cases flag with
    | true =>
      refine iff_of_true (hl.write fun st hw => ?_) rfl
      unfold FactionState.setAtWarById
      split_ifs
      · exact hw
      · exact st.warring_setAtWar
    | false =>
      show _ ↔ ((m.factions.find listId).all fun st => !(m.sunk listId && st.isPlain)) = true
      cases hf : m.factions.find listId with
      | none =>
        refine iff_of_true (fun a st hfa hs => ?_) rfl
        have hfa' := (modify_find _ a).symm.trans hfa
        split_ifs at hfa' with ha
        · rw [ha, hf] at hfa'
          cases hfa'
        · exact hl a st hfa' hs
      | some st =>
        rw [all_some, Bool.not_eq_true', Bool.and_eq_false_iff]
        constructor
        · intro hl'
          by_contra hc
          rw [not_or, Bool.not_eq_false, Bool.not_eq_false] at hc
          -- the war with a plain faction is ended
          have hshown : st.isShown = true := ((Bool.and_eq_true _ _).mp hc.2).1
          have hwar := hl' listId (st.setAtWarById false)
            ((modify_find _ listId).trans (by rw [if_pos rfl, hf]; rfl)) hc.1
          have hplain := (st.writes_setAtWarById false).isPlain.trans hc.2
          have := hwar hplain
          unfold FactionState.setAtWarById at this
          rw [if_neg (by rw [hshown]; decide), (st.setAtWar_eq false).2.2] at this
          cases this
        · intro hc a st' hfa hs hp
          have hfa' := (modify_find _ a).symm.trans hfa
          split_ifs at hfa' with ha
          · subst ha
            rw [hf] at hfa'
            obtain rfl := some.inj hfa'
            rw [(st.writes_setAtWarById false).isPlain] at hp
            rcases hc with hc | hc
            · rw [show m.sunk a = true from hs] at hc
              cases hc
            · rw [hp] at hc
              cases hc
          · exact hl a st' hfa' hs hp
  | setInactive listId inactive =>
    refine iff_of_true (hl.write fun st hw => ?_) rfl
    intro hp
    rw [(st.writes_setInactive inactive).isPlain] at hp
    rw [(st.setInactive_eq inactive).2.2]
    exact hw hp
  | save => exact iff_of_true (save_keeps h hl).2 rfl
  | relog => exact iff_of_true (relog_keeps h).2 rfl

/-- A new character. -/
def start (s : FactionStore) : ReputationMgr := { factions := initFactions s }

/-- So does the first login. -/
theorem kept_start (s : FactionStore) : Kept s (start s) := by
  refine ⟨fun _ => rfl, fun a st hf => ?_, fun a e he => ?_⟩
  · by_cases hex : ∃ e, s.Place a e
    · obtain ⟨e, he⟩ := hex
      obtain rfl := some.inj (((initFactions_find a).1 e he).symm.trans hf)
      exact ⟨e, he, rfl, .refl _, fun h => (by cases h), fun h => (by cases h), fun h => (by cases h)⟩
    · have := ((initFactions_find a).2 (not_exists.mp hex)).symm.trans hf
      cases this
  · show ((initFactions s).find a).isSome = true
    rw [(initFactions_find a).1 e he]
    rfl

theorem locked_start (s : FactionStore) : (start s).Locked := fun _ _ _ h => by cases h

/-- In a run of a new character the reputations are between the bounds, the wars are kept and a relog
gives everything back after every step, exactly when every step is allowed and what it leaves can
be restored. -/
theorem reputation_run_iff (s : FactionStore) (is : List ReputationInput) :
    AlongRun (step s) (fun m i => (m.step s i).InBounds s ∧ (m.step s i).Locked ∧
      (m.step s i).Restored s) (start s) is ↔
    AlongRun (step s) (fun m i => m.Allowed i = true ∧ (m.step s i).Restorable s) (start s) is := by
  constructor
  · refine AlongRun.imp (I := fun m => Kept s m ∧ m.Locked) (fun m i hm hp => ?_)
      ⟨kept_start s, locked_start s⟩
    have hk := kept_step hm.1 hm.2 i
    exact ⟨⟨(locked_step_iff hm.1 hm.2 i).mp hp.2.1, (restored_iff hk).mp hp.2.2⟩, hk, hp.2.1⟩
  · refine AlongRun.imp (I := fun m => Kept s m ∧ m.Locked) (fun m i hm hp => ?_)
      ⟨kept_start s, locked_start s⟩
    have hk := kept_step hm.1 hm.2 i
    have hl := (locked_step_iff hm.1 hm.2 i).mpr hp.1
    exact ⟨⟨hk.inBounds, hl, (restored_iff hk).mpr hp.2⟩, hk, hl⟩

end ReputationMgr

/-! ## Two runs -/

def neutralStore : FactionStore where
  entries := [⟨21, 0, [{ flags := { visible := true } }]⟩]
  ids := by decide
  places := by decide

/-- A faction of forced peace, which the player is friendly with from the start. -/
def peaceStore : FactionStore where
  entries := [⟨72, 0, [{ value := 4000, flags := { visible := true, peaceForced := true } }]⟩]
  ids := by decide
  places := by decide

/-- The rank sinks to hostile, and the client ends the war. -/
def truceRun : List ReputationInput := [.setReputation 21 (-5000) false true [], .setAtWar 0 false]

/-- The rank sinks to hated and rises to unfriendly. -/
def grudgeRun : List ReputationInput :=
  [.setReputation 72 (-42000) false true [], .setReputation 72 (-1500) false true []]

theorem runs_not_kept :
    ¬ (run (ReputationMgr.step neutralStore) (.start neutralStore) truceRun).Locked ∧
    ¬ (run (ReputationMgr.step peaceStore) (.start peaceStore) grudgeRun).Restored peaceStore := by
  constructor
  · intro h
    exact absurd (h 0 ⟨21, { visible := true }, -5000, true⟩ (by decide +kernel) (by decide +kernel)
      (by decide +kernel)) (by decide +kernel)
  · intro h
    exact absurd (h 0) (by decide +kernel)

end Windrunner
