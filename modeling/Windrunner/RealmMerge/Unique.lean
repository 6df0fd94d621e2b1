import Mathlib.Order.Interval.Finset.Nat
import Windrunner.RealmMerge.Keys

/-!
# The new keys are unique

The keys of the second database after a merge step are distinct and not among those of the first,
and no statement on the way there meets a duplicate: `Method.Unique`. For the fast method every new
key is above every old one. For the slow method the keys from 1 up to the counter are all in use,
by one of the databases or as a replacement (`Counted`); there are fewer of them than the two
databases have keys, so a search ends before the counter wraps.
-/

namespace Windrunner

open List hiding getElem?_eq_some_iff

namespace RealmMerge

open UniqueKeyData

/-! ## The sets of keys -/

variable {ids ids2 ids1 : List Nat} {rs : List (Nat × Nat)}

theorem mem_existingKeys {id : Nat} : id ∈ existingKeys ids ↔ id ∈ ids := by
  unfold existingKeys
  rw [mem_insertionSort, mem_dedup]

theorem nodup_existingKeys (ids : List Nat) : (existingKeys ids).Nodup :=
  (perm_insertionSort _ _).nodup_iff.2 ids.nodup_dedup

theorem length_existingKeys (ids : List Nat) : (existingKeys ids).length ≤ ids.length := by
  unfold existingKeys
  rw [length_insertionSort]
  exact ids.dedup_sublist.length_le

theorem existingKeys_eq_nil : existingKeys ids = [] ↔ ids = [] := by
  refine ⟨fun h => eq_nil_iff_forall_not_mem.2 fun id hid => ?_, fun h => by subst h; rfl⟩
  have hmem := mem_existingKeys.2 hid
  rw [h] at hmem
  cases hmem

theorem le_getLastD {l : List Nat} (h : l.Pairwise (· ≤ ·)) {d id : Nat} (hid : id ∈ l) :
    id ≤ l.getLastD d := by
  induction l generalizing d id with
  | nil => cases hid
  | cons a rest ih =>
    obtain ⟨ha, hrest⟩ := pairwise_cons.1 h
    rw [getLastD_cons]
    rcases mem_cons.1 hid with rfl | hid
    · cases rest with
      | nil => exact Nat.le_refl _
      | cons b rest => exact Nat.le_trans (ha b mem_cons_self) (ih hrest mem_cons_self)
    · exact ih hrest hid

theorem le_rbegin {id : Nat} (hid : id ∈ ids) : id ≤ rbegin (existingKeys ids) :=
  le_getLastD (pairwise_insertionSort _ _) (mem_existingKeys.2 hid)

theorem rbegin_mem (h : ids ≠ []) : rbegin (existingKeys ids) ∈ ids := by
  have hne : existingKeys ids ≠ [] := fun h' => h (existingKeys_eq_nil.1 h')
  rw [← mem_existingKeys]
  unfold rbegin
  rw [getLastD_eq_getLast?, getLast?_eq_some_getLast hne]
  exact getLast_mem hne

theorem le_selectMax {id : Nat} (hid : id ∈ ids) : id ≤ selectMax ids := by
  unfold selectMax
  induction ids with
  | nil => cases hid
  | cons a rest ih =>
    rw [foldr_cons]
    rcases mem_cons.1 hid with rfl | hid
    · exact Nat.le_max_left _ _
    · exact Nat.le_trans (ih hid) (Nat.le_max_right _ _)

theorem selectMax_mem (h : ids ≠ []) : selectMax ids ∈ ids := by
  unfold selectMax
  induction ids with
  | nil => exact absurd rfl h
  | cons a rest ih =>
    rw [foldr_cons]
    by_cases hrest : rest = []
    · subst hrest
      simp
    · rcases Nat.le_total a (rest.foldr max 0) with hle | hle
      · rw [Nat.max_eq_right hle]
        exact mem_cons_of_mem _ (ih hrest)
      · rw [Nat.max_eq_left hle]
        exact mem_cons_self

/-! ## The fast method -/

/-- The rows after `UPDATE .. SET id = id + offset` has been through those of `processed` -/
def offsetRows (offset : Nat) (processed ids : List Nat) : List Nat :=
  processed.foldl (fun ids i => ids.modify i (· + offset)) ids

theorem getElem?_offsetRows (offset : Nat) {processed : List Nat} (h : processed.Nodup)
    (ids : List Nat) (j : Nat) :
    (offsetRows offset processed ids)[j]? =
      ids[j]?.map fun id => if j ∈ processed then id + offset else id := by
  unfold offsetRows
  induction processed generalizing ids with
  | nil => simp
  | cons i rest ih =>
    obtain ⟨hi, hrest⟩ := nodup_cons.1 h
    rw [foldl_cons, ih hrest, getElem?_modify, Option.map_eq_map, Option.map_map]
    congr 1
    funext id
    by_cases hij : i = j
    · subst hij
      simp [hi]
    · simp [hij, Ne.symm hij]

/-- While no old id is above the offset and none is 0, the rows that have been processed and the
others do not meet. -/
theorem nodup_offsetRows {offset : Nat} (hids : ids.Nodup)
    (hle : ∀ id ∈ ids, id ≤ offset) (hpos : 0 ∉ ids) {processed : List Nat}
    (h : processed.Nodup) : (offsetRows offset processed ids).Nodup := by
  rw [nodup_iff_injective_getElem]
  have hrow : ∀ (j : Fin (offsetRows offset processed ids).length), ∃ id, ids[j.1]? = some id ∧
      (offsetRows offset processed ids)[j.1] =
        if j.1 ∈ processed then id + offset else id := by
    intro j
    have hj := getElem?_offsetRows offset h ids j.1
    rw [getElem?_eq_getElem j.2] at hj
    obtain ⟨id, hid, hval⟩ := Option.map_eq_some_iff.1 hj.symm
    exact ⟨id, hid, hval.symm⟩
  intro i j hij
  obtain ⟨a, ha, hva⟩ := hrow i
  obtain ⟨b, hb, hvb⟩ := hrow j
  have hmem : ∀ {k id : Nat}, ids[k]? = some id → id ≤ offset ∧ 0 < id := by
    intro k id hk
    have hid : id ∈ ids := mem_of_getElem? hk
    exact ⟨hle id hid, Nat.pos_of_ne_zero fun h0 => hpos (h0 ▸ hid)⟩
  have ha' := hmem ha
  have hb' := hmem hb
  have hab : a = b := by
    simp only [hva, hvb] at hij
    split at hij <;> split at hij <;> omega
  subst hab
  have hlt : i.1 < ids.length := (List.getElem?_eq_some_iff.1 ha).1
  exact Fin.ext ((getElem?_inj hlt hids).1 (ha.trans hb.symm))

/-! ## The slow method -/

/-- One replacement of the slow method, in one row -/
def replaceId (id : Nat) (r : Nat × Nat) : Nat := if id = r.1 then r.2 else id

/-- The id that a row has after the replacements -/
def renameBy (rs : List (Nat × Nat)) (id : Nat) : Nat :=
  match rs.find? fun r => r.1 = id with
  | some r => r.2
  | none => id

/-- A replacement is not replaced again. -/
theorem foldl_replaceId (hold : (rs.map Prod.fst).Nodup)
    (hnew : ∀ r ∈ rs, r.2 ∉ rs.map Prod.fst) (id : Nat) :
    rs.foldl replaceId id = renameBy rs id := by
  induction rs generalizing id with
  | nil => rfl
  | cons r rest ih =>
    rw [map_cons, nodup_cons] at hold
    have hrest : ∀ r' ∈ rest, r'.2 ∉ rest.map Prod.fst := fun r' hr' hmem =>
      hnew r' (mem_cons_of_mem _ hr') (mem_cons_of_mem _ hmem)
    rw [foldl_cons, ih hold.2 hrest]
    unfold renameBy replaceId
    rw [find?_cons]
    by_cases hid : id = r.1
    · subst hid
      have hgone : (rest.find? fun r' => decide (r'.1 = r.2)) = none := by
        rw [find?_eq_none]
        intro r' hr' heq
        refine hnew r mem_cons_self (mem_cons_of_mem _ ?_)
        exact mem_map.2 ⟨r', hr', by simpa using heq⟩
      simp [hgone]
    · simp [hid, Ne.symm hid]

theorem renameBy_of_mem (hold : (rs.map Prod.fst).Nodup) {r : Nat × Nat}
    (hr : r ∈ rs) : renameBy rs r.1 = r.2 := by
  unfold renameBy
  induction rs with
  | nil => cases hr
  | cons r' rest ih =>
    rw [map_cons, nodup_cons] at hold
    rw [find?_cons]
    rcases mem_cons.1 hr with rfl | hr
    · simp
    · have hne : r'.1 ≠ r.1 := fun h => hold.1 (h ▸ mem_map.2 ⟨r, hr, rfl⟩)
      simp only [hne, decide_false]
      exact ih hold.2 hr

theorem renameBy_of_not_mem {id : Nat} (h : id ∉ rs.map Prod.fst) :
    renameBy rs id = id := by
  unfold renameBy
  rw [find?_eq_none.2]
  intro r hr heq
  exact h (mem_map.2 ⟨r, hr, by simpa using heq⟩)

/-- A search ends at the first key from its start on that nobody has, if there is one before the
counter wraps. -/
theorem search_spec {d : UniqueKeyData} (n start : Nat) {k : Nat} (hk : d.taken k = false)
    (hstart : start ≤ k) (hn : k - start < n) (hword : k < 4294967296) :
    ∃ c, d.search n start = some c ∧ start ≤ c ∧ c ≤ k ∧ d.taken c = false ∧
      ∀ x, start ≤ x → x < c → d.taken x = true := by
  induction n generalizing start with
  | zero => omega
  | succ n ih =>
    unfold search
    split
    case isTrue ht =>
      have hne : start ≠ k := by
        rintro rfl
        rw [hk] at ht
        cases ht
      have hinc : increment start = start + 1 := Nat.mod_eq_of_lt (by omega)
      rw [hinc]
      obtain ⟨c, hc, hle, hck, hfree, hall⟩ := @ih (start + 1) (by omega) (by omega)
      refine ⟨c, hc, by omega, hck, hfree, fun x hx hxc => ?_⟩
      by_cases hxs : x = start
      · subst hxs
        exact ht
      · exact hall x (by omega) hxc
    case isFalse ht =>
      refine ⟨start, rfl, Nat.le_refl _, hstart, by simpa using ht, fun x hx hxc => ?_⟩
      omega

/-- The keys up to the counter are in use, while the slow method has `keys` before it. -/
structure Counted (d : UniqueKeyData) (keys : List Nat) : Prop where
  nodup : (d.replacedKeys.map Prod.fst).Nodup
  replaced : ∀ r ∈ d.replacedKeys,
    r.1 ∈ d.existingKeys1 ∧ r.1 ∈ d.existingKeys2 ∧ r.1 ∉ keys
  used : ∀ k, 1 ≤ k → k ≤ d.counter → d.taken k = true ∨ k ∈ d.replacedKeys.map Prod.snd

theorem Counted.not_replaced {d : UniqueKeyData} {key : Nat} {keys : List Nat}
    (h : Counted d (key :: keys)) : key ∉ d.replacedKeys.map Prod.fst := by
  intro hmem
  obtain ⟨r, hr, rfl⟩ := mem_map.1 hmem
  exact (h.replaced r hr).2.2 mem_cons_self

/-- Each replacement is for a key that both databases have, so the keys in use are fewer than the
keys of both. -/
theorem Counted.exists_free {d : UniqueKeyData} {key : Nat} {keys : List Nat}
    (h : Counted d (key :: keys)) (h1 : key ∈ d.existingKeys1) (h2 : key ∈ d.existingKeys2) :
    ∃ k, d.counter < k ∧ k ≤ d.existingKeys1.length + d.existingKeys2.length ∧
      d.taken k = false := by
  set N := d.existingKeys1.length + d.existingKeys2.length with hN
  set T := d.existingKeys1.toFinset ∪ d.existingKeys2.toFinset with hT
  set news := (d.replacedKeys.map Prod.snd).toFinset with hnews
  have hnodup : (key :: d.replacedKeys.map Prod.fst).Nodup :=
    nodup_cons.2 ⟨h.not_replaced, h.nodup⟩
  have hsub : (key :: d.replacedKeys.map Prod.fst).toFinset ⊆
      d.existingKeys1.toFinset ∩ d.existingKeys2.toFinset := by
    intro k hk
    rw [mem_toFinset, mem_cons] at hk
    rw [Finset.mem_inter, mem_toFinset, mem_toFinset]
    rcases hk with rfl | hk
    · exact ⟨h1, h2⟩
    · obtain ⟨r, hr, rfl⟩ := mem_map.1 hk
      exact ⟨(h.replaced r hr).1, (h.replaced r hr).2.1⟩
  have hboth := Finset.card_le_card hsub
  rw [toFinset_card_of_nodup hnodup, length_cons, length_map] at hboth
  have hunion := Finset.card_union_add_card_inter d.existingKeys1.toFinset
    d.existingKeys2.toFinset
  rw [← hT] at hunion
  have hcard1 := d.existingKeys1.toFinset_card_le
  have hcard2 := d.existingKeys2.toFinset_card_le
  have hcard3 := (d.replacedKeys.map Prod.snd).toFinset_card_le
  rw [length_map, ← hnews] at hcard3
  have hused : (T ∪ news).card < (Finset.Icc 1 N).card := by
    have hle := Finset.card_union_le T news
    rw [Nat.card_Icc]
    omega
  obtain ⟨k, hk, hfree⟩ := Finset.exists_mem_notMem_of_card_lt_card hused
  rw [Finset.mem_Icc] at hk
  rw [Finset.mem_union, not_or, hT, Finset.mem_union, mem_toFinset, mem_toFinset,
    hnews, mem_toFinset] at hfree
  have htaken : d.taken k = false := by
    simp only [taken, Bool.or_eq_false_iff, decide_eq_false_iff_not]
    exact not_or.1 hfree.1
  refine ⟨k, Nat.lt_of_not_le fun hle => ?_, hk.2, htaken⟩
  rcases h.used k hk.1 hle with ht | hr
  · rw [htaken] at ht
    cases ht
  · exact hfree.2 hr

/-- What the slow method does: it replaces the keys that both databases have, in order, each by a
key that nobody has and that is above the ones given before. -/
theorem slowMethod_spec {d : UniqueKeyData} {keys : List Nat} (h : Counted d keys)
    (hkeys : keys.Nodup) (hmem : ∀ key ∈ keys, key ∈ d.existingKeys2)
    (hlen : d.existingKeys1.length + d.existingKeys2.length ≤ int32Max) :
    ∃ rs, slowMethod d keys = some rs ∧
      rs.map Prod.fst = keys.filter (· ∈ d.existingKeys1) ∧
      (rs.map Prod.snd).Pairwise (· < ·) ∧
      ∀ r ∈ rs, d.counter < r.2 ∧ r.2 ≤ int32Max ∧ d.taken r.2 = false := by
  induction keys generalizing d with
  | nil => exact ⟨[], rfl, rfl, .nil, by simp⟩
  | cons key keys ih =>
    obtain ⟨hkey, hrest⟩ := nodup_cons.1 hkeys
    have hnone : (d.replacedKeys.find? fun r => decide (r.1 = key)) = none := by
      rw [find?_eq_none]
      intro r hr heq
      exact h.not_replaced (mem_map.2 ⟨r, hr, by simpa using heq⟩)
    have hmem' : ∀ k ∈ keys, k ∈ d.existingKeys2 := fun k hk =>
      hmem k (mem_cons_of_mem _ hk)
    unfold slowMethod replaceKeyIfNeeded
    rw [hnone]
    by_cases h1 : key ∈ d.existingKeys1
    · have hint : int32Max = 2147483647 := rfl
      obtain ⟨k, hck, hkN, hfree⟩ := h.exists_free h1 (hmem key mem_cons_self)
      have hinc : increment d.counter = d.counter + 1 := Nat.mod_eq_of_lt (by omega)
      obtain ⟨c, hc, hlt, hle, hcfree, hall⟩ :=
        search_spec 4294967296 (d.counter + 1) hfree hck (by omega) (by omega)
      set d' : UniqueKeyData :=
        { d with replacedKeys := (key, c) :: d.replacedKeys, counter := c } with hd'
      have h' : Counted d' keys := by
        refine ⟨nodup_cons.2 ⟨h.not_replaced, h.nodup⟩, fun r hr => ?_, fun x hx hxc => ?_⟩
        · rcases mem_cons.1 hr with rfl | hr
          · exact ⟨h1, hmem key mem_cons_self, hkey⟩
          · obtain ⟨hr1, hr2, hr3⟩ := h.replaced r hr
            exact ⟨hr1, hr2, fun hrk => hr3 (mem_cons_of_mem _ hrk)⟩
        · rw [hd', map_cons, mem_cons]
          rcases Nat.lt_trichotomy x c with hxlt | rfl | hxgt
          · by_cases hxd : x ≤ d.counter
            · exact (h.used x hx hxd).imp_right Or.inr
            · exact Or.inl (hall x (by omega) hxlt)
          · exact Or.inr (Or.inl rfl)
          · exact absurd hxc (Nat.not_le.2 hxgt)
      obtain ⟨rs, hrs, hold, hnew, hspec⟩ := ih h' hrest hmem' hlen
      rw [if_neg (by simpa using h1), hinc, hc]
      refine ⟨(key, c) :: rs, by simp only [← hd', hrs, if_true], ?_, ?_, fun r hr => ?_⟩
      · rw [map_cons, hold, filter_cons_of_pos (by simpa using h1)]
      · rw [map_cons, pairwise_cons]
        refine ⟨fun n hn => ?_, hnew⟩
        obtain ⟨r, hr, rfl⟩ := mem_map.1 hn
        exact (hspec r hr).1
      · rcases mem_cons.1 hr with rfl | hr
        · exact ⟨hlt, by omega, hcfree⟩
        · obtain ⟨hr1, hr2, hr3⟩ := hspec r hr
          exact ⟨Nat.lt_trans hlt hr1, hr2, hr3⟩
    · obtain ⟨rs, hrs, hold, hnew, hspec⟩ := ih (d := d)
        ⟨h.nodup, fun r hr => ⟨(h.replaced r hr).1, (h.replaced r hr).2.1,
          fun hk => (h.replaced r hr).2.2 (mem_cons_of_mem _ hk)⟩, h.used⟩ hrest hmem' hlen
      rw [if_pos (by simpa using h1)]
      refine ⟨rs, by simp only [hrs, Bool.false_eq_true, if_false], ?_, hnew, hspec⟩
      rw [hold, filter_cons_of_neg (by simpa using h1)]

theorem slowMethod_existingKeys (ids1 ids2 : List Nat)
    (hlen : (existingKeys ids1).length + (existingKeys ids2).length ≤ int32Max) :
    ∃ rs, slowMethod { existingKeys1 := existingKeys ids1, existingKeys2 := existingKeys ids2 }
        (existingKeys ids2) = some rs ∧
      rs.map Prod.fst = (existingKeys ids2).filter (· ∈ existingKeys ids1) ∧
      (rs.map Prod.snd).Pairwise (· < ·) ∧
      ∀ r ∈ rs, 0 < r.2 ∧ r.2 ≤ int32Max ∧ r.2 ∉ ids1 ∧ r.2 ∉ ids2 := by
  set d : UniqueKeyData :=
    { existingKeys1 := existingKeys ids1, existingKeys2 := existingKeys ids2 } with hd
  have hc : Counted d (existingKeys ids2) :=
    ⟨nodup_nil, by simp [hd], fun k hk hk0 => absurd hk0 (Nat.not_le.2 hk)⟩
  obtain ⟨rs, hrs, hold, hnew, hspec⟩ :=
    slowMethod_spec hc (nodup_existingKeys ids2) (fun _ hk => hk) hlen
  refine ⟨rs, hrs, hold, hnew, fun r hr => ?_⟩
  obtain ⟨hpos, hle, hfree⟩ := hspec r hr
  simp only [hd, taken, Bool.or_eq_false_iff, decide_eq_false_iff_not, mem_existingKeys] at hfree
  exact ⟨hpos, hle, hfree.1, hfree.2⟩

/-! ## Unique keys -/

/-- Distinct, and not in use by the first database -/
def Apart (ids1 ids : List Nat) : Prop := ids.Nodup ∧ ∀ id ∈ ids, id ∉ ids1

/-- The ids after the statements of the slow method -/
def replaceIds (rs : List (Nat × Nat)) (ids : List Nat) : List Nat :=
  rs.foldl (fun ids r => ids.map (replaceId · r)) ids

def Method.newIds (ids2 : List Nat) : Method → List Nat
  | .none => ids2
  | .fast offset => ids2.map (· + offset)
  | .slow rs => replaceIds rs ids2

/-- What a method must do with the ids. Fast: the new ones stay below 2^31, and there are no
duplicates when any of the rows have been processed. Slow: there are none after any of the
replacements, and each search ends above the keys that have been given before, so its counter has
not wrapped. -/
def Method.Unique (ids1 ids2 : List Nat) (m : Method) : Prop :=
  Apart ids1 (m.newIds ids2) ∧
    match m with
    | .none => True
    | .fast offset => (∀ id ∈ ids2, id + offset < 2147483648) ∧
        ∀ processed, processed.Nodup → (offsetRows offset processed ids2).Nodup
    | .slow rs => (∀ n, (replaceIds (rs.take n) ids2).Nodup) ∧
        (rs.map Prod.snd).Pairwise (· < ·) ∧ ∀ r ∈ rs, 0 < r.2 ∧ r.2 ≤ int32Max

/-- The same of `UpdateAutoIncrementField`, which has one method and the column of the field -/
def AutoIncrementUnique (field : AutoIncrementField) (ids1 ids2 : List Nat) : Prop :=
  let offset := autoIncrementOffset ids1 ids2
  Apart ids1 (ids2.map (· + offset)) ∧ (∀ id ∈ ids2, id + offset < field.bound) ∧
    ∀ processed, processed.Nodup → (offsetRows offset processed ids2).Nodup

theorem nodup_offset (h : ids.Nodup) (offset : Nat) :
    (ids.map (· + offset)).Nodup :=
  h.map fun _ _ hab => Nat.add_right_cancel hab

/-- An offset that is no smaller than any id, of either database, makes the ids unique. -/
theorem apart_offset {offset : Nat} (h2 : ids2.Nodup)
    (hle : ∀ id ∈ ids1, id ≤ offset) (hpos : 0 ∉ ids2) : Apart ids1 (ids2.map (· + offset)) := by
  refine ⟨nodup_offset h2 offset, fun id hid hmem => ?_⟩
  obtain ⟨a, ha, rfl⟩ := mem_map.1 hid
  have hzero : a = 0 := by
    have := hle _ hmem
    omega
  exact hpos (hzero ▸ ha)

/-- With the id 0 the offset is a new id. It must not be one of the first database, nor of a row
that is still to be processed. -/
theorem zero_offset {offset : Nat} (h0 : 0 ∈ ids2) (hapart : Apart ids1 (ids2.map (· + offset)))
    (hrows : ∀ processed, processed.Nodup → (offsetRows offset processed ids2).Nodup) :
    offset ∉ ids1 ∧ (offset ∈ ids2 → offset = 0) := by
  refine ⟨hapart.2 offset (mem_map.2 ⟨0, h0, Nat.zero_add offset⟩), fun hmem => ?_⟩
  by_contra hne
  obtain ⟨i, hi, hvi⟩ := getElem_of_mem h0
  obtain ⟨j, hj, hvj⟩ := getElem_of_mem hmem
  have hij : i ≠ j := by
    rintro rfl
    exact hne (hvj.symm.trans hvi)
  have hnodup := hrows [i] (nodup_singleton i)
  have hgi := getElem?_offsetRows offset (nodup_singleton i) ids2 i
  have hgj := getElem?_offsetRows offset (nodup_singleton i) ids2 j
  rw [getElem?_eq_getElem hi, hvi] at hgi
  rw [getElem?_eq_getElem hj, hvj] at hgj
  simp only [mem_singleton, if_true, Option.map_some, Nat.zero_add] at hgi
  simp only [mem_singleton, Ne.symm hij, if_false, Option.map_some] at hgj
  have hlt := (List.getElem?_eq_some_iff.1 hgi).1
  exact hij ((getElem?_inj hlt hnodup).1 (hgi.trans hgj.symm))

theorem replaceIds_eq (hold : (rs.map Prod.fst).Nodup)
    (hnew : ∀ r ∈ rs, r.2 ∉ rs.map Prod.fst) (ids : List Nat) :
    replaceIds rs ids = ids.map (renameBy rs) := by
  have hfold : ∀ (rs : List (Nat × Nat)) (ids : List Nat),
      replaceIds rs ids = ids.map (rs.foldl replaceId) := by
    intro rs
    induction rs with
    | nil => simp [replaceIds]
    | cons r rest ih =>
      intro ids
      show replaceIds rest (ids.map (replaceId · r)) = _
      rw [ih, map_map]
      rfl
  rw [hfold]
  exact map_congr_left fun id _ => foldl_replaceId hold hnew id

/-- New keys that are distinct and that nobody has make a renaming of the ids. -/
theorem renameBy_injOn (hold : (rs.map Prod.fst).Nodup) (hnew : (rs.map Prod.snd).Pairwise (· < ·))
    (hfree : ∀ r ∈ rs, r.2 ∉ ids2) : Set.InjOn (renameBy rs) {id | id ∈ ids2} := by
  intro a ha b hb hab
  rw [Set.mem_ofPred_eq] at ha hb
  by_cases hra : a ∈ rs.map Prod.fst <;> by_cases hrb : b ∈ rs.map Prod.fst
  · obtain ⟨r, hr, rfl⟩ := mem_map.1 hra
    obtain ⟨q, hq, rfl⟩ := mem_map.1 hrb
    rw [renameBy_of_mem hold hr, renameBy_of_mem hold hq] at hab
    have hinj := inj_on_of_nodup_map (hnew.imp fun h => Nat.ne_of_lt h) hr hq hab
    rw [hinj]
  · obtain ⟨r, hr, rfl⟩ := mem_map.1 hra
    rw [renameBy_of_mem hold hr, renameBy_of_not_mem hrb] at hab
    exact absurd (hab ▸ hb) (hfree r hr)
  · obtain ⟨q, hq, rfl⟩ := mem_map.1 hrb
    rw [renameBy_of_not_mem hra, renameBy_of_mem hold hq] at hab
    exact absurd (hab ▸ ha) (hfree q hq)
  · rwa [renameBy_of_not_mem hra, renameBy_of_not_mem hrb] at hab

theorem slow_unique (h2 : ids2.Nodup)
    (hold : rs.map Prod.fst = (existingKeys ids2).filter (· ∈ existingKeys ids1))
    (hnew : (rs.map Prod.snd).Pairwise (· < ·))
    (hspec : ∀ r ∈ rs, 0 < r.2 ∧ r.2 ≤ int32Max ∧ r.2 ∉ ids1 ∧ r.2 ∉ ids2) :
    (Method.slow rs).Unique ids1 ids2 := by
  have hnodup : (rs.map Prod.fst).Nodup := hold ▸ (nodup_existingKeys ids2).filter _
  have hfst : ∀ r ∈ rs, r.1 ∈ ids2 := by
    intro r hr
    have hmem : r.1 ∈ rs.map Prod.fst := mem_map.2 ⟨r, hr, rfl⟩
    rw [hold] at hmem
    exact mem_existingKeys.1 (mem_of_mem_filter hmem)
  -- A part of the replacements is like all of them, except that it is not complete.
  have hpart : ∀ {qs : List (Nat × Nat)}, qs.Sublist rs →
      replaceIds qs ids2 = ids2.map (renameBy qs) ∧ (replaceIds qs ids2).Nodup := by
    intro qs hqs
    have hq : (qs.map Prod.fst).Nodup := hnodup.sublist (hqs.map _)
    have heq : replaceIds qs ids2 = ids2.map (renameBy qs) := by
      refine replaceIds_eq hq (fun r hr hmem => ?_) ids2
      obtain ⟨q, hq, hqr⟩ := mem_map.1 hmem
      exact (hspec r (hqs.subset hr)).2.2.2 (hqr ▸ hfst q (hqs.subset hq))
    refine ⟨heq, ?_⟩
    rw [heq]
    refine h2.map_on fun a ha b hb hab => ?_
    exact renameBy_injOn hq (hnew.sublist (hqs.map _))
      (fun r hr => (hspec r (hqs.subset hr)).2.2.2) ha hb hab
  obtain ⟨heq, hall⟩ := hpart (List.Sublist.refl rs)
  refine ⟨⟨hall, fun id hid hmem => ?_⟩, fun n => (hpart (take_sublist n rs)).2, hnew,
    fun r hr => ⟨(hspec r hr).1, (hspec r hr).2.1⟩⟩
  change id ∈ replaceIds rs ids2 at hid
  rw [heq] at hid
  obtain ⟨a, ha, rfl⟩ := mem_map.1 hid
  by_cases hra : a ∈ rs.map Prod.fst
  · obtain ⟨r, hr, rfl⟩ := mem_map.1 hra
    rw [renameBy_of_mem hnodup hr] at hmem
    exact (hspec r hr).2.2.1 hmem
  · rw [renameBy_of_not_mem hra] at hmem
    refine hra ?_
    rw [hold, mem_filter]
    exact ⟨mem_existingKeys.2 ha, by simpa using mem_existingKeys.2 hmem⟩

/-- The offset of the fast method is one of the ids, and none is above it. -/
theorem fast_unique_iff (h1 : ids1 ≠ []) (h2 : ids2.Nodup)
    (hfits : fitsFast (existingKeys ids1) (existingKeys ids2) = true) :
    (Method.fast (max (rbegin (existingKeys ids1)) (rbegin (existingKeys ids2)))).Unique ids1 ids2 ↔
      0 ∉ ids2 := by
  set offset := max (rbegin (existingKeys ids1)) (rbegin (existingKeys ids2)) with hoff
  have hle1 : ∀ id ∈ ids1, id ≤ offset := fun id hid =>
    Nat.le_trans (le_rbegin hid) (Nat.le_max_left _ _)
  have hle2 : ∀ id ∈ ids2, id ≤ offset := fun id hid =>
    Nat.le_trans (le_rbegin hid) (Nat.le_max_right _ _)
  constructor
  · rintro ⟨hapart, -, hrows⟩ h0
    obtain ⟨hnot, hzero⟩ := zero_offset h0 hapart hrows
    have hne : ids2 ≠ [] := ne_nil_of_mem h0
    rcases Nat.le_total (rbegin (existingKeys ids1)) (rbegin (existingKeys ids2)) with hle | hle
    · have hmem : offset ∈ ids2 := by
        rw [hoff, Nat.max_eq_right hle]
        exact rbegin_mem hne
      have h10 : rbegin (existingKeys ids1) = offset := by
        have := hzero hmem
        omega
      exact hnot (h10 ▸ rbegin_mem h1)
    · exact hnot (by rw [hoff, Nat.max_eq_left hle]; exact rbegin_mem h1)
  · intro h0
    refine ⟨apart_offset h2 hle1 h0, fun id hid => ?_,
      fun processed hp => nodup_offsetRows h2 hle2 h0 hp⟩
    have hint : int32Max = 2147483647 := rfl
    have hlast := le_rbegin hid
    simp only [fitsFast, decide_eq_true_eq, ← hoff] at hfits
    omega

/-- When a merge step gives unique keys: there is no id 0 in the second database, unless the fast
method is not used. -/
theorem method_unique_iff (h2 : ids2.Nodup) (hlen : ids1.length + ids2.length ≤ int32Max) :
    (∃ m, method ids1 ids2 = some m ∧ m.Unique ids1 ids2) ↔
      (0 ∈ ids2 → ids1 = [] ∨ ¬ fitsFast (existingKeys ids1) (existingKeys ids2)) := by
  have hlen1 := length_existingKeys ids1
  have hlen2 := length_existingKeys ids2
  unfold method
  dsimp only
  rw [if_neg (by omega)]
  by_cases h1 : ids1 = []
  · subst h1
    rw [if_pos (Or.inl (existingKeys_eq_nil.2 rfl))]
    refine ⟨fun _ _ => Or.inl rfl, fun _ => ⟨.none, rfl, ⟨h2, fun _ _ => not_mem_nil⟩, trivial⟩⟩
  by_cases hnil : ids2 = []
  · subst hnil
    rw [if_pos (Or.inr (existingKeys_eq_nil.2 rfl))]
    exact ⟨nofun,
      fun _ => ⟨.none, rfl, ⟨nodup_nil, nofun⟩, trivial⟩⟩
  rw [if_neg (not_or.2 ⟨fun h => h1 (existingKeys_eq_nil.1 h),
    fun h => hnil (existingKeys_eq_nil.1 h)⟩)]
  split
  case isTrue hfits =>
    constructor
    · rintro ⟨m, hm, hu⟩ h0
      cases hm
      exact absurd h0 ((fast_unique_iff h1 h2 hfits).1 hu)
    · intro hcond
      refine ⟨_, rfl, (fast_unique_iff h1 h2 hfits).2 fun h0 => ?_⟩
      rcases hcond h0 with h | h
      · exact h1 h
      · exact h hfits
  case isFalse hfits =>
    obtain ⟨rs, hrs, hold, hnew, hspec⟩ := slowMethod_existingKeys ids1 ids2 (by omega)
    refine ⟨fun _ _ => Or.inr hfits, fun _ => ⟨.slow rs, ?_, slow_unique h2 hold hnew hspec⟩⟩
    rw [hrs]
    rfl

theorem autoIncrementOffset_eq (ids1 ids2 : List Nat) :
    autoIncrementOffset ids1 ids2 = max (selectMax ids1) (selectMax ids2) := by
  unfold autoIncrementOffset
  split <;> omega

theorem autoIncrementUnique_iff (field : AutoIncrementField) (h2 : ids2.Nodup) :
    AutoIncrementUnique field ids1 ids2 ↔
      (0 ∈ ids2 → ids1 = [] ∧ ids2 = [0]) ∧
        (ids2 ≠ [] → max (selectMax ids1) (selectMax ids2) + selectMax ids2 < field.bound) := by
  unfold AutoIncrementUnique
  dsimp only
  rw [autoIncrementOffset_eq]
  set offset := max (selectMax ids1) (selectMax ids2) with hoff
  have hle1 : ∀ id ∈ ids1, id ≤ offset := fun id hid =>
    Nat.le_trans (le_selectMax hid) (Nat.le_max_left _ _)
  have hle2 : ∀ id ∈ ids2, id ≤ offset := fun id hid =>
    Nat.le_trans (le_selectMax hid) (Nat.le_max_right _ _)
  constructor
  · rintro ⟨hapart, hword, hrows⟩
    refine ⟨fun h0 => ?_, fun hne => ?_⟩
    · obtain ⟨hnot, hzero⟩ := zero_offset h0 hapart hrows
      have hne : ids2 ≠ [] := ne_nil_of_mem h0
      have h1 : ids1 = [] := by
        by_contra h1
        rcases Nat.le_total (selectMax ids1) (selectMax ids2) with hle | hle
        · have hmem : offset ∈ ids2 := by
            rw [hoff, Nat.max_eq_right hle]
            exact selectMax_mem hne
          have h10 : selectMax ids1 = offset := by
            have := hzero hmem
            omega
          exact hnot (h10 ▸ selectMax_mem h1)
        · exact hnot (by rw [hoff, Nat.max_eq_left hle]; exact selectMax_mem h1)
      refine ⟨h1, ?_⟩
      have hoff2 : offset = selectMax ids2 := by
        rw [hoff, h1]
        exact Nat.max_eq_right (Nat.zero_le _)
      have hz : offset = 0 := hzero (hoff2 ▸ selectMax_mem hne)
      -- All the ids are 0, and they are distinct.
      have hall : ∀ id ∈ ids2, id = 0 := fun id hid => by
        have := hle2 id hid
        omega
      match ids2, hne, h2, hall with
      | [a], _, _, hall => rw [hall a mem_cons_self]
      | a :: b :: rest, _, h2, hall =>
        have hab : a = b := (hall a mem_cons_self).trans
          (hall b (mem_cons_of_mem _ mem_cons_self)).symm
        exact absurd (hab ▸ mem_cons_self) (nodup_cons.1 h2).1
    · have := hword _ (selectMax_mem hne)
      omega
  · rintro ⟨hzero, hword⟩
    by_cases h0 : 0 ∈ ids2
    · obtain ⟨rfl, rfl⟩ := hzero h0
      have hz : offset = 0 := rfl
      rw [hz]
      refine ⟨⟨by simp, by simp⟩, by cases field <;> simp [AutoIncrementField.bound],
        fun processed hp => ?_⟩
      have hlen : ∀ (processed ids : List Nat), (offsetRows 0 processed ids).length = ids.length := by
        intro processed
        induction processed with
        | nil => exact fun _ => rfl
        | cons i rest ih => exact fun ids => (ih _).trans (length_modify ..)
      obtain ⟨a, ha⟩ := length_eq_one_iff.1 (hlen processed [0])
      rw [ha]
      exact nodup_singleton a
    · refine ⟨apart_offset h2 hle1 h0, fun id hid => ?_, fun processed hp =>
        nodup_offsetRows h2 hle2 h0 hp⟩
      have hle := le_selectMax hid
      have := hword (ne_nil_of_mem hid)
      omega

/-- When the keys of the second database are unique after a merge step, by either method, and after
the step of an auto-increment field -/
theorem unique_iff (field : AutoIncrementField) (ids1 ids2 : List Nat) (h2 : ids2.Nodup)
    (hlen : ids1.length + ids2.length ≤ int32Max) :
    ((∃ m, method ids1 ids2 = some m ∧ m.Unique ids1 ids2) ↔
      (0 ∈ ids2 → ids1 = [] ∨ ¬ fitsFast (existingKeys ids1) (existingKeys ids2))) ∧
    (AutoIncrementUnique field ids1 ids2 ↔
      (0 ∈ ids2 → ids1 = [] ∧ ids2 = [0]) ∧
        (ids2 ≠ [] → max (selectMax ids1) (selectMax ids2) + selectMax ids2 < field.bound)) :=
  ⟨method_unique_iff h2 hlen, autoIncrementUnique_iff field h2⟩

theorem unique_iff_small :
    ((∃ m, method [5, 7] [3, 5] = some m ∧ m.Unique [5, 7] [3, 5]) ↔
      (0 ∈ [3, 5] → [5, 7] = [] ∨ ¬ fitsFast (existingKeys [5, 7]) (existingKeys [3, 5]))) ∧
    (AutoIncrementUnique .guildBankLog [5, 7] [3, 5] ↔
      (0 ∈ [3, 5] → [5, 7] = [] ∧ [3, 5] = [0]) ∧
        ([3, 5] ≠ [] → max (selectMax [5, 7]) (selectMax [3, 5]) + selectMax [3, 5] < 2147483648)) :=
  unique_iff .guildBankLog [5, 7] [3, 5] (by decide) (by decide)

/-- The greatest log of the first database has the greatest id: nothing can be added to it. -/
theorem autoIncrement_overflow :
    ¬ ∀ (field : AutoIncrementField) (ids1 ids2 : List Nat),
      (∀ id ∈ ids1 ++ ids2, id < field.bound) → ids1.Nodup → ids2.Nodup →
      ids1.length + ids2.length ≤ int32Max →
      (∃ m, method ids1 ids2 = some m ∧ m.Unique ids1 ids2) ∧
        AutoIncrementUnique field ids1 ids2 := by
  intro h
  have hword := (h .characterItemLogs [4294967295] [1] (by decide) (by decide) (by decide)
    (by decide)).2.2.1
  exact absurd (hword 1 (by decide)) (by decide)

end RealmMerge

end Windrunner
