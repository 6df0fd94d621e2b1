import Mathlib.Data.List.Nodup

/-!
# Lists with a key

A list is `Keyed` by `key` when no two of its elements have the same key. In such a list the
element of a key is one element: replacing by key is `List.set` (`Keyed.map_replace`), and removing
by key is `List.eraseIdx` (`Keyed.filter_ne`). `Keyed.set_key` to `Keyed.exchange` say which
writes keep the property. `find?_map_at`, `find?_remove` and `find?_concat` say what a lookup by key
gives after a write by key.
-/

namespace Windrunner.Lib

open List hiding getElem?_eq_some_iff

variable {α β κ : Type} {key : α → κ} {l : List α} {i j : Nat} {x y : α}

/-- No two elements have the same key. -/
def Keyed (key : α → κ) (l : List α) : Prop := (l.map key).Nodup

/-- A write that keeps the key keeps the keys. -/
theorem map_set_key {x' : α} (hi : l[i]? = some x) (hk : key x' = key x) :
    (l.set i x').map key = l.map key := by
  obtain ⟨hlt, rfl⟩ := List.getElem?_eq_some_iff.mp hi
  rw [map_set, hk, ← getElem_map key, set_getElem_self]
  simpa using hlt

/-! ## Elements a filter drops -/

section Filter

variable {p : α → Bool}

theorem filter_set_of_not {x' : α} (hi : l[i]? = some x) (hx : ¬ p x = true) (hx' : ¬ p x' = true) :
    (l.set i x').filter p = l.filter p := by
  induction l generalizing i with
  | nil => rfl
  | cons a l ih =>
    cases i with
    | zero =>
      obtain rfl : a = x := by simpa using hi
      rw [set_cons_zero, filter_cons_of_neg hx', filter_cons_of_neg hx]
    | succ i => rw [set_cons_succ, filter_cons, filter_cons, ih hi]

theorem filter_eraseIdx_of_not (hi : l[i]? = some x) (hx : ¬ p x = true) :
    (l.eraseIdx i).filter p = l.filter p := by
  induction l generalizing i with
  | nil => rfl
  | cons a l ih =>
    cases i with
    | zero =>
      obtain rfl : a = x := by simpa using hi
      rw [eraseIdx_cons_zero, filter_cons_of_neg hx]
    | succ i => rw [eraseIdx_cons_succ, filter_cons, filter_cons, ih hi]

/-- A map that moves no element out of `own` and changes no other. -/
theorem filter_map_other {f : α → α} {own : α → Prop} [DecidablePred own]
    (h : ∀ x ∈ l, own x ∧ own (f x) ∨ f x = x) :
    (l.map f).filter (fun x => ¬ own x) = l.filter fun x => ¬ own x := by
  induction l with
  | nil => rfl
  | cons a l ih =>
    have ih := ih fun x hx => h x (mem_cons_of_mem _ hx)
    obtain ⟨h1, h2⟩ | h1 := h a mem_cons_self
    · rw [map_cons, filter_cons_of_neg (by simp [h2]), filter_cons_of_neg (by simp [h1]),
        ih]
    · rw [map_cons, h1, filter_cons, filter_cons, ih]

end Filter

/-! ## Distinct keys -/

namespace Keyed

theorem nil : Keyed key [] := nodup_nil

/-- Two elements of one key are one element. -/
theorem inj (h : Keyed key l) (hx : x ∈ l) (hy : y ∈ l) (hk : key x = key y) : x = y :=
  inj_on_of_nodup_map h hx hy hk

theorem set_key {x' : α} (h : Keyed key l) (hi : l[i]? = some x) (hk : key x' = key x) :
    Keyed key (l.set i x') := by
  unfold Keyed
  rw [map_set_key hi hk]
  exact h

theorem set_fresh {x' : α} (h : Keyed key l) (hk : ∀ y ∈ l, key y ≠ key x') :
    Keyed key (l.set i x') := by
  unfold Keyed
  rw [map_set]
  refine List.Nodup.set h ?_
  rw [mem_map]
  rintro ⟨y, hy, he⟩
  exact hk y hy he

theorem concat (h : Keyed key l) (hk : ∀ y ∈ l, key y ≠ key x) : Keyed key (l ++ [x]) := by
  unfold Keyed
  rw [map_append, nodup_append]
  refine ⟨h, nodup_singleton _, ?_⟩
  intro a ha b hb
  obtain ⟨y, hy, rfl⟩ := mem_map.mp ha
  rw [map_singleton, mem_singleton] at hb
  rw [hb]
  exact hk y hy

/-- A map that keeps the keys. -/
theorem map {f : β → α} {key' : β → κ} {l : List β} (h : Keyed key' l)
    (hk : ∀ b ∈ l, key (f b) = key' b) : Keyed key (l.map f) := by
  have hmap : (l.map f).map key = l.map key' := by
    rw [map_map]
    exact map_congr_left hk
  unfold Keyed
  rw [hmap]
  exact h

theorem filter (h : Keyed key l) (p : α → Bool) : Keyed key (l.filter p) :=
  List.Nodup.sublist (filter_sublist.map key) h

theorem eraseIdx (h : Keyed key l) (i : Nat) : Keyed key (l.eraseIdx i) :=
  List.Nodup.sublist ((eraseIdx_sublist l i).map key) h

/-- Two elements exchange their keys. -/
theorem exchange {x' y' : α} (h : Keyed key l) (hi : l[i]? = some x) (hj : l[j]? = some y)
    (hx : key x' = key y) (hy : key y' = key x) : Keyed key ((l.set i x').set j y') := by
  obtain ⟨hil, rfl⟩ := List.getElem?_eq_some_iff.mp hi
  obtain ⟨hjl, rfl⟩ := List.getElem?_eq_some_iff.mp hj
  unfold Keyed
  rw [map_set, map_set, hx, hy]
  have hp := @set_set_perm _ (l.map key) i j (by simpa using hil) (by simpa using hjl)
  rw [getElem_map, getElem_map] at hp
  exact hp.nodup_iff.mpr h

theorem cons_iff : Keyed key (x :: l) ↔ (∀ y ∈ l, key y ≠ key x) ∧ Keyed key l := by
  unfold Keyed
  rw [map_cons, nodup_cons, mem_map]
  refine and_congr_left fun _ => ⟨fun h y hy he => h ⟨y, hy, he⟩, ?_⟩
  rintro h ⟨y, hy, he⟩
  exact h y hy he

variable [DecidableEq κ]

section

variable (h : Keyed key l)
include h

/-- Replacing the elements of a key changes one element. -/
theorem map_replace {f : α → β} {z : α} (hi : l[i]? = some x) :
    (l.map fun y => if key y = key x then f z else f y) = (l.set i z).map f := by
  induction l generalizing i with
  | nil => simp at hi
  | cons a l ih =>
    obtain ⟨hne, hl⟩ := cons_iff.mp h
    cases i with
    | zero =>
      obtain rfl : a = x := by simpa using hi
      rw [map_cons, if_pos rfl, set_cons_zero, map_cons]
      refine congrArg _ (map_congr_left fun y hy => ?_)
      rw [if_neg (hne y hy)]
    | succ i =>
      have hx : x ∈ l := mem_of_getElem? hi
      rw [map_cons, if_neg (fun he => hne x hx he.symm), set_cons_succ, map_cons]
      exact congrArg _ (ih hl hi)

/-- Removing the elements of a key removes one element. -/
theorem filter_ne (hi : l[i]? = some x) :
    l.filter (fun y => !decide (key y = key x)) = l.eraseIdx i := by
  induction l generalizing i with
  | nil => simp at hi
  | cons a l ih =>
    obtain ⟨hne, hl⟩ := cons_iff.mp h
    cases i with
    | zero =>
      obtain rfl : a = x := by simpa using hi
      rw [filter_cons_of_neg (by simp), eraseIdx_cons_zero]
      exact filter_eq_self.mpr fun y hy => by simp [hne y hy]
    | succ i =>
      have hx : x ∈ l := mem_of_getElem? hi
      have hax : key a ≠ key x := fun he => hne x hx he.symm
      rw [filter_cons_of_pos (by simp [hax]), eraseIdx_cons_succ]
      exact congrArg _ (ih hl hi)

/-- The element of a key after a write that keeps the key. -/
theorem find?_set {x' : α} {k : κ} (hi : l[i]? = some x) (hk : key x' = key x) :
    (l.set i x').find? (fun y => key y == k)
      = if k = key x then some x' else l.find? fun y => key y == k := by
  induction l generalizing i with
  | nil => simp at hi
  | cons a l ih =>
    obtain ⟨hne, hl⟩ := cons_iff.mp h
    cases i with
    | zero =>
      obtain rfl : a = x := by simpa using hi
      rw [set_cons_zero, find?_cons, find?_cons, hk]
      by_cases hak : key a = k
      · simp [hak]
      · simp [beq_false_of_ne hak, Ne.symm hak]
    | succ i =>
      have hx : x ∈ l := mem_of_getElem? hi
      rw [set_cons_succ, find?_cons, find?_cons, ih hl hi]
      by_cases hak : key a = k
      · simp [hak, show k ≠ key x from fun he => hne x hx (he.symm.trans hak.symm)]
      · simp [beq_false_of_ne hak]

/-- No element of a key is left when the one of that key is erased. -/
theorem find?_eraseIdx {k : κ} (hi : l[i]? = some x) :
    (l.eraseIdx i).find? (fun y => key y == k)
      = if k = key x then none else l.find? fun y => key y == k := by
  rw [← filter_ne h hi, find?_filter]
  split_ifs with hk
  · subst hk
    rw [find?_eq_none]
    intro y _
    by_cases hy : key y = key x <;> simp [hy]
  · refine congrArg (l.find? ·) (funext fun y => ?_)
    by_cases hy : key y = k
    · simp [hy, hk]
    · simp [hy]

/-- In a keyed list an element is the one that is found. -/
theorem find?_eq_some_iff {k : κ} :
    l.find? (fun y => key y == k) = some x ↔ x ∈ l ∧ key x = k := by
  constructor
  · intro hf
    exact ⟨mem_of_find?_eq_some hf, by simpa using find?_some hf⟩
  · rintro ⟨hx, rfl⟩
    obtain ⟨y, hy⟩ : ∃ y, l.find? (fun y => key y == key x) = some y :=
      Option.isSome_iff_exists.mp (find?_isSome.mpr ⟨x, hx, by simp⟩)
    rw [hy, h.inj (mem_of_find?_eq_some hy) hx (by simpa using find?_some hy)]

/-- In a keyed list a filter keeps the element that is found, or drops it. -/
theorem find?_filter {k : κ} {c : α → Bool} :
    (l.filter c).find? (fun y => key y == k) = (l.find? fun y => key y == k).filter c := by
  refine Option.ext fun y => ?_
  rw [(h.filter c).find?_eq_some_iff, Option.filter_eq_some_iff, h.find?_eq_some_iff,
    mem_filter]
  exact and_right_comm

/-- One element has the key. -/
theorem filter_key_eq {k : κ} (hx : x ∈ l) (hk : key x = k) :
    (l.filter (key · = k)).map key = [k] := by
  have hcount : (l.map key).count k = 1 :=
    count_eq_one_of_mem h (hk ▸ mem_map_of_mem hx)
  have hmap : (l.filter (key · = k)).map key = (l.map key).filter (· = k) := by
    rw [filter_map]
    rfl
  rw [hmap, filter_eq, hcount]
  rfl

end

end Keyed

/-! ## Lookup by key -/

section Lookup

variable [DecidableEq κ] {p q : κ}

/-- The elements of one key are changed, and keep the key. -/
theorem find?_map_at {f : α → α} (hf : ∀ x, key x = q → key (f x) = q) :
    (l.map fun x => if key x = q then f x else x).find? (fun y => key y == p)
      = if p = q then (l.find? fun y => key y == p).map f else l.find? fun y => key y == p := by
  induction l with
  | nil => simp
  | cons a l ih =>
    rw [map_cons, find?_cons, find?_cons, ih]
    by_cases ha : key a = q
    · rw [if_pos ha, hf a ha, ha]
      by_cases hp : p = q
      · simp [hp]
      · simp [hp, beq_false_of_ne (Ne.symm hp)]
    · rw [if_neg ha]
      by_cases hap : key a = p
      · simp [hap, show p ≠ q from fun h => ha (hap.trans h)]
      · simp [beq_false_of_ne hap]

/-- The elements of one key are removed. -/
theorem find?_remove :
    (l.filter (key · != q)).find? (fun y => key y == p)
      = if p = q then none else l.find? fun y => key y == p := by
  rw [find?_filter]
  split_ifs with h
  · rw [find?_eq_none]
    intro y _
    by_cases hy : key y = q <;> simp [hy, h]
  · refine congrArg (l.find? ·) (funext fun y => ?_)
    by_cases hy : key y = p
    · simp [hy, h]
    · simp [hy]

theorem find?_concat :
    (l ++ [x]).find? (fun y => key y == p)
      = (l.find? fun y => key y == p).or (if p = key x then some x else none) := by
  rw [find?_append, find?_singleton]
  by_cases h : p = key x
  · simp [h]
  · simp [h, Ne.symm h]

end Lookup

end Windrunner.Lib
