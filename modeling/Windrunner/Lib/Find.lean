
/-!
# Searching in a string

The searches of a string class, on lists: for an element from a position on (`findFrom`), and for the first
place where a list of elements stands (`findSub`). A position is a number of elements; there is nothing
to find behind the end.

* `findFrom_eq_some`, `findSub_eq_some`: what a search finds.
* `findFrom_append`, `findSub_append`: what it finds in a list whose parts are known.
-/

namespace Windrunner.Lib

open List hiding getElem?_eq_some_iff

variable {α : Type} [DecidableEq α]

def findFrom (s : List α) (c : α) (pos : Nat) : Option Nat :=
  ((s.drop pos).findIdx? (· == c)).map (pos + ·)

def findSub (s t : List α) : Option Nat :=
  (range (s.length + 1)).find? fun p => t.isPrefixOf (s.drop p)

variable {s t : List α} {c : α} {p e : Nat}

theorem findFrom_eq_some : findFrom s c p = some e ↔
    p ≤ e ∧ s[e]? = some c ∧ ∀ i, p ≤ i → i < e → s[i]? ≠ some c := by
  unfold findFrom
  rw [Option.map_eq_some_iff]
  constructor
  · rintro ⟨i, hi, rfl⟩
    obtain ⟨hlt, hc, hbefore⟩ := findIdx?_eq_some_iff_getElem.1 hi
    have hget : ∀ j, (s.drop p)[j]? = s[p + j]? := fun j => getElem?_drop
    refine ⟨Nat.le_add_right p i, ?_, fun j hpj hj hsome => ?_⟩
    · rw [← hget, getElem?_eq_getElem hlt]
      simpa using hc
    · have hji : j - p < i := by omega
      have hno := hbefore (j - p) hji
      have hat : s[p + (j - p)]? = some c := by rwa [Nat.add_sub_cancel' hpj]
      rw [← hget, getElem?_eq_getElem (by omega)] at hat
      simp [Option.some.inj hat] at hno
  · rintro ⟨hpe, hc, hbefore⟩
    have hget : ∀ j, (s.drop p)[j]? = s[p + j]? := fun j => getElem?_drop
    have hat : (s.drop p)[e - p]? = some c := by rw [hget, Nat.add_sub_cancel' hpe, hc]
    obtain ⟨hlt, heq⟩ := List.getElem?_eq_some_iff.1 hat
    refine ⟨e - p, findIdx?_eq_some_iff_getElem.2 ⟨hlt, by simpa using heq, fun j hj => ?_⟩,
      Nat.add_sub_cancel' hpe⟩
    have hne := hbefore (p + j) (Nat.le_add_right p j) (by omega)
    rw [← hget, getElem?_eq_getElem (by omega)] at hne
    simpa using hne

theorem findFrom_lt (h : findFrom s c p = some e) : e < s.length :=
  (List.getElem?_eq_some_iff.1 (findFrom_eq_some.1 h).2.1).1

/-- The first `c` after `a` -/
theorem findFrom_append {a w b : List α} (hw : c ∉ w) :
    findFrom (a ++ w ++ c :: b) c a.length = some (a.length + w.length) := by
  rw [findFrom_eq_some]
  refine ⟨Nat.le_add_right _ _, ?_, fun i hi hlt hsome => hw ?_⟩
  · rw [← length_append, getElem?_append_right (Nat.le_refl _)]
    simp
  · rw [append_assoc, getElem?_append_right hi,
      getElem?_append_left (by omega)] at hsome
    exact mem_of_getElem? hsome

/-- Where there is no `c` before the one that is found -/
theorem not_mem_of_findFrom {a w b : List α} (h : findFrom (a ++ w ++ b) c a.length =
    some (a.length + w.length)) : c ∉ w := by
  intro hmem
  obtain ⟨i, hi, hc⟩ := getElem_of_mem hmem
  refine (findFrom_eq_some.1 h).2.2 (a.length + i) (Nat.le_add_right _ _) (by omega) ?_
  rw [append_assoc, getElem?_append_right (Nat.le_add_right _ _), Nat.add_sub_cancel_left,
    getElem?_append_left hi, getElem?_eq_getElem hi, hc]

theorem findSub_eq_some : findSub s t = some p ↔
    p ≤ s.length ∧ t <+: s.drop p ∧ ∀ q < p, ¬ t <+: s.drop q := by
  unfold findSub
  rw [find?_range_eq_some]
  simp only [Bool.not_eq_true', isPrefixOf_iff_prefix, ← Bool.not_eq_true, mem_range]
  constructor
  · rintro ⟨hp, hle, hno⟩
    exact ⟨by omega, hp, hno⟩
  · rintro ⟨hle, hp, hno⟩
    exact ⟨hp, by omega, hno⟩

/-- The list has an element that stands nowhere before it. -/
theorem findSub_append {a u v b : List α} (ha : c ∉ a) (hu : c ∉ u) :
    findSub (a ++ (u ++ c :: v) ++ b) (u ++ c :: v) = some a.length := by
  rw [findSub_eq_some]
  refine ⟨by simp, ?_, fun q hq hpre => ?_⟩
  · rw [append_assoc, drop_left]
    exact prefix_append _ b
  · obtain ⟨rest, hrest⟩ := hpre
    -- the element stands behind `u`, which is still in `a` or `u`
    have hat : (a ++ (u ++ c :: v) ++ b)[q + u.length]? = some c := by
      rw [← getElem?_drop, ← hrest, append_assoc, getElem?_append_right (Nat.le_refl _)]
      simp
    have hau : (a ++ u)[q + u.length]? = some c := by
      have hlen : q + u.length < (a ++ u).length := by
        rw [length_append]
        omega
      rw [← hat, append_assoc, append_assoc, ← append_assoc a u,
        getElem?_append_left hlen]
    rcases mem_append.1 (mem_of_getElem? hau) with h | h
    · exact ha h
    · exact hu h

end Windrunner.Lib
