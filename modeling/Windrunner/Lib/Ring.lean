import Mathlib.Data.List.DropRight
import Mathlib.Data.List.Sort

/-!
# A ring of rows

The entries of a list that grows at its end are written to `n` slots, each entry to the slot after the
last one and the first slot after the last. `ringRows` is what the slots hold, in the order of the
entries; writing the next entry is `ring_push`.
-/

namespace Windrunner.Lib

open List

variable {α β : Type} {n : Nat}

/-! ## The last entries -/

/-- A list of bounded length loses its first entry for a new one at its end. -/
theorem rtake_push (hn : 0 < n) (l : List α) (x : α) :
    (if n ≤ (l.rtake n).length then (l.rtake n).tail else l.rtake n) ++ [x] = (l ++ [x]).rtake n := by
  obtain ⟨k, rfl⟩ := Nat.exists_eq_succ_of_ne_zero (Nat.pos_iff_ne_zero.mp hn)
  rw [rtake_concat_succ]
  congr 1
  unfold rtake
  rw [length_drop]
  split
  · rw [tail_drop]
    congr 1
    omega
  · congr 1
    omega

theorem rtake_rtake {k : Nat} (h : k ≤ n) (l : List α) : (l.rtake n).rtake k = l.rtake k := by
  unfold rtake
  rw [length_drop, drop_drop]
  congr 1
  omega

theorem rtake_map (f : α → β) (l : List α) : (l.map f).rtake n = (l.rtake n).map f := by
  unfold rtake
  rw [length_map, map_drop]

/-! ## Slots -/

/-- The slot of the entry that has `i` entries before it. -/
def ringSlot (n i : Nat) : Nat := (i + 1) % n

/-- Entries that are fewer than `n` apart are in different slots. -/
theorem ringSlot_ne {i j : Nat} (hlt : i < j) (hnear : j < i + n) : ringSlot n i ≠ ringSlot n j := by
  intro h
  have hzero := Nat.sub_mod_eq_zero_of_mod_eq h.symm
  rw [Nat.add_sub_add_right, Nat.mod_eq_of_lt (by omega)] at hzero
  omega

theorem ringSlot_add (n i : Nat) : ringSlot n (i + n) = ringSlot n i := by
  unfold ringSlot
  rw [Nat.add_right_comm, Nat.add_mod_right]

section Rows

variable (row : Nat → α → β)

/-- What the `n` slots hold, when `row i x` is written for the entry `x` that has `i` before it. -/
def ringRows (n : Nat) (l : List α) : List β := (l.zipIdx.map fun x => row x.2 x.1).rtake n

variable {row} {l : List α}

@[simp] theorem ringRows_nil : ringRows row n [] = [] := rtake_nil n

theorem mem_drop_rows {k : Nat} {b : β} (h : b ∈ (l.zipIdx.map fun x => row x.2 x.1).drop k) :
    ∃ i a, k ≤ i ∧ i < l.length ∧ b = row i a := by
  obtain ⟨j, hj, rfl⟩ := mem_iff_getElem.mp h
  rw [length_drop, length_map, length_zipIdx] at hj
  rw [getElem_drop, getElem_map, getElem_zipIdx]
  exact ⟨_, _, by omega, by omega, rfl⟩

theorem rows_concat (l : List α) (x : α) :
    ((l ++ [x]).zipIdx.map fun x => row x.2 x.1) =
      (l.zipIdx.map fun x => row x.2 x.1) ++ [row l.length x] := by
  rw [zipIdx_append, map_append, Nat.zero_add]
  rfl

/-- The next entry goes to its slot, from which the row is taken that was in it. -/
theorem ring_push {slot : β → Nat} (hslot : ∀ i a, slot (row i a) = ringSlot n i) (hn : 0 < n)
    (l : List α) (x : α) :
    (ringRows row n l).filter (fun b => slot b ≠ ringSlot n l.length) ++ [row l.length x] =
      ringRows row n (l ++ [x]) := by
  have hrows : (l.zipIdx.map fun x => row x.2 x.1).length = l.length := by
    rw [length_map, length_zipIdx]
  have hkept : ∀ {k}, l.length < k + n →
      ((l.zipIdx.map fun x => row x.2 x.1).drop k).filter (fun b => slot b ≠ ringSlot n l.length) =
        (l.zipIdx.map fun x => row x.2 x.1).drop k := by
    intro k hk
    refine filter_eq_self.mpr fun b hb => decide_eq_true ?_
    obtain ⟨i, a, hki, hi, rfl⟩ := mem_drop_rows hb
    rw [hslot]
    exact ringSlot_ne hi (by omega)
  unfold ringRows
  rw [rows_concat, ← rtake_push hn]
  congr 1
  unfold rtake
  rw [hrows, length_drop, hrows]
  by_cases hfull : n ≤ l.length
  · -- The row of the entry `n` before is in the slot, and the first of all.
    rw [if_pos (by omega), tail_drop,
      drop_eq_getElem_cons (show l.length - n < _ by rw [hrows]; omega)]
    rw [filter_cons_of_neg, hkept (by omega)]
    rw [getElem_map, getElem_zipIdx, hslot]
    have hsame := ringSlot_add n (l.length - n)
    rw [Nat.sub_add_cancel hfull] at hsame
    simp [hsame]
  · rw [if_neg (by omega)]
    exact hkept (by omega)

/-- No two rows are in one slot. -/
theorem ring_nodup {slot : β → Nat} (hslot : ∀ i a, slot (row i a) = ringSlot n i) (hn : 0 < n)
    (l : List α) : ((ringRows row n l).map slot).Nodup := by
  induction l using reverseRecOn with
  | nil => simp
  | append_singleton l x ih =>
    rw [← ring_push hslot hn, map_append, nodup_append]
    refine ⟨(filter_sublist.map slot).nodup ih, nodup_singleton _, ?_⟩
    rintro a ha b hb rfl
    obtain ⟨r, hr, rfl⟩ := mem_map.mp ha
    rw [map_singleton, mem_singleton, hslot] at hb
    exact of_decide_eq_true (mem_filter.mp hr).2 hb

end Rows

/-! ## Sorting -/

/-- A list in the other order is turned round by a sort. -/
theorem insertionSort_eq_reverse {r : α → α → Prop} [DecidableRel r] {l : List α}
    (h : l.Pairwise fun a b => ¬ r a b) : l.insertionSort r = l.reverse := by
  have hlast : ∀ (a : α) (l : List α), (∀ b ∈ l, ¬ r a b) → l.orderedInsert r a = l ++ [a] := by
    intro a l hl
    induction l with
    | nil => rfl
    | cons b l ih =>
      rw [orderedInsert_cons, if_neg (hl b mem_cons_self),
        ih fun c hc => hl c (mem_cons_of_mem _ hc)]
      rfl
  induction h with
  | nil => rfl
  | cons ha _ ih =>
    rw [insertionSort_cons, ih, reverse_cons]
    exact hlast _ _ fun b hb => ha b (mem_reverse.mp hb)

end Windrunner.Lib
