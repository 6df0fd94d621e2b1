import Mathlib.Data.List.GetD
import Mathlib.Data.List.Rotate

/-!
# Turns round a list

The members of a list have their turns in its order, again and again, those that do not satisfy `p`
are passed over.

* `nextTurn`: who is next after a member; for a stranger the search starts with the first member.
* `turn`: how many of those who satisfy `p` come up to a member. The next one is at this place, round
  the list (`nextTurn_eq`), and for him there is one more (`turn_getElem`).
* `count_turns`: over `k` rounds each has `k` turns.
-/

namespace Windrunner.Lib

open List

variable {α : Type} [DecidableEq α] {p : α → Bool} {l : List α} {a b : α} {n k : Nat}

/-- The members from the one after `a` on, round to `a`. -/
def after (l : List α) (a : α) : List α := l.drop (l.idxOf a + 1) ++ l.take (l.idxOf a + 1)

def nextTurn (p : α → Bool) (l : List α) (a : α) : Option α := (after l a).find? p

/-- The turns from the one after `a` on. -/
def turns (p : α → Bool) (l : List α) : Nat → α → List α
  | 0, _ => []
  | n + 1, a => (nextTurn p l a).getD a :: turns p l n ((nextTurn p l a).getD a)

def turn (p : α → Bool) (l : List α) (a : α) : Nat := (l.take (l.idxOf a + 1)).countP p

theorem after_of_mem (h : a ∈ l) : after l a = l.rotate (l.idxOf a + 1) :=
  (rotate_eq_drop_append_take (idxOf_lt_length_of_mem h)).symm

theorem after_of_notMem (h : a ∉ l) : after l a = l := by
  have hlen : l.length ≤ l.idxOf a + 1 := by
    rw [idxOf_eq_length h]
    omega
  rw [after, drop_of_length_le hlen, take_of_length_le hlen, nil_append]

theorem filter_after : (after l a).filter p = (l.filter p).rotate (turn p l a) := by
  have hsplit : l.filter p = (l.take (l.idxOf a + 1)).filter p ++ (l.drop (l.idxOf a + 1)).filter p := by
    rw [← filter_append, take_append_drop]
  rw [after, filter_append, hsplit, turn, countP_eq_length_filter,
    rotate_append_length_eq]

/-- The next one is found round the list of those who satisfy `p`. -/
theorem nextTurn_eq : nextTurn p l a = (l.filter p)[turn p l a % (l.filter p).length]? := by
  rw [nextTurn, ← head?_filter, filter_after, ← rotate_mod]
  by_cases h : l.filter p = []
  · simp [h]
  · exact head?_rotate (Nat.mod_lt _ (length_pos_iff.mpr h))

theorem turn_getElem (hl : l.Nodup) (hk : k < (l.filter p).length) :
    turn p l (l.filter p)[k] = k + 1 := by
  generalize hb : (l.filter p)[k] = b
  have hmem : b ∈ l.filter p := hb ▸ getElem_mem hk
  obtain ⟨hbl, hpb⟩ := mem_filter.mp hmem
  have hi := idxOf_lt_length_of_mem hbl
  -- up to `b` there is a prefix of those who satisfy `p`, and `b` is its last one
  have hup : (l.take (l.idxOf b + 1)).filter p = (l.take (l.idxOf b)).filter p ++ [b] := by
    rw [take_add_one, getElem?_eq_getElem hi, getElem_idxOf hi, filter_append]
    simp [hpb]
  have hsplit : l.filter p = (l.take (l.idxOf b)).filter p ++ ([b] ++
      (l.drop (l.idxOf b + 1)).filter p) := by
    rw [← append_assoc, ← hup, ← filter_append, take_append_drop]
  have hlt : ((l.take (l.idxOf b)).filter p).length < (l.filter p).length := by
    rw [hsplit]
    simp
  have hat : (l.filter p)[((l.take (l.idxOf b)).filter p).length] = b := by
    simp [hsplit]
  have hk' : ((l.take (l.idxOf b)).filter p).length = k :=
    ((hl.filter p).getElem_inj_iff).mp (hat.trans hb.symm)
  rw [turn, countP_eq_length_filter, hup, length_append, hk', length_singleton]

/-! ## Rounds -/

theorem turns_eq (hl : l.Nodup) (hne : l.filter p ≠ []) :
    turns p l n a = (range n).map fun t =>
      (l.filter p).getD ((turn p l a + t) % (l.filter p).length) a := by
  have hpos := length_pos_iff.mpr hne
  induction n generalizing a with
  | zero => rfl
  | succ n ih =>
    have hlt := Nat.mod_lt (turn p l a) hpos
    have hnext : (nextTurn p l a).getD a = (l.filter p)[turn p l a % (l.filter p).length] := by
      rw [nextTurn_eq, getElem?_eq_getElem hlt, Option.getD_some]
    rw [turns, hnext, ih, turn_getElem hl hlt, range_succ_eq_map, map_cons, map_map]
    congr 1
    · rw [Nat.add_zero, getD_eq_getElem _ _ hlt]
    · refine map_congr_left fun t _ => ?_
      have hmod : (turn p l a % (l.filter p).length + 1 + t) % (l.filter p).length =
          (turn p l a + (t + 1)) % (l.filter p).length := by
        rw [Nat.add_assoc, Nat.mod_add_mod, Nat.add_comm 1 t]
      rw [Function.comp, hmod, getD_eq_getElem _ _ (Nat.mod_lt _ hpos),
        getD_eq_getElem _ _ (Nat.mod_lt _ hpos)]

omit [DecidableEq α] in
/-- A round from any place on is the list, rotated. -/
theorem round_eq (l : List α) (c : Nat) (a : α) :
    ((range l.length).map fun t => l.getD ((c + t) % l.length) a) = l.rotate c := by
  refine ext_getElem (by simp) fun t ht _ => ?_
  rw [length_map, length_range] at ht
  rw [getElem_map, getElem_range, getElem_rotate, Nat.add_comm c t,
    getD_eq_getElem _ _ (Nat.mod_lt _ (by omega))]

/-- Over `k` rounds each of those who satisfy `p` has `k` turns. -/
theorem count_turns (hl : l.Nodup) (hb : b ∈ l.filter p) :
    (turns p l (k * (l.filter p).length) a).count b = k := by
  rw [turns_eq hl (ne_nil_of_mem hb)]
  generalize turn p l a = c
  have hone : ((l.filter p).rotate c).count b = 1 := by
    rw [((l.filter p).rotate_perm c).count_eq]
    exact count_eq_one_of_mem (hl.filter p) hb
  induction k with
  | zero => simp
  | succ k ih =>
    rw [Nat.succ_mul, range_add, map_append, count_append, ih, map_map, ← hone,
      ← round_eq _ c a]
    congr 2
    refine map_congr_left fun t _ => ?_
    rw [Function.comp, Nat.add_left_comm, Nat.mul_add_mod_self_right]

end Windrunner.Lib
