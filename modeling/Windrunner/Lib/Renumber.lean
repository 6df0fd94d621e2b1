import Mathlib.Data.List.Sort

/-!
# Renumbering in place

The values of a list are replaced one after the other by `n`, `n + 1` and so on, while those that
come later are still there. When the list is ascending and its values are not below `n`, no value is
replaced twice (`relabel_sorted`).
-/

namespace Windrunner.Lib

open List

/-- What becomes of `x` while the values of a list are replaced by `n`, `n + 1`, ... -/
def relabel : List Nat → Nat → Nat → Nat
  | [], _, x => x
  | i :: l, n, x => relabel l (n + 1) (if x = i then n else x)

variable {l : List Nat} {n x : Nat}

theorem relabel_of_notMem (h : x ∉ l) : relabel l n x = x := by
  induction l generalizing n with
  | nil => rfl
  | cons i l ih =>
    obtain ⟨hi, hl⟩ := ne_and_not_mem_of_not_mem_cons h
    unfold relabel
    rw [if_neg hi]
    exact ih hl

theorem relabel_sorted (h : l.Pairwise (· < ·)) (hn : ∀ i ∈ l, n ≤ i) :
    relabel l n x = if x ∈ l then n + l.idxOf x else x := by
  induction l generalizing n with
  | nil => rfl
  | cons i l ih =>
    obtain ⟨hi, hl⟩ := pairwise_cons.mp h
    have hfirst := hn i mem_cons_self
    unfold relabel
    by_cases hx : x = i
    · -- the new number is not one of those that come later
      subst hx
      have hlater : n ∉ l := fun hm => by have := hi n hm; omega
      rw [if_pos rfl, relabel_of_notMem hlater, if_pos mem_cons_self, idxOf_cons_self]
      rfl
    · rw [if_neg hx, ih hl fun j hj => by have := hi j hj; omega]
      by_cases hm : x ∈ l
      · rw [if_pos hm, if_pos (mem_cons_of_mem i hm), idxOf_cons_ne l (Ne.symm hx)]
        omega
      · rw [if_neg hm, if_neg fun hc => (mem_cons.mp hc).elim hx hm]

/-- The place of a value in an ascending list -/
theorem idxOf_eq_countP (h : l.Pairwise (· < ·)) (hx : x ∈ l) : l.idxOf x = l.countP (· < x) := by
  induction l with
  | nil => cases hx
  | cons i l ih =>
    obtain ⟨hi, hl⟩ := pairwise_cons.mp h
    by_cases he : x = i
    · subst he
      have hnone : l.countP (· < x) = 0 := by
        refine countP_eq_zero.mpr fun j hj => ?_
        have := hi j hj
        simp
        omega
      rw [idxOf_cons_self, countP_cons, hnone]
      simp
    · have hm := (mem_cons.mp hx).resolve_left he
      have hlt := hi x hm
      rw [idxOf_cons_ne l (Ne.symm he), ih hl hm, countP_cons]
      simp [hlt]

end Windrunner.Lib
