import Mathlib.Data.List.Infix

/-!
# Picking with a quota

Elements of several kinds come one after the other, and of each kind only so many are wanted.

* `pickNext`: an element is picked while there is room for its kind; `pick` is the whole run.
* `filter_pick`: of each kind the first ones are picked, whatever comes between them.
* `mem_pick`, `countP_pick`: which elements these are, and how many.
-/

namespace Windrunner.Lib

variable {α κ : Type} [DecidableEq κ] (kind : α → κ) (limit : κ → Nat)

/-- The elements of a kind. -/
def ofKind (k : κ) (l : List α) : List α := l.filter fun x => kind x == k

@[simp] theorem ofKind_nil (k : κ) : ofKind kind k ([] : List α) = [] := rfl

theorem ofKind_concat (k : κ) (l : List α) (x : α) :
    ofKind kind k (l ++ [x]) = if kind x = k then ofKind kind k l ++ [x] else ofKind kind k l := by
  unfold ofKind
  rw [List.filter_append, List.filter_singleton]
  by_cases h : kind x = k
  · simp [h]
  · rw [if_neg h, beq_eq_false_iff_ne.mpr h, cond_false, List.append_nil]

theorem mem_ofKind {k : κ} {l : List α} {x : α} : x ∈ ofKind kind k l ↔ x ∈ l ∧ kind x = k := by
  simp [ofKind]

/-- An element is picked while there is room for its kind. -/
def pickNext (picked : List α) (x : α) : List α :=
  if (ofKind kind (kind x) picked).length < limit (kind x) then picked ++ [x] else picked

def pick (l : List α) : List α := l.foldl (pickNext kind limit) []

@[simp] theorem pick_nil : pick kind limit ([] : List α) = [] := rfl

theorem pick_concat (l : List α) (x : α) :
    pick kind limit (l ++ [x]) = pickNext kind limit (pick kind limit l) x := by
  rw [pick, List.foldl_append]
  rfl

/-- Of each kind the first ones are picked. -/
theorem filter_pick (l : List α) (k : κ) :
    ofKind kind k (pick kind limit l) = (ofKind kind k l).take (limit k) := by
  induction l using List.reverseRecOn with
  | nil => simp
  | append_singleton l x ih =>
    rw [pick_concat, pickNext, ofKind_concat]
    by_cases hk : kind x = k
    · subst hk
      rw [ih, List.length_take, if_pos rfl]
      by_cases hroom : (ofKind kind (kind x) l).length < limit (kind x)
      · rw [if_pos (by omega), ofKind_concat, if_pos rfl, ih, List.take_of_length_le (by omega),
          List.take_of_length_le (by simp; omega)]
      · rw [if_neg (by omega), ih, List.take_append_of_le_length (by omega)]
    · rw [if_neg hk]
      split
      · rw [ofKind_concat, if_neg hk, ih]
      · exact ih

theorem mem_pick {l : List α} {x : α} :
    x ∈ pick kind limit l ↔ x ∈ (ofKind kind (kind x) l).take (limit (kind x)) := by
  rw [← filter_pick, mem_ofKind]
  exact ⟨fun h => ⟨h, rfl⟩, fun h => h.1⟩

theorem countP_pick (l : List α) (k : κ) :
    (ofKind kind k (pick kind limit l)).length = min (limit k) (ofKind kind k l).length := by
  rw [filter_pick, List.length_take]

theorem mem_of_mem_pick {l : List α} {x : α} (h : x ∈ pick kind limit l) : x ∈ l :=
  ((mem_ofKind kind).mp (List.mem_of_mem_take ((mem_pick kind limit).mp h))).1

end Windrunner.Lib
