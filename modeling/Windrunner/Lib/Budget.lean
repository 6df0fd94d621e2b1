import Mathlib.Algebra.GroupWithZero.Nat
import Mathlib.Data.List.Sort

/-!
# Writing while there is room

Elements are written one after the other. Whether the next one may be written is decided before it is
written, by how much is used, so the last one may go beyond a limit.

* `writeWhile`: the elements that are written, which are the first ones.
* `writeWhile_append`: two lists, the second with what the first has left.
* `writeWhile_le_iff`: when all that is written stays within a limit.
* `Sorting`: some sort, of which no more is known than that it sorts.
-/

namespace Windrunner.Lib

open List

section Write

variable {α : Type} (room : Nat → Prop) [DecidablePred room] (size : α → Nat)

/-- What is written of a list when so much is used. -/
def writeWhile : Nat → List α → List α
  | _, [] => []
  | used, a :: as => if room used then a :: writeWhile (used + size a) as else []

variable {room size} {used limit : Nat} {l l₁ l₂ : List α}

theorem writeWhile_prefix : writeWhile room size used l <+: l := by
  induction l generalizing used with
  | nil => exact prefix_rfl
  | cons a as ih =>
    unfold writeWhile
    split_ifs
    · exact cons_prefix_cons.mpr ⟨rfl, ih⟩
    · exact nil_prefix

/-- The writing stops at the end, or where there is no room. -/
theorem writeWhile_stop : writeWhile room size used l = l ∨
    ¬ room (used + ((writeWhile room size used l).map size).sum) := by
  induction l generalizing used with
  | nil => exact .inl rfl
  | cons a as ih =>
    unfold writeWhile
    split_ifs with h
    · refine ih.imp (fun he => by rw [he]) fun hno => ?_
      rwa [map_cons, sum_cons, ← Nat.add_assoc]
    · exact .inr h

theorem writeWhile_of_not_room (h : ¬ room used) : writeWhile room size used l = [] := by
  cases l with
  | nil => rfl
  | cons a as => exact if_neg h

theorem writeWhile_append : writeWhile room size used (l₁ ++ l₂) = writeWhile room size used l₁ ++
    writeWhile room size (used + ((writeWhile room size used l₁).map size).sum) l₂ := by
  induction l₁ generalizing used with
  | nil => rfl
  | cons a as ih =>
    rw [cons_append, writeWhile, writeWhile]
    split_ifs with h
    · rw [ih, map_cons, sum_cons, ← Nat.add_assoc, cons_append]
    · exact (writeWhile_of_not_room h).symm

theorem writeWhile_all (h : ∀ n, room n) : writeWhile room size used l = l :=
  writeWhile_stop.resolve_right fun hno => hno (h _)

/-- What is written stays within the limit when no element that there is room for goes beyond it. -/
theorem writeWhile_le_iff (hroom : ∀ m n, m ≤ n → room n → room m) :
    used + ((writeWhile room size used l).map size).sum ≤ limit ↔ used ≤ limit ∧
      ∀ l₁ a l₂, l = l₁ ++ a :: l₂ → room (used + (l₁.map size).sum) →
        used + (l₁.map size).sum + size a ≤ limit := by
  induction l generalizing used with
  | nil =>
    refine ⟨fun h => ⟨h, fun l₁ a l₂ he => ?_⟩, And.left⟩
    exact absurd he.symm (append_ne_nil_of_right_ne_nil l₁ (cons_ne_nil a l₂))
  | cons b as ih =>
    rw [writeWhile]
    split_ifs with h
    · rw [map_cons, sum_cons, ← Nat.add_assoc, ih]
      constructor
      · rintro ⟨hle, hrest⟩
        refine ⟨Nat.le_trans (Nat.le_add_right ..) hle, fun l₁ a l₂ he hr => ?_⟩
        cases l₁ with
        | nil =>
          obtain ⟨rfl, -⟩ := cons_eq_cons.mp he
          exact hle
        | cons c l₁ =>
          obtain ⟨rfl, rfl⟩ := cons_eq_cons.mp he
          rw [map_cons, sum_cons, ← Nat.add_assoc] at hr ⊢
          exact hrest l₁ a l₂ rfl hr
      · rintro ⟨-, hrest⟩
        refine ⟨hrest [] b as rfl h, fun l₁ a l₂ he hr => ?_⟩
        have hall := hrest (b :: l₁) a l₂ (by rw [he, cons_append])
        rw [map_cons, sum_cons, ← Nat.add_assoc] at hall
        exact hall hr
    · refine ⟨fun hle => ⟨hle, fun l₁ a l₂ _ hr => absurd (hroom _ _ (Nat.le_add_right ..) hr) h⟩, And.left⟩

end Write

/-- A sort, of which no more is known than that it sorts. -/
structure Sorting {α : Type} (r : α → α → Prop) where
  sort : List α → List α
  perm : ∀ l, (sort l).Perm l
  sorted : ∀ l, (sort l).Pairwise r

/-- An insertion sort by some number. -/
def Sorting.byKey {α : Type} (key : α → Nat) : Sorting fun a b : α => key a ≤ key b where
  sort l := l.insertionSort fun a b => key a ≤ key b
  perm l := perm_insertionSort _ l
  sorted l := pairwise_insertionSort (fun a b => key a ≤ key b) l

end Windrunner.Lib
