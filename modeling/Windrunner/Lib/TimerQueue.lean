import Mathlib.Algebra.GroupWithZero.Nat
import Mathlib.Algebra.BigOperators.Group.List.Basic
import Mathlib.Algebra.Order.Group.Nat

/-!
# Queues in the order of a key

A queue that holds its elements by increasing key, and those of one key in the order they were
inserted, as a `std::multimap` does. `insertAfter` puts an element behind all that are not later,
`eraseAt` removes one, found first by its key.
-/

namespace Windrunner.Lib

open List

variable {α β : Type} [LinearOrder β] {key : α → β} {x h : α} {l : List α}

/-- Behind every element whose key is not larger. -/
def insertAfter (key : α → β) (x : α) : List α → List α
  | [] => [x]
  | y :: l => if key x < key y then x :: y :: l else y :: insertAfter key x l

theorem insertAfter_perm (key : α → β) (x : α) (l : List α) :
    (insertAfter key x l).Perm (x :: l) := by
  induction l with
  | nil => exact .refl _
  | cons y l ih =>
    unfold insertAfter
    split
    · exact .refl _
    · exact (ih.cons y).trans (.swap x y l)

theorem mem_insertAfter {a : α} : a ∈ insertAfter key x l ↔ a = x ∨ a ∈ l := by
  rw [(insertAfter_perm key x l).mem_iff, mem_cons]

theorem insertAfter_sorted (hl : l.Pairwise (key · ≤ key ·)) :
    (insertAfter key x l).Pairwise (key · ≤ key ·) := by
  induction l with
  | nil => exact pairwise_singleton _ _
  | cons y l ih =>
    obtain ⟨hy, hl⟩ := pairwise_cons.mp hl
    unfold insertAfter
    split
    · rename_i hlt
      refine pairwise_cons.mpr ⟨fun a ha => ?_, pairwise_cons.mpr ⟨hy, hl⟩⟩
      rcases mem_cons.mp ha with rfl | ha
      · exact hlt.le
      · exact hlt.le.trans (hy a ha)
    · rename_i hle
      refine pairwise_cons.mpr ⟨fun a ha => ?_, ih hl⟩
      rcases mem_insertAfter.mp ha with rfl | ha
      · exact not_lt.mp hle
      · exact hy a ha

/-- What is not earlier than the front leaves the front where it is. -/
theorem insertAfter_cons_of_le (hle : key h ≤ key x) :
    insertAfter key x (h :: l) = h :: insertAfter key x l := by
  rw [insertAfter, if_neg (not_lt.mpr hle)]

/-- Inserting several elements, first to last. -/
def insertAll (key : α → β) (xs l : List α) : List α := xs.foldl (fun l x => insertAfter key x l) l

theorem insertAll_perm (key : α → β) (xs l : List α) : (insertAll key xs l).Perm (xs ++ l) := by
  induction xs generalizing l with
  | nil => exact .refl _
  | cons x xs ih =>
    exact (ih _).trans (((insertAfter_perm key x l).append_left xs).trans perm_middle)

theorem insertAll_sorted {xs : List α} (hl : l.Pairwise (key · ≤ key ·)) :
    (insertAll key xs l).Pairwise (key · ≤ key ·) := by
  induction xs generalizing l with
  | nil => exact hl
  | cons x xs ih => exact ih (insertAfter_sorted hl)

theorem insertAll_cons_of_le {xs : List α} (hle : ∀ x ∈ xs, key h ≤ key x) :
    insertAll key xs (h :: l) = h :: insertAll key xs l := by
  induction xs generalizing l with
  | nil => rfl
  | cons x xs ih =>
    unfold insertAll
    rw [foldl_cons, insertAfter_cons_of_le (hle x mem_cons_self)]
    exact ih fun y hy => hle y (mem_cons_of_mem x hy)

/-- One element of the key `k` that satisfies `p`, or else the first that satisfies `p`. -/
def eraseAt (key : α → β) (p : α → Bool) (k : β) (l : List α) : List α :=
  if l.any fun x => key x = k && p x then l.eraseP fun x => key x = k && p x else l.eraseP p

/-- Erasing at a key takes out an element that satisfies `p`, when there is one. -/
theorem eraseAt_perm (key : α → β) {p : α → Bool} (k : β) (hp : ∃ x ∈ l, p x = true) :
    ∃ x ∈ l, p x = true ∧ l.Perm (x :: eraseAt key p k l) := by
  unfold eraseAt
  split
  · rename_i hany
    obtain ⟨y, hy, hpy⟩ := any_eq_true.mp hany
    obtain ⟨x, l₁, l₂, -, hx, hl, he⟩ :=
      exists_of_eraseP (p := fun x => decide (key x = k) && p x) hy hpy
    refine ⟨x, by rw [hl]; simp, ?_, ?_⟩
    · exact ((Bool.and_eq_true _ _).mp hx).2
    · rw [he, hl]
      exact perm_middle
  · obtain ⟨y, hy, hpy⟩ := hp
    obtain ⟨x, l₁, l₂, -, hx, hl, he⟩ := exists_of_eraseP hy hpy
    refine ⟨x, by rw [hl]; simp, hx, ?_⟩
    rw [he, hl]
    exact perm_middle

theorem eraseAt_sublist (p : α → Bool) (k : β) (l : List α) : (eraseAt key p k l).Sublist l := by
  unfold eraseAt
  split <;> exact eraseP_sublist

/-! ## Draining what is due -/

/-- A loop that takes turns while its measure lasts and there is something to do. -/
def drain {St : Type} (next : St → Option St) : Nat → St → St
  | 0, s => s
  | n + 1, s =>
    match next s with
    | some s' => drain next n s'
    | none => s

/-- What every turn keeps holds after the loop, and where every turn lowers the measure the loop
ends because there is nothing left to do. -/
theorem drain_spec {St : Type} {next : St → Option St} {I : St → Prop} (measure : St → Nat)
    (hI : ∀ s s', I s → next s = some s' → I s')
    (hm : ∀ s s', I s → next s = some s' → measure s' < measure s) {n : Nat} {s : St} (hs : I s)
    (hn : measure s ≤ n) : I (drain next n s) ∧ next (drain next n s) = none := by
  induction n generalizing s with
  | zero =>
    refine ⟨hs, ?_⟩
    cases hnext : next s with
    | none => exact hnext
    | some s' => have := hm s s' hs hnext; omega
  | succ n ih =>
    unfold drain
    cases hnext : next s with
    | none => exact ⟨hs, hnext⟩
    | some s' => exact ih (hI s s' hs hnext) (by have := hm s s' hs hnext; omega)

/-- Of a sum over a list, the part that is kept and the part that is taken do not exceed it. -/
theorem sum_filter_add_filter_le {f g : α → Nat} {p q : α → Bool}
    (h : ∀ a ∈ l, (if p a then g a else 0) + (if q a then f a else 0) ≤ f a) :
    ((l.filter p).map g).sum + ((l.filter q).map f).sum ≤ (l.map f).sum := by
  induction l with
  | nil => exact le_refl _
  | cons a l ih =>
    have ha := h a mem_cons_self
    have hl := ih fun b hb => h b (mem_cons_of_mem a hb)
    by_cases hp : p a <;> by_cases hq : q a <;>
      simp only [hp, hq, filter_cons, map_cons, sum_cons, if_true, if_false,
        Bool.false_eq_true] at ha ⊢ <;> omega

end Windrunner.Lib
