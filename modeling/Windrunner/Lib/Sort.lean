import Mathlib.Data.List.Sort

/-!
# Functions that do not see a sort

A function reads a list from the front and keeps a state. When two neighbours can change places
without a difference to it, wherever a sort makes them change places, it gives for the sorted list
what it gives for the list.
-/

namespace Windrunner.Lib

variable {α σ β : Type} {f : List α → σ → β} {S : σ → Prop} {C : α → α → Prop}

/-- `f` goes through a list element by element, in states that satisfy `S`, and two neighbours
that are related by `C` can change places. -/
structure Reads (f : List α → σ → β) (S : σ → Prop) (C : α → α → Prop) : Prop where
  cons : ∀ a l l', (∀ s, S s → f l s = f l' s) → ∀ s, S s → f (a :: l) s = f (a :: l') s
  swap : ∀ a b l s, C a b → S s → f (a :: b :: l) s = f (b :: a :: l) s

variable (r : α → α → Prop) [DecidableRel r]

theorem Reads.orderedInsert (hf : Reads f S C) {a : α} {l : List α} (h : ∀ b ∈ l, r a b ∨ C a b)
    {s : σ} (hs : S s) : f (l.orderedInsert r a) s = f (a :: l) s := by
  induction l generalizing s with
  | nil => rfl
  | cons b rest ih =>
    rw [List.orderedInsert_cons]
    split
    case isTrue => rfl
    case isFalse hab =>
      have hC : C a b := (h b List.mem_cons_self).resolve_left hab
      have hrest : ∀ s, S s → f (rest.orderedInsert r a) s = f (a :: rest) s :=
        fun s hs => ih (fun c hc => h c (List.mem_cons_of_mem _ hc)) hs
      rw [hf.cons b _ _ hrest s hs]
      exact (hf.swap a b rest s hC hs).symm

theorem Reads.insertionSort (hf : Reads f S C) {l : List α}
    (h : l.Pairwise fun a b => r a b ∨ C a b) {s : σ} (hs : S s) :
    f (l.insertionSort r) s = f l s := by
  induction l generalizing s with
  | nil => rfl
  | cons a rest ih =>
    obtain ⟨ha, hrest⟩ := List.pairwise_cons.1 h
    rw [List.insertionSort_cons, hf.orderedInsert r (fun b hb => ha b ?_) hs]
    · exact hf.cons a _ _ (fun s hs => ih hrest hs) s hs
    · exact (List.mem_insertionSort r).1 hb

end Windrunner.Lib
