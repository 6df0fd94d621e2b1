import Windrunner.Lib.Total

/-!
# Indexes over a finite map

A store keeps its records in a map and the keys of the records in indexes. An index is a multimap, a
list of pairs in the order of their first components.

* `emplace`: the pair goes after those with the same key.
* `perm_insert_new`, `perm_erase`: the entries of a finite map up to order, after a write.
* `flatMap_set_perm`: the records of a list of stores, after a write to one of them.
* `flatMap_pages`: a list that is read page by page.
-/

namespace Windrunner.Lib

open List

section Multimap

variable {κ β : Type} [LE κ] [DecidableLE κ]

/-- Inserts a pair into a multimap, after the pairs with keys up to `k`. -/
def emplace (k : κ) (b : β) : List (κ × β) → List (κ × β)
  | [] => [(k, b)]
  | x :: l => if x.1 ≤ k then x :: emplace k b l else (k, b) :: x :: l

theorem emplace_perm (k : κ) (b : β) (l : List (κ × β)) : (emplace k b l).Perm ((k, b) :: l) := by
  induction l with
  | nil => exact .refl _
  | cons x l ih =>
    unfold emplace
    split_ifs
    · exact (ih.cons x).trans (.swap ..)
    · exact .refl _

end Multimap

section Map

variable {α β : Type} [DecidableEq α] {m : FinMap α β} {a : α} {b : β}

theorem kerase_perm (l : List (Σ _ : α, β)) (h : b ∈ l.dlookup a) :
    l.Perm (⟨a, b⟩ :: l.kerase a) := by
  induction l with
  | nil => cases h
  | cons x l ih =>
    obtain ⟨k, c⟩ := x
    by_cases hk : a = k
    · subst hk
      rw [dlookup_cons_eq] at h
      obtain rfl : c = b := Option.some.inj h
      have he : kerase a ((⟨a, c⟩ : Σ _ : α, β) :: l) = l := kerase_cons_eq rfl
      rw [he]
    · rw [dlookup_cons_ne _ _ hk] at h
      rw [kerase_cons_ne hk]
      exact ((ih h).cons _).trans (.swap ..)

/-- The entries are the one at `a` and those that an erasure leaves. -/
theorem perm_erase (h : m.lookup a = some b) : m.entries.Perm (⟨a, b⟩ :: (m.erase a).entries) :=
  kerase_perm m.entries h

/-- A write to a free key adds an entry. -/
theorem perm_insert_new (h : m.lookup a = none) (b : β) :
    (m.insert a b).entries.Perm (⟨a, b⟩ :: m.entries) := by
  have hk : a ∉ m.entries.keys := dlookup_eq_none.mp h
  rw [AList.entries_insert, kerase_of_notMem_keys hk]

/-- A write to a used key replaces its entry. -/
theorem perm_insert (m : FinMap α β) (a : α) (b : β) :
    (m.insert a b).entries.Perm (⟨a, b⟩ :: (m.erase a).entries) := by
  rw [AList.entries_insert]
  exact .refl _

end Map

/-- A second erasure of a key does nothing. -/
theorem erase_erase_self {α β : Type} [DecidableEq α] (m : FinMap α β) (a : α) :
    (m.erase a).erase a = m.erase a := by
  apply AList.ext
  exact kerase_of_notMem_keys (notMem_keys_kerase a m.nodupKeys)

theorem erase_insert_self {α β : Type} [DecidableEq α] (m : FinMap α β) (a : α) (b : β) :
    (m.insert a b).erase a = m.erase a := by
  apply AList.ext
  show kerase a (m.insert a b).entries = kerase a m.entries
  rw [AList.entries_insert]
  exact kerase_cons_eq rfl

/-- The records of a list of stores are those of one store and a rest that a write to this store
does not change. -/
theorem flatMap_set_perm {α β : Type} (f : α → List β) {l : List α} {i : Nat} {x : α}
    (h : l[i]? = some x) : ∃ rest, (l.flatMap f).Perm (f x ++ rest) ∧
      ∀ y, ((l.set i y).flatMap f).Perm (f y ++ rest) := by
  obtain ⟨hi, rfl⟩ := List.getElem?_eq_some_iff.mp h
  exact ⟨(l.eraseIdx i).flatMap f, (getElem_cons_eraseIdx_perm hi).symm.flatMap_right f,
    fun y => (set_perm_cons_eraseIdx hi y).flatMap_right f⟩

/-! ## Pages -/

section Pages

variable {α : Type}

theorem flatMap_pages_take (c : Nat) (l : List α) (k : Nat) :
    (range k).flatMap (fun n => (l.drop (c * n)).take c) = l.take (c * k) := by
  induction k with
  | zero => rw [Nat.mul_zero, take_zero]; rfl
  | succ k ih =>
    rw [range_succ, flatMap_append, ih, flatMap_singleton, ← take_add]
    rfl

/-- The pages of `c` elements, up to the length of the list, are the list. -/
theorem flatMap_pages {c : Nat} (hc : 0 < c) (l : List α) :
    (range (l.length / c + 1)).flatMap (fun n => (l.drop (c * n)).take c) = l := by
  rw [flatMap_pages_take]
  refine take_of_length_le ?_
  have := Nat.lt_mul_div_succ l.length hc
  omega

end Pages

end Windrunner.Lib
