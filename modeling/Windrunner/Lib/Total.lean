import Mathlib.Algebra.GroupWithZero.Nat
import Mathlib.Data.List.AList
import Mathlib.Algebra.BigOperators.Group.List.Basic

/-!
# Totals over finite maps and lists

A conservation argument adds up a weight over every entry of a store before and after an
operation. The stores here are finite maps (`FinMap`, Mathlib's `AList` at a constant family) and
plain lists.

* `total f m`: the weight `f` summed over the entries of `m`; `weightAt f m a` is the share of the
  key `a`.
* `total_erase`, `total_insert`: what one write does to a total.
* `FinMap.keep p m`: the entries of `m` whose key satisfies `p`.
* `sum_set`, `sum_eraseIdx`, `countP_modify`, `sum_zip`: the same for a list indexed by position,
  and for two lists.
-/

namespace Windrunner.Lib

open List hiding getElem?_eq_some_iff

/-- A finite map: an association list without repeated keys. -/
abbrev FinMap (α β : Type) := AList (fun _ : α => β)

section FinMap

variable {α β : Type}

/-- The weight of every entry of `m`, summed. -/
def total (f : α → β → Nat) (m : FinMap α β) : Nat := (m.entries.map fun x => f x.1 x.2).sum

/-- The entries of `m` whose key satisfies `p`. -/
def FinMap.keep (p : α → Bool) (m : FinMap α β) : FinMap α β :=
  ⟨m.entries.filter fun x => p x.1, m.nodupKeys.sublist filter_sublist⟩

/-- What a restriction keeps and what it drops add up to the whole. -/
theorem total_keep (f : α → β → Nat) (p : α → Bool) (m : FinMap α β) :
    total f (m.keep p) + total (fun a b => if p a then 0 else f a b) m = total f m := by
  unfold total FinMap.keep
  simp only
  induction m.entries with
  | nil => simp
  | cons x l ih =>
    by_cases hp : p x.1
    · rw [filter_cons_of_pos (by exact hp)]
      simp only [map_cons, sum_cons, hp, ↓reduceIte]
      omega
    · rw [filter_cons_of_neg (by simp [hp])]
      simp only [map_cons, sum_cons, hp, Bool.false_eq_true, ↓reduceIte]
      omega

variable {f : α → β → Nat} {m : FinMap α β}

theorem total_eq_zero (h : ∀ x ∈ m.entries, f x.1 x.2 = 0) : total f m = 0 := by
  unfold total
  exact sum_eq_zero fun n hn => by
    obtain ⟨x, hx, rfl⟩ := mem_map.mp hn
    exact h x hx

theorem total_add (f g : α → β → Nat) (m : FinMap α β) :
    total (fun a b => f a b + g a b) m = total f m + total g m := by
  unfold total
  exact sum_map_add

variable [DecidableEq α]

/-- The weight of the entry at `a`, `0` without one. -/
def weightAt (f : α → β → Nat) (m : FinMap α β) (a : α) : Nat := (m.lookup a).elim 0 (f a)

theorem weightAt_none {a : α} (h : m.lookup a = none) :
    weightAt f m a = 0 := by simp [weightAt, h]

theorem weightAt_some {a : α} {b : β} (h : m.lookup a = some b) :
    weightAt f m a = f a b := by simp [weightAt, h]

theorem sum_kerase (f : α → β → Nat) (a : α) (l : List (Σ _ : α, β)) :
    ((l.kerase a).map fun x => f x.1 x.2).sum + ((l.dlookup a).elim 0 (f a)) =
      (l.map fun x => f x.1 x.2).sum := by
  induction l with
  | nil => simp
  | cons x l ih =>
    obtain ⟨k, b⟩ := x
    by_cases h : a = k
    · subst h
      simp [Nat.add_comm]
    · rw [kerase_cons_ne h, dlookup_cons_ne _ _ h]
      simp only [map_cons, sum_cons]
      omega

theorem total_erase (f : α → β → Nat) (m : FinMap α β) (a : α) :
    total f (m.erase a) + weightAt f m a = total f m :=
  sum_kerase f a m.entries

theorem total_insert (f : α → β → Nat) (m : FinMap α β) (a : α) (b : β) :
    total f (m.insert a b) + weightAt f m a = total f m + f a b := by
  have h := sum_kerase f a m.entries
  unfold total weightAt AList.lookup
  rw [AList.entries_insert]
  simp only [map_cons, sum_cons]
  omega

/-- A write to a free key adds the weight of the new entry. -/
theorem total_insert_new {a : α} (h : m.lookup a = none) (b : β) :
    total f (m.insert a b) = total f m + f a b := by
  have := total_insert f m a b
  rwa [weightAt_none h, Nat.add_zero] at this

/-- The weight of one entry is at most the total. -/
theorem le_total {a : α} {b : β} (h : m.lookup a = some b) :
    f a b ≤ total f m := by
  have := total_erase f m a
  rw [weightAt_some h] at this
  omega

/-- Two weights that agree on every entry have the same total. -/
theorem total_congr {g : α → β → Nat}
    (h : ∀ a b, m.lookup a = some b → f a b = g a b) : total f m = total g m := by
  unfold total
  congr 1
  refine map_congr_left fun x hx => h x.1 x.2 ?_
  exact mem_dlookup m.nodupKeys hx

/-- A restriction that keeps every entry keeps the total. -/
theorem total_keep_all {p : α → Bool}
    (h : ∀ a b, m.lookup a = some b → p a = true) : total f (m.keep p) = total f m := by
  have hk := total_keep f p m
  rw [total_eq_zero (f := fun a b => if p a then 0 else f a b) (m := m)] at hk
  · exact hk
  · intro x hx
    rw [if_pos (h x.1 x.2 (mem_dlookup m.nodupKeys hx))]

theorem dlookup_filter (p : α → Bool) (a : α) (l : List (Σ _ : α, β)) :
    (l.filter fun x => p x.1).dlookup a = if p a then l.dlookup a else none := by
  induction l with
  | nil => simp
  | cons x l ih =>
    obtain ⟨k, b⟩ := x
    by_cases h : a = k
    · subst h
      by_cases hp : p a
      · simp [hp]
      · simp [hp, ih]
    · by_cases hp : p k
      · rw [filter_cons_of_pos (by exact hp), dlookup_cons_ne _ _ h, ih,
          dlookup_cons_ne _ _ h]
      · rw [filter_cons_of_neg (by simp [hp]), ih, dlookup_cons_ne _ _ h]

theorem lookup_keep (p : α → Bool) (m : FinMap α β) (a : α) :
    (m.keep p).lookup a = if p a then m.lookup a else none :=
  dlookup_filter p a m.entries

end FinMap

section Index

variable {α : Type}

/-- Removing one list element drops its weight. -/
theorem sum_eraseIdx {l : List α} {i : Nat} {a : α} (f : α → Nat) (h : l[i]? = some a) :
    ((l.eraseIdx i).map f).sum + f a = (l.map f).sum := by
  obtain ⟨hi, rfl⟩ := List.getElem?_eq_some_iff.mp h
  have hp := ((getElem_cons_eraseIdx_perm hi).map f).sum_eq
  rwa [map_cons, sum_cons, Nat.add_comm] at hp

/-- Replacing one list element trades its weight for the new one's. -/
theorem sum_set {l : List α} {i : Nat} {a : α} (f : α → Nat) (b : α) (h : l[i]? = some a) :
    ((l.set i b).map f).sum + f a = (l.map f).sum + f b := by
  have hi := (List.getElem?_eq_some_iff.mp h).1
  rw [((set_perm_cons_eraseIdx hi b).map f).sum_eq, map_cons, sum_cons,
    ← sum_eraseIdx f h]
  omega

/-- Changing one list element trades its share of a count for the new one's. -/
theorem countP_modify {l : List α} {i : Nat} {a : α} (p : α → Bool) (f : α → α) (h : l[i]? = some a) :
    (l.modify i f).countP p + (if p a then 1 else 0) = l.countP p + if p (f a) then 1 else 0 := by
  obtain ⟨hi, rfl⟩ := List.getElem?_eq_some_iff.mp h
  have : Inhabited α := ⟨l[i]⟩
  rw [modify_eq_set, h, (set_perm_cons_eraseIdx hi _).countP_eq,
    ← (getElem_cons_eraseIdx_perm hi).countP_eq p, countP_cons, countP_cons,
    Option.getD_some]
  omega

/-- The weights of two lists of one length, added up pair by pair. -/
theorem sum_zip (f : α → Nat) {l l' : List α} (h : l.length = l'.length) :
    ((l.zip l').map fun x => f x.1 + f x.2).sum = (l.map f).sum + (l'.map f).sum := by
  induction l generalizing l' with
  | nil =>
    cases l' with
    | nil => rfl
    | cons y l' => cases h
  | cons x l ih =>
    cases l' with
    | nil => cases h
    | cons y l' =>
      have := ih (Nat.succ.inj h)
      simp only [zip_cons_cons, map_cons, sum_cons, this]
      omega

end Index

end Windrunner.Lib
