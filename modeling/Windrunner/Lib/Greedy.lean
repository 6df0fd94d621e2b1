import Mathlib.Algebra.GroupWithZero.Nat
import Mathlib.Algebra.Order.BigOperators.Group.Finset

/-!
# Giving out units greedily

Units are offered to places one after the other. A place takes what it has room for, and nothing
when it is offered units again.

* `Alloc`: what was given so far, and what is left; `offer`, `offerAll` are the steps and the run.
* `Filled room c done s`: `s` comes from `c` units that were offered to the places of `done`.
* `offerAll_left`, `offerAll_total`: in which order the places come makes no difference to how much
  is given in the end, `min c (∑ p ∈ ps.toFinset, room p)`.
-/

namespace Windrunner.Lib

open Finset

/-- What the places got so far, and what is left to give. -/
structure Alloc (α : Type) where
  given : List (α × Nat)
  left : Nat

namespace Alloc

variable {α : Type} {room : α → Nat} {s : Alloc α} {p : α} {ps qs : List α} {c : Nat}

def start (c : Nat) : Alloc α := ⟨[], c⟩

def total (s : Alloc α) : Nat := (s.given.map Prod.snd).sum

def places (s : Alloc α) : List α := s.given.map Prod.fst

@[simp] theorem start_left : (start c : Alloc α).left = c := rfl

@[simp] theorem start_total : (start c : Alloc α).total = 0 := rfl

@[simp] theorem start_places : (start c : Alloc α).places = [] := rfl

variable [DecidableEq α]

/-- Offers what is left to one place. -/
def offer (room : α → Nat) (s : Alloc α) (p : α) : Alloc α :=
  if s.left = 0 ∨ room p = 0 ∨ p ∈ s.places then s
  else ⟨s.given ++ [(p, min (room p) s.left)], s.left - min (room p) s.left⟩

def offerAll (room : α → Nat) (s : Alloc α) (ps : List α) : Alloc α := ps.foldl (offer room) s

@[simp] theorem offerAll_nil : s.offerAll room [] = s := rfl

theorem offerAll_cons : s.offerAll room (p :: ps) = (s.offer room p).offerAll room ps := rfl

theorem offerAll_append : s.offerAll room (ps ++ qs) = (s.offerAll room ps).offerAll room qs :=
  List.foldl_append

theorem offer_of_left (h : s.left = 0) : s.offer room p = s := if_pos (.inl h)

theorem offer_of_mem (h : p ∈ s.places) : s.offer room p = s := if_pos (.inr (.inr h))

theorem offer_of_room (h : room p = 0) : s.offer room p = s := if_pos (.inr (.inl h))

theorem offer_new (hl : s.left ≠ 0) (hr : room p ≠ 0) (hp : p ∉ s.places) :
    s.offer room p = ⟨s.given ++ [(p, min (room p) s.left)], s.left - min (room p) s.left⟩ :=
  if_neg (by simp [hl, hr, hp])

/-- With nothing left the run is over. -/
theorem offerAll_of_left (h : s.left = 0) : s.offerAll room ps = s := by
  induction ps with
  | nil => rfl
  | cons p ps ih => rw [offerAll_cons, offer_of_left h, ih]

/-- What `c` units become that were offered to the places of `done`. -/
structure Filled (room : α → Nat) (c : Nat) (done : Finset α) (s : Alloc α) : Prop where
  left : s.left = c - ∑ p ∈ done, room p
  total : s.total + s.left = c
  /-- While something is left, a place that was asked is full. -/
  full : s.left ≠ 0 → ∀ p ∈ done, room p = 0 ∨ p ∈ s.places
  asked : ∀ p ∈ s.places, p ∈ done

omit [DecidableEq α] in
theorem filled_start : Filled room c ∅ (start c : Alloc α) :=
  ⟨by simp, by simp, by simp, by simp⟩

theorem Filled.offer {done : Finset α} (h : Filled room c done s) (p : α) :
    Filled room c (insert p done) (s.offer room p) := by
  have hsub : done ⊆ insert p done := subset_insert p done
  have hmono : ∑ q ∈ done, room q ≤ ∑ q ∈ insert p done, room q :=
    sum_le_sum_of_subset hsub
  have hleft := h.left
  by_cases hl : s.left = 0
  · rw [offer_of_left hl]
    exact ⟨by omega, h.total, fun h0 => absurd hl h0, fun q hq => hsub (h.asked q hq)⟩
  by_cases hr : room p = 0
  · rw [offer_of_room hr]
    refine ⟨?_, h.total, fun h0 q hq => ?_, fun q hq => hsub (h.asked q hq)⟩
    · rw [sum_insert_of_eq_zero_if_notMem fun _ => hr]; exact hleft
    · obtain rfl | hq := mem_insert.mp hq
      · exact .inl hr
      · exact h.full h0 q hq
  by_cases hp : p ∈ s.places
  · rw [offer_of_mem hp, insert_eq_of_mem (h.asked p hp)]
    exact h
  -- a place that was asked before would be full
  have hnew : p ∉ done := fun hd => (h.full hl p hd).elim hr hp
  have htotal := h.total
  rw [offer_new hl hr hp]
  refine ⟨?_, ?_, fun h0 q hq => ?_, fun q hq => ?_⟩
  · rw [sum_insert hnew]; dsimp only; omega
  · unfold Alloc.total at htotal ⊢
    rw [List.map_append, List.sum_append, List.map_cons, List.map_nil, List.sum_singleton]
    dsimp only
    omega
  · unfold places
    rw [List.map_append, List.mem_append]
    obtain rfl | hq := mem_insert.mp hq
    · exact .inr (.inr (by simp))
    · exact (h.full hl q hq).imp_right .inl
  · unfold places at hq
    rw [List.map_append, List.mem_append] at hq
    obtain hq | hq := hq
    · exact hsub (h.asked q hq)
    · rw [List.map_cons, List.map_nil, List.mem_singleton] at hq
      exact hq ▸ mem_insert_self p done

theorem Filled.offerAll {done : Finset α} (h : Filled room c done s) :
    Filled room c (done ∪ ps.toFinset) (s.offerAll room ps) := by
  induction ps generalizing s done with
  | nil => simpa using h
  | cons p ps ih =>
    have := ih (h.offer p)
    rwa [insert_union, ← union_insert, ← List.toFinset_cons] at this

theorem filled_offerAll (room : α → Nat) (c : Nat) (ps : List α) :
    Filled room c ps.toFinset ((start c).offerAll room ps) := by
  simpa using filled_start.offerAll

theorem offerAll_left : ((start c).offerAll room ps).left = c - ∑ p ∈ ps.toFinset, room p :=
  (filled_offerAll room c ps).left

theorem offerAll_total :
    ((start c).offerAll room ps).total = min c (∑ p ∈ ps.toFinset, room p) := by
  have h := filled_offerAll room c ps
  have h1 := h.total
  have h2 := h.left
  omega

end Alloc

end Windrunner.Lib
