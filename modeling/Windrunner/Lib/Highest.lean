import Mathlib.Order.Lattice

/-!
# The first of the highest

A loop keeps the best so far, and takes an element only when its value is higher. What it ends with
is the first of those with the highest value (`foldl_highest`), or what it began with when no value is
higher than that. In a list that is sorted by its keys, the first one is the one with the lowest key.
-/

namespace Windrunner.Lib

variable {α κ ν : Type} [LinearOrder ν] {p : α → Prop} [DecidablePred p] {key : α → κ} {f : α → ν}

variable (p key f) in
/-- A turn of the loop, with the key and the value of the best so far -/
def keepHighest (best : κ × ν) (x : α) : κ × ν :=
  if p x ∧ best.2 < f x then (key x, f x) else best

/-- `x` is the first in `l` of those with the highest value that satisfy `p`. -/
def FirstHighest (p : α → Prop) (f : α → ν) (l : List α) (x : α) : Prop :=
  ∃ before after, l = before ++ x :: after ∧ p x ∧ (∀ y ∈ before, p y → f y < f x) ∧
    ∀ y ∈ after, p y → f y ≤ f x

variable (p key f) in
theorem foldl_highest (l : List α) (best : κ × ν) :
    ((∀ x ∈ l, p x → f x ≤ best.2) ∧ l.foldl (keepHighest p key f) best = best) ∨
      ∃ x, FirstHighest p f l x ∧ best.2 < f x ∧
        l.foldl (keepHighest p key f) best = (key x, f x) := by
  induction l generalizing best with
  | nil => exact .inl ⟨nofun, rfl⟩
  | cons x l ih =>
    rw [List.foldl_cons]
    by_cases hx : p x ∧ best.2 < f x
    · have hnext : keepHighest p key f best x = (key x, f x) := if_pos hx
      rw [hnext]
      obtain ⟨hle, heq⟩ | ⟨y, ⟨before, after, rfl, hp, hbefore, hafter⟩, hlt, heq⟩ := ih (key x, f x)
      · exact .inr ⟨x, ⟨[], l, rfl, hx.1, by simp, hle⟩, hx.2, heq⟩
      · refine .inr ⟨y, ⟨x :: before, after, rfl, hp, fun z hz hpz => ?_, hafter⟩,
          hx.2.trans hlt, heq⟩
        obtain rfl | hz := List.mem_cons.mp hz
        · exact hlt
        · exact hbefore z hz hpz
    · have hnext : keepHighest p key f best x = best := if_neg hx
      have hlow : p x → f x ≤ best.2 := fun hpx => not_lt.mp fun hlt => hx ⟨hpx, hlt⟩
      rw [hnext]
      obtain ⟨hle, heq⟩ | ⟨y, ⟨before, after, rfl, hp, hbefore, hafter⟩, hlt, heq⟩ := ih best
      · refine .inl ⟨fun z hz hpz => ?_, heq⟩
        obtain rfl | hz := List.mem_cons.mp hz
        · exact hlow hpz
        · exact hle z hz hpz
      · refine .inr ⟨y, ⟨x :: before, after, rfl, hp, fun z hz hpz => ?_, hafter⟩, hlt, heq⟩
        obtain rfl | hz := List.mem_cons.mp hz
        · exact (hlow hpz).trans_lt hlt
        · exact hbefore z hz hpz

omit [DecidablePred p] in
/-- In a sorted list an element with the highest value has a key that is lower or the same. -/
theorem FirstHighest.key_le {μ : Type} [Preorder μ] {key : α → μ} {l : List α} {x : α} (h : FirstHighest p f l x)
    (hl : l.Pairwise fun y z => key y ≤ key z) {y : α} (hy : y ∈ l) (hp : p y) :
    f y < f x ∨ (f y = f x ∧ key x ≤ key y) := by
  obtain ⟨before, after, rfl, -, hbefore, hafter⟩ := h
  obtain hy | hy := List.mem_append.mp hy
  · exact .inl (hbefore y hy hp)
  · obtain rfl | hy := List.mem_cons.mp hy
    · exact .inr ⟨rfl, le_rfl⟩
    · have hle := (List.pairwise_cons.mp (List.pairwise_append.mp hl).2.1).1 y hy
      exact (hafter y hy hp).lt_or_eq.imp_right fun h => ⟨h, hle⟩

omit [DecidablePred p] in
theorem FirstHighest.mem {l : List α} {x : α} (h : FirstHighest p f l x) : x ∈ l ∧ p x := by
  obtain ⟨before, after, rfl, hp, -⟩ := h
  exact ⟨List.mem_append_right _ List.mem_cons_self, hp⟩

end Windrunner.Lib
