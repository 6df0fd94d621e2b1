import Mathlib.Data.List.Basic
import Mathlib.Data.List.Induction

/-!
# Only the last bin is filled

Elements go one after the other into the last bin. Whether a new bin is opened is decided by what is
already in the last one, before the element is put.

* `put`, `pack`: one element, and a list of them.
* `flatten_pack`: nothing is lost, and the order is kept.
* `pack_induction`: what holds of all bins. `pack_dropLast`: no bin was full before its last element.
-/

namespace Windrunner.Lib

variable {α β : Type} {full : List α → Bool} {bins : List (List α)}

/-- Put an element into the last bin, or into a new one where that is full -/
def put (full : List α → Bool) (bins : List (List α)) (a : α) : List (List α) :=
  match bins.getLast? with
  | none => [[a]]
  | some b => if full b then bins ++ [[a]] else bins.dropLast ++ [b ++ [a]]

def pack (full : List α → Bool) (l : List α) : List (List α) := l.foldl (put full) []

@[simp] theorem put_nil (a : α) : put full [] a = [[a]] := rfl

theorem put_append (b : List α) (a : α) :
    put full (bins ++ [b]) a = if full b then bins ++ [b] ++ [[a]] else bins ++ [b ++ [a]] := by
  unfold put
  rw [List.getLast?_append]
  simp

@[simp] theorem pack_nil : pack full [] = [] := rfl

theorem pack_append (l : List α) (a : α) : pack full (l ++ [a]) = put full (pack full l) a := by
  unfold pack
  rw [List.foldl_append]
  rfl

@[simp] theorem flatten_put (a : α) : (put full bins a).flatten = bins.flatten ++ [a] := by
  rcases bins.eq_nil_or_concat' with rfl | ⟨bs, b, rfl⟩
  · simp
  · rw [put_append]
    split <;> simp

/-- Every element is in one bin, and the bins have them in order. -/
@[simp] theorem flatten_pack (l : List α) : (pack full l).flatten = l := by
  induction l using List.reverseRecOn with
  | nil => rfl
  | append_singleton l a ih => rw [pack_append, flatten_put, ih]

theorem pack_eq_nil {l : List α} : pack full l = [] ↔ l = [] := by
  constructor
  · intro h
    have hflat : (pack full l).flatten = l := flatten_pack l
    rw [h] at hflat
    exact hflat.symm
  · rintro rfl
    rfl

/-- A bin has been opened with one element and has got the others while it was not full. -/
theorem pack_induction {P : List α → Prop} (hnew : ∀ a, P [a])
    (hput : ∀ b a, P b → full b = false → P (b ++ [a])) (l : List α) : ∀ b ∈ pack full l, P b := by
  induction l using List.reverseRecOn with
  | nil => simp
  | append_singleton l a ih =>
    rw [pack_append]
    rcases (pack full l).eq_nil_or_concat' with hnil | ⟨bs, b, hbins⟩
    · rw [hnil]
      simpa using hnew a
    · rw [hbins] at ih ⊢
      rw [put_append]
      have hbs : ∀ b' ∈ bs, P b' := fun b' h' => ih b' (by simp [h'])
      split_ifs with hfull
      · intro b' h'
        rcases List.mem_append.1 h' with h' | h'
        · exact ih b' h'
        · rw [List.mem_singleton.1 h']
          exact hnew a
      · intro b' h'
        rcases List.mem_append.1 h' with h' | h'
        · exact hbs b' h'
        · rw [List.mem_singleton.1 h']
          exact hput b a (ih b (by simp)) (by simpa using hfull)

/-- A bin was not full before its last element. -/
theorem pack_dropLast (h0 : full [] = false) {l b : List α} (h : b ∈ pack full l) :
    full b.dropLast = false := by
  refine pack_induction (P := fun b => full b.dropLast = false) ?_ ?_ l b h
  · intro a
    simpa using h0
  · intro b a _ hb
    simpa using hb

end Windrunner.Lib
