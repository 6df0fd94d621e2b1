import Windrunner.Lib.Keyed

/-!
# Tables

A table is the list of its rows, in the order in which they were inserted. `rowsOf owner rows k` are
the rows that belong to `k`; the lemmas say what an insertion, a deletion and an update do to the
rows of each owner. With a key that is unique in the whole table, what is written by key concerns
the rows of one owner (`Keyed.owner_eq`).
-/

namespace Windrunner.Lib

variable {ρ κ ι : Type} [DecidableEq κ] {owner : ρ → κ} {key : ρ → ι} {rows : List ρ} {r : ρ} {j k : κ}

def rowsOf (owner : ρ → κ) (rows : List ρ) (k : κ) : List ρ := rows.filter (owner · = k)

theorem mem_rowsOf : r ∈ rowsOf owner rows k ↔ r ∈ rows ∧ owner r = k := by
  rw [rowsOf, List.mem_filter, decide_eq_true_iff]

/-- A row is inserted. -/
theorem rowsOf_insert :
    rowsOf owner (rows ++ [r]) k = rowsOf owner rows k ++ if owner r = k then [r] else [] := by
  unfold rowsOf
  rw [List.filter_append, List.filter_singleton]
  congr 1
  split_ifs with h
  · simp [h]
  · simp [h]

/-- The rows of an owner are deleted. -/
theorem rowsOf_delete :
    rowsOf owner (rows.filter (owner · ≠ j)) k = if k = j then [] else rowsOf owner rows k := by
  unfold rowsOf
  rw [List.filter_filter]
  split_ifs with h
  · subst h
    rw [List.filter_eq_nil_iff]
    intro r _
    simp
  · refine List.filter_congr fun r _ => ?_
    by_cases hr : owner r = k
    · simp [hr, h]
    · simp [hr]

theorem rowsOf_filter {p : ρ → Bool} :
    rowsOf owner (rows.filter p) k = (rowsOf owner rows k).filter p := by
  unfold rowsOf
  rw [List.filter_filter, List.filter_filter]
  exact List.filter_congr fun r _ => Bool.and_comm _ _

/-- An update leaves each row with its owner. -/
theorem rowsOf_map {f : ρ → ρ} (hf : ∀ r, owner (f r) = owner r) :
    rowsOf owner (rows.map f) k = (rowsOf owner rows k).map f := by
  unfold rowsOf
  rw [List.filter_map]
  refine congrArg _ (List.filter_congr fun r _ => ?_)
  show decide (owner (f r) = k) = _
  rw [hf]

theorem rowsOf_perm {rows' : List ρ} (h : rows'.Perm rows) :
    (rowsOf owner rows' k).Perm (rowsOf owner rows k) := h.filter _

namespace Keyed

/-- Rows of one key are one row, and have one owner. -/
theorem rowsOf (h : Keyed key rows) (k : κ) : Keyed key (rowsOf owner rows k) :=
  List.Nodup.sublist ((List.filter_sublist).map key) h

theorem owner_eq {r r' : ρ} (h : Keyed key rows) (hr : r ∈ Lib.rowsOf owner rows j)
    (hr' : r' ∈ Lib.rowsOf owner rows k) (hk : key r = key r') : j = k := by
  obtain ⟨hm, rfl⟩ := mem_rowsOf.mp hr
  obtain ⟨hm', rfl⟩ := mem_rowsOf.mp hr'
  rw [h.inj hm hm' hk]

end Keyed

end Windrunner.Lib
