import Mathlib.Data.List.Induction
import Mathlib.Data.List.Nodup

/-!
# A full queue whose last element is replaced

Elements go to the end of a queue. Where it is full, an element takes the place of the last one when both
may be skipped.

* `squeeze`, `squeezeAll`: one element, and a list of them put into an empty queue.
* `squeezeAll_sublist`: the order is kept, and nothing is there twice.
* `filter_squeezeAll`: what may not be skipped is there.
* `getLast?_squeezeAll_iff`: when the last element of a kind is there.
-/

namespace Windrunner.Lib

open List

variable {α β : Type} (cap : Nat) (skip : α → Bool)

/-- Put an element at the end, or in the place of the last one -/
def squeeze (q : List α) (a : α) : List α :=
  match q.getLast? with
  | none => q ++ [a]
  | some l => if cap ≤ q.length ∧ skip l ∧ skip a then q.dropLast ++ [a] else q ++ [a]

def squeezeAll (l : List α) : List α := l.foldl (squeeze cap skip) []

variable {cap skip} {l : List α} {a b : α}

theorem squeeze_concat (q : List α) (a b : α) : squeeze cap skip (q ++ [a]) b =
    if cap ≤ (q ++ [a]).length ∧ skip a ∧ skip b then q ++ [b] else q ++ [a] ++ [b] := by
  unfold squeeze
  rw [getLast?_concat, dropLast_concat]

theorem squeezeAll_concat (l : List α) (a : α) :
    squeezeAll cap skip (l ++ [a]) = squeeze cap skip (squeezeAll cap skip l) a := by
  unfold squeezeAll
  rw [foldl_append]
  rfl

/-- What one element leaves of the queue -/
theorem squeeze_cases (q : List α) (b : α) :
    squeeze cap skip q b = q ++ [b] ∨
      ∃ q' a, q = q' ++ [a] ∧ cap ≤ q.length ∧ skip a ∧ skip b ∧ squeeze cap skip q b = q' ++ [b] := by
  rcases q.eq_nil_or_concat' with rfl | ⟨q', a, rfl⟩
  · exact .inl rfl
  · rw [squeeze_concat]
    split_ifs with h
    · exact .inr ⟨q', a, rfl, h.1, h.2.1, h.2.2, rfl⟩
    · exact .inl rfl

/-- The last element is at the end. -/
theorem exists_squeezeAll (l : List α) (a : α) : ∃ q, squeezeAll cap skip (l ++ [a]) = q ++ [a] := by
  rw [squeezeAll_concat]
  obtain h | ⟨q', _, _, _, _, _, h⟩ := squeeze_cases (squeezeAll cap skip l) a
  · exact ⟨_, h⟩
  · exact ⟨q', h⟩

theorem squeezeAll_sublist (l : List α) : (squeezeAll cap skip l).Sublist l := by
  induction l using reverseRecOn with
  | nil => exact List.Sublist.slnil
  | append_singleton l b ih =>
    rw [squeezeAll_concat]
    obtain h | ⟨q', a, hq, _, _, _, h⟩ := squeeze_cases (squeezeAll cap skip l) b
    · rw [h]
      exact ih.append_right _
    · rw [hq] at ih
      rw [h]
      exact ((sublist_append_left q' [a]).trans ih).append_right _

variable {p : α → Bool}

theorem getLast?_filter_concat (q : List α) (hb : p b) : ((q ++ [b]).filter p).getLast? = some b := by
  rw [filter_append, filter_cons_of_pos hb, filter_nil, getLast?_concat]

theorem filter_concat_neg (q : List α) (hb : p b = false) : (q ++ [b]).filter p = q.filter p := by
  rw [filter_append, filter_cons_of_neg (by simp [hb]), filter_nil, append_nil]

/-- Elements that may not be skipped are all there. -/
theorem filter_squeezeAll (hp : ∀ a, p a → skip a = false) (l : List α) :
    (squeezeAll cap skip l).filter p = l.filter p := by
  induction l using reverseRecOn with
  | nil => rfl
  | append_singleton l b ih =>
    rw [squeezeAll_concat, filter_append, ← ih]
    obtain h | ⟨q', a, hq, _, ha, _, h⟩ := squeeze_cases (squeezeAll cap skip l) b
    · rw [h, filter_append]
    · have hpa : p a = false := by
        by_contra hne
        rw [hp a (by simpa using hne)] at ha
        cases ha
      rw [h, hq, filter_concat_neg q' hpa, filter_append]

/-! ## The last of a kind -/

/-- Whenever `a` is replaced by `b`, one of `p` comes after `a` if `a` is one. -/
def KeepsLast (cap : Nat) (skip p : α → Bool) (l : List α) : Prop :=
  ∀ l₁ a b l₂, l = l₁ ++ a :: b :: l₂ → cap ≤ (squeezeAll cap skip (l₁ ++ [a])).length →
    skip a → skip b → p a → ∃ c ∈ b :: l₂, p c

theorem keepsLast_of_last (l : List α) (hb : p b) : KeepsLast cap skip p (l ++ [b]) := by
  intro l₁ a c l₂ hl _ _ _ _
  have hmem : b ∈ c :: l₂ := by
    rcases l₂.eq_nil_or_concat' with rfl | ⟨l₂, d, rfl⟩
    · have hrev := congrArg getLast? hl
      simp at hrev
      simp [hrev]
    · have hrev := congrArg getLast? hl
      rw [getLast?_concat, ← cons_append, ← cons_append, ← append_assoc,
        getLast?_concat] at hrev
      simp [Option.some.inj hrev]
  exact ⟨b, hmem, hb⟩

/-- One more element that is none of `p` -/
theorem keepsLast_concat (l : List α) (hb : p b = false) : KeepsLast cap skip p (l ++ [a] ++ [b]) ↔
    KeepsLast cap skip p (l ++ [a]) ∧
      (cap ≤ (squeezeAll cap skip (l ++ [a])).length → skip a → skip b → p a = false) := by
  constructor
  · intro h
    constructor
    · intro l₁ c d l₂ hl hcap hc hd hpc
      have hsplit : l ++ [a] ++ [b] = l₁ ++ c :: d :: (l₂ ++ [b]) := by simp [hl]
      obtain ⟨e, he, hpe⟩ := h l₁ c d (l₂ ++ [b]) hsplit hcap hc hd hpc
      rw [← cons_append, mem_append, mem_singleton] at he
      rcases he with he | rfl
      · exact ⟨e, he, hpe⟩
      · rw [hb] at hpe
        cases hpe
    · intro hcap ha hsb
      by_contra hne
      obtain ⟨c, hc, hpc⟩ := h l a b [] (by simp) hcap ha hsb (by simpa using hne)
      rw [mem_singleton.1 hc, hb] at hpc
      cases hpc
  · rintro ⟨h, hlast⟩ l₁ c d l₂ hl hcap hc hd hpc
    rcases l₂.eq_nil_or_concat' with rfl | ⟨l₂, e, rfl⟩
    · have hl' : l ++ [a] ++ [b] = l₁ ++ [c] ++ [d] := by simpa using hl
      obtain ⟨hl', hbd⟩ := append_inj' hl' rfl
      obtain ⟨rfl, hac⟩ := append_inj' hl' rfl
      cases cons.inj hac |>.1
      cases cons.inj hbd |>.1
      rw [hlast hcap hc hd] at hpc
      cases hpc
    · have hl' : l ++ [a] ++ [b] = (l₁ ++ c :: d :: l₂) ++ [e] := by simpa using hl
      obtain ⟨hl', -⟩ := append_inj' hl' rfl
      obtain ⟨f, hf, hpf⟩ := h l₁ c d l₂ hl' hcap hc hd hpc
      refine ⟨f, ?_, hpf⟩
      rw [← cons_append]
      exact mem_append_left _ hf

/-- The last one of a kind is there, unless it was replaced by one that is not of the kind, and none of
the kind came after it. -/
theorem getLast?_squeezeAll_iff (hl : l.Nodup) :
    ((squeezeAll cap skip l).filter p).getLast? = (l.filter p).getLast? ↔
      KeepsLast cap skip p l := by
  induction l using reverseRecOn with
  | nil => exact iff_of_true rfl fun l₁ a b l₂ h => by simp at h
  | append_singleton m b ih =>
    have hm : m.Nodup := (sublist_append_left m [b]).nodup hl
    cases hb : p b with
    | true =>
      obtain ⟨q, hq⟩ : ∃ q, squeezeAll cap skip (m ++ [b]) = q ++ [b] := exists_squeezeAll m b
      rw [hq, getLast?_filter_concat q hb, getLast?_filter_concat m hb]
      exact iff_of_true rfl (keepsLast_of_last m hb)
    | false =>
      rw [filter_concat_neg m hb, squeezeAll_concat]
      rcases m.eq_nil_or_concat' with rfl | ⟨m, a, rfl⟩
      · have hnil : squeeze cap skip (squeezeAll cap skip []) b = [] ++ [b] := rfl
        rw [hnil, filter_concat_neg [] hb]
        refine iff_of_true rfl fun l₁ c d l₂ h => ?_
        have hlen := congrArg length h
        simp at hlen
        omega
      · obtain ⟨q, hq⟩ : ∃ q, squeezeAll cap skip (m ++ [a]) = q ++ [a] := exists_squeezeAll m a
        rw [keepsLast_concat m hb, ← ih hm]
        have hnodup : (q ++ [a]).Nodup := hq ▸ (squeezeAll_sublist _).nodup hm
        rw [hq, squeeze_concat]
        split_ifs with hcond
        · -- `a` is gone: it was the last of the kind if it is one
          rw [filter_concat_neg q hb]
          cases ha : p a with
          | true =>
            rw [getLast?_filter_concat m ha]
            refine iff_of_false (fun h => ?_) (fun h => ?_)
            · have hmem := (mem_filter.1 (mem_of_getLast? h)).1
              exact (nodup_append.1 hnodup).2.2 a hmem a (by simp) rfl
            · have hno := h.2 hcond.1 hcond.2.1 hcond.2.2
              cases hno
          | false =>
            rw [filter_concat_neg q ha]
            exact ⟨fun h => ⟨h, fun _ _ _ => rfl⟩, And.left⟩
        · rw [filter_concat_neg _ hb]
          exact ⟨fun h => ⟨h, fun h1 h2 h3 => absurd ⟨h1, h2, h3⟩ hcond⟩, And.left⟩

end Windrunner.Lib
