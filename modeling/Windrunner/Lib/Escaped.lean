import Mathlib.Data.List.Basic

/-!
# Fields with escapes

Fields are written one after another with a delimiter between them; what must not be read as a delimiter has a
mark before it. `escapeField` writes the marks, and `splitEscaped` splits at the delimiters and removes the
marks.

* `splitFrom_escapeField`, `splitFrom_plain`: what is read of a field.
* `firstField_eq_iff`: a field that is written without marks is read back exactly if it has none to write.
-/

namespace Windrunner.Lib

open List

variable {α : Type} [DecidableEq α]

/-- What is `special` gets a mark. -/
def escapeField (mark : α) (special : α → Bool) (field : List α) : List α :=
  field.flatMap fun c => if special c then [mark, c] else [c]

/-- The fields that are left, with what has been read of the first one -/
def splitFrom (mark delimiter : α) : List α → Bool → List α → List (List α)
  | current, escaped, [] => [if escaped then current ++ [mark] else current]
  | current, escaped, c :: rest =>
    if escaped then splitFrom mark delimiter (current ++ [c]) false rest
    else if c = mark then splitFrom mark delimiter current true rest
    else if c = delimiter then current :: splitFrom mark delimiter [] false rest
    else splitFrom mark delimiter (current ++ [c]) false rest

def splitEscaped (mark delimiter : α) (value : List α) : List (List α) :=
  splitFrom mark delimiter [] false value

variable {mark delimiter : α} {special : α → Bool} {current field rest : List α} {escaped : Bool}

/-- Neither a mark nor a delimiter -/
def Plain (mark delimiter c : α) : Prop := c ≠ mark ∧ c ≠ delimiter

theorem splitFrom_delimiter (h : delimiter ≠ mark) :
    splitFrom mark delimiter current false (delimiter :: rest) =
      current :: splitEscaped mark delimiter rest := by
  rw [splitFrom, if_neg (by simp), if_neg h, if_pos rfl]
  rfl

/-- A field without marks is read as it is. -/
theorem splitFrom_plain (h : ∀ c ∈ field, Plain mark delimiter c) :
    splitFrom mark delimiter current false (field ++ rest) =
      splitFrom mark delimiter (current ++ field) false rest := by
  induction field generalizing current with
  | nil => simp
  | cons c field ih =>
    obtain ⟨hm, hd⟩ := h c mem_cons_self
    rw [cons_append, splitFrom, if_neg (by simp), if_neg hm, if_neg hd,
      ih fun d hd => h d (mem_cons_of_mem c hd), append_assoc]
    rfl

/-- The marks of a field are removed. -/
theorem splitFrom_escapeField (hmark : special mark = true) (hdelim : special delimiter = true) :
    splitFrom mark delimiter current false (escapeField mark special field ++ rest) =
      splitFrom mark delimiter (current ++ field) false rest := by
  induction field generalizing current with
  | nil => simp [escapeField]
  | cons c field ih =>
    have hrest : escapeField mark special (c :: field) =
        (if special c then [mark, c] else [c]) ++ escapeField mark special field := rfl
    rw [hrest, append_assoc]
    by_cases hc : special c = true
    · rw [if_pos hc, cons_append, cons_append, nil_append, splitFrom, if_neg (by simp), if_pos rfl,
        splitFrom, if_pos rfl, ih, append_assoc]
      rfl
    · have hm : c ≠ mark := fun he => hc (he ▸ hmark)
      have hd : c ≠ delimiter := fun he => hc (he ▸ hdelim)
      rw [if_neg hc, cons_append, nil_append, splitFrom, if_neg (by simp), if_neg hm, if_neg hd, ih, append_assoc]
      rfl

/-! ## The first field -/

/-- What is read of the first field -/
def firstField (mark delimiter : α) (value : List α) : List α :=
  (splitEscaped mark delimiter value).headD []

theorem headD_splitFrom (value : List α) :
    (splitFrom mark delimiter current escaped value).headD [] =
      current ++ (splitFrom mark delimiter [] escaped value).headD [] := by
  induction value generalizing current escaped with
  | nil => cases escaped <;> simp [splitFrom]
  | cons c value ih =>
    rw [splitFrom, splitFrom]
    split_ifs
    · rw [ih, @ih ([] ++ [c]), nil_append, append_assoc]
    · rw [ih]
    · simp
    · rw [ih, @ih ([] ++ [c]), nil_append, append_assoc]

theorem firstField_plain (h : ∀ c ∈ field, Plain mark delimiter c) :
    firstField mark delimiter (field ++ rest) = field ++ firstField mark delimiter rest := by
  unfold firstField splitEscaped
  rw [splitFrom_plain h, headD_splitFrom, nil_append]

theorem firstField_delimiter (h : delimiter ≠ mark) :
    firstField mark delimiter (delimiter :: rest) = [] := by
  unfold firstField
  rw [splitEscaped, splitFrom_delimiter h]
  rfl

theorem firstField_marked (c : α) :
    firstField mark delimiter (mark :: c :: rest) = c :: firstField mark delimiter rest := by
  unfold firstField splitEscaped
  rw [splitFrom, if_neg (by simp), if_pos rfl, splitFrom, if_pos rfl, headD_splitFrom]
  rfl

theorem firstField_cons {c : α} (h : Plain mark delimiter c) :
    firstField mark delimiter (c :: rest) = c :: firstField mark delimiter rest :=
  @firstField_plain _ _ mark delimiter [c] rest (by simpa using h)

/-- How many marks a list begins with -/
def leadingMarks (mark : α) (value : List α) : Nat := (value.takeWhile (· = mark)).length

theorem leadingMarks_cons_of_ne {c : α} (h : c ≠ mark) : leadingMarks mark (c :: rest) = 0 := by
  simp [leadingMarks, h]

theorem leadingMarks_cons_self : leadingMarks mark (mark :: rest) = leadingMarks mark rest + 1 := by
  simp [leadingMarks]

theorem leadingMarks_firstField (hd : delimiter ≠ mark) {c : α} (hc : c ≠ mark) :
    leadingMarks mark (firstField mark delimiter (c :: rest)) = 0 := by
  by_cases hcd : c = delimiter
  · rw [hcd, firstField_delimiter hd]
    rfl
  · rw [firstField_cons ⟨hc, hcd⟩, leadingMarks_cons_of_ne hc]

/-- Half of the marks at the beginning are lost. -/
theorem two_mul_leadingMarks_le (hd : delimiter ≠ mark) :
    ∀ value : List α, (∃ c ∈ value, c ≠ mark) →
      2 * leadingMarks mark (firstField mark delimiter value) ≤ leadingMarks mark value
  | [], h => by simp at h
  | [c], h => by
    have hc : c ≠ mark := by simpa using h
    rw [leadingMarks_firstField hd hc]
    omega
  | c :: d :: value, h => by
    by_cases hc : c = mark
    · rw [hc, firstField_marked]
      by_cases hdm : d = mark
      · have hrest : ∃ e ∈ value, e ≠ mark := by
          obtain ⟨e, he, hne⟩ := h
          simp only [mem_cons, hc, hdm] at he
          exact ⟨e, (he.resolve_left hne).resolve_left hne, hne⟩
        have hle := two_mul_leadingMarks_le hd value hrest
        rw [hdm, leadingMarks_cons_self, leadingMarks_cons_self, leadingMarks_cons_self]
        omega
      · rw [leadingMarks_cons_of_ne hdm]
        omega
    · rw [leadingMarks_firstField hd hc]
      omega

theorem leadingMarks_append (hd : delimiter ≠ mark) (field rest : List α) :
    leadingMarks mark (field ++ delimiter :: rest) = leadingMarks mark field := by
  induction field with
  | nil => simp [leadingMarks, hd]
  | cons c field ih =>
    by_cases hc : c = mark
    · rw [hc, cons_append, leadingMarks_cons_self, leadingMarks_cons_self, ih]
    · rw [cons_append, leadingMarks_cons_of_ne hc, leadingMarks_cons_of_ne hc]

/-- A field that is written without marks is read back exactly if there is nothing in it to mark. -/
theorem firstField_eq_iff (hd : delimiter ≠ mark) :
    firstField mark delimiter (field ++ delimiter :: rest) = field ↔
      ∀ c ∈ field, Plain mark delimiter c := by
  constructor
  · intro h
    induction field with
    | nil => simp
    | cons c field ih =>
      have hcm : c ≠ mark := by
        rintro rfl
        -- the marks at the beginning would have to be twice as many
        have hle := two_mul_leadingMarks_le hd (c :: field ++ delimiter :: rest)
          ⟨delimiter, by simp, hd⟩
        rw [h, leadingMarks_append hd, leadingMarks_cons_self] at hle
        omega
      have hcd : c ≠ delimiter := by
        rintro rfl
        rw [cons_append, firstField_delimiter hd] at h
        cases h
      rw [cons_append, firstField_cons ⟨hcm, hcd⟩] at h
      have hrest := ih (cons.inj h).2
      intro d hmem
      rcases mem_cons.1 hmem with rfl | hmem
      · exact ⟨hcm, hcd⟩
      · exact hrest d hmem
  · intro h
    rw [firstField_plain h, firstField_delimiter hd, append_nil]

end Windrunner.Lib
