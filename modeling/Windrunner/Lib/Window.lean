
/-!
# Loops that look to both sides

A loop over a list whose body also sees the element before and the one after (`foldAround`). What stands
before the list and after it is given, so that a list can be taken in parts.

* `foldAround_append`: two parts of a list, each beside the other.
* `foldAround_eq_foldl`: the rule for a part in which the neighbours make no difference.
* `foldAround_flatMap`: the rule for a list that is written out of tokens, each of which may ask for something
  of what follows it (`Along`).
-/

namespace Windrunner.Lib

variable {α β σ : Type}

/-- The loop, with the elements before and after the list. -/
def foldAround (step : Option α → α → Option α → σ → σ) : Option α → List α → Option α → σ → σ
  | _, [], _, s => s
  | before, a :: l, after, s =>
    foldAround step (some a) l after (step before a (l.head?.or after) s)

variable {step : Option α → α → Option α → σ → σ} {before after : Option α} {s : σ}

@[simp] theorem foldAround_nil : foldAround step before [] after s = s := rfl

theorem foldAround_cons (a : α) (l : List α) :
    foldAround step before (a :: l) after s =
      foldAround step (some a) l after (step before a (l.head?.or after) s) := rfl

theorem getLast?_cons_or (a : α) (l : List α) (d : Option α) :
    (a :: l).getLast?.or d = l.getLast?.or (some a) := by
  rw [List.getLast?_cons]
  cases l.getLast? <;> rfl

/-- A list in two parts. -/
theorem foldAround_append (l₁ l₂ : List α) :
    foldAround step before (l₁ ++ l₂) after s =
      foldAround step (l₁.getLast?.or before) l₂ after
        (foldAround step before l₁ (l₂.head?.or after) s) := by
  induction l₁ generalizing before s with
  | nil => rfl
  | cons a l₁ ih =>
    rw [List.cons_append, foldAround_cons, ih, foldAround_cons, getLast?_cons_or, List.head?_append,
      Option.or_assoc]

/-- Where the body does the same whatever the neighbours are, the loop is a fold. -/
theorem foldAround_eq_foldl {l : List α} (f : σ → α → σ) (I : σ → Prop) (hs : I s)
    (h : ∀ l₁ a l₂, l = l₁ ++ a :: l₂ → ∀ s, I s →
      step (l₁.getLast?.or before) a (l₂.head?.or after) s = f s a ∧ I (f s a)) :
    foldAround step before l after s = l.foldl f s ∧ I (l.foldl f s) := by
  induction l generalizing before s with
  | nil => exact ⟨rfl, hs⟩
  | cons a l ih =>
    obtain ⟨hstep, hI⟩ := h [] a l rfl s hs
    have hrest : foldAround step (some a) l after (f s a) = l.foldl f (f s a) ∧
        I (l.foldl f (f s a)) := ih hI fun l₁ b l₂ hl s hs => by
      rw [← getLast?_cons_or a l₁ before]
      exact h (a :: l₁) b l₂ (by rw [hl]; rfl) s hs
    rw [List.getLast?_nil, Option.none_or] at hstep
    rw [foldAround_cons, List.foldl_cons, hstep]
    exact hrest

/-! ## Lists of tokens -/

section Tokens

variable {render : β → List α} {P : List α → β → Prop}

/-- Every token satisfies `P` beside what follows it. -/
def Along (render : β → List α) (P : List α → β → Prop) : List β → List α → Prop
  | [], _ => True
  | b :: l, rest => P (l.flatMap render ++ rest) b ∧ Along render P l rest

instance Along.decidable [∀ t b, Decidable (P t b)] : ∀ l rest, Decidable (Along render P l rest)
  | [], _ => inferInstanceAs (Decidable True)
  | b :: l, rest =>
    have := Along.decidable l rest
    inferInstanceAs (Decidable (P _ b ∧ Along render P l rest))

theorem Along.of_forall {l : List β} {rest : List α} (h : ∀ b ∈ l, ∀ t, P t b) :
    Along render P l rest := by
  induction l with
  | nil => trivial
  | cons b l ih =>
    exact ⟨h b List.mem_cons_self _, ih fun c hc => h c (List.mem_cons_of_mem b hc)⟩

theorem Along.of_mem {l : List β} {rest : List α} (h : Along render P l rest) {b : β} (hb : b ∈ l) :
    ∃ t, P t b := by
  induction l with
  | nil => cases hb
  | cons c l ih =>
    rcases List.mem_cons.1 hb with rfl | hb
    · exact ⟨_, h.1⟩
    · exact ih h.2 hb

/-- What the loop does token by token. -/
theorem foldAround_flatMap {l : List β} {rest : List α} (run : σ → β → σ) (I : σ → Prop) (hs : I s)
    (hl : Along render P l rest) (h : ∀ b before rest s, P rest b → I s →
      foldAround step before (render b) rest.head? s = run s b ∧ I (run s b)) :
    foldAround step before (l.flatMap render) rest.head? s = l.foldl run s ∧ I (l.foldl run s) := by
  induction l generalizing before s with
  | nil => exact ⟨rfl, hs⟩
  | cons b l ih =>
    obtain ⟨hb, hl⟩ := hl
    obtain ⟨hrun, hI⟩ := h b before _ s hb hs
    rw [List.head?_append] at hrun
    rw [List.flatMap_cons, foldAround_append, hrun, List.foldl_cons]
    exact ih hI hl

end Tokens

end Windrunner.Lib
