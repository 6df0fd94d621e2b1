
/-!
# Runs of a step function

A system is a step function `step : St → In → St`; a run feeds it a list of inputs. `Run.keeps`
is the induction every invariant of the development goes through: what one admissible step
keeps, a run of admissible steps keeps.
-/

namespace Windrunner.Lib

variable {St In : Type}

/-- The state after feeding the inputs `is` to `step`, first to last. -/
def run (step : St → In → St) (s : St) (is : List In) : St := is.foldl step s

/-- Every step of the run from `s` satisfies `P` in the state it is taken in. -/
def AlongRun (step : St → In → St) (P : St → In → Prop) : St → List In → Prop
  | _, [] => True
  | s, i :: is => P s i ∧ AlongRun step P (step s i) is

instance AlongRun.decidable {step : St → In → St} {P : St → In → Prop} [∀ s i, Decidable (P s i)] :
    (s : St) → (is : List In) → Decidable (AlongRun step P s is)
  | _, [] => inferInstanceAs (Decidable True)
  | s, i :: is =>
    have : Decidable (AlongRun step P (step s i) is) := AlongRun.decidable (step s i) is
    inferInstanceAs (Decidable (P s i ∧ AlongRun step P (step s i) is))

@[simp] theorem run_nil (step : St → In → St) (s : St) : run step s [] = s := rfl

@[simp] theorem run_cons (step : St → In → St) (s : St) (i : In) (is : List In) :
    run step s (i :: is) = run step (step s i) is := rfl

variable {step : St → In → St} {P : St → In → Prop}

theorem AlongRun.of_forall (h : ∀ s i, P s i) {s : St} {is : List In} : AlongRun step P s is := by
  induction is generalizing s with
  | nil => trivial
  | cons i is ih => exact ⟨h s i, ih⟩

/-- The steps of a run are among its inputs. -/
theorem AlongRun.mem {s : St} {is : List In}
    (h : AlongRun step P s is) : AlongRun step (fun s i => i ∈ is ∧ P s i) s is := by
  have hsub : ∀ {s : St} {is js : List In}, (∀ i ∈ is, i ∈ js) → AlongRun step P s is →
      AlongRun step (fun s i => i ∈ js ∧ P s i) s is := by
    intro s is js hsub h
    induction is generalizing s with
    | nil => trivial
    | cons i is ih =>
      exact ⟨⟨hsub i List.mem_cons_self, h.1⟩, ih (fun j hj => hsub j (List.mem_cons_of_mem _ hj)) h.2⟩
  exact hsub (fun _ hi => hi) h

/-- An invariant that every admissible step keeps holds after a run of admissible steps. -/
theorem run_keeps {I : St → Prop}
    (hstep : ∀ s i, I s → P s i → I (step s i)) {s : St} {is : List In} (hs : I s)
    (h : AlongRun step P s is) : I (run step s is) := by
  induction is generalizing s with
  | nil => exact hs
  | cons i is ih => exact ih (hstep s i hs h.1) h.2

theorem AlongRun.and {Q : St → In → Prop} {s : St} {is : List In}
    (h : AlongRun step P s is) (h' : AlongRun step Q s is) :
    AlongRun step (fun s i => P s i ∧ Q s i) s is := by
  induction is generalizing s with
  | nil => trivial
  | cons i is ih => exact ⟨⟨h.1, h'.1⟩, ih h.2 h'.2⟩

/-- What every admissible step does from a state with the invariant, every step of a run does. -/
theorem AlongRun.imp {Q : St → In → Prop} {I : St → Prop}
    (hstep : ∀ s i, I s → P s i → Q s i ∧ I (step s i)) {s : St} {is : List In} (hs : I s)
    (h : AlongRun step P s is) : AlongRun step Q s is := by
  induction is generalizing s with
  | nil => trivial
  | cons i is ih =>
    obtain ⟨hq, hi⟩ := hstep s i hs h.1
    exact ⟨hq, ih hi h.2⟩

/-- An invariant that every step keeps holds after every run. -/
theorem run_invariant {I : St → Prop} (hstep : ∀ s i, I s → I (step s i))
    {s : St} (hs : I s) (is : List In) : I (run step s is) :=
  run_keeps (P := fun _ _ => True) (fun s i h _ => hstep s i h) hs (.of_forall fun _ _ => trivial)

end Windrunner.Lib
