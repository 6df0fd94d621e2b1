import Mathlib.Order.WellFounded
import Windrunner.Lib.Run

/-!
# Fair schedules

The threads of a system take turns: `sched n` is the one whose turn it is at time `n`, and a turn
of a thread that has to wait changes nothing. A schedule is fair when every thread has a turn again
and again. `Fair.reaches` is the rule for what happens under every such schedule: a rank that no
turn raises, and that the turn of some thread lowers as long as the goal is not reached. That thread
stays the same until the rank has sunk.
-/

namespace Windrunner.Lib

variable {St In : Type}

/-- The state at time `n`. -/
def stateAt (step : St → In → St) (sched : Nat → In) (s : St) : Nat → St
  | 0 => s
  | n + 1 => step (stateAt step sched s n) (sched n)

/-- Each thread has a turn again and again. -/
def Fair (sched : Nat → In) : Prop := ∀ i n, ∃ m, n ≤ m ∧ sched m = i

variable {step : St → In → St} {sched : Nat → In} {s : St}

theorem stateAt_succ (n : Nat) :
    stateAt step sched s (n + 1) = step (stateAt step sched s n) (sched n) := rfl

/-- The state at time `n` is the one after the first `n` turns. -/
theorem stateAt_eq_run (n : Nat) :
    stateAt step sched s n = run step s ((List.range n).map sched) := by
  induction n with
  | zero => rfl
  | succ n ih => simp [stateAt_succ, ih, run, List.range_succ]

theorem stateAt_keeps {I : St → Prop} (hstep : ∀ s i, I s → I (step s i)) (hs : I s)
    (sched : Nat → In) (n : Nat) : I (stateAt step sched s n) := by
  rw [stateAt_eq_run]
  exact run_invariant hstep hs _

section Reaches

variable {ρ : Type} [Preorder ρ] {rank : St → ρ} {Goal Inv : St → Prop} {helpful : St → In}

/-- While the rank has not sunk, the same thread is waited for. -/
theorem stateAt_waits (hinv : ∀ s i, Inv s → Inv (step s i))
    (hwait : ∀ s i, Inv s → ¬ Goal s → rank (step s i) < rank s ∨
      (rank (step s i) = rank s ∧ helpful (step s i) = helpful s))
    (hs : Inv s) (sched : Nat → In) (n d : Nat) :
    (∃ m, n ≤ m ∧ (Goal (stateAt step sched s m) ∨
        rank (stateAt step sched s m) < rank (stateAt step sched s n))) ∨
      (rank (stateAt step sched s (n + d)) = rank (stateAt step sched s n) ∧
        helpful (stateAt step sched s (n + d)) = helpful (stateAt step sched s n)) := by
  induction d with
  | zero => exact Or.inr ⟨rfl, rfl⟩
  | succ d ih =>
    rcases ih with h | ⟨hrank, hhelp⟩
    · exact Or.inl h
    by_cases hg : Goal (stateAt step sched s (n + d))
    · exact Or.inl ⟨n + d, by omega, Or.inl hg⟩
    have hi := stateAt_keeps hinv hs sched (n + d)
    rcases hwait _ (sched (n + d)) hi hg with h | ⟨h, h'⟩
    · exact Or.inl ⟨n + d + 1, by omega, Or.inr (by rw [stateAt_succ, ← hrank]; exact h)⟩
    · exact Or.inr ⟨h.trans hrank, h'.trans hhelp⟩

/-- Under a fair schedule the goal is reached. -/
theorem Fair.reaches [WellFoundedLT ρ] (hfair : Fair sched) (hinv : ∀ s i, Inv s → Inv (step s i))
    (hhelp : ∀ s, Inv s → ¬ Goal s → rank (step s (helpful s)) < rank s)
    (hwait : ∀ s i, Inv s → ¬ Goal s → rank (step s i) < rank s ∨
      (rank (step s i) = rank s ∧ helpful (step s i) = helpful s))
    (hs : Inv s) : ∃ n, Goal (stateAt step sched s n) := by
  suffices h : ∀ r n, rank (stateAt step sched s n) = r → ∃ m, Goal (stateAt step sched s m) from
    h _ 0 rfl
  intro r
  induction r using WellFoundedLT.induction with
  | ind r ih =>
    rintro n rfl
    obtain ⟨m, hm, hturn⟩ := hfair (helpful (stateAt step sched s n)) n
    obtain ⟨d, rfl⟩ := Nat.exists_eq_add_of_le hm
    rcases stateAt_waits hinv hwait hs sched n d with
      ⟨k, -, hk | hk⟩ | ⟨hrank, hsame⟩
    · exact ⟨k, hk⟩
    · exact ih _ hk k rfl
    by_cases hg : Goal (stateAt step sched s (n + d))
    · exact ⟨_, hg⟩
    refine ih (rank (stateAt step sched s (n + d + 1))) ?_ _ rfl
    rw [stateAt_succ, hturn, ← hsame, ← hrank]
    exact hhelp _ (stateAt_keeps hinv hs sched _) hg

end Reaches

end Windrunner.Lib
