import Mathlib.Data.Fintype.Order

/-!
# A recursion through references

At a node there are jobs to do one after the other. A job changes the state, and may visit other
nodes; nothing in the recursion itself decreases.

* `Walk.run`: the recursion with fuel, which is the depth it may reach.
* `Walk.run_of_acc`: it finishes at a node below which no chain of visits goes on for ever.
* `Walk.acc_of_run`: where it finishes, no chain of visits that cannot be left out goes on for ever.
* `acc_iff_acyclic`: among finitely many nodes these are the chains that come back to a node.
-/

namespace Windrunner.Lib

open List Option

/-- What there is to do at a node: `jobs` in their order, and `finish` at the end. -/
structure Walk (α β σ : Type) where
  jobs : α → List β
  /-- The state after a job, and the nodes to visit. -/
  act : β → σ → σ × List α
  finish : α → σ → σ

section FoldlM

variable {β σ : Type} {f g : σ → β → Option σ} {l : List β} {s s' : σ}

theorem foldlM_imp (h : ∀ b ∈ l, ∀ s s', f s b = some s' → g s b = some s')
    (hf : l.foldlM f s = some s') : l.foldlM g s = some s' := by
  induction l generalizing s with
  | nil => exact hf
  | cons b l ih =>
    rw [foldlM_cons, bind_eq_bind, bind_eq_some_iff] at hf ⊢
    obtain ⟨s₁, hs₁, hf⟩ := hf
    exact ⟨s₁, h b mem_cons_self s s₁ hs₁, ih (fun b hb => h b (mem_cons_of_mem _ hb)) hf⟩

theorem foldlM_keeps {I : σ → Prop} (h : ∀ b ∈ l, ∀ s s', I s → f s b = some s' → I s') (hs : I s)
    (hf : l.foldlM f s = some s') : I s' := by
  induction l generalizing s with
  | nil =>
    obtain rfl : s = s' := some_inj.mp hf
    exact hs
  | cons b l ih =>
    rw [foldlM_cons, bind_eq_bind, bind_eq_some_iff] at hf
    obtain ⟨s₁, hs₁, hf⟩ := hf
    exact ih (fun b hb => h b (mem_cons_of_mem _ hb)) (h b mem_cons_self s s₁ hs hs₁) hf

/-- A fold that finishes has finished each of its steps. -/
theorem foldlM_step {I : σ → Prop} (h : ∀ b ∈ l, ∀ s s', I s → f s b = some s' → I s') (hs : I s)
    (hf : (l.foldlM f s).isSome) {b : β} (hb : b ∈ l) : ∃ s, I s ∧ (f s b).isSome := by
  induction l generalizing s with
  | nil => exact absurd hb not_mem_nil
  | cons c l ih =>
    rw [foldlM_cons, bind_eq_bind, isSome_iff_exists] at hf
    obtain ⟨s', hf⟩ := hf
    obtain ⟨s₁, hs₁, hf⟩ := bind_eq_some_iff.mp hf
    obtain rfl | hb := mem_cons.mp hb
    · exact ⟨s, hs, hs₁ ▸ rfl⟩
    · exact ih (fun b hb => h b (mem_cons_of_mem _ hb)) (h c mem_cons_self s s₁ hs hs₁)
        (hf ▸ rfl) hb

/-- Steps that finish with enough fuel make a fold that finishes with enough fuel. -/
theorem foldlM_enough {F : Nat → σ → β → Option σ}
    (hmono : ∀ m n s b s', m ≤ n → F m s b = some s' → F n s b = some s')
    (h : ∀ b ∈ l, ∀ s, ∃ n, (F n s b).isSome) (s : σ) : ∃ n, (l.foldlM (F n) s).isSome := by
  induction l generalizing s with
  | nil => exact ⟨0, rfl⟩
  | cons b l ih =>
    obtain ⟨m, hm⟩ := h b mem_cons_self s
    obtain ⟨s₁, hs₁⟩ := isSome_iff_exists.mp hm
    obtain ⟨n, hn⟩ := ih (fun b hb => h b (mem_cons_of_mem _ hb)) s₁
    obtain ⟨s', hs'⟩ := isSome_iff_exists.mp hn
    refine ⟨max m n, ?_⟩
    rw [foldlM_cons, bind_eq_bind, hmono _ _ _ _ _ (Nat.le_max_left m n) hs₁,
      bind_some]
    rw [foldlM_imp (fun b _ s s' => hmono n _ s b s' (Nat.le_max_right m n)) hs']
    rfl

/-- Steps that are the same while a measure of the state is at most `N` make folds that are. -/
theorem foldlM_agree {τ : σ → Nat} {N : Nat}
    (h : ∀ b ∈ l, ∀ s s', f s b = some s' → τ s ≤ τ s' ∧ (τ s' ≤ N → g s b = some s'))
    (hf : l.foldlM f s = some s') : τ s ≤ τ s' ∧ (τ s' ≤ N → l.foldlM g s = some s') := by
  induction l generalizing s with
  | nil =>
    obtain rfl : s = s' := some_inj.mp hf
    exact ⟨Nat.le_refl _, fun _ => rfl⟩
  | cons b l ih =>
    rw [foldlM_cons, bind_eq_bind, bind_eq_some_iff] at hf
    obtain ⟨s₁, hs₁, hf⟩ := hf
    obtain ⟨hle, hstep⟩ := h b mem_cons_self s s₁ hs₁
    obtain ⟨hle', hrest⟩ := ih (fun b hb => h b (mem_cons_of_mem _ hb)) hf
    refine ⟨hle.trans hle', fun hN => ?_⟩
    rw [foldlM_cons, bind_eq_bind, hstep (hle'.trans hN), bind_some]
    exact hrest hN

/-- What holds after a fold and not before it has come with one of the steps. -/
theorem foldlM_appears {Q : σ → Prop} (hf : l.foldlM f s = some s') (hQ : Q s') :
    Q s ∨ ∃ pre b post s₁ s₂, l = pre ++ b :: post ∧ pre.foldlM f s = some s₁ ∧ f s₁ b = some s₂ ∧
      ¬ Q s₁ ∧ Q s₂ := by
  induction l generalizing s with
  | nil =>
    obtain rfl : s = s' := Option.some_inj.mp hf
    exact .inl hQ
  | cons b l ih =>
    rw [List.foldlM_cons, Option.bind_eq_bind, Option.bind_eq_some_iff] at hf
    obtain ⟨s₁, hs₁, hf⟩ := hf
    by_cases hs : Q s
    · exact .inl hs
    refine .inr ?_
    obtain h | ⟨pre, c, post, s₂, s₃, rfl, hpre, hstep⟩ := ih hf
    · exact ⟨[], b, l, s, s₁, rfl, rfl, hs₁, hs, h⟩
    · refine ⟨b :: pre, c, post, s₂, s₃, rfl, ?_, hstep⟩
      rw [List.foldlM_cons, hs₁]
      exact hpre

end FoldlM

namespace Walk

variable {α β σ : Type} (W : Walk α β σ)

/-- The nodes of a job are visited in their order. -/
def visit (go : α → σ → Option σ) (s : σ) (b : β) : Option σ :=
  (W.act b s).2.foldlM (fun s a => go a s) (W.act b s).1

def run : Nat → α → σ → Option σ
  | 0, _, _ => none
  | fuel + 1, a, s => ((W.jobs a).foldlM (W.visit (run fuel)) s).map (W.finish a)

/-- `a'` may be visited from `a`. -/
def Visits (a' a : α) : Prop := ∃ b ∈ W.jobs a, ∃ s, a' ∈ (W.act b s).2

/-- `a'` is visited from `a`, whatever the state, as long as it is in `I`. -/
def MustVisit (I : σ → Prop) (a' a : α) : Prop := ∃ b ∈ W.jobs a, ∀ s, I s → a' ∈ (W.act b s).2

structure Keeps (I : σ → Prop) : Prop where
  act : ∀ b s, I s → I (W.act b s).1
  finish : ∀ a s, I s → I (W.finish a s)

variable {W}

theorem visit_imp {go go' : α → σ → Option σ} (h : ∀ a s s', go a s = some s' → go' a s = some s')
    {s s' : σ} {b : β} (hv : W.visit go s b = some s') : W.visit go' s b = some s' :=
  foldlM_imp (fun a _ => h a) hv

/-- More fuel gives the same result. -/
theorem run_mono {m n : Nat} (hmn : m ≤ n) {a : α} {s s' : σ} (h : W.run m a s = some s') :
    W.run n a s = some s' := by
  induction m generalizing n a s s' with
  | zero => exact absurd h.symm (some_ne_none s')
  | succ m ih =>
    obtain ⟨n, rfl⟩ : ∃ n', n = n' + 1 := ⟨n - 1, by omega⟩
    obtain ⟨s₁, hs₁, rfl⟩ := map_eq_some_iff.mp h
    refine map_eq_some_iff.mpr ⟨s₁, foldlM_imp (fun b _ s s' => ?_) hs₁, rfl⟩
    exact visit_imp fun a s s' h => ih (Nat.le_of_succ_le_succ hmn) h

theorem Keeps.visit {I : σ → Prop} (hI : W.Keeps I) {go : α → σ → Option σ}
    (hgo : ∀ a s s', I s → go a s = some s' → I s') {s s' : σ} {b : β} (hs : I s)
    (h : W.visit go s b = some s') : I s' :=
  foldlM_keeps (fun a _ => hgo a) (hI.act b s hs) h

/-- What every job keeps, the recursion keeps. -/
theorem Keeps.run {I : σ → Prop} (hI : W.Keeps I) {fuel : Nat} {a : α} {s s' : σ} (hs : I s)
    (h : W.run fuel a s = some s') : I s' := by
  induction fuel generalizing a s s' with
  | zero => exact absurd h.symm (some_ne_none s')
  | succ fuel ih =>
    obtain ⟨s₁, hs₁, rfl⟩ := map_eq_some_iff.mp h
    exact hI.finish a s₁ (foldlM_keeps (fun b _ s s' => hI.visit fun a s s' => ih) hs hs₁)

/-- Below a node without endless chains the recursion finishes. -/
theorem run_of_acc {a : α} (h : Acc W.Visits a) (s : σ) : ∃ fuel, (W.run fuel a s).isSome := by
  induction h generalizing s with
  | intro a _ ih =>
    have hvisit : ∀ b ∈ W.jobs a, ∀ s, ∃ n, (W.visit (W.run n) s b).isSome := fun b hb s =>
      @foldlM_enough _ _ (W.act b s).2 (fun n s a => W.run n a s)
        (fun m n s a s' hmn h => run_mono hmn h) (fun a' ha' s' => ih a' ⟨b, hb, s, ha'⟩ s') _
    obtain ⟨n, hn⟩ := @foldlM_enough _ _ (W.jobs a) (fun n => W.visit (W.run n))
      (fun m n s b s' hmn => visit_imp fun a s s' h => run_mono hmn h) hvisit s
    exact ⟨n + 1, by rw [run, isSome_map]; exact hn⟩

/-- Where the recursion finishes, the visits that are made in any case have an end. -/
theorem acc_of_run {I : σ → Prop} (hI : W.Keeps I) {fuel : Nat} {a : α} {s : σ} (hs : I s)
    (h : (W.run fuel a s).isSome) : Acc (W.MustVisit I) a := by
  induction fuel generalizing a s with
  | zero => exact absurd h Bool.noConfusion
  | succ fuel ih =>
    rw [run, isSome_map] at h
    refine Acc.intro a fun a' ⟨b, hb, hmust⟩ => ?_
    have hkeeps : ∀ a s s', I s → W.run fuel a s = some s' → I s' := fun a s s' => hI.run
    obtain ⟨s₁, hs₁, hrun⟩ := foldlM_step (fun b _ s s' => hI.visit hkeeps) hs h hb
    obtain ⟨s₂, hs₂, hrun⟩ := foldlM_step (fun a _ => hkeeps a) (hI.act b s₁ hs₁) hrun
      (hmust s₁ hs₁)
    exact ih hs₂ hrun

/-- `W'` does what `W` does while a measure of the state, which only grows, is at most `N`. -/
structure Agrees (W W' : Walk α β σ) (τ : σ → Nat) (N : Nat) : Prop where
  jobs : ∀ a, W'.jobs a = W.jobs a
  act : ∀ b s, τ s ≤ τ (W.act b s).1 ∧ (τ (W.act b s).1 ≤ N → W'.act b s = W.act b s)
  finish : ∀ a s, τ s ≤ τ (W.finish a s) ∧ (τ (W.finish a s) ≤ N → W'.finish a s = W.finish a s)

section Agrees

variable {W' : Walk α β σ} {τ : σ → Nat} {N : Nat}

theorem Agrees.visit (h : W.Agrees W' τ N) {go go' : α → σ → Option σ}
    (hgo : ∀ a s s', go a s = some s' → τ s ≤ τ s' ∧ (τ s' ≤ N → go' a s = some s'))
    {s s' : σ} {b : β} (hv : W.visit go s b = some s') :
    τ s ≤ τ s' ∧ (τ s' ≤ N → W'.visit go' s b = some s') := by
  obtain ⟨hle, hact⟩ := h.act b s
  obtain ⟨hle', hnodes⟩ := @foldlM_agree _ _ (fun s a => go a s) (fun s a => go' a s) _ _ _ _ _
    (fun a _ => hgo a) hv
  refine ⟨hle.trans hle', fun hN => ?_⟩
  rw [Walk.visit, hact (hle'.trans hN)]
  exact hnodes hN

theorem Agrees.run (h : W.Agrees W' τ N) {fuel : Nat} {a : α} {s s' : σ}
    (hr : W.run fuel a s = some s') : τ s ≤ τ s' ∧ (τ s' ≤ N → W'.run fuel a s = some s') := by
  induction fuel generalizing a s s' with
  | zero => exact absurd hr.symm (some_ne_none s')
  | succ fuel ih =>
    obtain ⟨s₁, hs₁, rfl⟩ := map_eq_some_iff.mp hr
    obtain ⟨hle, hjobs⟩ := foldlM_agree (fun b _ s s' => h.visit fun a s s' => ih) hs₁
    obtain ⟨hle', hfinish⟩ := h.finish a s₁
    refine ⟨hle.trans hle', fun hN => ?_⟩
    rw [Walk.run, h.jobs, hjobs (hle'.trans hN), map_some, hfinish hN]

end Agrees

end Walk

/-- Among finitely many nodes that have something below them, every chain down has an end if no
chain comes back to where it began. -/
theorem acc_iff_acyclic {α : Type} {r : α → α → Prop} (keys : List α)
    (hkeys : ∀ a' a, r a' a → a ∈ keys) :
    (∀ a, Acc r a) ↔ ∀ a, ¬ Relation.TransGen r a a := by
  constructor
  · intro h a ha
    have hwf : WellFounded (Relation.TransGen r) := WellFounded.transGen ⟨h⟩
    exact hwf.irrefl.irrefl a ha
  · intro h
    let below (x y : {a // a ∈ keys}) : Prop := Relation.TransGen r x.1 y.1
    have hfin : Finite {a // a ∈ keys} := finite_toSet keys
    have : IsTrans {a // a ∈ keys} below := ⟨fun _ _ _ => Relation.TransGen.trans⟩
    have : Std.Irrefl below := ⟨fun x => h x.1⟩
    have hwf : WellFounded below := Finite.wellFounded_of_trans_of_irrefl below
    have hkey : ∀ x : {a // a ∈ keys}, Acc r x.1 := by
      intro x
      induction x using hwf.induction with
      | _ x ih =>
        refine Acc.intro _ fun a ha => ?_
        by_cases hin : a ∈ keys
        · exact ih ⟨a, hin⟩ (.single ha)
        · exact Acc.intro _ fun a' ha' => absurd (hkeys a' a ha') hin
    exact fun a => Acc.intro a fun a' ha' => (hkey ⟨a, hkeys a' a ha'⟩).inv ha'

end Windrunner.Lib
