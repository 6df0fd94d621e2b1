import Mathlib.Algebra.Group.Nat.Defs
import Mathlib.Data.List.Induction
import Mathlib.Data.List.Perm.Basic
import Windrunner.Lib.Run

/-!
# The callbacks of the asynchronous queries

A thread of the database that has executed a query adds its callback to the result queue of the
database. The main thread takes the callbacks out in `Update`: those that are thread-safe are
executed by the six threads of a pool, the others by the main thread, from a second queue in which
a time-out leaves what there was no time for. `CancelAll` executes what is left when the server is
shut down.

* `SqlResultQueue.step`: one step of the main thread, of the pool or of a thread that adds.
* `SqlResultQueue.Inv`: no callback is lost or executed twice, and those that are not thread-safe
  keep their order up to `CancelAll`.
* `SqlResultQueue.step_left`, `exists_returned`: every step inside of a call brings it nearer to its
  end, and there is one until it returns.
* `SqlResultQueue.delivered_iff`: `CancelAll` takes the callbacks of the first queue only, and so
  it completes exactly the runs in which the second one is empty when it is called.

The callbacks are the values of a type `κ`, of which `threadSafe` says what `IsThreadSafe` returns.
Two callbacks may be equal: what is said of them counts their occurrences.
-/

namespace Windrunner

open List

variable {κ : Type}

/-- Where the main thread is in the calls of `Update` and `CancelAll`. -/
inductive SqlResultQueue.Position where
  | idle
  /-- in the first loop of `Update`, with the time-out of the call -/
  | sort (timeout : UInt32)
  /-- in the second loop, after `processWorkload` -/
  | callbacks (timeout : UInt32)
  /-- at `job.wait()` -/
  | wait
  /-- in the loop of `CancelAll` -/
  | cancel
  /-- `CancelAll` has returned -/
  | cancelled
  deriving DecidableEq, Repr

structure SqlResultQueue (κ : Type) where
  queue : List κ := []
  threadUnsafeWaitingQueries : List κ := []
  numUnsafeQueries : UInt32 := 0
  /-- what the pool has to execute, of the call of `Update` that runs -/
  workload : List κ := []
  /-- what the threads of the pool are executing -/
  running : List κ := []
  position : SqlResultQueue.Position := .idle
  /-- what has been added, in this order -/
  added : List κ := []
  /-- what has been executed, in this order -/
  executed : List κ := []
  deriving DecidableEq, Repr

namespace SqlResultQueue

inductive Act (κ : Type) where
  /-- a thread of the database calls `add` -/
  | add (callback : κ)
  | update (timeout : UInt32)
  | cancelAll
  /-- the main thread runs on to the next test of its loop; `late` says whether more time than the
  time-out has passed since `begin` -/
  | main (late : Bool)
  /-- a thread of the pool takes the next task -/
  | take
  /-- a thread of the pool has executed task `i` of those that are running -/
  | done (i : Nat)
  deriving DecidableEq, Repr

/-- The threads that the constructor gives the pool. -/
def poolSize : Nat := 6

/-- `next` in the first loop of `Update`, and what follows it. -/
def sortNext (threadSafe : κ → Bool) (q : SqlResultQueue κ) (timeout : UInt32) :
    SqlResultQueue κ :=
  match q.queue with
  | [] => { q with position := .callbacks timeout }
  | callback :: queue =>
    if !threadSafe callback then
      { q with
        queue := queue
        threadUnsafeWaitingQueries := q.threadUnsafeWaitingQueries ++ [callback]
        numUnsafeQueries := q.numUnsafeQueries + 1 }
    else
      { q with queue := queue, workload := q.workload ++ [callback] }

/-- `next` in the second loop of `Update`, and what follows it. -/
def callbackNext (q : SqlResultQueue κ) (timeout : UInt32) (late : Bool) : SqlResultQueue κ :=
  match q.threadUnsafeWaitingQueries with
  | [] => { q with position := .wait }
  | s :: waiting =>
    { q with
      threadUnsafeWaitingQueries := waiting
      executed := q.executed ++ [s]
      numUnsafeQueries := q.numUnsafeQueries - 1
      position := if timeout != 0 && late then .wait else .callbacks timeout }

/-- `next` in the loop of `CancelAll`, and what follows it. -/
def cancelNext (q : SqlResultQueue κ) : SqlResultQueue κ :=
  match q.queue with
  | [] => { q with position := .cancelled }
  | cb :: queue => { q with queue := queue, executed := q.executed ++ [cb] }

/-- The main thread runs on. -/
def main (threadSafe : κ → Bool) (q : SqlResultQueue κ) (late : Bool) : SqlResultQueue κ :=
  match q.position with
  | .idle => q
  | .sort timeout => q.sortNext threadSafe timeout
  | .callbacks timeout => q.callbackNext timeout late
  | .wait => if q.workload.isEmpty && q.running.isEmpty then { q with position := .idle } else q
  | .cancel => q.cancelNext
  | .cancelled => q

/-- The pool works on what `processWorkload` has given it. -/
def Position.processing : Position → Bool
  | .callbacks _ | .wait => true
  | _ => false

/-- The loop of `worker_sq::doWork`: the workload is taken in order. -/
def take (q : SqlResultQueue κ) : SqlResultQueue κ :=
  match q.workload with
  | [] => q
  | callback :: workload =>
    if q.position.processing && q.running.length < poolSize then
      { q with workload := workload, running := q.running ++ [callback] }
    else
      q

def done (q : SqlResultQueue κ) (i : Nat) : SqlResultQueue κ :=
  match q.running[i]? with
  | none => q
  | some callback =>
    { q with running := q.running.eraseIdx i, executed := q.executed ++ [callback] }

/-- One step. `CancelAll` is the last call: nothing is added once it has returned. -/
def step (threadSafe : κ → Bool) (q : SqlResultQueue κ) : Act κ → SqlResultQueue κ
  | .add callback =>
    if q.position = .cancelled then q
    else { q with queue := q.queue ++ [callback], added := q.added ++ [callback] }
  | .update timeout => if q.position = .idle then { q with position := .sort timeout } else q
  | .cancelAll => if q.position = .idle then { q with position := .cancel } else q
  | .main late => q.main threadSafe late
  | .take => q.take
  | .done i => q.done i

/-- The queue after the steps `acts`. -/
def run (threadSafe : κ → Bool) (acts : List (Act κ)) : SqlResultQueue κ :=
  Lib.run (step threadSafe) {} acts

/-! ## What every step keeps -/

/-- `CancelAll` has been called. -/
def Position.cancelling : Position → Bool
  | .cancel | .cancelled => true
  | _ => false

/-- No call of `Update` runs. -/
def Position.resting : Position → Bool
  | .idle | .cancel | .cancelled => true
  | _ => false

structure Inv (threadSafe : κ → Bool) (q : SqlResultQueue κ) : Prop where
  /-- every callback that was added is executed or in one place, and nothing else is -/
  conserved : ∀ p : κ → Bool, q.executed.countP p + q.running.countP p + q.workload.countP p +
    q.threadUnsafeWaitingQueries.countP p + q.queue.countP p = q.added.countP p
  counted : q.numUnsafeQueries = UInt32.ofNat q.threadUnsafeWaitingQueries.length
  waiting : ∀ s ∈ q.threadUnsafeWaitingQueries, threadSafe s = false
  pooled : ∀ s ∈ q.running ++ q.workload, threadSafe s = true
  /-- the callbacks that are not thread-safe are in order, unless `CancelAll` leaves some behind -/
  ordered : (q.position.cancelling = true → q.threadUnsafeWaitingQueries = []) →
    q.executed.filter (!threadSafe ·) ++ q.threadUnsafeWaitingQueries ++
      q.queue.filter (!threadSafe ·) = q.added.filter (!threadSafe ·)
  rested : q.position.resting = true → q.workload = [] ∧ q.running = []
  emptied : q.position = .cancelled → q.queue = []

variable {threadSafe : κ → Bool} {q : SqlResultQueue κ}

theorem Inv.init : Inv threadSafe {} where
  conserved _ := rfl
  counted := rfl
  waiting _ hs := absurd hs not_mem_nil
  pooled _ hs := absurd hs not_mem_nil
  ordered _ := rfl
  rested _ := ⟨rfl, rfl⟩
  emptied h := nomatch h

section

variable (h : Inv threadSafe q)
include h

theorem Inv.add (callback : κ) (hq : q.position ≠ .cancelled) :
    Inv threadSafe
      { q with queue := q.queue ++ [callback], added := q.added ++ [callback] } :=
  { h with
    conserved := fun p => by
      have := h.conserved p
      simp only [countP_append]
      omega
    ordered := fun hw => by simp only [filter_append, ← h.ordered hw, append_assoc]
    emptied := fun hc => absurd hc hq }

/-- The main thread is at another place, which says no more than what holds. -/
theorem Inv.goto {position : Position}
    (hc : q.position.cancelling = true → position.cancelling = true)
    (hr : position.resting = true → q.workload = [] ∧ q.running = [])
    (he : position = .cancelled → q.queue = []) :
    Inv threadSafe { q with position := position } :=
  { h with ordered := fun hw => h.ordered fun hq => hw (hc hq), rested := hr, emptied := he }

theorem Inv.sortNext {timeout : UInt32} (hq : q.position = .sort timeout) :
    Inv threadSafe (q.sortNext threadSafe timeout) := by
  have hord := h.ordered (by simp [hq, Position.cancelling])
  unfold SqlResultQueue.sortNext
  split
  next => exact h.goto (by simp [hq, Position.cancelling]) (by simp [Position.resting]) nofun
  next callback queue hqueue =>
  split
  next hsafe =>
    have hunsafe : threadSafe callback = false := by simpa using hsafe
    exact
      { h with
        conserved := fun p => by
          have := h.conserved p
          simp only [hqueue, countP_cons] at this
          simp only [countP_append, countP_singleton]
          omega
        counted := by
          rw [h.counted, length_append, length_singleton, UInt32.ofNat_add]
          rfl
        waiting := by
          simp only [mem_append, mem_singleton]
          rintro s (hs | rfl)
          · exact h.waiting s hs
          · exact hunsafe
        ordered := fun _ => by simpa [hqueue, hunsafe] using hord
        rested := by simp [hq, Position.resting]
        emptied := by simp [hq] }
  next hsafe =>
    have hsafe' : threadSafe callback = true := by simpa using hsafe
    exact
      { h with
        conserved := fun p => by
          have := h.conserved p
          simp only [hqueue, countP_cons] at this
          simp only [countP_append, countP_singleton]
          omega
        pooled := by
          simp only [← append_assoc, mem_append, mem_singleton]
          rintro s (hs | rfl)
          · exact h.pooled s (mem_append.2 hs)
          · exact hsafe'
        ordered := fun _ => by simpa [hqueue, hsafe'] using hord
        rested := by simp [hq, Position.resting]
        emptied := by simp [hq] }

theorem Inv.callbackNext {timeout : UInt32} (late : Bool)
    (hq : q.position = .callbacks timeout) : Inv threadSafe (q.callbackNext timeout late) := by
  have hord := h.ordered (by simp [hq, Position.cancelling])
  unfold SqlResultQueue.callbackNext
  split
  next => exact h.goto (by simp [hq, Position.cancelling]) (by simp [Position.resting]) nofun
  next s waiting hwait =>
  have hunsafe : threadSafe s = false := h.waiting s (hwait ▸ mem_cons_self)
  exact
    { h with
      conserved := fun p => by
        have := h.conserved p
        simp only [hwait, countP_cons] at this
        simp only [countP_append, countP_singleton]
        omega
      counted := by
        rw [h.counted, hwait, length_cons, UInt32.ofNat_add]
        exact UInt32.add_sub_cancel _ _
      waiting := fun c hc => h.waiting c (hwait ▸ mem_cons_of_mem _ hc)
      ordered := fun _ => by simpa [hwait, hunsafe] using hord
      rested := by split <;> simp [Position.resting]
      emptied := by split <;> simp }

theorem Inv.cancelNext (hq : q.position = .cancel) :
    Inv threadSafe q.cancelNext := by
  have hrest := h.rested (by simp [hq, Position.resting])
  unfold SqlResultQueue.cancelNext
  split
  next hqueue => exact h.goto (fun _ => rfl) (fun _ => hrest) (fun _ => hqueue)
  next cb queue hqueue =>
  exact
    { h with
      conserved := fun p => by
        have := h.conserved p
        simp only [hqueue, countP_cons] at this
        simp only [countP_append, countP_singleton]
        omega
      ordered := fun hw => by
        -- a callback that was left behind would have to be before `cb`
        have hempty : q.threadUnsafeWaitingQueries = [] := hw (by simp [hq, Position.cancelling])
        have hord := h.ordered fun _ => hempty
        simp only [hqueue, hempty, append_nil] at hord ⊢
        rw [← hord, filter_append, append_assoc, ← filter_append]
        rfl
      rested := fun _ => hrest
      emptied := by simp [hq] }

theorem Inv.main (late : Bool) : Inv threadSafe (q.main threadSafe late) := by
  unfold SqlResultQueue.main
  split
  next => exact h
  next hq => exact h.sortNext hq
  next hq => exact h.callbackNext late hq
  next hq =>
    split
    next hdone =>
      have hdone' : q.workload = [] ∧ q.running = [] := by simpa using hdone
      exact h.goto (by simp [hq, Position.cancelling]) (fun _ => hdone') nofun
    next => exact h
  next hq => exact h.cancelNext hq
  next => exact h

theorem Inv.take : Inv threadSafe q.take := by
  unfold SqlResultQueue.take
  split
  next => exact h
  next callback workload hload =>
  split
  next hbusy =>
    exact
      { h with
        conserved := fun p => by
          have := h.conserved p
          simp only [hload, countP_cons] at this
          simp only [countP_append, countP_singleton]
          omega
        pooled := by simpa [hload] using h.pooled
        rested := fun hr => by simp [(h.rested hr).1] at hload }
  next => exact h

theorem Inv.done (i : Nat) : Inv threadSafe (q.done i) := by
  unfold SqlResultQueue.done
  split
  next => exact h
  next callback hget =>
  obtain ⟨hi, hcb⟩ := List.getElem?_eq_some_iff.1 hget
  have hperm : (callback :: q.running.eraseIdx i).Perm q.running :=
    hcb ▸ getElem_cons_eraseIdx_perm hi
  have hsafe : threadSafe callback = true :=
    h.pooled callback (mem_append_left _ (hperm.subset mem_cons_self))
  exact
    { h with
      conserved := fun p => by
        have := h.conserved p
        have hcount := hperm.countP_eq p
        rw [countP_cons] at hcount
        simp only [countP_append, countP_singleton]
        omega
      pooled := fun c hc => h.pooled c (by
        rcases mem_append.1 hc with hc | hc
        · exact mem_append_left _ (hperm.subset (mem_cons_of_mem _ hc))
        · exact mem_append_right _ hc)
      ordered := fun hw => by
        have hskip : [callback].filter (!threadSafe ·) = [] := by simp [hsafe]
        simpa only [filter_append, hskip, append_nil] using h.ordered hw
      rested := fun hr => by simp [(h.rested hr).2] at hi }

theorem Inv.step (a : Act κ) : Inv threadSafe (q.step threadSafe a) := by
  cases a with
  | add callback =>
    simp only [SqlResultQueue.step]
    split
    next => exact h
    next hq => exact h.add callback hq
  | update timeout =>
    simp only [SqlResultQueue.step]
    split
    next hq => exact h.goto (by simp [hq, Position.cancelling]) (by simp [Position.resting]) nofun
    next => exact h
  | cancelAll =>
    simp only [SqlResultQueue.step]
    split
    next hq =>
      exact h.goto (fun _ => rfl) (fun _ => h.rested (by simp [hq, Position.resting])) nofun
    next => exact h
  | main late => exact h.main late
  | take => exact h.take
  | done i => exact h.done i

end

theorem run_inv (threadSafe : κ → Bool) (acts : List (Act κ)) :
    Inv threadSafe (run threadSafe acts) :=
  Lib.run_invariant (fun _ a h => h.step a) .init acts

/-! ## The calls return -/

def Position.left : Position → Nat
  | .sort _ => 3
  | .callbacks _ => 2
  | .wait | .cancel => 1
  | .idle | .cancelled => 0

/-- The steps of the main thread and of the pool that are left, when nothing more is added. -/
def left (q : SqlResultQueue κ) : Nat :=
  4 * q.queue.length + 3 * q.workload.length + 2 * q.threadUnsafeWaitingQueries.length +
    2 * q.running.length + q.position.left

/-- A step inside of a call. -/
def Act.inside : Act κ → Prop
  | .main _ | .take | .done _ => True
  | .add _ | .update _ | .cancelAll => False

theorem sortNext_left {timeout : UInt32} (hq : q.position = .sort timeout) :
    (q.sortNext threadSafe timeout).left < q.left := by
  unfold sortNext
  split
  next => simp [left, hq, Position.left]
  next hqueue =>
    split
    next => simp [left, hqueue]; omega
    next => simp [left, hqueue]; omega

theorem callbackNext_left {timeout : UInt32} (late : Bool) (hq : q.position = .callbacks timeout) :
    (q.callbackNext timeout late).left < q.left := by
  unfold callbackNext
  split
  next => simp [left, hq, Position.left]
  next hwait =>
    simp only [left, hwait, hq, Position.left, List.length_cons]
    split_ifs
    · simp only
      omega
    · simp only
      omega

theorem cancelNext_left (hq : q.position = .cancel) : q.cancelNext.left < q.left := by
  unfold cancelNext
  split
  next => simp [left, hq, Position.left]
  next hqueue => simp [left, hqueue, hq]

/-- A callback that a free thread takes counts as running, and no longer as workload. -/
theorem take_left_of_room {callback : κ} {workload : List κ} (hload : q.workload = callback :: workload)
    (hroom : (q.position.processing && q.running.length < poolSize) = true) :
    q.take.left < q.left := by
  simp only [take, hload, hroom, if_true, left, List.length_append, List.length_cons,
    List.length_nil]
  omega

theorem take_left (q : SqlResultQueue κ) : q.take = q ∨ q.take.left < q.left := by
  unfold take
  split
  next => exact .inl rfl
  next hload =>
    split
    next hroom =>
      have hleft := take_left_of_room hload hroom
      simp only [take, hload, hroom, if_true] at hleft
      exact .inr hleft
    next => exact .inl rfl

theorem done_left {i : Nat} (hi : i < q.running.length) : (q.done i).left < q.left := by
  simp only [done, List.getElem?_eq_getElem hi, left, List.length_eraseIdx_of_lt hi]
  omega

/-- A step inside of a call brings the call nearer to its end, or changes nothing. -/
theorem step_left {a : Act κ} (ha : a.inside) :
    q.step threadSafe a = q ∨ (q.step threadSafe a).left < q.left := by
  cases a with
  | main late =>
    simp only [step, main]
    split
    next => exact .inl rfl
    next hq => exact .inr (sortNext_left hq)
    next hq => exact .inr (callbackNext_left late hq)
    next hq =>
      split
      next => right; simp [left, hq, Position.left]
      next => exact .inl rfl
    next hq => exact .inr (cancelNext_left hq)
    next => exact .inl rfl
  | take => exact q.take_left
  | done i =>
    by_cases hi : i < q.running.length
    · exact .inr (done_left hi)
    · exact .inl (by simp [step, done, List.getElem?_eq_none (Nat.le_of_not_lt hi)])
  | add => exact ha.elim
  | update => exact ha.elim
  | cancelAll => exact ha.elim

/-- While a call runs, the main thread or the pool can take a step. -/
theorem exists_step_left (threadSafe : κ → Bool) (hi : q.position ≠ .idle)
    (hc : q.position ≠ .cancelled) :
    ∃ a : Act κ, a.inside ∧ (q.step threadSafe a).left < q.left := by
  cases hq : q.position with
  | idle => exact absurd hq hi
  | cancelled => exact absurd hq hc
  | sort timeout =>
    exact ⟨.main false, trivial, by simpa only [step, main, hq] using sortNext_left hq⟩
  | callbacks timeout =>
    exact ⟨.main false, trivial, by simpa only [step, main, hq] using callbackNext_left false hq⟩
  | cancel => exact ⟨.main false, trivial, by simpa only [step, main, hq] using cancelNext_left hq⟩
  | wait =>
    cases hrun : q.running with
    | cons callback running => exact ⟨.done 0, trivial, done_left (by simp [hrun])⟩
    | nil =>
      cases hload : q.workload with
      | nil =>
        have hidle : q.step threadSafe (.main false) = { q with position := .idle } := by
          simp only [step, main, hq, hload, hrun, List.isEmpty_nil, Bool.and_self, if_true]
        refine ⟨.main false, trivial, ?_⟩
        rw [hidle]
        simp only [left, hq, Position.left]
        omega
      | cons callback workload =>
        refine ⟨.take, trivial, take_left_of_room hload ?_⟩
        rw [hq, hrun]
        rfl

/-- From every state the call that runs comes to its end, when the threads go on and nothing is added. -/
theorem exists_returned (threadSafe : κ → Bool) (q : SqlResultQueue κ) :
    ∃ acts : List (Act κ), (∀ a ∈ acts, a.inside) ∧
      ((acts.foldl (step threadSafe) q).position = .idle ∨
        (acts.foldl (step threadSafe) q).position = .cancelled) := by
  induction hleft : q.left using Nat.strongRecOn generalizing q with
  | ind n ih =>
    by_cases hi : q.position = .idle
    · exact ⟨[], nofun, .inl hi⟩
    by_cases hc : q.position = .cancelled
    · exact ⟨[], nofun, .inr hc⟩
    obtain ⟨a, ha, hlt⟩ := exists_step_left threadSafe hi hc
    obtain ⟨acts, hacts, hend⟩ := ih _ (hleft ▸ hlt) _ rfl
    exact ⟨a :: acts, forall_mem_cons.mpr ⟨ha, hacts⟩, hend⟩

/-! ## What is left behind -/

/-- Every callback is executed once, those that are not thread-safe in their order, and the count
is right all the time. -/
structure Delivered (threadSafe : κ → Bool) (acts : List (Act κ)) : Prop where
  once : (run threadSafe acts).executed.Perm (run threadSafe acts).added
  inOrder : (run threadSafe acts).executed.filter (!threadSafe ·) =
    (run threadSafe acts).added.filter (!threadSafe ·)
  counted : ∀ before, before <+: acts → (run threadSafe before).numUnsafeQueries.toNat =
    (run threadSafe before).threadUnsafeWaitingQueries.length

theorem run_append (threadSafe : κ → Bool) (acts more : List (Act κ)) :
    run threadSafe (acts ++ more) = more.foldl (step threadSafe) (run threadSafe acts) :=
  foldl_append

/-- Once `CancelAll` is called, the second queue stays as it is. -/
theorem step_cancelling (a : Act κ) (hq : q.position.cancelling = true) :
    (q.step threadSafe a).position.cancelling = true ∧
      (q.step threadSafe a).threadUnsafeWaitingQueries = q.threadUnsafeWaitingQueries := by
  cases a with
  | add callback => simp only [step]; split <;> exact ⟨hq, rfl⟩
  | update timeout =>
    have : q.position ≠ .idle := fun hi => by simp [hi, Position.cancelling] at hq
    simp [step, this, hq]
  | cancelAll =>
    have : q.position ≠ .idle := fun hi => by simp [hi, Position.cancelling] at hq
    simp [step, this, hq]
  | main late =>
    simp only [step, main]
    split
    next => exact ⟨hq, rfl⟩
    next hp => simp [hp, Position.cancelling] at hq
    next hp => simp [hp, Position.cancelling] at hq
    next hp => simp [hp, Position.cancelling] at hq
    next =>
      unfold cancelNext
      split
      next => exact ⟨rfl, rfl⟩
      next => exact ⟨hq, rfl⟩
    next => exact ⟨hq, rfl⟩
  | take =>
    simp only [step, take]
    split
    next => exact ⟨hq, rfl⟩
    next => split <;> exact ⟨hq, rfl⟩
  | done i => simp only [step, done]; split <;> exact ⟨hq, rfl⟩

theorem waiting_of_cancelling (more : List (Act κ)) (hq : q.position.cancelling = true) :
    (more.foldl (step threadSafe) q).threadUnsafeWaitingQueries = q.threadUnsafeWaitingQueries := by
  induction more generalizing q with
  | nil => rfl
  | cons a more ih =>
    obtain ⟨hc, hw⟩ := step_cancelling a hq
    exact (ih hc).trans hw

/-- Only a call of `CancelAll` leads there. -/
theorem cancelAll_of_cancelling {a : Act κ} (hq : q.position.cancelling = false)
    (ha : (q.step threadSafe a).position.cancelling = true) :
    a = .cancelAll ∧ q.position = .idle := by
  cases a with
  | add callback =>
    simp only [step] at ha
    split at ha <;> simp [hq] at ha
  | update timeout =>
    simp only [step] at ha
    split at ha
    next => simp [Position.cancelling] at ha
    next => simp [hq] at ha
  | cancelAll =>
    simp only [step] at ha
    split at ha
    next hi => exact ⟨rfl, hi⟩
    next => simp [hq] at ha
  | main late =>
    simp only [step, main] at ha
    split at ha
    next => simp [hq] at ha
    next hp =>
      unfold sortNext at ha
      split at ha
      next => simp [Position.cancelling] at ha
      next => split at ha <;> simp [hp, Position.cancelling] at ha
    next hp =>
      unfold callbackNext at ha
      split at ha
      next => simp [Position.cancelling] at ha
      next => simp only at ha; split at ha <;> simp [Position.cancelling] at ha
    next =>
      split at ha
      next => simp [Position.cancelling] at ha
      next => simp [hq] at ha
    next hp => simp [hp, Position.cancelling] at hq
    next => simp [hq] at ha
  | take =>
    simp only [step, take] at ha
    split at ha
    next => simp [hq] at ha
    next => split at ha <;> simp [hq] at ha
  | done i =>
    simp only [step, done] at ha
    split at ha <;> simp [hq] at ha

theorem exists_cancelAll {acts : List (Act κ)}
    (h : (run threadSafe acts).position.cancelling = true) :
    ∃ before, before ++ [.cancelAll] <+: acts ∧ (run threadSafe before).position = .idle := by
  induction acts using reverseRecOn with
  | nil => simp [run, Position.cancelling] at h
  | append_singleton acts a ih =>
    by_cases hq : (run threadSafe acts).position.cancelling = true
    · obtain ⟨before, hb, hi⟩ := ih hq
      exact ⟨before, hb.trans (prefix_append _ _), hi⟩
    · rw [run_append] at h
      obtain ⟨rfl, hi⟩ := cancelAll_of_cancelling (Bool.eq_false_iff.2 hq) h
      exact ⟨acts, prefix_rfl, hi⟩

/-- What waits in the second queue when `CancelAll` is called waits there for ever. -/
theorem waiting_of_cancelAll {before acts : List (Act κ)} (hb : before ++ [.cancelAll] <+: acts)
    (hi : (run threadSafe before).position = .idle) :
    (run threadSafe acts).threadUnsafeWaitingQueries =
      (run threadSafe before).threadUnsafeWaitingQueries := by
  obtain ⟨more, rfl⟩ := hb
  have hstep : run threadSafe (before ++ [.cancelAll]) =
      { run threadSafe before with position := .cancel } := by
    simp [run_append, step, hi]
  rw [run_append, hstep]
  exact waiting_of_cancelling more rfl

theorem eq_nil_of_perm {acts : List (Act κ)}
    (h : (run threadSafe acts).executed.Perm (run threadSafe acts).added) :
    (run threadSafe acts).threadUnsafeWaitingQueries = [] := by
  have hc := (run_inv threadSafe acts).conserved fun _ => true
  simp only [countP_true] at hc
  have hlen := h.length_eq
  exact length_eq_zero_iff.1 (by omega)

section

variable (h : Inv threadSafe q) (hc : q.position = .cancelled)
  (hw : q.threadUnsafeWaitingQueries = [])
include h hc hw

/-- When `CancelAll` has returned and left nothing behind, all is executed. -/
theorem Inv.perm : q.executed.Perm q.added := by
  classical
  obtain ⟨hload, hrun⟩ := h.rested (by simp [hc, Position.resting])
  refine perm_iff_count.2 fun c => ?_
  have := h.conserved (· == c)
  simpa [hload, hrun, hw, h.emptied hc, count] using this

theorem Inv.inOrder :
    q.executed.filter (!threadSafe ·) = q.added.filter (!threadSafe ·) := by
  simpa [hw, h.emptied hc] using h.ordered fun _ => hw

end

theorem Inv.counted_iff (h : Inv threadSafe q) :
    q.numUnsafeQueries.toNat = q.threadUnsafeWaitingQueries.length ↔
      q.threadUnsafeWaitingQueries.length < 2 ^ 32 := by
  rw [h.counted, UInt32.toNat_ofNat']
  omega

/-- In a run to the end of `CancelAll`, every callback is delivered exactly when no time-out has
left one in the second queue when `CancelAll` is called, and the count never overflows. -/
theorem delivered_iff (threadSafe : κ → Bool) (acts : List (Act κ))
    (h : (run threadSafe acts).position = .cancelled) :
    Delivered threadSafe acts ↔
      (∀ before, before ++ [.cancelAll] <+: acts → (run threadSafe before).position = .idle →
        (run threadSafe before).threadUnsafeWaitingQueries = []) ∧
      ∀ before, before <+: acts →
        (run threadSafe before).threadUnsafeWaitingQueries.length < 2 ^ 32 := by
  constructor
  · intro hd
    refine ⟨fun before hb hi => ?_, fun before hb => ?_⟩
    · rw [← waiting_of_cancelAll hb hi]
      exact eq_nil_of_perm hd.once
    · exact (run_inv threadSafe before).counted_iff.1 (hd.counted before hb)
  · rintro ⟨hempty, hfew⟩
    have hinv := run_inv threadSafe acts
    have hw : (run threadSafe acts).threadUnsafeWaitingQueries = [] := by
      have hc : (run threadSafe acts).position.cancelling = true := by rw [h]; rfl
      obtain ⟨before, hb, hi⟩ := exists_cancelAll hc
      rw [waiting_of_cancelAll hb hi]
      exact hempty before hb hi
    exact
      { once := hinv.perm h hw
        inOrder := hinv.inOrder h hw
        counted := fun before hb => (run_inv threadSafe before).counted_iff.2 (hfew before hb) }

/-- Three callbacks: `0` is thread-safe. -/
def threadSafeCallback (callback : Nat) : Bool := callback == 0

/-- Two callbacks that are not thread-safe, and a call of `Update` that has time for one. -/
def timedOut : List (Act Nat) :=
  [.add 1, .add 0, .add 2, .update 50, .main false, .main false, .main false, .main false, .take,
    .main true, .done 0, .main false, .cancelAll, .main false]

def inTime : List (Act Nat) :=
  [.add 1, .add 0, .add 2, .update 50, .main false, .main false, .main false, .main false, .take,
    .main false, .main false, .main false, .done 0, .main false, .add 1, .cancelAll, .main false,
    .main false]

theorem delivered_iff_in_time :
    Delivered threadSafeCallback inTime ↔
      (∀ before, before ++ [.cancelAll] <+: inTime →
        (run threadSafeCallback before).position = .idle →
        (run threadSafeCallback before).threadUnsafeWaitingQueries = []) ∧
      ∀ before, before <+: inTime →
        (run threadSafeCallback before).threadUnsafeWaitingQueries.length < 2 ^ 32 :=
  delivered_iff threadSafeCallback inTime (by decide)

/-- A callback that a time-out has left in the second queue is never executed. -/
theorem not_delivered :
    (run threadSafeCallback timedOut).position = .cancelled ∧
      ¬ Delivered threadSafeCallback timedOut := by
  refine ⟨by decide, fun h => ?_⟩
  have hlen := h.once.length_eq
  revert hlen
  decide

end SqlResultQueue

end Windrunner
