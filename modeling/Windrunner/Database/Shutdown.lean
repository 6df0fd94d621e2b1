import Windrunner.Database.Ordered

/-!
# The shutdown of a database

`Database.rank` sinks with every turn of a thread, from the call of `HaltDelayThread` on: first the
calls of `Stop` that are left, then what there is to do. A worker that has not been told to stop
goes round its loop, but that does not hold up the calls. So the shutdown ends under every fair
schedule, and `once_in_order` says what has been executed then.
-/

namespace Windrunner

open Lib

variable {σ : Type} {n : Nat}

/-! ## What there is to do -/

def ProcessRequests.rank : ProcessRequests σ → Nat
  | .nextDelayed => 3
  | .delayed _ => 4
  | .nextSerial => 2
  | .serial _ => 3

def SqlDelayThread.Run.rank : SqlDelayThread.Run σ → Nat
  | .loop => 1
  | .requests p => p.rank
  | .returned => 0

/-- The calls of `Stop` that are left, and the steps up to them. -/
def HaltDelayThread.stopsLeft (n : Nat) : HaltDelayThread σ → Nat
  | .notCalled => n + 2
  | .stop i => n - i + 1
  | _ => 0

/-- The steps that are left after the calls of `Stop`, operations apart. -/
def HaltDelayThread.rank (n : Nat) : HaltDelayThread σ → Nat
  | .join i => n - i + 4 * n + 5
  | .clear i p => 4 * (n - i) + p.rank + 1
  | _ => 0

namespace Database

variable {db : Database σ n}

/-- The operations that are queued, each with the two steps it takes. -/
def queueRank (db : Database σ n) : Nat :=
  2 * db.delayQueue.length + ∑ v, 2 * (db.threadsBodies v).serialDelayQueue.length

def runRank (db : Database σ n) : Nat := ∑ v, (db.threadsBodies v).run.rank

def work (db : Database σ n) : Nat := db.queueRank + db.runRank + db.halt.rank n

def rank (db : Database σ n) : ℕ ×ₗ ℕ :=
  toLex (db.halt.stopsLeft n, if db.halt.stopsLeft n = 0 then db.work else 0)

/-- The thread that the shutdown waits for. -/
def helpful (db : Database σ n) : Thread n :=
  match db.halt with
  | .join i =>
    if h : i < n then
      match (db.threadsBodies ⟨i, h⟩).run with
      | .returned => .main
      | _ => .worker ⟨i, h⟩
    else .main
  | _ => .main

theorem queueRank_setThread (db : Database σ n) (w : Fin n) (t : SqlDelayThread σ) :
    (db.setThread w t).queueRank + 2 * (db.threadsBodies w).serialDelayQueue.length =
      db.queueRank + 2 * t.serialDelayQueue.length := by
  have := sum_setThread db (fun t => 2 * t.serialDelayQueue.length) w t
  simp only [queueRank, setThread_delayQueue]
  omega

theorem queueRank_setRun (w : Fin n) (r : SqlDelayThread.Run σ) :
    (db.setRun w r).queueRank = db.queueRank := by
  simp only [queueRank, setRun_serialDelayQueue]
  rfl

theorem runRank_setRun (db : Database σ n) (w : Fin n) (r : SqlDelayThread.Run σ) :
    (db.setRun w r).runRank + (db.threadsBodies w).run.rank = db.runRank + r.rank :=
  sum_setThread db (fun t => t.run.rank) w _

theorem SameBesides.runRank {db' : Database σ n} (h : SameBesides db db') :
    db'.runRank = db.runRank := by
  simp only [Database.runRank, h.run]

theorem processRequests_rank {w : Fin n} {p : ProcessRequests σ} {db' : Database σ n}
    {p' : Option (ProcessRequests σ)} (h : db.processRequests w p = (db', p')) :
    db'.queueRank + (runAfter p').rank < db.queueRank + p.rank := by
  rcases processRequests_cases h with ⟨rfl, -, rfl, rfl⟩ | ⟨s, rest, rfl, hq, rfl, rfl⟩ |
    ⟨s, rfl, rfl, rfl⟩ | ⟨rfl, -, rfl, rfl⟩ | ⟨s, rest, rfl, hq, rfl, rfl⟩ | ⟨s, rfl, rfl, rfl⟩
  · simp [runAfter, SqlDelayThread.Run.rank, ProcessRequests.rank]
  · simp only [queueRank, hq, List.length_cons, runAfter, SqlDelayThread.Run.rank,
      ProcessRequests.rank]
    omega
  · simp [queueRank, runAfter, SqlDelayThread.Run.rank, ProcessRequests.rank]
  · simp [runAfter, SqlDelayThread.Run.rank, ProcessRequests.rank]
  · have hset := queueRank_setThread db w
      { db.threadsBodies w with serialDelayQueue := rest }
    simp only [hq, List.length_cons] at hset
    simp only [runAfter, SqlDelayThread.Run.rank, ProcessRequests.rank]
    omega
  · simp [queueRank, runAfter, SqlDelayThread.Run.rank, ProcessRequests.rank]

theorem workerTurn_halt (db : Database σ n) (w : Fin n) : (db.workerTurn w).halt = db.halt := by
  unfold workerTurn
  cases hrun : (db.threadsBodies w).run with
  | loop => dsimp only; split <;> rfl
  | requests p => exact (processRequests_sameBesides (p := p) rfl).halt
  | returned => rfl

/-- A worker that has been told to stop gets on with its work. -/
theorem workerTurn_work (hstop : (db.threadsBodies w).running = false)
    (hrun : (db.threadsBodies w).run ≠ .returned) : (db.workerTurn w).work < db.work := by
  have hhalt := workerTurn_halt db w
  rw [work, work, hhalt]
  refine Nat.add_lt_add_right ?_ _
  unfold workerTurn
  cases hr : (db.threadsBodies w).run with
  | loop =>
    dsimp only
    rw [if_neg (by simp [hstop]), queueRank_setRun]
    have := runRank_setRun db w .returned
    rw [hr] at this
    simp only [SqlDelayThread.Run.rank] at this
    omega
  | requests p =>
    dsimp only
    generalize heq : db.processRequests w p = r
    obtain ⟨db', p'⟩ := r
    have hsame := processRequests_sameBesides heq
    have hstep := processRequests_rank heq
    have := runRank_setRun db' w (runAfter p')
    rw [hsame.run, hr, hsame.runRank] at this
    have hp : (SqlDelayThread.Run.requests p).rank = p.rank := rfl
    show (db'.setRun w (runAfter p')).queueRank + (db'.setRun w (runAfter p')).runRank < _
    rw [queueRank_setRun]
    omega
  | returned => exact absurd hr hrun

theorem rank_lt_of_stopsLeft {db' : Database σ n}
    (h : db'.halt.stopsLeft n < db.halt.stopsLeft n) : db'.rank < db.rank :=
  Prod.Lex.toLex_lt_toLex.2 (Or.inl h)

theorem rank_lt_of_work {db' : Database σ n} (h : db.halt.stopsLeft n = 0)
    (h' : db'.halt.stopsLeft n = 0) (hw : db'.work < db.work) : db'.rank < db.rank := by
  refine Prod.Lex.toLex_lt_toLex.2 (Or.inr ⟨h'.trans h.symm, ?_⟩)
  show (if db'.halt.stopsLeft n = 0 then db'.work else 0) <
    if db.halt.stopsLeft n = 0 then db.work else 0
  rw [if_pos h, if_pos h']
  exact hw

theorem clearAfter_rank {i : Nat} (hi : i < n) (p' : Option (ProcessRequests σ)) :
    (clearAfter i p').rank n ≤ 4 * (n - i) + (runAfter p').rank + 1 := by
  cases p' with
  | none =>
    simp only [clearAfter, runAfter, HaltDelayThread.rank, SqlDelayThread.Run.rank,
      ProcessRequests.rank]
    omega
  | some q => exact Nat.le_refl _

/-- The thread that shuts down gets on too, unless it has to wait in `join`. -/
theorem haltTurn_rank (hdone : db.halt ≠ .done) (hmain : db.helpful = .main) :
    db.haltTurn.rank < db.rank := by
  cases hhalt : db.halt with
  | notCalled =>
    refine rank_lt_of_stopsLeft ?_
    rw [hhalt, haltTurn, hhalt]
    dsimp only
    split
    · exact Nat.succ_pos _
    · exact Nat.lt_succ_self _
  | stop i =>
    refine rank_lt_of_stopsLeft ?_
    rw [hhalt, haltTurn, hhalt]
    dsimp only
    split
    · simp only [HaltDelayThread.stopsLeft]
      omega
    · exact Nat.succ_pos _
  | join i =>
    rw [helpful, hhalt] at hmain
    dsimp only at hmain
    by_cases hi : i < n
    · rw [dif_pos hi] at hmain
      cases hrun : (db.threadsBodies ⟨i, hi⟩).run with
      | loop => simp [hrun] at hmain
      | requests p => simp [hrun] at hmain
      | returned =>
        have heq : db.haltTurn = { db with halt := .join (i + 1) } := by
          simp [haltTurn, hhalt, hi, hrun]
        rw [heq]
        refine rank_lt_of_work (by rw [hhalt]; rfl) rfl ?_
        show db.queueRank + db.runRank + (n - (i + 1) + 4 * n + 5) < db.work
        rw [work, hhalt, HaltDelayThread.rank]
        omega
    · have heq : db.haltTurn = { db with halt := .clear 0 .nextDelayed } := by
        simp [haltTurn, hhalt, hi]
      rw [heq]
      refine rank_lt_of_work (by rw [hhalt]; rfl) rfl ?_
      show db.queueRank + db.runRank + (4 * (n - 0) + 3 + 1) < db.work
      rw [work, hhalt, HaltDelayThread.rank]
      omega
  | clear i p =>
    by_cases hi : i < n
    · generalize heq : db.processRequests ⟨i, hi⟩ p = r
      obtain ⟨db', p'⟩ := r
      have hsame := processRequests_sameBesides heq
      have hstep := processRequests_rank heq
      have hafter := clearAfter_rank hi p'
      have hturn : db.haltTurn = { db' with halt := clearAfter i p' } := by
        simp [haltTurn, hhalt, hi, heq]
      rw [hturn]
      refine rank_lt_of_work (by rw [hhalt]; rfl) (by cases p' <;> rfl) ?_
      show db'.queueRank + db'.runRank + (clearAfter i p').rank n < db.work
      rw [work, hhalt, HaltDelayThread.rank, hsame.runRank]
      omega
    · have heq : db.haltTurn = { db with halt := .done } := by
        simp [haltTurn, hhalt, hi]
      rw [heq]
      refine rank_lt_of_work (by rw [hhalt]; rfl) rfl ?_
      show db.queueRank + db.runRank + 0 < db.work
      rw [work, hhalt, HaltDelayThread.rank]
      omega
  | done => exact absurd hhalt hdone

/-- The thread that is waited for gets the shutdown on. -/
theorem helpful_rank (h : Halting db) (hdone : db.halt ≠ .done) :
    (db.turn db.helpful).rank < db.rank := by
  cases hmain : db.helpful with
  | main => exact haltTurn_rank hdone hmain
  | worker w =>
    obtain ⟨hjoin, hrun⟩ : db.halt = .join w ∧ (db.threadsBodies w).run ≠ .returned := by
      unfold helpful at hmain
      split at hmain
      case h_1 i hhalt =>
        split at hmain
        case isTrue hi =>
          split at hmain
          case h_1 => cases hmain
          case h_2 hne =>
            obtain rfl : (⟨i, hi⟩ : Fin n) = w := by simpa using hmain
            exact ⟨hhalt, hne⟩
        case isFalse => cases hmain
      case h_2 => cases hmain
    have hwork := workerTurn_work (h.stopped w (by rw [hjoin]; trivial)) hrun
    refine rank_lt_of_work (by rw [hjoin]; rfl) ?_ hwork
    rw [turn, workerTurn_halt, hjoin]
    rfl

/-- No turn raises the rank, and another thread is waited for only when it sinks. -/
theorem turn_waits (h : Halting db) (hdone : db.halt ≠ .done) (t : Thread n) :
    (db.turn t).rank < db.rank ∨
      ((db.turn t).rank = db.rank ∧ (db.turn t).helpful = db.helpful) := by
  cases t with
  | main =>
    cases hhelp : db.helpful with
    | main => exact Or.inl (haltTurn_rank hdone hhelp)
    | worker w =>
      refine Or.inr ?_
      have heq : db.haltTurn = db := by
        unfold helpful at hhelp
        unfold haltTurn
        split at hhelp
        case h_1 i hhalt =>
          rw [hhalt]
          dsimp only
          split at hhelp
          case isTrue hi =>
            rw [dif_pos hi]
            cases hrun : (db.threadsBodies ⟨i, hi⟩).run with
            | returned =>
              rw [hrun] at hhelp
              exact nomatch hhelp
            | _ => rfl
          case isFalse => cases hhelp
        case h_2 => cases hhelp
      rw [turn, heq]
      exact ⟨rfl, hhelp⟩
  | worker w =>
    have hhalt := workerTurn_halt db w
    rw [turn]
    by_cases hrun : (db.threadsBodies w).run = .returned
    · have heq : db.workerTurn w = db := by rw [workerTurn, hrun]
      exact Or.inr ⟨by rw [heq], by rw [heq]⟩
    by_cases hleft : db.halt.stopsLeft n = 0
    · have hstopped : db.halt.Stopped w := by
        cases hp : db.halt <;> simp_all [HaltDelayThread.stopsLeft, HaltDelayThread.Stopped]
      exact Or.inl (rank_lt_of_work hleft (by rw [hhalt]; exact hleft)
        (workerTurn_work (h.stopped w hstopped) hrun))
    · refine Or.inr ⟨?_, ?_⟩
      · simp only [rank, hhalt, if_neg hleft]
      · unfold helpful
        rw [hhalt]
        cases hp : db.halt with
        | join i => rw [hp] at hleft; exact absurd rfl hleft
        | _ => rfl

/-! ## The end of the shutdown -/

/-- Under every fair schedule of the threads the shutdown ends. -/
theorem halt_reached (h : Halting db) {sched : Nat → Thread n} (hfair : Fair sched) :
    ∃ t, (stateAt turn sched db t).halt = .done := by
  have hreach : ∃ t, (fun db : Database σ n => db.halt = .done) (stateAt turn sched db t) :=
    hfair.reaches (fun _ t h => Halting.turn h t) (fun _ => helpful_rank)
      (fun _ t h hdone => turn_waits h hdone t) h
  exact hreach

theorem workerTurn_submitted (db : Database σ n) (w : Fin n) :
    (db.workerTurn w).submitted = db.submitted := by
  unfold workerTurn
  cases hrun : (db.threadsBodies w).run with
  | loop => dsimp only; split <;> rfl
  | requests p => exact (processRequests_sameBesides (p := p) rfl).submitted
  | returned => rfl

theorem haltTurn_submitted (db : Database σ n) : db.haltTurn.submitted = db.submitted := by
  obtain heq | ⟨-, _, _, heq, -, rfl | ⟨_, rfl⟩⟩ | ⟨i, p, -, heq⟩ := db.haltTurn_cases
  · rw [heq]
  · rw [heq]
  · rw [heq]; rfl
  · rw [heq]; exact (processRequests_sameBesides (p := p) rfl).submitted

theorem turn_submitted (db : Database σ n) (t : Thread n) :
    (db.turn t).submitted = db.submitted :=
  match t with
  | .worker w => workerTurn_submitted db w
  | .main => haltTurn_submitted db

/-- When the shutdown is over nothing is on the way. -/
theorem Sound.done (h : Sound db) (hn : 0 < n) (hdone : db.halt = .done) :
    db.executed.Perm db.submitted ∧ ∀ v, db.executed.filter (·.lane n = some v) =
      db.submitted.filter (·.lane n = some v) := by
  have hcleared : ∀ v : Fin n, (db.threadsBodies v).serialDelayQueue = [] ∧ db.delayQueue = [] :=
    fun v => h.halting.cleared v (by rw [hdone]; trivial)
  have hrun : ∀ v : Fin n, (db.threadsBodies v).run.position = none :=
    fun v => h.halting.run_position (by rw [hdone]; trivial)
  have hhalt : ∀ v : Fin n, db.halt.position v = none := fun v => by rw [hdone]; rfl
  refine ⟨Multiset.coe_eq_coe.1 ?_, fun v => ?_⟩
  · have hcounted := h.counted
    simp only [Counted, queued, heldByWorkers, heldByHalt, (hcleared ⟨0, hn⟩).2, (hcleared _).1,
      hrun, hhalt, heldAt, Multiset.coe_nil, Finset.sum_const_zero, add_zero] at hcounted
    exact hcounted.symm
  · have hserial := h.ordered.serial v
    simpa [hrun, hhalt, heldAt, (hcleared v).1] using hserial.symm

/-- The operations with one serial id are all in one lane. -/
theorem filter_getSerialId (hn : n ≠ 0) {s : UInt32} (hs : s ≠ 0) :
    ∃ v : Fin n, ∀ l : List (SqlOperation σ), l.filter (·.getSerialId = s) =
      (l.filter (·.lane n = some v)).filter (·.getSerialId = s) := by
  refine ⟨⟨s.toNat % n, Nat.mod_lt _ (Nat.pos_of_ne_zero hn)⟩, fun l => ?_⟩
  rw [List.filter_filter]
  refine List.filter_congr fun op _ => ?_
  by_cases hop : op.getSerialId = s
  · simp [SqlOperation.lane, asyncWorker, hop, hs, hn]
  · simp [hop]

/-- Of the operations with one serial id the ones submitted first have been executed, in order. -/
theorem Sound.isPrefix (h : Sound db) (hn : n ≠ 0) {s : UInt32} (hs : s ≠ 0) :
    db.executed.filter (·.getSerialId = s) <+: db.submitted.filter (·.getSerialId = s) := by
  obtain ⟨v, hv⟩ := filter_getSerialId (σ := σ) hn hs
  rw [hv db.executed, hv db.submitted, h.ordered.serial v, List.append_assoc, List.append_assoc,
    List.filter_append]
  exact List.prefix_append _ _

/-- What stands before an element of the prefix stands before it in the list. -/
theorem split_of_prefix {α : Type} {p : α → Bool} {e l before after : List α} {x : α}
    (h : e.filter p <+: l.filter p) (he : e = before ++ x :: after) (hx : p x = true) :
    ∃ earlier later, l = earlier ++ x :: later ∧ earlier.filter p = before.filter p := by
  obtain ⟨rest, hrest⟩ := h
  have hl : l.filter p = before.filter p ++ (x :: (after.filter p ++ rest)) := by
    rw [← hrest, he]
    simp [List.filter_append, hx]
  obtain ⟨l₁, l₂, rfl, h₁, h₂⟩ := List.filter_eq_append_iff.1 hl
  obtain ⟨m₁, m₂, rfl, hm₁, -, -⟩ := List.filter_eq_cons_iff.1 h₂
  refine ⟨l₁ ++ m₁, m₂, by simp, ?_⟩
  rw [List.filter_append, h₁, List.filter_eq_nil_iff.2 fun a ha => hm₁ a ha, List.append_nil]

/-- In every run no operation is executed twice, and those with one serial id are executed in the
order in which they were submitted: when one is executed, exactly the earlier ones have been. Under
every fair schedule the shutdown ends, and everything that was submitted before has been executed
then. -/
theorem once_in_order (hn : 0 < n) (es : List (Event σ n)) :
    let db := run step (init σ n) es
    db.executed.Subperm db.submitted ∧
    (∀ s ≠ 0, db.executed.filter (·.getSerialId = s) <+: db.submitted.filter (·.getSerialId = s)) ∧
    (∀ before op after, op.getSerialId ≠ 0 → db.executed = before ++ op :: after →
      ∃ earlier later, db.submitted = earlier ++ op :: later ∧
        earlier.filter (·.getSerialId = op.getSerialId) =
          before.filter (·.getSerialId = op.getSerialId)) ∧
    (db.halt = .done → db.executed.Perm db.submitted) ∧
    (∀ sched, Fair sched → ∃ t, let db' := stateAt turn sched db t
      db'.halt = .done ∧ db'.executed.Perm db.submitted ∧
        ∀ s ≠ 0, db'.executed.filter (·.getSerialId = s) =
          db.submitted.filter (·.getSerialId = s)) := by
  intro db
  have hsound : Sound db := sound_run es
  have hn' : n ≠ 0 := Nat.pos_iff_ne_zero.1 hn
  refine ⟨?_, fun s hs => hsound.isPrefix hn' hs, fun before op after hop he => ?_,
    fun hdone => (hsound.done hn hdone).1, fun sched hfair => ?_⟩
  · refine Multiset.coe_le.1 ?_
    rw [hsound.counted, add_assoc, add_assoc]
    exact Multiset.le_add_right _ _
  · exact split_of_prefix (hsound.isPrefix hn' hop) he (by simp)
  · obtain ⟨t, hdone⟩ := halt_reached hsound.halting hfair
    have hend : Sound (stateAt turn sched db t) :=
      stateAt_keeps (fun _ t h => h.turn t) hsound sched t
    have hsub : (stateAt turn sched db t).submitted = db.submitted :=
      stateAt_keeps (I := fun db' : Database σ n => db'.submitted = db.submitted)
        (fun db' t h => (turn_submitted db' t).trans h) rfl sched t
    obtain ⟨hperm, hlanes⟩ := hend.done hn hdone
    rw [hsub] at hperm hlanes
    refine ⟨t, hdone, hperm, fun s hs => ?_⟩
    obtain ⟨v, hv⟩ := filter_getSerialId (σ := σ) hn' hs
    rw [hv, hlanes v, ← hv]

/-- A save, a plain write and the login after them. The one worker executes the write first, then the
save and the login, and is told to stop. -/
theorem once_in_order_relog :
    let db := run step (init Unit 1)
      ([.submit (.transaction 7 []), .submit (.plainRequest ()), .submit (.queryHolderEx 7 [])] ++
        List.replicate 9 (.turn (.worker 0)) ++ [.turn .main, .turn .main])
    db.executed = [.plainRequest (), .transaction 7 [], .queryHolderEx 7 []] ∧
      db.executed.Subperm db.submitted ∧
      db.executed.filter (·.getSerialId = 7) <+: db.submitted.filter (·.getSerialId = 7) :=
  have h := once_in_order (σ := Unit) (n := 1) (by decide) _
  ⟨by decide +kernel, h.1, h.2.1 7 (by decide)⟩

/-- Without a worker nothing is executed: the shutdown has nothing to wait for. -/
theorem no_worker_not_once :
    ¬ ∀ (n : Nat) (es : List (Event Unit n)), let db := run step (init Unit n) es
      db.halt = .done → db.executed.Perm db.submitted := by
  intro h
  have hperm := h 0 [.submit (.plainRequest ()), .turn .main] rfl
  exact absurd hperm.length_eq (by decide)

end Database

end Windrunner
