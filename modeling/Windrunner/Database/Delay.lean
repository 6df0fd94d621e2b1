import Mathlib.Data.List.FinRange

/-!
# The delayed operations of a database

A write of the running server is put in a queue and executed by one of the `n` worker threads of
the database. There is one queue that all the workers share and one for each worker: an operation
with a serial id goes into the queue of the worker that the id selects.

* `Database.submit`: what `Execute`, `CommitTransaction` and `SqlQueryHolder::Execute` put where.
* `Database.processRequests`: one step of the two loops of `SqlDelayThread::ProcessRequests`. A
  worker runs them (`Database.workerTurn`), and after it the destructor of its `SqlDelayThread`.
* `Database.haltTurn`: `HaltDelayThread`, which stops the workers, waits for them and destroys them.

A run is any interleaving of these. The workers take operations from the shared queue at the same
time, so between taking an operation and having executed it a thread holds it.
-/

namespace Windrunner

variable {σ : Type} {n : Nat}

/-- A `SqlOperation`, with the statements that it holds. -/
inductive SqlOperation (σ : Type) where
  /-- `SqlPlainRequest`, and the requests that have no serial id as it -/
  | plainRequest (sql : σ)
  | transaction (serialId : UInt32) (queue : List σ)
  | queryHolderEx (serialId : UInt32) (queries : List σ)
  deriving DecidableEq, Repr

def SqlOperation.getSerialId : SqlOperation σ → UInt32
  | .plainRequest _ => 0
  | .transaction serialId _ => serialId
  | .queryHolderEx serialId _ => serialId

/-- Where a thread is in `ProcessRequests`. -/
inductive ProcessRequests (σ : Type) where
  /-- at the call of `NextDelayedOperation` -/
  | nextDelayed
  /-- in the first loop, with an operation to execute -/
  | delayed (s : SqlOperation σ)
  /-- at the call of `m_serialDelayQueue.next` -/
  | nextSerial
  /-- in the second loop, with an operation to execute -/
  | serial (s : SqlOperation σ)
  deriving DecidableEq, Repr

/-- Where a worker is in `SqlDelayThread::run`. -/
inductive SqlDelayThread.Run (σ : Type) where
  /-- at the test of `m_running` -/
  | loop
  | requests (p : ProcessRequests σ)
  | returned
  deriving DecidableEq, Repr

structure SqlDelayThread (σ : Type) where
  serialDelayQueue : List (SqlOperation σ) := []
  running : Bool := true
  run : SqlDelayThread.Run σ := .loop
  deriving DecidableEq, Repr

def SqlDelayThread.addSerialOperation (t : SqlDelayThread σ) (op : SqlOperation σ) :
    SqlDelayThread σ :=
  { t with serialDelayQueue := t.serialDelayQueue ++ [op] }

def SqlDelayThread.stop (t : SqlDelayThread σ) : SqlDelayThread σ := { t with running := false }

/-- Where the thread that shuts the database down is in `HaltDelayThread`. -/
inductive HaltDelayThread (σ : Type) where
  | notCalled
  /-- in the loop of the calls of `Stop` -/
  | stop (i : Nat)
  /-- in the loop of the calls of `join` -/
  | join (i : Nat)
  /-- in `m_threadsBodies.clear()`, in the destructor of thread `i` -/
  | clear (i : Nat) (p : ProcessRequests σ)
  | done
  deriving DecidableEq, Repr

/-- A `Database` with `n` workers. -/
structure Database (σ : Type) (n : Nat) where
  delayQueue : List (SqlOperation σ) := []
  threadsBodies : Fin n → SqlDelayThread σ := fun _ => {}
  halt : HaltDelayThread σ := .notCalled
  /-- what has been submitted, in this order -/
  submitted : List (SqlOperation σ) := []
  /-- what has been executed, in this order -/
  executed : List (SqlOperation σ) := []

namespace Database

/-- After `Initialize` and `AllowAsyncTransactions`. -/
def init (σ : Type) (n : Nat) : Database σ n := {}

variable (db : Database σ n)

def setThread (w : Fin n) (t : SqlDelayThread σ) : Database σ n :=
  { db with threadsBodies := Function.update db.threadsBodies w t }

/-! ## Submission -/

def addToDelayQueue (op : SqlOperation σ) : Database σ n :=
  { db with delayQueue := db.delayQueue ++ [op] }

/-- The worker that a serial id selects. -/
def asyncWorker (hn : n ≠ 0) (op : SqlOperation σ) : Fin n :=
  ⟨op.getSerialId.toNat % n, Nat.mod_lt _ (Nat.pos_of_ne_zero hn)⟩

def addToSerialDelayQueue (op : SqlOperation σ) : Database σ n :=
  if h : op.getSerialId = 0 ∨ n = 0 then
    db.addToDelayQueue op
  else
    let worker := asyncWorker (not_or.1 h).2 op
    db.setThread worker ((db.threadsBodies worker).addSerialOperation op)

/-- The queue that the callers choose: `Execute`, `CommitTransaction`, `SqlQueryHolder::Execute`. -/
def enqueue (op : SqlOperation σ) : Database σ n :=
  match op with
  | .plainRequest _ => db.addToDelayQueue op
  | .transaction serialId _ =>
    if 0 < serialId then db.addToSerialDelayQueue op else db.addToDelayQueue op
  | .queryHolderEx _ _ => db.addToSerialDelayQueue op

/-- An operation is submitted, as long as the database is not being shut down. -/
def submit (op : SqlOperation σ) : Database σ n :=
  match db.halt with
  | .notCalled => { db.enqueue op with submitted := db.submitted ++ [op] }
  | _ => db

/-- `HasAsyncQuery`: something is queued. -/
def hasAsyncQuery : Bool :=
  !db.delayQueue.isEmpty ||
    (List.finRange n).any fun w => !(db.threadsBodies w).serialDelayQueue.isEmpty

/-! ## Execution -/

def execute (s : SqlOperation σ) : Database σ n :=
  { db with executed := db.executed ++ [s] }

/-- The next step of `ProcessRequests` of thread `w`. There is no position after it when the call
returns. -/
def processRequests (w : Fin n) :
    ProcessRequests σ → Database σ n × Option (ProcessRequests σ)
  | .nextDelayed =>
    match db.delayQueue with
    | [] => (db, some .nextSerial)
    | s :: rest => ({ db with delayQueue := rest }, some (.delayed s))
  | .delayed s => (db.execute s, some .nextDelayed)
  | .nextSerial =>
    match (db.threadsBodies w).serialDelayQueue with
    | [] => (db, none)
    | s :: rest =>
      (db.setThread w { db.threadsBodies w with serialDelayQueue := rest }, some (.serial s))
  | .serial s => (db.execute s, some .nextSerial)

/-- A worker goes on, in `SqlDelayThread::run`. -/
def setRun (w : Fin n) (r : SqlDelayThread.Run σ) : Database σ n :=
  db.setThread w { db.threadsBodies w with run := r }

/-- Where `run` is after a step of `ProcessRequests`. -/
def runAfter : Option (ProcessRequests σ) → SqlDelayThread.Run σ
  | some p => .requests p
  | none => .loop

def workerTurn (w : Fin n) : Database σ n :=
  match (db.threadsBodies w).run with
  | .loop =>
    if (db.threadsBodies w).running then db.setRun w (.requests .nextDelayed)
    else db.setRun w .returned
  | .requests p =>
    let r := db.processRequests w p
    r.1.setRun w (runAfter r.2)
  | .returned => db

/-- Where `clear` is after a step of the destructor of thread `i`. -/
def clearAfter (i : Nat) : Option (ProcessRequests σ) → HaltDelayThread σ
  | some p => .clear i p
  | none => .clear (i + 1) .nextDelayed

/-- The next step of `HaltDelayThread`; from `notCalled`, its call. -/
def haltTurn : Database σ n :=
  match db.halt with
  | .notCalled => if n = 0 then { db with halt := .done } else { db with halt := .stop 0 }
  | .stop i =>
    if h : i < n then
      { db.setThread ⟨i, h⟩ (db.threadsBodies ⟨i, h⟩).stop with halt := .stop (i + 1) }
    else { db with halt := .join 0 }
  | .join i =>
    if h : i < n then
      -- `join` waits for the thread.
      if (db.threadsBodies ⟨i, h⟩).run matches .returned then { db with halt := .join (i + 1) }
      else db
    else { db with halt := .clear 0 .nextDelayed }
  | .clear i p =>
    if h : i < n then
      let r := db.processRequests ⟨i, h⟩ p
      { r.1 with halt := clearAfter i r.2 }
    else { db with halt := .done }
  | .done => db

/-- The threads of the database, and the one that shuts it down. -/
inductive Thread (n : Nat) where
  | worker (w : Fin n)
  | main
  deriving DecidableEq, Repr

def turn : Thread n → Database σ n
  | .worker w => db.workerTurn w
  | .main => db.haltTurn

inductive Event (σ : Type) (n : Nat) where
  | submit (op : SqlOperation σ)
  | turn (t : Thread n)
  deriving DecidableEq, Repr

def step : Event σ n → Database σ n
  | .submit op => db.submit op
  | .turn t => db.turn t

end Database

end Windrunner
