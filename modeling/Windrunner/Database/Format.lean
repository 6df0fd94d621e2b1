import Mathlib.Algebra.Group.Nat.Defs
import Mathlib.Data.List.TakeWhile

/-!
# Statements that are formatted

Seven functions format a statement into a buffer of `MAX_QUERY_LEN` characters with `vsnprintf` and hand
the buffer over. They take the statement for truncated when `vsnprintf` returns `-1`, but for a text that does
not fit it returns the length of the text.

* `vsnprintf`, `cStr`: what is in the buffer, and what a reader of the buffer sees.
* `SqlCaller.withFormat`: what the seven functions have in common. `SqlCaller.call`: each of them.
* `Complete`: the whole text is handed over, or failure is reported and nothing is handed over.
* `SqlCaller.complete_iff`: for which texts it is so.
-/

namespace Windrunner

abbrev maxQueryLen : Nat := 32 * 1024

/-- `vsnprintf` of what the format and the arguments expand to: the buffer, and the returned length. A
length that is no `int` is an error. -/
def vsnprintf (n : Nat) (text : List UInt8) : List UInt8 × Int :=
  (text.take (n - 1) ++ [0], if text.length < 2 ^ 31 then text.length else -1)

/-- The text of a buffer that ends with a zero -/
def cStr (buffer : List UInt8) : List UInt8 := buffer.takeWhile (· ≠ 0)

/-- Where a statement is handed over -/
inductive SqlTarget where
  | transaction
  | delayQueue
  | asyncConnection
  | queryConnection
  /-- a place of a `SqlQueryHolder` -/
  | holder (index : Nat)
  deriving DecidableEq, Repr

structure SqlOutcome where
  success : Bool
  handed : List (SqlTarget × List UInt8) := []
  /-- the lines of the SQL log -/
  logged : List (List UInt8) := []
  deriving DecidableEq, Repr

/-- What the functions look at: the database, the transaction of the thread, the holder -/
structure SqlCaller where
  /-- `m_pAsyncConn` is there -/
  asyncConn : Bool
  /-- The thread has begun a transaction. -/
  transaction : Bool
  allowAsyncTransactions : Bool
  /-- `m_logSQL`, and the log file can be opened -/
  logSQL : Bool
  /-- `m_queries` of the holder, without the results -/
  queries : List (Option (List UInt8))
  /-- Whether a connection executes a statement without an error, and whether a query has a result -/
  answer : List UInt8 → Bool

namespace SqlCaller

variable (c : SqlCaller)

def directExecute (sql : List UInt8) : SqlOutcome :=
  if c.asyncConn then ⟨c.answer sql, [(.asyncConnection, sql)], []⟩ else ⟨false, [], []⟩

def execute (sql : List UInt8) : SqlOutcome :=
  if !c.asyncConn then ⟨false, [], []⟩
  else if c.transaction then ⟨true, [(.transaction, sql)], []⟩
  else if !c.allowAsyncTransactions then c.directExecute sql
  else ⟨true, [(.delayQueue, sql)], []⟩

/-- `Query` and `QueryNamed`: failure is no result -/
def query (sql : List UInt8) : SqlOutcome := ⟨c.answer sql, [(.queryConnection, sql)], []⟩

def setQuery (index : Nat) (sql : List UInt8) : SqlOutcome :=
  match c.queries[index]? with
  | none => ⟨false, [], []⟩
  | some (some _) => ⟨false, [], []⟩
  | some none => ⟨true, [(.holder index, sql)], []⟩

variable (text : Option (List UInt8))

/-- The common part: `none` is the null format, `some` what the format and the arguments expand to -/
def withFormat (k : List UInt8 → SqlOutcome) : SqlOutcome :=
  match text with
  | none => ⟨false, [], []⟩
  | some text =>
    let (szQuery, res) := vsnprintf maxQueryLen text
    if res = -1 then ⟨false, [], []⟩ else k (cStr szQuery)

def pExecute : SqlOutcome := withFormat text c.execute

def pExecuteLog : SqlOutcome :=
  withFormat text fun szQuery =>
    { c.execute szQuery with logged := if c.logSQL then [szQuery] else [] }

def pExecuteCallback : SqlOutcome := withFormat text c.execute

def directPExecute : SqlOutcome := withFormat text c.directExecute

def pQuery : SqlOutcome := withFormat text c.query

def pQueryNamed : SqlOutcome := withFormat text c.query

def setPQuery (index : Nat) (text : Option (List UInt8)) : SqlOutcome :=
  withFormat text (c.setQuery index)

/-- The functions -/
inductive Entry where
  | pExecute | pExecuteLog | pExecuteCallback | directPExecute | pQuery | pQueryNamed
  | setPQuery (index : Nat)
  deriving DecidableEq, Repr

def call : Entry → Option (List UInt8) → SqlOutcome
  | .pExecute => c.pExecute
  | .pExecuteLog => c.pExecuteLog
  | .pExecuteCallback => c.pExecuteCallback
  | .directPExecute => c.directPExecute
  | .pQuery => c.pQuery
  | .pQueryNamed => c.pQueryNamed
  | .setPQuery index => c.setPQuery index

/-! ## What is handed over -/

/-- The whole text is handed over, or failure is reported and nothing is. -/
def Complete (text : List UInt8) (o : SqlOutcome) : Prop :=
  o.handed.map Prod.snd = [text] ∨ o.success = false ∧ o.handed = []

/-- A function takes no statement at all, whatever it is. -/
def refuses : Entry → Bool
  | .pExecute | .pExecuteLog | .pExecuteCallback | .directPExecute => !c.asyncConn
  | .pQuery | .pQueryNamed => false
  | .setPQuery index => c.queries[index]? != some none

/-- What each function does with its buffer -/
theorem call_cases (e : Entry) : ∃ k : List UInt8 → SqlOutcome, (∀ text, c.call e text = withFormat text k) ∧
    (c.refuses e → ∀ sql, (k sql).success = false ∧ (k sql).handed = []) ∧
    (c.refuses e = false → ∀ sql, (k sql).handed.map Prod.snd = [sql]) := by
  have hdirect : c.asyncConn → ∀ sql, (c.directExecute sql).handed.map Prod.snd = [sql] := by
    intro h sql
    simp [directExecute, h]
  have hexecute : c.asyncConn → ∀ sql, (c.execute sql).handed.map Prod.snd = [sql] := by
    intro h sql
    unfold execute
    split_ifs <;> simp_all
  have hrefused : c.asyncConn = false → ∀ sql,
      (c.execute sql).success = false ∧ (c.execute sql).handed = [] := by
    intro h sql
    simp [execute, h]
  cases e with
  | pExecute | pExecuteCallback =>
    exact ⟨c.execute, fun _ => rfl, by simpa [refuses] using hrefused, by simpa [refuses] using hexecute⟩
  | pExecuteLog =>
    refine ⟨fun szQuery => { c.execute szQuery with logged := if c.logSQL then [szQuery] else [] },
      fun _ => rfl, ?_, ?_⟩
    · simpa [refuses] using hrefused
    · simpa [refuses] using hexecute
  | directPExecute =>
    refine ⟨c.directExecute, fun _ => rfl, fun h sql => ?_, by simpa [refuses] using hdirect⟩
    have hconn : c.asyncConn = false := by simpa [refuses] using h
    simp [directExecute, hconn]
  | pQuery | pQueryNamed =>
    exact ⟨c.query, fun _ => rfl, by simp [refuses], fun _ sql => rfl⟩
  | setPQuery index =>
    refine ⟨_, fun _ => rfl, fun h sql => ?_, fun h sql => ?_⟩
    · unfold setQuery
      split <;> simp_all [refuses]
    · unfold setQuery
      split <;> simp_all [refuses]

/-- Such a text is in the buffer as a whole. -/
theorem cStr_buffer_eq_iff {n : Nat} (hn : 0 < n) (text : List UInt8) :
    cStr (vsnprintf n text).1 = text ↔ 0 ∉ text ∧ text.length < n := by
  unfold cStr vsnprintf
  constructor
  · intro h
    have hzero : 0 ∉ text := fun hmem => by
      rw [← h] at hmem
      simpa using List.mem_takeWhile_imp hmem
    refine ⟨hzero, ?_⟩
    by_contra hlong
    have hall : ∀ x ∈ text.take (n - 1), (decide (x ≠ 0)) = true := fun x hx =>
      decide_eq_true fun h0 => hzero (h0 ▸ List.mem_of_mem_take hx)
    rw [List.takeWhile_append_of_pos hall] at h
    have hlen := congrArg List.length h
    simp at hlen
    omega
  · rintro ⟨hzero, hlen⟩
    have hall : ∀ x ∈ text, (decide (x ≠ 0)) = true := fun x hx =>
      decide_eq_true fun h0 => hzero (h0 ▸ hx)
    rw [List.take_of_length_le (by omega), List.takeWhile_append_of_pos hall]
    simp

/-- Which texts are not truncated: without a zero in them, and shorter than the buffer. The others are
handed over as far as they go, unless they are longer than an `int` says. -/
theorem complete_iff (e : Entry) (text : List UInt8) :
    Complete text (c.call e (some text)) ↔
      (0 ∉ text ∧ text.length < maxQueryLen) ∨ 2 ^ 31 ≤ text.length ∨ c.refuses e := by
  obtain ⟨k, hcall, hrefuses, htakes⟩ := c.call_cases e
  rw [hcall]
  unfold withFormat
  have hres : (vsnprintf maxQueryLen text).2 = -1 ↔ 2 ^ 31 ≤ text.length := by
    unfold vsnprintf
    by_cases hfits : text.length < 2 ^ 31
    · rw [if_pos hfits]
      exact iff_of_false (by omega) (by omega)
    · rw [if_neg hfits]
      exact iff_of_true rfl (by omega)
  simp only [hres]
  by_cases hlong : 2 ^ 31 ≤ text.length
  · rw [if_pos hlong]
    exact iff_of_true (Or.inr ⟨rfl, rfl⟩) (Or.inr (Or.inl hlong))
  · rw [if_neg hlong]
    cases hr : c.refuses e with
    | true =>
      have hnothing := hrefuses hr (cStr (vsnprintf maxQueryLen text).1)
      simp [Complete, hnothing]
    | false =>
      have hhanded := htakes hr (cStr (vsnprintf maxQueryLen text).1)
      have hne : (k (cStr (vsnprintf maxQueryLen text).1)).handed ≠ [] := fun h => by
        simp [h] at hhanded
      unfold Complete
      rw [hhanded, List.cons.injEq, cStr_buffer_eq_iff (by decide)]
      simp only [hne, and_false, or_false, hlong, Bool.false_eq_true, and_true]

/-- A server that runs -/
def running : SqlCaller := ⟨true, false, true, false, [none], fun _ => true⟩

/-- A text of the size of the buffer is cut by one character. -/
theorem not_complete : ¬ ∀ (c : SqlCaller) (e : Entry) (text : List UInt8),
    Complete text (c.call e (some text)) := by
  intro h
  have hlen : (List.replicate maxQueryLen (65 : UInt8)).length = 32768 := List.length_replicate
  have hhanded : ((running.call .pExecute (some (List.replicate maxQueryLen 65))).handed.map Prod.snd) =
      [cStr (vsnprintf maxQueryLen (List.replicate maxQueryLen 65)).1] := by
    have hres : (vsnprintf maxQueryLen (List.replicate maxQueryLen (65 : UInt8))).2 ≠ -1 := by
      unfold vsnprintf
      rw [hlen]
      decide
    unfold call pExecute withFormat
    simp only [hres, if_false]
    rfl
  rcases h running .pExecute (List.replicate maxQueryLen 65) with hall | ⟨-, hnone⟩
  · rw [hhanded, List.cons.injEq, cStr_buffer_eq_iff (by decide), hlen] at hall
    exact absurd hall.1.2 (by decide)
  · rw [hnone] at hhanded
    cases hhanded

end SqlCaller

end Windrunner
