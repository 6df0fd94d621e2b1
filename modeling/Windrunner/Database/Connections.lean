import Windrunner.Lib.Run
import Windrunner.Lib.Word

/-!
# The choice of a connection

Threads take the connections of the pool in turn, by a counter that they share. A call reads the
counter, and then, in another step, counts it up or sets it back.

* `turn`: a step of a thread.
* `inRange_iff`: up to how many calls the indices are within the pool. The counter starts at -1.
-/

namespace Windrunner

open Lib

/-- The size of the pool after `Initialize`. -/
def queryConnPoolSize (nConns : Int) : Nat :=
  if nConns < 1 then 1 else if nConns > 16 then 16 else nConns.toNat

structure QueryConnections where
  queryCounter : Int := -1
  /-- What the threads have read that are in a call. -/
  read : Nat → Option Int := fun _ => none
  /-- The indices into the pool, the last call first. -/
  indices : List Int := []

namespace QueryConnections

/-- What a call counts on from, that has `read` the counter before: `1 << 31` is a negative number. -/
def next (c : QueryConnections) (read : Int) : Int :=
  if read = -2147483648 then 0 else int32 (c.queryCounter + 1)

/-- A step of a thread: it begins a call of `getQueryConnection`, or ends it. -/
def turn (poolSize : Nat) (c : QueryConnections) (thread : Nat) : QueryConnections :=
  match c.read thread with
  | none => { c with read := Function.update c.read thread (some c.queryCounter) }
  | some read =>
    { queryCounter := c.next read
      read := Function.update c.read thread none
      indices := (c.next read).tmod poolSize :: c.indices }

/-- The indices are within the pool. -/
def InRange (poolSize : Nat) (c : QueryConnections) : Prop :=
  ∀ i ∈ c.indices, 0 ≤ i ∧ i < poolSize

/-- Up to the call with which the counter overflows. -/
structure Counts (poolSize : Nat) (c : QueryConnections) : Prop where
  counter : c.indices.length ≤ 2147483648 → c.queryCounter = c.indices.length - 1
  read : c.indices.length ≤ 2147483648 → ∀ thread n, c.read thread = some n → -1 ≤ n
  inRange : c.indices.length ≤ 2147483648 → c.InRange poolSize
  overflow : c.indices.length = 2147483649 → poolSize ∣ 2147483648 → c.InRange poolSize

variable {poolSize : Nat} {c : QueryConnections}

theorem inRange_cons {n : Int} {l : List Int} (hn : 0 ≤ n.tmod poolSize ∧ n.tmod poolSize < poolSize)
    (h : ∀ i ∈ l, 0 ≤ i ∧ i < (poolSize : Int)) :
    ∀ i ∈ n.tmod poolSize :: l, 0 ≤ i ∧ i < (poolSize : Int) :=
  List.forall_mem_cons.mpr ⟨hn, h⟩

theorem tmod_inRange (hpos : 0 < poolSize) {n : Int} (hn : 0 ≤ n) :
    0 ≤ n.tmod poolSize ∧ n.tmod poolSize < poolSize :=
  ⟨Int.tmod_nonneg _ hn, Int.tmod_lt_of_pos _ (by omega)⟩

theorem turn_some {thread : Nat} {n : Int} (h : c.read thread = some n) :
    c.turn poolSize thread = ⟨c.next n, Function.update c.read thread none,
      (c.next n).tmod poolSize :: c.indices⟩ := by
  unfold turn
  rw [h]

theorem turn_none {thread : Nat} (h : c.read thread = none) :
    c.turn poolSize thread =
      { c with read := Function.update c.read thread (some c.queryCounter) } := by
  unfold turn
  rw [h]

/-- Before the counter overflows no call has read the smallest number. -/
theorem Counts.next_eq (h : Counts poolSize c) (hlen : c.indices.length ≤ 2147483648) {thread : Nat}
    {n : Int} (hread : c.read thread = some n) : c.next n = int32 c.indices.length := by
  have hn := h.read hlen thread n hread
  unfold next
  rw [if_neg (by omega), h.counter hlen]
  congr 1
  omega

theorem Counts.turn (h : Counts poolSize c) (hpos : 0 < poolSize) (thread : Nat) :
    Counts poolSize (c.turn poolSize thread) := by
  cases hread : c.read thread with
  | none =>
    rw [turn_none hread]
    refine { h with read := fun hlen t n hn => ?_ }
    change Function.update c.read thread (some c.queryCounter) t = some n at hn
    rw [Function.update_apply] at hn
    split at hn
    · have hcounter := h.counter hlen
      obtain rfl := Option.some.inj hn
      omega
    · exact h.read hlen t n hn
  | some read =>
    rw [turn_some hread]
    have hread' : ∀ t n, Function.update c.read thread none t = some n → c.read t = some n := by
      intro t n hn
      rw [Function.update_apply] at hn
      split at hn
      · cases hn
      · exact hn
    refine ⟨fun hlen => ?_, fun hlen t n hn => ?_, fun hlen => ?_, fun hlen hdvd => ?_⟩ <;>
      rw [List.length_cons] at hlen
    · show c.next read = _
      rw [h.next_eq (by omega) hread, int32_eq (by omega) (by omega), List.length_cons]
      omega
    · exact h.read (by omega) t n (hread' t n hn)
    · refine inRange_cons ?_ (h.inRange (by omega))
      rw [h.next_eq (by omega) hread, int32_eq (by omega) (by omega)]
      exact tmod_inRange hpos (by omega)
    · refine inRange_cons ?_ (h.inRange (by omega))
      have hlen : c.indices.length = 2147483648 := by omega
      rw [h.next_eq (by omega) hread, hlen, show int32 (2147483648 : Nat) = -2147483648 by decide,
        Int.neg_tmod, show (2147483648 : Int) = (2147483648 : Nat) from rfl,
        Int.tmod_eq_zero_of_dvd (Int.natCast_dvd_natCast.mpr hdvd)]
      omega

theorem counts_run (hpos : 0 < poolSize) (threads : List Nat) :
    Counts poolSize (run (QueryConnections.turn poolSize) {} threads) :=
  run_invariant (I := Counts poolSize) (fun _ t h => h.turn hpos t)
    ⟨fun _ => rfl, by simp, by simp [InRange], by simp⟩ threads

/-- A pool of one connection -/
theorem inRange_one (threads : List Nat) : (run (QueryConnections.turn 1) {} threads).InRange 1 := by
  refine run_invariant (I := InRange 1) (fun c t h => ?_) (by simp [InRange]) threads
  cases hread : c.read t with
  | none =>
    rw [turn_none hread]
    exact h
  | some n =>
    rw [turn_some hread]
    exact inRange_cons (by rw [Nat.cast_one, Int.tmod_one]; decide) h

/-! ## Too many calls -/

/-- What a thread alone does in a call. -/
theorem turn_turn (h : c.read = fun _ => none) (t : Nat) :
    (c.turn poolSize t).turn poolSize t = ⟨c.next c.queryCounter, fun _ => none,
      (c.next c.queryCounter).tmod poolSize :: c.indices⟩ := by
  rw [turn_none (congrFun h t), turn_some (Function.update_self ..)]
  simp [next, h, Function.update_eq_self]

/-- A thread alone makes so many calls. -/
theorem exists_calls (poolSize : Nat) {k : Nat} (hk : k ≤ 2147483648) : ∃ threads,
    (run (QueryConnections.turn poolSize) {} threads).queryCounter = k - 1 ∧
      (run (QueryConnections.turn poolSize) {} threads).read = (fun _ => none) ∧
      (run (QueryConnections.turn poolSize) {} threads).indices.length = k := by
  induction k with
  | zero => exact ⟨[], rfl, rfl, rfl⟩
  | succ k ih =>
    obtain ⟨threads, hcounter, hread, hlen⟩ := ih (by omega)
    refine ⟨threads ++ [0, 0], ?_⟩
    unfold run at hcounter hread hlen ⊢
    rw [List.foldl_append, List.foldl_cons, List.foldl_cons, List.foldl_nil, turn_turn hread]
    refine ⟨?_, rfl, by rw [List.length_cons, hlen]⟩
    show next _ _ = _
    unfold next
    rw [hcounter, if_neg (by omega), int32_eq (by omega) (by omega)]
    omega

/-- The call with which the counter overflows -/
theorem not_inRange_overflow (hdvd : ¬ poolSize ∣ 2147483648) : ∃ threads,
    (run (QueryConnections.turn poolSize) {} threads).indices.length = 2147483649 ∧
      ¬ (run (QueryConnections.turn poolSize) {} threads).InRange poolSize := by
  obtain ⟨threads, hcounter, hread, hlen⟩ := exists_calls poolSize (Nat.le_refl _)
  refine ⟨threads ++ [0, 0], ?_⟩
  unfold run at hcounter hread hlen ⊢
  rw [List.foldl_append, List.foldl_cons, List.foldl_cons, List.foldl_nil, turn_turn hread]
  refine ⟨by rw [List.length_cons, hlen], fun h => ?_⟩
  obtain ⟨hneg, -⟩ := h _ List.mem_cons_self
  have hnext : next (threads.foldl (QueryConnections.turn poolSize) {})
      (threads.foldl (QueryConnections.turn poolSize) {}).queryCounter = -(2147483648 : Nat) := by
    unfold next
    rw [hcounter]
    decide
  rw [hnext, Int.neg_tmod] at hneg
  have hpos := Int.tmod_nonneg (poolSize : Int) (Int.natCast_nonneg 2147483648)
  exact hdvd (Int.natCast_dvd_natCast.mp (Int.dvd_of_tmod_eq_zero (by omega)))

/-- The call after it, by a thread that has read the counter before. -/
theorem not_inRange_after (hone : poolSize ≠ 1) (hdvd : poolSize ∣ 2147483648) : ∃ threads,
    (run (QueryConnections.turn poolSize) {} threads).indices.length = 2147483650 ∧
      ¬ (run (QueryConnections.turn poolSize) {} threads).InRange poolSize := by
  obtain ⟨threads, hcounter, hread, hlen⟩ := exists_calls poolSize (Nat.le_refl _)
  refine ⟨threads ++ [0, 1, 0, 1], ?_⟩
  unfold run at hcounter hread hlen ⊢
  rw [List.foldl_append]
  generalize threads.foldl (QueryConnections.turn poolSize) {} = c at *
  obtain ⟨counter, read, indices⟩ := c
  obtain rfl : read = fun _ => none := hread
  obtain rfl : counter = (2147483648 : Nat) - 1 := hcounter
  have hturns : [0, 1, 0, 1].foldl (QueryConnections.turn poolSize)
      ⟨(2147483648 : Nat) - 1, fun _ => none, indices⟩ = ⟨-(2147483647 : Nat), fun _ => none,
        (-(2147483647 : Nat) : Int).tmod poolSize :: (-(2147483648 : Nat) : Int).tmod poolSize ::
          indices⟩ := by
    simp [QueryConnections.turn, next, int32]
    funext t
    simp only [Function.update_apply]
    split_ifs <;> rfl
  rw [hturns]
  refine ⟨by simpa using hlen, fun h => ?_⟩
  obtain ⟨hneg, -⟩ := h _ List.mem_cons_self
  rw [Int.neg_tmod] at hneg
  have hpos := Int.tmod_nonneg (poolSize : Int) (Int.natCast_nonneg 2147483647)
  have hdvd' := Int.natCast_dvd_natCast.mp
    (Int.dvd_of_tmod_eq_zero (a := (poolSize : Int)) (b := (2147483647 : Nat)) (by omega))
  exact hone (Nat.dvd_one.mp ((Nat.dvd_add_right hdvd').mp hdvd))

/-- Up to how many calls the indices are within the pool, whatever the threads do. -/
theorem inRange_iff (nConns : Int) (calls : Nat) :
    (∀ threads, (run (turn (queryConnPoolSize nConns)) {} threads).indices.length ≤ calls →
        (run (turn (queryConnPoolSize nConns)) {} threads).InRange (queryConnPoolSize nConns)) ↔
      queryConnPoolSize nConns = 1 ∨ calls ≤ 2147483648 ∨
        calls = 2147483649 ∧ queryConnPoolSize nConns ∣ 2147483648 := by
  have hpos : 0 < queryConnPoolSize nConns := by
    unfold queryConnPoolSize
    split_ifs <;> omega
  generalize queryConnPoolSize nConns = poolSize at *
  constructor
  · intro h
    by_contra hno
    by_cases hdvd : poolSize ∣ 2147483648
    · obtain ⟨threads, hlen, hbad⟩ := not_inRange_after (by omega) hdvd
      exact hbad (h threads (by omega))
    · obtain ⟨threads, hlen, hbad⟩ := not_inRange_overflow hdvd
      exact hbad (h threads (by omega))
  · intro h threads hlen
    have hcounts := counts_run hpos threads
    rcases h with rfl | h | ⟨rfl, hdvd⟩
    · exact inRange_one threads
    · exact hcounts.inRange (hlen.trans h)
    · rcases Nat.lt_or_eq_of_le hlen with hlt | heq
      · exact hcounts.inRange (by omega)
      · exact hcounts.overflow heq hdvd

/-- Three connections -/
theorem not_inRange : ¬ ∀ (nConns : Int) (threads : List Nat),
    (run (turn (queryConnPoolSize nConns)) {} threads).InRange (queryConnPoolSize nConns) := by
  intro h
  obtain ⟨threads, -, hbad⟩ := @not_inRange_overflow 3 (by decide)
  exact hbad (h 3 threads)

end QueryConnections

end Windrunner
