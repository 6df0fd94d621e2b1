import Mathlib.Algebra.BigOperators.Group.List.Basic
import Mathlib.Algebra.Order.Group.Multiset
import Mathlib.Tactic.Abel
import Windrunner.Lib.Keyed
import Windrunner.Shop.State

/-!
# What the shop owes

A purchase that has been charged is somewhere: with the worker, in a task, delivered, in a delayed
refund or repaid. `Booked` says that its row is there too, and that the coins of an account are what
they were at first, with the credits, without the prices of what has been charged and with those of
what has been repaid.

The worker writes a balance that it has computed from an older one. `Kept` says when this goes well:
the balance is still the old one when it is overwritten, the second statement does not fail, the
balance is read again unchanged, and a credit finds a row that it fits into. `run_settled`: in every
run of such steps the account is settled when nothing is under way.
-/

namespace Windrunner

open Lib
open Multiset hiding map_map mem_singleton
open List hiding getElem?_eq_some_iff

/-- The purchase whose price a statement gives back. -/
def ShopStatement.refund? : ShopStatement → Option ShopPurchase
  | .refundCoins p => some p
  | _ => none

/-- The worker has charged nothing that it has not left to a task. -/
def ShopWorker.Free : ShopWorker → Prop
  | .insert _ _ => False
  | .check _ _ => False
  | _ => True

namespace ShopState

variable {st : ShopState}

/-! ## The property -/

/-- The coins of an account; without a row there are none. -/
def balance (st : ShopState) (a : UInt32) : Int := ((st.coins a).map Int32.toInt).getD 0

/-- What account `a` has been charged for the purchases `l`. -/
def spent (a : UInt32) (l : List ShopPurchase) : Int :=
  (l.map fun p => if p.accountId = a then (p.price.toNat : Int) else 0).sum

/-- Nothing is under way. -/
structure Quiet (st : ShopState) : Prop where
  worker : st.worker = .idle
  tasks : st.tasks = []
  delayed : st.delayed = []

structure Settled (st₀ st : ShopState) : Prop where
  coins : ∀ a, st.balance a = st₀.balance a + st.credits a - spent a st.delivered
  charged : ∀ p ∈ st.delivered, p ∈ st.charged
  logged : ∀ p ∈ st.delivered, st.logs.filter (·.id = p.shopId) = [p.row false]
  refunded : ∀ p ∈ st.charged, p ∉ st.delivered → st.repaid.count p = 1

/-- The server has just been started. -/
structure Initial (st : ShopState) : Prop where
  worker : st.worker = .idle
  tasks : st.tasks = []
  delayed : st.delayed = []
  /-- `id` is the primary key. -/
  logs : (st.logs.map ShopLog.id).Nodup
  aborted : st.aborted = false
  credits : ∀ a, st.credits a = 0
  charged : st.charged = []
  delivered : st.delivered = []
  repaid : st.repaid = []

/-- The step does not run into the gaps between the statements. -/
def Kept (st : ShopState) : Input → Prop
  | .work ok =>
    match st.worker with
    | .update p newBalance =>
      ok = true → (st.coins p.accountId).map Int32.toInt = some (newBalance + p.price.toNat)
    | .insert p _ => ok = true ∧ ∀ row ∈ st.logs, row.id ≠ p.shopId
    | .check p newBalance =>
      if ok then (st.coins p.accountId).map Int32.toInt = some newBalance else newBalance = 0
    | _ => True
  | .statement i =>
    match st.delayed[i]? with
    | some (.refundCoins p) => st.CanAddCoins p.accountId p.price.toNat
    | _ => True
  | .credit a n => st.CanAddCoins a n
  | _ => True

instance (st : ShopState) (i : Input) : Decidable (Kept st i) := by
  cases i with
  | work ok =>
    unfold Kept
    dsimp only
    split <;> infer_instance
  | statement i =>
    unfold Kept
    dsimp only
    split <;> infer_instance
  | credit a n => exact inferInstanceAs (Decidable (st.CanAddCoins a n))
  | requestBalance => exact instDecidableTrue
  | requestPurchase => exact instDecidableTrue
  | task => exact instDecidableTrue

/-! ## Where the purchases are -/

/-- The purchase that has been charged, but has no row yet. -/
def unlogged (st : ShopState) : List ShopPurchase :=
  match st.worker with
  | .insert p _ => [p]
  | _ => []

/-- The purchase that the worker has a row for. -/
def inCheck (st : ShopState) : List ShopPurchase :=
  match st.worker with
  | .check p _ => [p]
  | _ => []

/-- The purchases whose refund is delayed. -/
def refunding (st : ShopState) : List ShopPurchase := st.delayed.filterMap ShopStatement.refund?

/-- The purchases with a row that are not given back. -/
def due (st : ShopState) : Multiset ShopPurchase := ↑st.inCheck + ↑st.tasks + ↑st.delivered

/-- The purchases that are given back. -/
def returned (st : ShopState) : Multiset ShopPurchase := ↑st.refunding + ↑st.repaid

structure Booked (st₀ st : ShopState) : Prop where
  charged : (st.charged : Multiset ShopPurchase) = ↑st.unlogged + st.due + st.returned
  coins : ∀ a, st.balance a = st₀.balance a + st.credits a - spent a st.charged + spent a st.repaid
  logs : (st.logs.map ShopLog.id).Nodup
  ids : ((st.due + st.returned).map ShopPurchase.shopId).Nodup
  due : ∀ p ∈ st.due, p.row false ∈ st.logs
  returned : ∀ p ∈ st.returned, ∃ refunded, p.row refunded ∈ st.logs
  marks : ∀ id, .markRefunded id ∈ st.delayed → ∃ p ∈ st.returned, p.shopId = id
  lookup : ∀ p ∈ st.tasks, st.shopLogsLookup p.shopId = some false
  newBalance : ∀ p b, st.worker = .update p b → 0 ≤ b ∧ b < shopIntMax
  aborted : st.aborted = false

/-! ## Steps that move no purchase -/

/-- `st'` has the books of `st`. -/
structure SameBooks (st st' : ShopState) : Prop where
  balance : ∀ a, st'.balance a = st.balance a
  logs : st'.logs = st.logs
  lookup : st'.shopLogsLookup = st.shopLogsLookup
  tasks : st'.tasks = st.tasks
  refunding : st'.refunding = st.refunding
  marks : ∀ id, .markRefunded id ∈ st'.delayed → .markRefunded id ∈ st.delayed
  aborted : st'.aborted = st.aborted
  credits : st'.credits = st.credits
  charged : st'.charged = st.charged
  delivered : st'.delivered = st.delivered
  repaid : st'.repaid = st.repaid

theorem SameBooks.refl (st : ShopState) : SameBooks st st :=
  ⟨fun _ => rfl, rfl, rfl, rfl, rfl, fun _ h => h, rfl, rfl, rfl, rfl, rfl⟩

theorem Booked.of_sameBooks {st₀ st' : ShopState} (h : Booked st₀ st) (hs : SameBooks st st')
    (hunlogged : st'.unlogged = st.unlogged) (hinCheck : st'.inCheck = st.inCheck)
    (hnew : ∀ p b, st'.worker = .update p b → 0 ≤ b ∧ b < shopIntMax) : Booked st₀ st' := by
  have hdue : st'.due = st.due := by
    rw [ShopState.due, ShopState.due, hinCheck, hs.tasks, hs.delivered]
  have hreturned : st'.returned = st.returned := by
    rw [ShopState.returned, ShopState.returned, hs.refunding, hs.repaid]
  exact {
    charged := by rw [hs.charged, hunlogged, hdue, hreturned, h.charged]
    coins := fun a => by rw [hs.balance, hs.credits, hs.charged, hs.repaid, h.coins]
    logs := by rw [hs.logs]; exact h.logs
    ids := by rw [hdue, hreturned]; exact h.ids
    due := by rw [hdue, hs.logs]; exact h.due
    returned := by rw [hreturned, hs.logs]; exact h.returned
    marks := fun id hid => by rw [hreturned]; exact h.marks id (hs.marks id hid)
    lookup := by rw [hs.tasks, hs.lookup]; exact h.lookup
    newBalance := hnew
    aborted := hs.aborted.trans h.aborted }

theorem lists_of_free (st : ShopState) (h : ShopWorker.Free st.worker) :
    st.unlogged = [] ∧ st.inCheck = [] := by
  unfold unlogged inCheck
  cases hw : st.worker <;> simp_all [ShopWorker.Free]

theorem Booked.of_free {st₀ st' : ShopState} (h : Booked st₀ st) (hs : SameBooks st st')
    (hf : ShopWorker.Free st.worker) (hf' : ShopWorker.Free st'.worker)
    (hnew : ∀ p b, st'.worker = .update p b → 0 ≤ b ∧ b < shopIntMax) : Booked st₀ st' := by
  obtain ⟨h₁, h₂⟩ := lists_of_free st hf
  obtain ⟨h₁', h₂'⟩ := lists_of_free st' hf'
  exact h.of_sameBooks hs (h₁'.trans h₁.symm) (h₂'.trans h₂.symm) hnew

/-- A query that is not answered has a row inserted. -/
theorem getBalance_sameBooks (st : ShopState) (ok : Bool) (a : UInt32) :
    SameBooks st (st.getBalance ok a).1 ∧ (st.getBalance ok a).1.worker = st.worker ∧
      (st.getBalance ok a).1.maxShopEntry = st.maxShopEntry := by
  unfold getBalance
  split
  · exact ⟨.refl st, rfl, rfl⟩
  · refine ⟨⟨fun _ => rfl, rfl, rfl, rfl, ?_, fun id hid => ?_, rfl, rfl, rfl, rfl, rfl⟩, rfl, rfl⟩
    · simp [ShopState.refunding, ShopStatement.refund?]
    · simpa using hid

section Steps

variable {st₀ : ShopState}

section

variable (h : Booked st₀ st)
include h

theorem Booked.requestBalance (a : UInt32) :
    Booked st₀ (st.requestBalance a) := by
  unfold ShopState.requestBalance
  split
  · exact h
  · exact h.of_sameBooks ⟨fun _ => rfl, rfl, rfl, rfl, rfl, fun _ h => h, rfl, rfl, rfl, rfl, rfl⟩
      rfl rfl h.newBalance

theorem Booked.requestPurchase (a g i : UInt32) (forbidden : Bool) :
    Booked st₀ (st.requestPurchase a g i forbidden) := by
  unfold ShopState.requestPurchase
  split
  · exact h
  split
  · exact h
  · exact h.of_sameBooks ⟨fun _ => rfl, rfl, rfl, rfl, rfl, fun _ h => h, rfl, rfl, rfl, rfl, rfl⟩
      rfl rfl h.newBalance

/-- The worker is where nothing is charged, and the books stay. -/
theorem Booked.goTo {st' : ShopState} (hf : ShopWorker.Free st.worker)
    (hs : SameBooks st st') (r : List ShopRequest) (q : List ShopRequest) (n : UInt32)
    (m : List (UInt32 × ShopMessage)) {w : ShopWorker} (hw : ShopWorker.Free w)
    (hnew : ∀ p b, w = .update p b → 0 ≤ b ∧ b < shopIntMax) :
    Booked st₀ { st' with
      requests := r, pendingRequests := q, maxShopEntry := n, messages := m, worker := w } := by
  refine h.of_free ?_ hf hw hnew
  exact { hs with }

theorem Booked.nextRequest (hw : st.worker = .idle)
    (price : UInt32 → Option UInt32) : Booked st₀ (st.nextRequest price) := by
  have hf : ShopWorker.Free st.worker := by rw [hw]; trivial
  unfold ShopState.nextRequest
  split
  · exact h.goTo hf (.refl st) _ _ _ _ hf (by simp [hw])
  · dsimp only
    split
    · exact h.goTo hf (.refl st) _ _ _ _ (by trivial) (by simp)
    · split
      · exact h.goTo hf (.refl st) _ _ _ _ (by trivial) (by simp)
      · exact h.goTo hf (.refl st) _ _ _ _ (by trivial) (by simp)

theorem Booked.buyItem (ok : Bool) {r : ShopRequest} {price : UInt32}
    (hw : st.worker = .query r price) : Booked st₀ (st.buyItem ok r price) := by
  have hf : ShopWorker.Free st.worker := by rw [hw]; trivial
  have hs := (getBalance_sameBooks st ok r.accountId).1
  unfold ShopState.buyItem
  generalize st.getBalance ok r.accountId = q at hs
  obtain ⟨st', coins⟩ := q
  dsimp only at hs ⊢
  split
  · split
    case isTrue hb =>
      refine h.goTo hf hs _ _ _ _ (by trivial) fun p b hpb => ?_
      cases hpb
      exact hb
    case isFalse => exact h.goTo hf hs _ _ _ _ (by trivial) (by simp)
  · exact h.goTo hf hs _ _ _ _ (by trivial) (by simp)

end

theorem spent_append (a : UInt32) (l : List ShopPurchase) (p : ShopPurchase) :
    spent a (l ++ [p]) = spent a l + if p.accountId = a then (p.price.toNat : Int) else 0 := by
  simp [spent]

theorem toInt_ofInt {c : Int} (h : FitsCoins c) : (Int32.ofInt c).toInt = c :=
  Int32.toInt_ofInt_of_le h.1 h.2

variable {p : ShopPurchase}

section

variable (h : Booked st₀ st)
include h

/-- The charge takes the price off, as long as the balance is the one of the query. -/
theorem Booked.charge {ok : Bool} {b : Int} (hw : st.worker = .update p b)
    (hk : ok = true → (st.coins p.accountId).map Int32.toInt = some (b + p.price.toNat)) :
    Booked st₀ (st.charge ok p b) := by
  have hf : ShopWorker.Free st.worker := by rw [hw]; trivial
  unfold ShopState.charge
  split
  case isFalse => exact h.goTo hf (.refl st) _ _ _ _ (by trivial) (by simp)
  case isTrue hok =>
    obtain ⟨hb₀, hb₁⟩ := h.newBalance p b hw
    have hrow := hk hok
    have hfree := lists_of_free st hf
    exact { h with
      charged := by
        have hc := h.charged
        simp only [hfree.1, coe_nil, zero_add] at hc
        show ((st.charged ++ [p] : List ShopPurchase) : Multiset ShopPurchase) =
          ↑[p] + (↑([] : List ShopPurchase) + ↑st.tasks + ↑st.delivered) + st.returned
        rw [← coe_add, hc, ShopState.due, hfree.2]
        abel
      coins := fun a => by
        have hc := h.coins a
        show ShopState.balance _ a = st₀.balance a + st.credits a - spent a (st.charged ++ [p]) +
          spent a st.repaid
        rw [spent_append]
        by_cases ha : p.accountId = a
        · subst ha
          have hold : st.balance p.accountId = b + p.price.toNat := by
            rw [ShopState.balance, hrow]
            rfl
          have hnew : FitsCoins b := ⟨by omega, by unfold shopIntMax at hb₁; omega⟩
          rw [hold] at hc
          cases hcoins : st.coins p.accountId with
          | none => rw [hcoins] at hrow; cases hrow
          | some c =>
            simp only [ShopState.balance, setCoins, hcoins, if_true, Option.map_some,
              Option.getD_some, toInt_ofInt hnew]
            simp only [ShopState.balance] at hc ⊢
            omega
        · have hne : a ≠ p.accountId := fun e => ha e.symm
          rw [if_neg ha]
          simp only [ShopState.balance, setCoins, if_neg hne]
          simp only [ShopState.balance] at hc
          omega
      ids := by
        have hids := h.ids
        simp only [ShopState.due, hfree.2] at hids
        exact hids
      due := by
        have hdue := h.due
        simp only [ShopState.due, hfree.2] at hdue
        exact hdue
      newBalance := by simp }

theorem Booked.hasRow (hp : p ∈ st.due + st.returned) :
    ∃ refunded, p.row refunded ∈ st.logs := by
  rcases Multiset.mem_add.1 hp with hp | hp
  · exact ⟨false, h.due p hp⟩
  · exact h.returned p hp

/-- The purchase gets its row. -/
theorem Booked.insertLog {b : Int}
    (hw : st.worker = .insert p b) (hfresh : ∀ row ∈ st.logs, row.id ≠ p.shopId) :
    Booked st₀ (st.insertLog true p b) := by
  have hlists : st.unlogged = [p] ∧ st.inCheck = [] := by
    unfold ShopState.unlogged ShopState.inCheck
    rw [hw]
    exact ⟨rfl, rfl⟩
  have hdue : st.due = ↑st.tasks + ↑st.delivered := by
    rw [ShopState.due, hlists.2]
    simp
  unfold ShopState.insertLog
  rw [if_pos ⟨rfl, hfresh⟩]
  have hnew : ShopState.due { st with logs := st.logs ++ [p.row false], worker := .check p b } =
      {p} + st.due := by
    rw [hdue, ShopState.due, ShopState.inCheck, ← add_assoc]
    rfl
  exact { h with
    charged := by
      rw [hnew]
      have hc := h.charged
      rw [hlists.1] at hc
      show (st.charged : Multiset ShopPurchase) = ↑([] : List ShopPurchase) + _ + st.returned
      rw [hc, coe_singleton, coe_nil, zero_add]
    logs := by
      show ((st.logs ++ [p.row false]).map ShopLog.id).Nodup
      rw [map_append]
      refine nodup_append.2 ⟨h.logs, by simp, fun x hx y hy => ?_⟩
      obtain ⟨row, hrow, rfl⟩ := mem_map.1 hx
      obtain rfl : y = p.shopId := by simpa [ShopPurchase.row] using hy
      exact hfresh row hrow
    ids := by
      rw [hnew]
      show (({p} + st.due + st.returned).map ShopPurchase.shopId).Nodup
      rw [add_assoc, Multiset.singleton_add, Multiset.map_cons, Multiset.nodup_cons]
      refine ⟨fun hp => ?_, h.ids⟩
      obtain ⟨q, hq, hid⟩ := Multiset.mem_map.1 hp
      obtain ⟨refunded, hrow⟩ := h.hasRow hq
      exact hfresh _ hrow hid
    due := by
      rw [hnew]
      intro q hq
      rcases Multiset.mem_add.1 hq with hq | hq
      · obtain rfl := Multiset.mem_singleton.1 hq
        exact mem_append_right _ (mem_singleton.2 rfl)
      · exact mem_append_left _ (h.due q hq)
    returned := fun q hq => by
      obtain ⟨refunded, hrow⟩ := h.returned q hq
      exact ⟨refunded, mem_append_left _ hrow⟩
    newBalance := by simp }

/-- The purchase gets its task, as long as the balance is read again as it was written. -/
theorem Booked.finish {ok : Bool} {b : Int} (hw : st.worker = .check p b)
    (hk : if ok then (st.coins p.accountId).map Int32.toInt = some b else b = 0) :
    Booked st₀ (st.finish ok p b) := by
  have hbal : (st.getBalance ok p.accountId).2 = b := by
    unfold ShopState.getBalance
    cases ok with
    | false => simpa [eq_comm] using hk
    | true =>
      simp only [if_true] at hk ⊢
      cases hcoins : st.coins p.accountId with
      | none => rw [hcoins] at hk; cases hk
      | some c => rw [hcoins] at hk; exact Option.some.inj hk
  have hs := getBalance_sameBooks st ok p.accountId
  unfold ShopState.finish
  generalize st.getBalance ok p.accountId = q at hs hbal
  obtain ⟨st', coins⟩ := q
  dsimp only at hs hbal ⊢
  subst hbal
  rw [if_neg (by simp)]
  have hworker : st'.worker = .check p coins := hs.2.1.trans hw
  have h' : Booked st₀ st' := by
    refine h.of_sameBooks hs.1 ?_ ?_ fun q c hq => ?_
    · rw [ShopState.unlogged, ShopState.unlogged, hworker, hw]
    · rw [ShopState.inCheck, ShopState.inCheck, hworker, hw]
    · rw [hworker] at hq; cases hq
  have hlists : st'.unlogged = [] ∧ st'.inCheck = [p] := by
    unfold ShopState.unlogged ShopState.inCheck
    rw [hworker]
    exact ⟨rfl, rfl⟩
  have hdue : (↑([] : List ShopPurchase) + ↑(st'.tasks ++ [p]) + ↑st'.delivered :
      Multiset ShopPurchase) = st'.due := by
    rw [ShopState.due, hlists.2, ← coe_add, coe_nil, zero_add,
      add_comm (st'.tasks : Multiset ShopPurchase)]
  exact {
    charged := by
      show (st'.charged : Multiset ShopPurchase) = ↑([] : List ShopPurchase) +
        (↑([] : List ShopPurchase) + ↑(st'.tasks ++ [p]) + ↑st'.delivered) + st'.returned
      rw [hdue, h'.charged, hlists.1]
    coins := h'.coins
    logs := h'.logs
    ids := by
      show ((↑([] : List ShopPurchase) + ↑(st'.tasks ++ [p]) + ↑st'.delivered +
        st'.returned).map ShopPurchase.shopId).Nodup
      rw [hdue]
      exact h'.ids
    due := by
      show ∀ q ∈ (↑([] : List ShopPurchase) + ↑(st'.tasks ++ [p]) + ↑st'.delivered :
        Multiset ShopPurchase), _
      rw [hdue]
      exact h'.due
    returned := h'.returned
    marks := h'.marks
    lookup := fun q hq => by
      show (if q.shopId = p.shopId then some false else st'.shopLogsLookup q.shopId) = some false
      split
      case isTrue => rfl
      case isFalse hne =>
        rcases mem_append.1 hq with hq | hq
        · exact h'.lookup q hq
        · exact absurd (congrArg _ (mem_singleton.1 hq)) hne
    newBalance := by simp
    aborted := h'.aborted }

end

theorem coe_eraseIdx {α : Type} {l : List α} {i : Nat} {x : α} (h : l[i]? = some x) :
    (l : Multiset α) = {x} + ↑(l.eraseIdx i) := by
  obtain ⟨hi, rfl⟩ := List.getElem?_eq_some_iff.1 h
  rw [Multiset.singleton_add, cons_coe]
  exact coe_eq_coe.2 (getElem_cons_eraseIdx_perm hi).symm

/-- The item of a task is stored. -/
theorem Booked.deliver (h : Booked st₀ st) {i : Nat}
    (hp : st.tasks[i]? = some p) (m : List (UInt32 × ShopMessage)) :
    Booked st₀ { st with
      tasks := st.tasks.eraseIdx i, delivered := st.delivered ++ [p], messages := m } := by
  have hdue : (↑st.inCheck + ↑(st.tasks.eraseIdx i) + ↑(st.delivered ++ [p]) :
      Multiset ShopPurchase) = st.due := by
    rw [ShopState.due, coe_eraseIdx hp, ← coe_add, coe_singleton]
    abel
  exact { h with
    charged := by
      show (st.charged : Multiset ShopPurchase) = ↑st.unlogged +
        (↑st.inCheck + ↑(st.tasks.eraseIdx i) + ↑(st.delivered ++ [p])) + st.returned
      rw [hdue, h.charged]
    ids := by
      show ((↑st.inCheck + ↑(st.tasks.eraseIdx i) + ↑(st.delivered ++ [p]) +
        st.returned).map ShopPurchase.shopId).Nodup
      rw [hdue]
      exact h.ids
    due := by
      show ∀ q ∈ (↑st.inCheck + ↑(st.tasks.eraseIdx i) + ↑(st.delivered ++ [p]) :
        Multiset ShopPurchase), _
      rw [hdue]
      exact h.due
    lookup := fun q hq => h.lookup q (mem_of_mem_eraseIdx hq) }

/-- The purchase of a task is to be refunded. -/
theorem Booked.refund (h : Booked st₀ st) {i : Nat}
    (hp : st.tasks[i]? = some p) (m : List (UInt32 × ShopMessage)) :
    Booked st₀ { ({ st with tasks := st.tasks.eraseIdx i } : ShopState).refundPurchase p with
      messages := m } := by
  have hmem : p ∈ st.tasks := mem_of_getElem? hp
  have hlookup := h.lookup p hmem
  unfold ShopState.refundPurchase
  simp only [hlookup]
  have hdue : st.due = {p} + (↑st.inCheck + ↑(st.tasks.eraseIdx i) + ↑st.delivered) := by
    rw [ShopState.due, coe_eraseIdx hp]
    abel
  have hreturned : ShopState.returned { st with
      tasks := st.tasks.eraseIdx i
      delayed := st.delayed ++ [.refundCoins p, .markRefunded p.shopId] } = {p} + st.returned := by
    rw [ShopState.returned, ShopState.returned, ShopState.refunding, ShopState.refunding,
      filterMap_append]
    show (↑(st.delayed.filterMap ShopStatement.refund? ++ [p]) + ↑st.repaid :
      Multiset ShopPurchase) = _
    rw [← coe_add, coe_singleton]
    abel
  have hsum : ({p} + (↑st.inCheck + ↑(st.tasks.eraseIdx i) + ↑st.delivered) + st.returned :
      Multiset ShopPurchase) =
      (↑st.inCheck + ↑(st.tasks.eraseIdx i) + ↑st.delivered) + ({p} + st.returned) := by
    abel
  have hids := h.ids
  rw [hdue, hsum] at hids
  exact {
    charged := by
      show (st.charged : Multiset ShopPurchase) = ↑st.unlogged +
        (↑st.inCheck + ↑(st.tasks.eraseIdx i) + ↑st.delivered) + ShopState.returned { st with
          tasks := st.tasks.eraseIdx i
          delayed := st.delayed ++ [.refundCoins p, .markRefunded p.shopId] }
      rw [hreturned, h.charged, hdue]
      abel
    coins := h.coins
    logs := h.logs
    ids := by
      show ((↑st.inCheck + ↑(st.tasks.eraseIdx i) + ↑st.delivered + ShopState.returned { st with
          tasks := st.tasks.eraseIdx i
          delayed := st.delayed ++ [.refundCoins p, .markRefunded p.shopId] }).map
        ShopPurchase.shopId).Nodup
      rw [hreturned]
      exact hids
    due := fun q hq => h.due q (by rw [hdue]; exact Multiset.mem_add.2 (Or.inr hq))
    returned := by
      show ∀ q ∈ ShopState.returned { st with
          tasks := st.tasks.eraseIdx i
          delayed := st.delayed ++ [.refundCoins p, .markRefunded p.shopId] }, _
      rw [hreturned]
      intro q hq
      rcases Multiset.mem_add.1 hq with hq | hq
      · obtain rfl := Multiset.mem_singleton.1 hq
        exact ⟨false, h.due q (by rw [hdue]; exact Multiset.mem_add.2 (Or.inl hq))⟩
      · exact h.returned q hq
    marks := fun id hid => by
      show ∃ q ∈ ShopState.returned { st with
          tasks := st.tasks.eraseIdx i
          delayed := st.delayed ++ [.refundCoins p, .markRefunded p.shopId] }, _
      rw [hreturned]
      rcases mem_append.1 hid with hid | hid
      · obtain ⟨q, hq, hqid⟩ := h.marks id hid
        exact ⟨q, Multiset.mem_add.2 (Or.inr hq), hqid⟩
      · obtain rfl : id = p.shopId := by simpa using hid
        exact ⟨p, Multiset.mem_add.2 (Or.inl (Multiset.mem_singleton_self p)), rfl⟩
    lookup := fun q hq => by
      -- No other task has this id.
      have hne : q.shopId ≠ p.shopId := by
        intro hid
        have hq' : q ∈ (↑st.inCheck + ↑(st.tasks.eraseIdx i) + ↑st.delivered :
            Multiset ShopPurchase) :=
          Multiset.mem_add.2 (Or.inl (Multiset.mem_add.2 (Or.inr hq)))
        rw [Multiset.map_add, Multiset.map_add _ {p}] at hids
        have hdisj := (nodup_add.1 hids).2.2
        refine disjoint_left.1 hdisj (mem_map_of_mem _ hq') ?_
        rw [hid]
        exact Multiset.mem_add.2
          (Or.inl (mem_map_of_mem _ (Multiset.mem_singleton_self p)))
      show (if q.shopId = p.shopId then some true else st.shopLogsLookup q.shopId) = some false
      rw [if_neg hne]
      exact h.lookup q (mem_of_mem_eraseIdx hq)
    newBalance := h.newBalance
    aborted := h.aborted }

/-- Either the item is stored or the purchase is to be refunded. -/
theorem sendItem_cases (st : ShopState) (p : ShopPurchase) (session : Option (Option Buyer)) :
    (∃ m, st.sendItem p session = { st.refundPurchase p with messages := m }) ∨
      ∃ m, st.sendItem p session =
        { st with delivered := st.delivered ++ [p], messages := m } := by
  unfold ShopState.sendItem
  split
  · exact Or.inl ⟨_, rfl⟩
  · exact Or.inl ⟨_, rfl⟩
  · dsimp only
    split_ifs
    · exact Or.inl ⟨_, rfl⟩
    · exact Or.inl ⟨_, rfl⟩
    · exact Or.inr ⟨_, rfl⟩
    · exact Or.inl ⟨_, rfl⟩
    · exact Or.inr ⟨_, rfl⟩

theorem Booked.runTask (h : Booked st₀ st) (i : Nat) (session : Option (Option Buyer)) :
    Booked st₀ (st.runTask i session) := by
  unfold ShopState.runTask
  cases hp : st.tasks[i]? with
  | none => exact h
  | some p =>
    dsimp only
    rcases sendItem_cases { st with tasks := st.tasks.eraseIdx i } p session with
      ⟨m, heq⟩ | ⟨m, heq⟩
    · rw [heq]
      exact h.refund hp m
    · rw [heq]
      exact h.deliver hp m

/-- What is added arrives. -/
theorem addCoins_balance {a : UInt32} {n : Int} (h : st.CanAddCoins a n) (b : UInt32) :
    (st.addCoins a n).balance b = st.balance b + if a = b then n else 0 := by
  unfold CanAddCoins at h
  unfold addCoins
  cases hc : st.coins a with
  | none => rw [hc] at h; exact h.elim
  | some c =>
    rw [hc] at h
    dsimp only at h ⊢
    rw [if_pos h]
    by_cases hb : a = b
    · subst hb
      simp only [balance, setCoins, hc, if_true, Option.map_some, Option.getD_some, toInt_ofInt h]
    · have hne : b ≠ a := fun e => hb e.symm
      simp [balance, setCoins, hb, hne]

/-- Nothing but the coins changes. -/
theorem addCoins_eq (st : ShopState) (a : UInt32) (n : Int) :
    st.addCoins a n = { st with coins := (st.addCoins a n).coins } := by
  unfold addCoins
  split
  · split <;> rfl
  · rfl

theorem Booked.credit (h : Booked st₀ st) {a : UInt32} {n : Int} (hk : st.CanAddCoins a n) :
    Booked st₀ (st.credit a n) := by
  have hbal := addCoins_balance hk
  unfold ShopState.credit
  rw [addCoins_eq]
  refine { h with coins := fun b => ?_ }
  have hc := h.coins b
  have hb := hbal b
  show (st.addCoins a n).balance b = st₀.balance b +
    (if b = a then st.credits b + n else st.credits b) - spent b st.charged + spent b st.repaid
  by_cases hab : a = b
  · subst hab
    rw [if_pos rfl] at hb ⊢
    omega
  · have hne : ¬ b = a := fun e => hab e.symm
    rw [if_neg hab] at hb
    rw [if_neg hne]
    omega

theorem filterMap_drop {i : Nat} {s : ShopStatement} (hs : st.delayed[i]? = some s)
    (hno : s.refund? = none) :
    (st.delayed.eraseIdx i).filterMap ShopStatement.refund? = st.refunding := by
  obtain ⟨hi, rfl⟩ := List.getElem?_eq_some_iff.1 hs
  rw [refunding, eraseIdx_eq_take_drop_succ, filterMap_append]
  conv_rhs => rw [← take_append_drop i st.delayed, drop_eq_getElem_cons hi]
  rw [filterMap_append, filterMap_cons_none hno]

section

variable (h : Booked st₀ st)
include h

/-- A delayed statement that moves no purchase is done with. -/
theorem Booked.drop {i : Nat} {s : ShopStatement} (hs : st.delayed[i]? = some s)
    (hno : s.refund? = none) : Booked st₀ { st with delayed := st.delayed.eraseIdx i } := by
  exact h.of_sameBooks ⟨fun _ => rfl, rfl, rfl, rfl, filterMap_drop hs hno,
    fun id hid => mem_of_mem_eraseIdx hid, rfl, rfl, rfl, rfl, rfl⟩ rfl rfl h.newBalance

/-- The price is given back. -/
theorem Booked.repay {i : Nat}
    (hs : st.delayed[i]? = some (.refundCoins p)) (hk : st.CanAddCoins p.accountId p.price.toNat) :
    Booked st₀ (({ st with delayed := st.delayed.eraseIdx i } : ShopState).executeStatement
      (.refundCoins p)) := by
  have hbal : ∀ a, (({ st with delayed := st.delayed.eraseIdx i } : ShopState).addCoins p.accountId
      p.price.toNat).balance a =
        st.balance a + if p.accountId = a then (p.price.toNat : Int) else 0 :=
    addCoins_balance hk
  have hreturned : (↑((st.delayed.eraseIdx i).filterMap ShopStatement.refund?) +
      ↑(st.repaid ++ [p]) : Multiset ShopPurchase) = st.returned := by
    obtain ⟨hi, hget⟩ := List.getElem?_eq_some_iff.1 hs
    have hperm := (getElem_cons_eraseIdx_perm hi).filterMap ShopStatement.refund?
    rw [hget, filterMap_cons_some (f := ShopStatement.refund?) (b := p) rfl] at hperm
    have hcoe := coe_eq_coe.2 hperm
    rw [← cons_coe, ← Multiset.singleton_add] at hcoe
    rw [ShopState.returned, refunding, ← hcoe, ← coe_add, coe_singleton]
    abel
  unfold ShopState.executeStatement
  dsimp only
  rw [addCoins_eq]
  exact { h with
    charged := by
      show (st.charged : Multiset ShopPurchase) = ↑st.unlogged + st.due +
        (↑((st.delayed.eraseIdx i).filterMap ShopStatement.refund?) + ↑(st.repaid ++ [p]))
      rw [hreturned, h.charged]
    coins := fun a => by
      have hc := h.coins a
      have ha := hbal a
      show (({ st with delayed := st.delayed.eraseIdx i } : ShopState).addCoins p.accountId
        p.price.toNat).balance a = st₀.balance a + st.credits a - spent a st.charged +
          spent a (st.repaid ++ [p])
      rw [spent_append, ha, hc]
      omega
    ids := by
      show ((st.due + (↑((st.delayed.eraseIdx i).filterMap ShopStatement.refund?) +
        ↑(st.repaid ++ [p]))).map ShopPurchase.shopId).Nodup
      rw [hreturned]
      exact h.ids
    returned := by
      show ∀ q ∈ (↑((st.delayed.eraseIdx i).filterMap ShopStatement.refund?) +
        ↑(st.repaid ++ [p]) : Multiset ShopPurchase), _
      rw [hreturned]
      exact h.returned
    marks := fun id hid => by
      show ∃ q ∈ (↑((st.delayed.eraseIdx i).filterMap ShopStatement.refund?) +
        ↑(st.repaid ++ [p]) : Multiset ShopPurchase), _
      rw [hreturned]
      exact h.marks id (mem_of_mem_eraseIdx hid) }

/-- A purchase that is due and one that is given back have different ids. -/
theorem Booked.ids_ne {q : ShopPurchase} (hp : p ∈ st.due)
    (hq : q ∈ st.returned) : p.shopId ≠ q.shopId := by
  intro hid
  have hids := h.ids
  rw [Multiset.map_add] at hids
  refine disjoint_left.1 (nodup_add.1 hids).2.2
    (mem_map_of_mem _ hp) ?_
  rw [hid]
  exact mem_map_of_mem _ hq

/-- The row is marked. -/
theorem Booked.mark {i : Nat} {id : UInt32} (hs : st.delayed[i]? = some (.markRefunded id)) :
    Booked st₀ (({ st with delayed := st.delayed.eraseIdx i } : ShopState).executeStatement
      (.markRefunded id)) := by
  have h' := h.drop hs rfl
  obtain ⟨q, hq, rfl⟩ := h.marks id (mem_of_getElem? hs)
  have hq' : q ∈ ShopState.returned { st with delayed := st.delayed.eraseIdx i } := by
    have hrefunding : ShopState.refunding { st with delayed := st.delayed.eraseIdx i } =
        st.refunding := filterMap_drop hs rfl
    rw [ShopState.returned, hrefunding]
    exact hq
  refine { h' with logs := ?_, due := fun p hp => ?_, returned := fun p hp => ?_ }
  · show (((st.logs.map fun row =>
      if row.id = q.shopId then { row with refunded := true } else row)).map ShopLog.id).Nodup
    rw [map_map, map_congr_left (g := ShopLog.id)]
    · exact h.logs
    · intro row _
      dsimp only [Function.comp]
      split <;> rfl
  · have hne := h'.ids_ne hp hq'
    exact mem_map.2 ⟨p.row false, h.due p hp, if_neg hne⟩
  · obtain ⟨refunded, hrow⟩ := h'.returned p hp
    by_cases hid : p.shopId = q.shopId
    · exact ⟨true, mem_map.2 ⟨p.row refunded, hrow, if_pos hid⟩⟩
    · exact ⟨refunded, mem_map.2 ⟨p.row refunded, hrow, if_neg hid⟩⟩

/-- A row without coins has no coins. -/
theorem Booked.insertCoins (a : UInt32) :
    Booked st₀ (st.executeStatement (.insertCoins a)) := by
  unfold ShopState.executeStatement
  cases hc : st.coins a with
  | some c =>
    dsimp only
    rw [hc]
    exact h
  | none =>
    dsimp only
    rw [hc]
    refine h.of_sameBooks ⟨fun b => ?_, rfl, rfl, rfl, rfl, fun _ h => h, rfl, rfl, rfl, rfl, rfl⟩
      rfl rfl h.newBalance
    by_cases hb : b = a
    · subst hb
      simp [balance, setCoins, hc]
    · simp [balance, setCoins, hb]

theorem Booked.executeDelayed (i : Nat) (hk : ∀ p, st.delayed[i]? = some (.refundCoins p) →
      st.CanAddCoins p.accountId p.price.toNat) : Booked st₀ (st.executeDelayed i) := by
  unfold ShopState.executeDelayed
  cases hs : st.delayed[i]? with
  | none => exact h
  | some s =>
    dsimp only
    cases s with
    | insertCoins a => exact (h.drop hs rfl).insertCoins a
    | refundCoins p => exact h.repay hs (hk p hs)
    | markRefunded id => exact h.mark hs

theorem Booked.work (price : UInt32 → Option UInt32) {ok : Bool}
    (hk : Kept st (.work ok)) : Booked st₀ (st.work price ok) := by
  unfold ShopState.work
  unfold Kept at hk
  cases hw : st.worker with
  | idle => exact h.nextRequest hw price
  | balance a =>
    have hf : ShopWorker.Free st.worker := by rw [hw]; trivial
    exact h.goTo hf (getBalance_sameBooks st ok a).1 _ _ _ _ (by trivial) (by simp)
  | query r p => exact h.buyItem ok hw
  | update p b => exact h.charge hw (by simpa [hw] using hk)
  | insert p b =>
    simp only [hw] at hk
    obtain ⟨rfl, hfresh⟩ := hk
    exact h.insertLog hw hfresh
  | check p b => exact h.finish hw (by simpa [hw] using hk)

theorem Booked.step (price : UInt32 → Option UInt32) {i : Input}
    (hk : Kept st i) : Booked st₀ (st.step price i) := by
  unfold ShopState.step
  rw [if_neg (by simp [h.aborted])]
  cases i with
  | requestBalance a => exact h.requestBalance a
  | requestPurchase a g item forbidden => exact h.requestPurchase a g item forbidden
  | work ok => exact h.work price hk
  | task i session => exact h.runTask i session
  | statement i =>
    refine h.executeDelayed i fun p hp => ?_
    unfold Kept at hk
    simp only [hp] at hk
    exact hk
  | credit a n => exact h.credit hk

end

end Steps

/-! ## Runs -/

theorem Initial.booked {st₀ : ShopState} (h : Initial st₀) : Booked st₀ st₀ := by
  have hlists := lists_of_free st₀ (by rw [h.worker]; trivial)
  have hdue : st₀.due = 0 := by
    rw [due, hlists.2, h.tasks, h.delivered]
    rfl
  have hreturned : st₀.returned = 0 := by
    rw [returned, refunding, h.delayed, h.repaid]
    rfl
  exact { h with
    charged := by rw [hdue, hreturned, hlists.1, h.charged]; rfl
    coins := fun a => by rw [h.credits, h.charged, h.repaid]; simp [spent]
    ids := by rw [hdue, hreturned]; simp
    due := by rw [hdue]; simp
    returned := by rw [hreturned]; simp
    marks := by rw [h.delayed]; simp
    lookup := by rw [h.tasks]; simp
    newBalance := by rw [h.worker]; simp }

theorem spent_perm (a : UInt32) {l l' : List ShopPurchase} (h : l.Perm l') :
    spent a l = spent a l' :=
  (h.map _).sum_eq

/-- Nothing is under way: what has been charged is delivered or repaid. -/
theorem Booked.settled {st₀ : ShopState} (h : Booked st₀ st) (hq : Quiet st) : Settled st₀ st := by
  have hlists := lists_of_free st (by rw [hq.worker]; trivial)
  have hdue : st.due = ↑st.delivered := by
    rw [ShopState.due, hlists.2, hq.tasks]
    simp
  have hreturned : st.returned = ↑st.repaid := by
    rw [ShopState.returned, refunding, hq.delayed]
    simp
  have hcharged : st.charged.Perm (st.delivered ++ st.repaid) := by
    refine coe_eq_coe.1 ?_
    rw [h.charged, hdue, hreturned, hlists.1, ← coe_add]
    simp
  have hnodup : (st.delivered ++ st.repaid).Nodup := by
    have hids := h.ids
    rw [hdue, hreturned, coe_add] at hids
    exact List.Nodup.of_map _ (coe_nodup.1 hids)
  refine ⟨fun a => ?_, fun p hp => ?_, fun p hp => ?_, fun p hp hnot => ?_⟩
  · have hspent : spent a st.charged = spent a st.delivered + spent a st.repaid := by
      rw [spent_perm a hcharged]
      simp [spent]
    rw [h.coins, hspent]
    omega
  · exact hcharged.mem_iff.2 (mem_append_left _ hp)
  · have hrow := h.due p (by rw [hdue]; exact hp)
    have hids : (st.logs.filter (·.id = p.shopId)).map ShopLog.id = [p.shopId] :=
      Keyed.filter_key_eq (show Keyed ShopLog.id st.logs from h.logs) hrow rfl
    obtain ⟨row, hone, -⟩ := map_eq_singleton_iff.1 hids
    have hmem : p.row false ∈ st.logs.filter (·.id = p.shopId) :=
      mem_filter.2 ⟨hrow, by simp [ShopPurchase.row]⟩
    rw [hone] at hmem ⊢
    rw [mem_singleton.1 hmem]
  · have hmem := (mem_append.1 (hcharged.mem_iff.1 hp)).resolve_left hnot
    exact count_eq_one_of_mem (nodup_append.1 hnodup).2.1 hmem

/-- In every run in which no step runs into a gap between the statements, the account is settled
when nothing is under way. -/
theorem run_settled (price : UInt32 → Option UInt32) {st₀ : ShopState} (h₀ : Initial st₀)
    {is : List Input} (hk : AlongRun (step price) Kept st₀ is)
    (hq : Quiet (run (step price) st₀ is)) : Settled st₀ (run (step price) st₀ is) :=
  Booked.settled (run_keeps (I := Booked st₀) (fun _ _ h hk => h.step price hk) h₀.booked hk) hq

/-- An account with 100 coins, just after the start. -/
def hundredCoins : ShopState := { coins := fun a => if a = 1 then some 100 else none }

theorem hundredCoins_initial : Initial hundredCoins :=
  ⟨rfl, rfl, rfl, nodup_nil, rfl, fun _ => rfl, rfl, rfl, rfl⟩

/-- Of two purchases one is stored and the other refunded, and the player is credited in between. -/
theorem twoPurchases_settled :
    let is : List Input := [.requestPurchase 1 7 5 false, .requestPurchase 1 7 6 false, .work true,
      .work true, .work true, .work true, .work true, .work true,
      .task 0 (some (some { guidLow := 7 })), .credit 1 50, .work true, .work true, .work true, .work true, .work true, .task 0 none,
      .statement 1, .statement 0]
    let st := run (step fun _ => some 30) hundredCoins is
    (st.delivered.length = 1 ∧ st.repaid.length = 1) ∧ Settled hundredCoins st :=
  ⟨by decide, run_settled _ hundredCoins_initial (by decide) ⟨by decide, by decide, by decide⟩⟩

/-- A credit between the query and the `UPDATE` is overwritten. -/
theorem credit_overwritten :
    ¬ ∀ (price : UInt32 → Option UInt32) (st₀ : ShopState) (is : List Input), Initial st₀ →
      Quiet (run (step price) st₀ is) → Settled st₀ (run (step price) st₀ is) := by
  intro h
  have hs := h (fun _ => some 30) hundredCoins
    [.requestPurchase 1 7 5 false, .work true, .work true, .work true, .credit 1 50, .work true,
      .work true, .work true, .task 0 (some (some { guidLow := 7 }))]
    hundredCoins_initial ⟨by decide, by decide, by decide⟩
  exact absurd (hs.coins 1) (by decide)

end ShopState

end Windrunner
