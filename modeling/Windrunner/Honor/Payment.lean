import Mathlib.Algebra.GroupWithZero.Nat
import Mathlib.Algebra.Order.Group.Nat

/-!
# Counting and destroying items

* `hasItemCount`: does the player carry so many of an item?
* `destroyItemCount`: the backpack, the keys, what is in the bags and what is worn are gone through
  until so many are destroyed. A worn bag that is not empty is counted, but not destroyed.
* `destroyable`: how many there are to destroy. `destroyItemCount_spec`: as many as are asked for, or
  all of these.
* `pay`: several costs, one after the other. `pay_exact_iff`, `pay_eq_iff`: when all of them are paid
  in full, and when none costs anything.
-/

namespace Windrunner

/-- A stack of an item. `slot` is its own slot, or the slot of the bag it is in. -/
structure Stack where
  entry : Nat
  count : Nat
  inTrade : Bool := false
  slot : Nat
  count_pos : 0 < count := by decide

/-- `GetEntry() == item && !IsInTrade()`. -/
def Stack.takes (item : Nat) (s : Stack) : Bool := s.entry == item && !s.inTrade

/-- What a player has with him, by slots: worn items with the bags, the backpack, the keyring, and the
items in the bags. -/
structure Carried where
  worn : List Stack := []
  backpack : List Stack := []
  keyring : List Stack := []
  bagged : List Stack := []

/-- The loops of `HasItemCount`: they end as soon as there are enough. -/
def reaches (item count : Nat) : Nat → List Stack → Bool
  | _, [] => false
  | tempcount, s :: l =>
    if s.takes item then
      decide (tempcount + s.count ≥ count) || reaches item count (tempcount + s.count) l
    else reaches item count tempcount l

/-- One loop of `DestroyItemCount`. `remcount` is `none` when the function has returned. -/
def destroyLoop (skip : Stack → Bool) (item count : Nat) :
    Option Nat → List Stack → List Stack × Option Nat
  | remcount, [] => ([], remcount)
  | none, s :: l => (s :: l, none)
  | some remcount, s :: l =>
    if s.takes item && !skip s then
      if h : s.count + remcount ≤ count then
        if remcount + s.count ≥ count then (l, none)
        else destroyLoop skip item count (some (remcount + s.count)) l
      else
        ({ s with count := s.count + remcount - count, count_pos := by omega } :: l, none)
    else
      let (l, r) := destroyLoop skip item count (some remcount) l
      (s :: l, r)

namespace Carried

variable (inv : Carried)

/-- `HasItemCount`, without the bank. -/
def hasItemCount (item count : Nat) : Bool :=
  reaches item count 0 (inv.worn ++ inv.backpack ++ inv.keyring ++ inv.bagged)

/-- `DestroyItemCount`, without the bank and without the check that an item can be taken off. -/
def destroyItemCount (item count : Nat) : Carried :=
  let (backpack, r) := destroyLoop (fun _ => false) item count (some 0) inv.backpack
  let (keyring, r) := destroyLoop (fun _ => false) item count r inv.keyring
  let (bagged, r) := destroyLoop (fun _ => false) item count r inv.bagged
  -- a worn bag that is not empty is skipped
  let (worn, _) := destroyLoop (fun s => bagged.any (·.slot == s.slot)) item count r inv.worn
  { worn, backpack, keyring, bagged }

end Carried

/-! ## What a loop destroys -/

def unitsOf (e : Nat) (l : List Stack) : Nat := ((l.filter (·.entry == e)).map (·.count)).sum

/-- The units that a loop can destroy. -/
def available (skip : Stack → Bool) (item : Nat) (l : List Stack) : Nat :=
  ((l.filter fun s => s.takes item && !skip s).map (·.count)).sum

variable {skip : Stack → Bool} {item count e : Nat} {l : List Stack} {r : Option Nat}

@[simp] theorem unitsOf_cons (s : Stack) : unitsOf e (s :: l) =
    (if s.entry = e then s.count else 0) + unitsOf e l := by
  unfold unitsOf
  by_cases h : s.entry = e <;> simp [h]

@[simp] theorem available_cons (s : Stack) : available skip item (s :: l) =
    (if s.takes item && !skip s then s.count else 0) + available skip item l := by
  unfold available
  by_cases h : (s.takes item && !skip s) = true <;> simp [h]

theorem Stack.entry_of_takes {s : Stack} (h : s.takes item = true) : s.entry = item :=
  beq_iff_eq.mp (Bool.and_eq_true_iff.mp h).1

/-- A loop destroys what is asked for, as far as it is there; one that does not return leaves nothing
of it. -/
structure Destroys (skip : Stack → Bool) (item count : Nat) (r : Option Nat) (l : List Stack)
    (res : List Stack × Option Nat) : Prop where
  taken : res.2.getD count = min count (r.getD count + available skip item l)
  units : unitsOf item res.1 + res.2.getD count = unitsOf item l + r.getD count
  others : ∀ e, e ≠ item → unitsOf e res.1 = unitsOf e l
  open_lt : ∀ n, res.2 = some n → n < count
  left : ∀ n, res.2 = some n → res.1 = l.filter fun s => !(s.takes item && !skip s)

theorem destroyLoop_spec (hr : ∀ n, r = some n → n < count) :
    Destroys skip item count r l (destroyLoop skip item count r l) := by
  induction l generalizing r with
  | nil =>
    rw [show destroyLoop skip item count r [] = ([], r) by cases r <;> rfl]
    refine ⟨?_, rfl, fun _ _ => rfl, hr, fun _ _ => rfl⟩
    cases r with
    | none => simp [available]
    | some n => simp [available, (hr n rfl).le]
  | cons s l ih =>
    cases r with
    | none => exact ⟨by simp [destroyLoop], rfl, fun _ _ => rfl, fun _ h => (nomatch h),
        fun _ h => (nomatch h)⟩
    | some n =>
      have hn := hr n rfl
      unfold destroyLoop
      split
      case isTrue ht =>
        have he := Stack.entry_of_takes (Bool.and_eq_true_iff.mp ht).1
        split
        case isTrue hle =>
          split
          case isTrue hge =>
            refine ⟨?_, ?_, fun e hne => ?_, fun _ h => (nomatch h), fun _ h => (nomatch h)⟩
            · simp [ht]
              omega
            · simp [he]
              omega
            · simp [he, Ne.symm hne]
          case isFalse hlt =>
            obtain ⟨h1, h2, h3, h4, h5⟩ := ih (r := some (n + s.count)) fun m hm => by
              obtain rfl := Option.some.inj hm
              omega
            refine ⟨?_, ?_, fun e hne => ?_, h4, fun m hm => ?_⟩
            · simp only [available_cons, ht, if_true, Option.getD_some] at h1 ⊢
              omega
            · simp only [unitsOf_cons, he, if_true, Option.getD_some] at h2 ⊢
              omega
            · simp [h3 e hne, he, Ne.symm hne]
            · rw [h5 m hm, List.filter_cons, ht]
              rfl
        case isFalse hgt =>
          refine ⟨?_, ?_, fun e hne => ?_, fun _ h => (nomatch h), fun _ h => (nomatch h)⟩
          · simp [ht]
            omega
          · simp [he]
            omega
          · simp [he, Ne.symm hne]
      case isFalse ht =>
        obtain ⟨h1, h2, h3, h4, h5⟩ := ih hr
        refine ⟨?_, ?_, fun e hne => ?_, h4, fun m hm => ?_⟩
        · simp only [available_cons, ht, Bool.false_eq_true, if_false, Nat.zero_add]
          exact h1
        · simp only [unitsOf_cons]
          omega
        · simp only [unitsOf_cons, h3 e hne]
        · simp only [h5 m hm, List.filter_cons, ht, Bool.not_false, if_true]

namespace Carried

variable {inv : Carried}

/-- The units of an entry that the player has with him. -/
def units (inv : Carried) (e : Nat) : Nat :=
  unitsOf e inv.worn + unitsOf e inv.backpack + unitsOf e inv.keyring + unitsOf e inv.bagged

/-- The worn stack is a bag, in which something is left when all of the item is destroyed. -/
def staysFull (inv : Carried) (item : Nat) (s : Stack) : Bool :=
  (inv.bagged.filter fun s => !s.takes item).any (·.slot == s.slot)

/-- The units that `DestroyItemCount` can destroy. -/
def destroyable (inv : Carried) (item : Nat) : Nat :=
  available (fun _ => false) item inv.backpack + available (fun _ => false) item inv.keyring +
    available (fun _ => false) item inv.bagged + available (inv.staysFull item) item inv.worn

/-- As many units are destroyed as are asked for, or all that can be, and of no other item any. -/
theorem destroyItemCount_spec (inv : Carried) (item : Nat) {count : Nat} (hc : 0 < count) :
    (inv.destroyItemCount item count).units item + min count (inv.destroyable item) =
        inv.units item ∧
      ∀ e, e ≠ item → (inv.destroyItemCount item count).units e = inv.units e := by
  have h1 : Destroys (fun _ => false) item count (some 0) inv.backpack _ :=
    destroyLoop_spec fun n hn => by
      obtain rfl := Option.some.inj hn
      exact hc
  have h2 : Destroys (fun _ => false) item count _ inv.keyring _ := destroyLoop_spec h1.open_lt
  have h3 : Destroys (fun _ => false) item count _ inv.bagged _ := destroyLoop_spec h2.open_lt
  unfold destroyItemCount
  dsimp only
  generalize destroyLoop (fun _ => false) item count (some 0) inv.backpack = backpack at *
  generalize destroyLoop (fun _ => false) item count backpack.2 inv.keyring = keyring at *
  generalize destroyLoop (fun _ => false) item count keyring.2 inv.bagged = bagged at *
  have h4 : Destroys (fun s => bagged.1.any (·.slot == s.slot)) item count bagged.2 inv.worn _ :=
    destroyLoop_spec h3.open_lt
  -- the worn bags are reached only when nothing of the item is left in the bags
  have hworn : bagged.2 = none ∨
      available (fun s => bagged.1.any (·.slot == s.slot)) item inv.worn =
        available (inv.staysFull item) item inv.worn := by
    cases hr : bagged.2 with
    | none => exact Or.inl rfl
    | some n =>
      refine Or.inr ?_
      rw [h3.left n hr]
      simp only [Bool.not_false, Bool.and_true]
      rfl
  generalize destroyLoop (fun s => bagged.1.any (·.slot == s.slot)) item count bagged.2 inv.worn =
    worn at *
  have t1 := h1.taken
  have t2 := h2.taken
  have t3 := h3.taken
  have t4 := h4.taken
  have u1 := h1.units
  have u2 := h2.units
  have u3 := h3.units
  have u4 := h4.units
  simp only [Option.getD_some] at t1 u1
  refine ⟨?_, fun e he => ?_⟩
  · unfold units destroyable
    dsimp only
    rcases hworn with hnone | hworn
    · rw [hnone, Option.getD_none] at t3 t4 u3 u4
      omega
    · rw [hworn] at t4
      omega
  · unfold units
    dsimp only
    rw [h1.others e he, h2.others e he, h3.others e he, h4.others e he]

theorem of_available (h : available skip item l = 0) :
    ∀ s ∈ l, (s.takes item && !skip s) = false := by
  induction l with
  | nil => exact fun _ hs => (nomatch hs)
  | cons s l ih =>
    rw [available_cons] at h
    have hno : ¬ (s.takes item && !skip s) = true := fun ht => by
      rw [if_pos ht] at h
      have := s.count_pos
      omega
    exact List.forall_mem_cons.mpr ⟨Bool.eq_false_iff.mpr hno, ih (by omega)⟩

theorem destroyLoop_of_available (h : available skip item l = 0) :
    destroyLoop skip item count r l = (l, r) := by
  replace h := of_available h
  induction l with
  | nil => cases r <;> rfl
  | cons s l ih =>
    obtain ⟨hno, hl⟩ := List.forall_mem_cons.mp h
    cases r with
    | none => rfl
    | some n =>
      unfold destroyLoop
      rw [if_neg (Bool.eq_false_iff.mp hno), ih hl]

/-- Where nothing can be destroyed nothing is touched. -/
theorem destroyItemCount_of_destroyable (h : inv.destroyable item = 0) :
    inv.destroyItemCount item count = inv := by
  unfold destroyable at h
  have hbag : inv.bagged.filter (fun s => !s.takes item) = inv.bagged := by
    have h0 : available (fun _ => false) item inv.bagged = 0 := by omega
    refine List.filter_eq_self.mpr fun s hs => ?_
    have hno := of_available h0 s hs
    simpa using hno
  have hworn : available (fun s => inv.bagged.any (·.slot == s.slot)) item inv.worn = 0 := by
    have h0 : available (inv.staysFull item) item inv.worn = 0 := by omega
    unfold staysFull at h0
    rwa [hbag] at h0
  have hloop : ∀ l, available (fun _ => false) item l = 0 →
      destroyLoop (fun _ => false) item count (some 0) l = (l, some 0) :=
    fun _ h0 => destroyLoop_of_available h0
  unfold destroyItemCount
  rw [hloop inv.backpack (by omega)]
  dsimp only
  rw [hloop inv.keyring (by omega)]
  dsimp only
  rw [hloop inv.bagged (by omega)]
  dsimp only
  rw [destroyLoop_of_available hworn]

end Carried

/-! ## Several costs -/

/-- `CustomMerchantItemCost` -/
structure ItemCost where
  item : Nat := 0
  count : Nat := 0
  deriving DecidableEq, Repr

def ItemCost.isSet (c : ItemCost) : Bool := c.item != 0 && c.count != 0

namespace Carried

variable {inv : Carried} {c : ItemCost} {costs : List ItemCost}

def payOne (inv : Carried) (c : ItemCost) : Carried :=
  if c.isSet then inv.destroyItemCount c.item c.count else inv

def pay (inv : Carried) (costs : List ItemCost) : Carried := costs.foldl payOne inv

/-- What the costs ask for of an entry. -/
def owed (costs : List ItemCost) (e : Nat) : Nat :=
  ((costs.filter fun c => c.isSet && c.item == e).map (·.count)).sum

/-- What one cost destroys of an entry. -/
def paid (inv : Carried) (c : ItemCost) (e : Nat) : Nat :=
  if c.isSet && c.item == e then min c.count (inv.destroyable c.item) else 0

theorem owed_cons : owed (c :: costs) e =
    (if c.isSet && c.item == e then c.count else 0) + owed costs e := by
  unfold owed
  by_cases h : (c.isSet && c.item == e) = true <;> simp [h]

theorem ItemCost.count_pos (h : c.isSet = true) : 0 < c.count := by
  simp only [ItemCost.isSet, Bool.and_eq_true, bne_iff_ne] at h
  omega

theorem payOne_units (inv : Carried) (c : ItemCost) (e : Nat) :
    (inv.payOne c).units e + inv.paid c e = inv.units e := by
  unfold payOne paid
  by_cases h : c.isSet = true
  · obtain ⟨hsame, hothers⟩ := inv.destroyItemCount_spec c.item (ItemCost.count_pos h)
    rw [if_pos h]
    by_cases he : c.item = e
    · subst he
      simpa [h] using hsame
    · simpa [he] using hothers e (Ne.symm he)
  · simp [h]

/-- Not more is destroyed than is owed. -/
theorem pay_le (inv : Carried) (costs : List ItemCost) (e : Nat) :
    (inv.pay costs).units e ≤ inv.units e ∧
      inv.units e ≤ (inv.pay costs).units e + owed costs e := by
  induction costs generalizing inv with
  | nil => exact ⟨Nat.le_refl _, Nat.le_refl _⟩
  | cons c costs ih =>
    have hone := inv.payOne_units c e
    obtain ⟨h1, h2⟩ := ih (inv.payOne c)
    have hpaid : inv.paid c e ≤ if c.isSet && c.item == e then c.count else 0 := by
      unfold paid
      split
      · exact min_le_left ..
      · exact Nat.le_refl _
    rw [owed_cons, pay, List.foldl_cons]
    unfold pay at h1 h2
    omega

/-- Each cost in turn finds as many units as it asks for, which can be destroyed. -/
def Payable (inv : Carried) : List ItemCost → Prop
  | [] => True
  | c :: costs => (c.isSet = true → c.count ≤ inv.destroyable c.item) ∧
      (inv.payOne c).Payable costs

/-- What is owed is destroyed, if and only if each cost finds it. -/
theorem pay_exact_iff (inv : Carried) (costs : List ItemCost) :
    (∀ e, (inv.pay costs).units e + owed costs e = inv.units e) ↔ inv.Payable costs := by
  induction costs generalizing inv with
  | nil => exact ⟨fun _ => trivial, fun _ _ => rfl⟩
  | cons c costs ih =>
    rw [Payable, ← ih]
    simp only [owed_cons, show inv.pay (c :: costs) = (inv.payOne c).pay costs from rfl]
    constructor
    · intro h
      have hset : c.isSet = true → c.count ≤ inv.destroyable c.item := by
        intro hc
        have hall := h c.item
        have hone := inv.payOne_units c c.item
        have hle := (pay_le (inv.payOne c) costs c.item).2
        simp only [paid, hc, beq_self_eq_true, Bool.and_true, if_true] at hall hone
        omega
      refine ⟨hset, fun e => ?_⟩
      have hall := h e
      have hone := inv.payOne_units c e
      unfold paid at hone
      split at hone
      case isTrue he =>
        rw [if_pos he] at hall
        have := hset (Bool.and_eq_true_iff.mp he).1
        omega
      case isFalse he =>
        rw [if_neg he] at hall
        omega
    · rintro ⟨hset, h⟩ e
      have hall := h e
      have hone := inv.payOne_units c e
      unfold paid at hone
      split at hone
      case isTrue he =>
        rw [if_pos he]
        have := hset (Bool.and_eq_true_iff.mp he).1
        omega
      case isFalse he =>
        rw [if_neg he]
        omega

/-- The inventory is left as it is, if and only if there is nothing to destroy. -/
theorem pay_eq_iff (inv : Carried) (costs : List ItemCost) :
    inv.pay costs = inv ↔ ∀ c ∈ costs, c.isSet = true → inv.destroyable c.item = 0 := by
  induction costs generalizing inv with
  | nil => exact ⟨fun _ _ h => (nomatch h), fun _ => rfl⟩
  | cons c costs ih =>
    rw [List.forall_mem_cons]
    constructor
    · intro h
      have hzero : c.isSet = true → inv.destroyable c.item = 0 := by
        intro hc
        have hone := inv.payOne_units c c.item
        have hle := (pay_le (inv.payOne c) costs c.item).1
        rw [show (inv.payOne c).pay costs = inv from h] at hle
        simp only [paid, hc, beq_self_eq_true, Bool.and_true, if_true] at hone
        have := ItemCost.count_pos hc
        omega
      have hsame : inv.payOne c = inv := by
        unfold payOne
        split
        case isTrue hc => exact destroyItemCount_of_destroyable (hzero hc)
        case isFalse => rfl
      have hrest : inv.pay costs = inv := by
        rw [← hsame] at h
        exact (congrArg (pay · costs) (hsame.symm)).trans (by rw [← hsame]; exact h)
      exact ⟨hzero, (ih inv).mp hrest⟩
    · rintro ⟨hzero, hrest⟩
      have hsame : inv.payOne c = inv := by
        unfold payOne
        split
        case isTrue hc => exact destroyItemCount_of_destroyable (hzero hc)
        case isFalse => rfl
      rw [pay, List.foldl_cons, hsame]
      exact (ih inv).mpr hrest

end Carried

end Windrunner
