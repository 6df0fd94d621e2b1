import Windrunner.Honor.State
import Windrunner.Lib.Run
import Windrunner.Lib.Word

/-!
# Honor that can be spent

`HonorMgr` also keeps two currencies, honor and conquest points, and how much honor was gained in
the week that began on a stored day. The week begins on the day of the last maintenance; a server
without one goes by the day of the game.

* `resetCurrencyWeekIfNeeded` to `spendConquestPoints`: the functions on the currencies, each with
  what it returns.
* `CurrencyWorld.step`: a player who logs in and out, the days, and a ledger of what was credited
  and removed, which no step reads.
* `InCredit`: the ledger agrees with the currencies. The additions of earned honor and of conquest
  points are not guarded, so `inCredit_of_run` is for the runs in which they fit (`Fits`).
* `WithinCap`: neither the week by which the honor is counted nor the week of the maintenance has
  more than the cap.
-/

namespace Windrunner

open Lib UInt32

/-- The currency of a player, and its row in `character_pvp_currency`. -/
structure HonorCurrency where
  spendableHonor : UInt32 := 0
  conquestPoints : UInt32 := 0
  weeklySpendableHonor : UInt32 := 0
  currencyWeekBeginDay : Nat := 0
  deriving DecidableEq, Repr

/-- The day that the current week is known by. -/
def HonorMaintenancer.currencyWeek (m : HonorMaintenancer) (gameDay : Nat) : Nat :=
  if m.weekBeginDay = 0 then gameDay else m.weekBeginDay

def HonorMaintenancer.setMaintenanceDays (m : HonorMaintenancer) (last next : Nat) :
    HonorMaintenancer :=
  { m with
    lastMaintenanceDay := last
    nextMaintenanceDay := if next = 0 then last + 7 else m.nextMaintenanceDay }

namespace HonorCurrency

variable (cap : UInt32) (week : Nat) (c : HonorCurrency)

/-- `week` is what the function finds to be the day that the week began. -/
def resetCurrencyWeekIfNeeded : HonorCurrency :=
  if c.currencyWeekBeginDay ≠ week then
    { c with weeklySpendableHonor := 0, currencyWeekBeginDay := week }
  else c

variable (amount : UInt32)

def addSpendableHonor : HonorCurrency × UInt32 :=
  if amount = 0 then (c, 0)
  else
    let c := c.resetCurrencyWeekIfNeeded week
    if c.weeklySpendableHonor ≥ cap then (c, 0)
    else
      let amountToAdd := min amount (cap - c.weeklySpendableHonor)
      ({ c with
          spendableHonor := c.spendableHonor + amountToAdd
          weeklySpendableHonor := c.weeklySpendableHonor + amountToAdd }, amountToAdd)

/-- The minimum is taken of 64-bit integers. -/
def modifySpendableHonor (amount : Int32) : HonorCurrency × UInt32 :=
  let c := c.resetCurrencyWeekIfNeeded week
  if 0 < amount.toInt then
    let amountToAdd := ofNat (min amount.toInt.toNat (2 ^ 32 - 1 - c.spendableHonor.toNat))
    ({ c with spendableHonor := c.spendableHonor + amountToAdd }, amountToAdd)
  else
    let amountToRemove := ofNat (min c.spendableHonor.toNat (-amount.toInt).toNat)
    ({ c with spendableHonor := c.spendableHonor - amountToRemove }, amountToRemove)

def spendSpendableHonor : HonorCurrency × Bool :=
  let c := c.resetCurrencyWeekIfNeeded week
  if amount > c.spendableHonor then (c, false)
  else ({ c with spendableHonor := c.spendableHonor - amount }, true)

/-- `AddConquestPoints`, without the rank points that it may grant as well. -/
def addConquestPoints : HonorCurrency × Bool :=
  if amount = 0 then (c, false)
  else ({ c with conquestPoints := c.conquestPoints + amount }, true)

def spendConquestPoints : HonorCurrency × Bool :=
  if amount > c.conquestPoints then (c, false)
  else ({ c with conquestPoints := c.conquestPoints - amount }, true)

/-- `LoadCurrency`, of a row or of none. -/
def loadCurrency (weekBeginDay : Nat) (row : Option HonorCurrency) : HonorCurrency :=
  (row.getD { currencyWeekBeginDay := weekBeginDay }).resetCurrencyWeekIfNeeded week

/-- The honor that the week has room for. -/
def room : Nat :=
  cap.toNat - if c.currencyWeekBeginDay = week then c.weeklySpendableHonor.toNat else 0

@[simp] theorem resetCurrencyWeek_spendableHonor :
    (c.resetCurrencyWeekIfNeeded week).spendableHonor = c.spendableHonor := by
  unfold resetCurrencyWeekIfNeeded
  split <;> rfl

@[simp] theorem resetCurrencyWeek_conquestPoints :
    (c.resetCurrencyWeekIfNeeded week).conquestPoints = c.conquestPoints := by
  unfold resetCurrencyWeekIfNeeded
  split <;> rfl

@[simp] theorem resetCurrencyWeek_day :
    (c.resetCurrencyWeekIfNeeded week).currencyWeekBeginDay = week := by
  unfold resetCurrencyWeekIfNeeded
  split
  case isTrue => rfl
  case isFalse h => exact not_not.mp h

/-- A counter of another week counts as 0, so a reset changes nothing. -/
@[simp] theorem resetCurrencyWeek_room :
    (c.resetCurrencyWeekIfNeeded week).room cap week = c.room cap week := by
  unfold resetCurrencyWeekIfNeeded
  split
  case isTrue h => simp [room, h]
  case isFalse => rfl

/-- Honor is credited as far as there is room. -/
theorem addSpendableHonor_spec :
    (c.addSpendableHonor cap week amount).2.toNat = min amount.toNat (c.room cap week) ∧
      (c.addSpendableHonor cap week amount).1.spendableHonor =
        c.spendableHonor + (c.addSpendableHonor cap week amount).2 ∧
      (c.addSpendableHonor cap week amount).1.conquestPoints = c.conquestPoints ∧
      (c.addSpendableHonor cap week amount).2.toNat +
        (c.addSpendableHonor cap week amount).1.room cap week = c.room cap week := by
  unfold addSpendableHonor
  by_cases h0 : amount = 0
  · simp [h0]
  rw [if_neg h0]
  dsimp only
  have hroom : c.room cap week =
      cap.toNat - (c.resetCurrencyWeekIfNeeded week).weeklySpendableHonor.toNat := by
    rw [← resetCurrencyWeek_room cap week c, room, if_pos (resetCurrencyWeek_day week c)]
  by_cases hfull : (c.resetCurrencyWeekIfNeeded week).weeklySpendableHonor ≥ cap
  · rw [if_pos hfull]
    have hle := le_iff_toNat_le.mp hfull
    simp only [resetCurrencyWeek_spendableHonor, resetCurrencyWeek_conquestPoints,
      resetCurrencyWeek_room, hroom, UInt32.toNat_zero, UInt32.add_zero, true_and]
    omega
  · rw [if_neg hfull]
    have hlt := le_iff_toNat_le.not.mp hfull
    set weekly := (c.resetCurrencyWeekIfNeeded week).weeklySpendableHonor with hw
    have hsub := Lib.toNat_sub (a := cap) (b := weekly) (by omega)
    set n := min amount (cap - weekly) with hn
    have hmin : n.toNat = min amount.toNat (cap.toNat - weekly.toNat) := by
      rw [hn, show min amount (cap - weekly) =
        if amount ≤ cap - weekly then amount else cap - weekly from rfl]
      split
      case isTrue h =>
        have := le_iff_toNat_le.mp h
        omega
      case isFalse h =>
        have := le_iff_toNat_le.not.mp h
        omega
    have hcap := cap.toNat_lt
    have hadd : (weekly + n).toNat = weekly.toNat + n.toNat := Lib.toNat_add (by omega)
    refine ⟨hmin.trans (by rw [hroom]), by simp, by simp, ?_⟩
    rw [hroom, room, if_pos (resetCurrencyWeek_day week c)]
    dsimp only
    rw [hadd]
    omega

/-- An addition stops at the highest number, and a removal at 0. -/
theorem modifySpendableHonor_spec (amount : Int32) :
    (if 0 < amount.toInt then
        (c.modifySpendableHonor week amount).1.spendableHonor.toNat =
          c.spendableHonor.toNat + (c.modifySpendableHonor week amount).2.toNat
      else
        (c.modifySpendableHonor week amount).1.spendableHonor.toNat +
          (c.modifySpendableHonor week amount).2.toNat = c.spendableHonor.toNat) ∧
      (c.modifySpendableHonor week amount).1.conquestPoints = c.conquestPoints ∧
      (c.modifySpendableHonor week amount).1.room cap week = c.room cap week := by
  have hlt := c.spendableHonor.toNat_lt
  have hroom : ∀ honor : UInt32,
      ({ c.resetCurrencyWeekIfNeeded week with spendableHonor := honor } : HonorCurrency).room
        cap week = c.room cap week := fun _ => resetCurrencyWeek_room cap week c
  unfold modifySpendableHonor
  dsimp only
  split
  case isTrue h =>
    refine ⟨?_, resetCurrencyWeek_conquestPoints week c, hroom _⟩
    rw [resetCurrencyWeek_spendableHonor]
    refine Lib.toNat_add ?_
    rw [toNat_ofNat_of_lt' (by simp only [size]; omega)]
    omega
  case isFalse h =>
    refine ⟨?_, resetCurrencyWeek_conquestPoints week c, hroom _⟩
    rw [resetCurrencyWeek_spendableHonor]
    refine Lib.toNat_sub ?_
    rw [toNat_ofNat_of_lt' (by simp only [size]; omega)]
    omega

theorem spendSpendableHonor_spec :
    (c.spendSpendableHonor week amount).1.spendableHonor.toNat +
        (if (c.spendSpendableHonor week amount).2 then amount.toNat else 0) =
          c.spendableHonor.toNat ∧
      (c.spendSpendableHonor week amount).1.conquestPoints = c.conquestPoints ∧
      (c.spendSpendableHonor week amount).1.room cap week = c.room cap week := by
  unfold spendSpendableHonor
  dsimp only
  split
  case isTrue => simp
  case isFalse h =>
    refine ⟨?_, resetCurrencyWeek_conquestPoints week c, resetCurrencyWeek_room cap week c⟩
    rw [resetCurrencyWeek_spendableHonor, if_pos rfl]
    rw [resetCurrencyWeek_spendableHonor] at h
    exact Lib.toNat_sub (by have := lt_iff_toNat_lt.not.mp h; omega)

theorem spendConquestPoints_spec :
    (c.spendConquestPoints amount).1.conquestPoints.toNat +
        (if (c.spendConquestPoints amount).2 then amount.toNat else 0) =
          c.conquestPoints.toNat ∧
      (c.spendConquestPoints amount).1.spendableHonor = c.spendableHonor ∧
      (c.spendConquestPoints amount).1.room cap week = c.room cap week := by
  unfold spendConquestPoints
  split
  case isTrue => exact ⟨rfl, rfl, rfl⟩
  case isFalse h =>
    exact ⟨Lib.toNat_sub (by have := lt_iff_toNat_lt.not.mp h; omega), rfl, rfl⟩

theorem addConquestPoints_spec :
    (c.addConquestPoints amount).1.conquestPoints = c.conquestPoints +
        (if (c.addConquestPoints amount).2 then amount else 0) ∧
      (c.addConquestPoints amount).1.spendableHonor = c.spendableHonor ∧
      (c.addConquestPoints amount).1.room cap week = c.room cap week := by
  unfold addConquestPoints
  split
  case isTrue => simp
  case isFalse => exact ⟨rfl, rfl, rfl⟩

/-- What is loaded is the row, or nothing, in the current week. -/
theorem loadCurrency_spec (weekBeginDay : Nat) (row : Option HonorCurrency) :
    (loadCurrency week weekBeginDay row).spendableHonor = (row.getD {}).spendableHonor ∧
      (loadCurrency week weekBeginDay row).conquestPoints = (row.getD {}).conquestPoints ∧
      (loadCurrency week weekBeginDay row).room cap week = (row.getD {}).room cap week := by
  unfold loadCurrency
  rw [resetCurrencyWeek_spendableHonor, resetCurrencyWeek_conquestPoints, resetCurrencyWeek_room]
  cases row with
  | none => simp [room]
  | some c => exact ⟨rfl, rfl, rfl⟩

end HonorCurrency

/-- What was credited and removed so far; `weekCredited` in the week that is counted, and
`maintenanceCredited` since the maintenance days were last changed. -/
structure CurrencyLedger where
  credited : Nat := 0
  removed : Nat := 0
  conquestCredited : Nat := 0
  conquestRemoved : Nat := 0
  weekCredited : Nat := 0
  maintenanceCredited : Nat := 0

/-- A player, with the row that is saved for him, and the days of the realm. -/
structure CurrencyWorld where
  maintenancer : HonorMaintenancer
  gameDay : Nat
  row : Option HonorCurrency := none
  online : Option HonorCurrency := none
  ledger : CurrencyLedger := {}

inductive CurrencyInput where
  | addSpendableHonor (amount : UInt32)
  | modifySpendableHonor (amount : Int32)
  | spendSpendableHonor (amount : UInt32)
  | addConquestPoints (amount : UInt32)
  | spendConquestPoints (amount : UInt32)
  | setMaintenanceDays (last next : Nat)
  | newDay (gameDay : Nat)
  | saveCurrency
  | logout
  | login
  deriving DecidableEq

namespace CurrencyWorld

variable (cap : UInt32) (w : CurrencyWorld)

def week : Nat := w.maintenancer.currencyWeek w.gameDay

/-- What the player has, or will load. -/
def purse : HonorCurrency := w.online.getD (w.row.getD {})

/-- The days change, and with them maybe the weeks. -/
def setDays (m : HonorMaintenancer) (gameDay : Nat) : CurrencyWorld :=
  { w with
    maintenancer := m
    gameDay := gameDay
    ledger := { w.ledger with
      weekCredited := if m.currencyWeek gameDay = w.week then w.ledger.weekCredited else 0
      maintenanceCredited :=
        if m.weekBeginDay = w.maintenancer.weekBeginDay then w.ledger.maintenanceCredited
        else 0 } }

/-- The player has saved. -/
def save (c : HonorCurrency) : CurrencyWorld :=
  let c := c.resetCurrencyWeekIfNeeded w.week
  { w with row := some c, online := some c }

/-- One call for the player who is online. -/
def act (c : HonorCurrency) : CurrencyInput → CurrencyWorld
  | .addSpendableHonor amount =>
    let (c, n) := c.addSpendableHonor cap w.week amount
    { w with
      online := some c
      ledger := { w.ledger with
        credited := w.ledger.credited + n.toNat
        weekCredited := w.ledger.weekCredited + n.toNat
        maintenanceCredited := w.ledger.maintenanceCredited + n.toNat } }
  | .modifySpendableHonor amount =>
    let (c, n) := c.modifySpendableHonor w.week amount
    { w with
      online := some c
      ledger :=
        if 0 < amount.toInt then { w.ledger with credited := w.ledger.credited + n.toNat }
        else { w.ledger with removed := w.ledger.removed + n.toNat } }
  | .spendSpendableHonor amount =>
    let (c, ok) := c.spendSpendableHonor w.week amount
    { w with
      online := some c
      ledger := { w.ledger with
        removed := w.ledger.removed + if ok then amount.toNat else 0 } }
  | .addConquestPoints amount =>
    let (c, ok) := c.addConquestPoints amount
    { w with
      online := some c
      ledger := { w.ledger with
        conquestCredited := w.ledger.conquestCredited + if ok then amount.toNat else 0 } }
  | .spendConquestPoints amount =>
    let (c, ok) := c.spendConquestPoints amount
    { w with
      online := some c
      ledger := { w.ledger with
        conquestRemoved := w.ledger.conquestRemoved + if ok then amount.toNat else 0 } }
  | .saveCurrency => w.save c
  | .logout => { w.save c with online := none }
  | _ => w

def step (w : CurrencyWorld) : CurrencyInput → CurrencyWorld
  | .setMaintenanceDays last next =>
    w.setDays (w.maintenancer.setMaintenanceDays last next) w.gameDay
  | .newDay gameDay => w.setDays w.maintenancer gameDay
  | .login =>
    match w.online with
    | some _ => w
    | none =>
      { w with
        online := some (HonorCurrency.loadCurrency w.week w.maintenancer.weekBeginDay w.row) }
  | i =>
    match w.online with
    | none => w
    | some c => w.act cap c i

/-! ## The ledger -/

/-- The currencies are what was credited less what was removed. -/
structure InCredit (w : CurrencyWorld) : Prop where
  honor : w.purse.spendableHonor.toNat + w.ledger.removed = w.ledger.credited
  conquest : w.purse.conquestPoints.toNat + w.ledger.conquestRemoved = w.ledger.conquestCredited

/-- An addition that the code does not guard has room in 32 bits. -/
def Fits (w : CurrencyWorld) : CurrencyInput → Prop
  | .addSpendableHonor amount => ∀ c, w.online = some c →
    c.spendableHonor.toNat + min amount.toNat (c.room cap w.week) < 2 ^ 32
  | .addConquestPoints amount => ∀ c, w.online = some c →
    c.conquestPoints.toNat + amount.toNat < 2 ^ 32
  | _ => True

variable {cap : UInt32} {w : CurrencyWorld} {c : HonorCurrency} {i : CurrencyInput}

theorem purse_online (h : w.online = some c) : w.purse = c := by
  rw [purse, h]
  rfl

theorem InCredit.act (h : InCredit w) (hc : w.online = some c) (hf : Fits cap w i) :
    InCredit (w.act cap c i) := by
  obtain ⟨hh, hq⟩ := h
  rw [purse_online hc] at hh hq
  cases i with
  | addSpendableHonor amount =>
    obtain ⟨hn, he, hconquest, -⟩ := c.addSpendableHonor_spec cap w.week amount
    refine ⟨?_, (congrArg (·.toNat + _) hconquest).trans hq⟩
    show (c.addSpendableHonor cap w.week amount).1.spendableHonor.toNat + w.ledger.removed =
      w.ledger.credited + (c.addSpendableHonor cap w.week amount).2.toNat
    rw [he, toNat_add (by rw [hn]; exact hf c hc)]
    omega
  | modifySpendableHonor amount =>
    obtain ⟨hn, hconquest, -⟩ := c.modifySpendableHonor_spec cap w.week amount
    refine ⟨?_, ?_⟩
    · show (c.modifySpendableHonor w.week amount).1.spendableHonor.toNat + _ = _
      dsimp only [CurrencyWorld.act]
      split at hn
      case isTrue hpos =>
        rw [if_pos hpos]
        dsimp only
        omega
      case isFalse hneg =>
        rw [if_neg hneg]
        dsimp only
        omega
    · show (c.modifySpendableHonor w.week amount).1.conquestPoints.toNat + _ = _
      rw [hconquest]
      dsimp only [CurrencyWorld.act]
      split <;> exact hq
  | spendSpendableHonor amount =>
    obtain ⟨hn, hconquest, -⟩ := c.spendSpendableHonor_spec cap w.week amount
    refine ⟨?_, (congrArg (·.toNat + _) hconquest).trans hq⟩
    show (c.spendSpendableHonor w.week amount).1.spendableHonor.toNat + (w.ledger.removed +
      if (c.spendSpendableHonor w.week amount).2 then amount.toNat else 0) = w.ledger.credited
    omega
  | addConquestPoints amount =>
    obtain ⟨hn, hhonor, -⟩ := c.addConquestPoints_spec cap w.week amount
    refine ⟨(congrArg (·.toNat + _) hhonor).trans hh, ?_⟩
    show (c.addConquestPoints amount).1.conquestPoints.toNat + w.ledger.conquestRemoved =
      w.ledger.conquestCredited + if (c.addConquestPoints amount).2 then amount.toNat else 0
    have hfit := hf c hc
    rw [hn]
    split
    case isTrue =>
      rw [toNat_add hfit]
      omega
    case isFalse =>
      rw [UInt32.add_zero]
      omega
  | spendConquestPoints amount =>
    obtain ⟨hn, hhonor, -⟩ := c.spendConquestPoints_spec cap w.week amount
    refine ⟨(congrArg (·.toNat + _) hhonor).trans hh, ?_⟩
    show (c.spendConquestPoints amount).1.conquestPoints.toNat + (w.ledger.conquestRemoved +
      if (c.spendConquestPoints amount).2 then amount.toNat else 0) = w.ledger.conquestCredited
    omega
  | saveCurrency =>
    exact ⟨(congrArg (·.toNat + _) (c.resetCurrencyWeek_spendableHonor w.week)).trans hh,
      (congrArg (·.toNat + _) (c.resetCurrencyWeek_conquestPoints w.week)).trans hq⟩
  | logout =>
    exact ⟨(congrArg (·.toNat + _) (c.resetCurrencyWeek_spendableHonor w.week)).trans hh,
      (congrArg (·.toNat + _) (c.resetCurrencyWeek_conquestPoints w.week)).trans hq⟩
  | _ => exact ⟨by rw [← purse_online hc] at hh; exact hh, by rw [← purse_online hc] at hq; exact hq⟩

/-- What a step is: the days change, the player loads his row, or he acts. -/
theorem step_cases (cap : UInt32) (w : CurrencyWorld) (i : CurrencyInput) :
    w.step cap i = w ∨
      (∃ m day, w.step cap i = w.setDays m day ∧
        (m.weekBeginDay = w.maintenancer.weekBeginDay → w.maintenancer.weekBeginDay = 0 →
          i = .newDay day ∨ day = w.gameDay)) ∨
      (w.online = none ∧ w.step cap i = { w with
        online := some (HonorCurrency.loadCurrency w.week w.maintenancer.weekBeginDay w.row) }) ∨
      ∃ c, w.online = some c ∧ w.step cap i = w.act cap c i := by
  cases i with
  | setMaintenanceDays last next => exact .inr (.inl ⟨_, _, rfl, fun _ _ => .inr rfl⟩)
  | newDay day => exact .inr (.inl ⟨_, _, rfl, fun _ _ => .inl rfl⟩)
  | login =>
    cases h : w.online with
    | some c => exact .inl (by simp only [step, h])
    | none => exact .inr (.inr (.inl ⟨rfl, by simp only [step, h]⟩))
  | _ =>
    cases h : w.online with
    | none => exact .inl (by simp only [step, h])
    | some c => exact .inr (.inr (.inr ⟨c, rfl, by simp only [step, h]⟩))

theorem InCredit.step (h : InCredit w) (hf : Fits cap w i) : InCredit (w.step cap i) := by
  obtain he | ⟨m, day, he, -⟩ | ⟨hoff, he⟩ | ⟨c, hc, he⟩ := step_cases cap w i <;> rw [he]
  · exact h
  · exact ⟨h.honor, h.conquest⟩
  · obtain ⟨hhonor, hconquest, -⟩ :=
      HonorCurrency.loadCurrency_spec cap w.week w.maintenancer.weekBeginDay w.row
    have hpurse : w.purse = w.row.getD {} := by
      rw [purse, hoff]
      rfl
    refine ⟨(congrArg (·.toNat + _) hhonor).trans ?_, (congrArg (·.toNat + _) hconquest).trans ?_⟩
    · exact hpurse ▸ h.honor
    · exact hpurse ▸ h.conquest
  · exact h.act hc hf

/-! ## The cap -/

/-- What was credited in the week that is counted, and what the counter has room for, are at most
the cap. -/
def WithinCap (cap : UInt32) (w : CurrencyWorld) : Prop :=
  w.ledger.weekCredited + w.purse.room cap w.week ≤ cap.toNat

theorem WithinCap.act (h : WithinCap cap w) (hc : w.online = some c) :
    WithinCap cap (w.act cap c i) := by
  unfold WithinCap at h
  rw [purse_online hc] at h
  cases i with
  | addSpendableHonor amount =>
    obtain ⟨-, -, -, hroom⟩ := c.addSpendableHonor_spec cap w.week amount
    show w.ledger.weekCredited + (c.addSpendableHonor cap w.week amount).2.toNat +
      (c.addSpendableHonor cap w.week amount).1.room cap w.week ≤ cap.toNat
    omega
  | modifySpendableHonor amount =>
    obtain ⟨-, -, hroom⟩ := c.modifySpendableHonor_spec cap w.week amount
    show _ + (c.modifySpendableHonor w.week amount).1.room cap w.week ≤ _
    rw [hroom]
    dsimp only [CurrencyWorld.act]
    split <;> exact h
  | spendSpendableHonor amount =>
    obtain ⟨-, -, hroom⟩ := c.spendSpendableHonor_spec cap w.week amount
    exact (congrArg (_ + ·) hroom).trans_le h
  | addConquestPoints amount =>
    obtain ⟨-, -, hroom⟩ := c.addConquestPoints_spec cap w.week amount
    exact (congrArg (_ + ·) hroom).trans_le h
  | spendConquestPoints amount =>
    obtain ⟨-, -, hroom⟩ := c.spendConquestPoints_spec cap w.week amount
    exact (congrArg (_ + ·) hroom).trans_le h
  | saveCurrency =>
    exact (congrArg (_ + ·) (HonorCurrency.resetCurrencyWeek_room cap w.week c)).trans_le h
  | logout =>
    exact (congrArg (_ + ·) (HonorCurrency.resetCurrencyWeek_room cap w.week c)).trans_le h
  | _ =>
    rw [← purse_online hc] at h
    exact h

theorem WithinCap.step (h : WithinCap cap w) : WithinCap cap (w.step cap i) := by
  obtain he | ⟨m, day, he, -⟩ | ⟨hoff, he⟩ | ⟨c, hc, he⟩ := step_cases cap w i <;> rw [he]
  · exact h
  · show (if m.currencyWeek day = w.week then _ else 0) + w.purse.room cap (m.currencyWeek day) ≤ _
    split
    case isTrue hweek =>
      rw [hweek]
      exact h
    case isFalse =>
      rw [Nat.zero_add]
      exact Nat.sub_le ..
  · obtain ⟨-, -, hroom⟩ :=
      HonorCurrency.loadCurrency_spec cap w.week w.maintenancer.weekBeginDay w.row
    have hpurse : w.purse = w.row.getD {} := by
      rw [purse, hoff]
      rfl
    refine (congrArg (_ + ·) hroom).trans_le ?_
    rw [← hpurse]
    exact h
  · exact h.act hc

/-- The day changes only when the week is known by the maintenance. -/
def Dated (w : CurrencyWorld) : CurrencyInput → Prop
  | .newDay gameDay => w.maintenancer.weekBeginDay = 0 → gameDay = w.gameDay
  | _ => True

/-- The week of the maintenance is not longer than the one that is counted. -/
def WeekCounted (w : CurrencyWorld) : Prop :=
  w.ledger.maintenanceCredited ≤ w.ledger.weekCredited

theorem WeekCounted.step (h : WeekCounted w) (hd : Dated w i) : WeekCounted (w.step cap i) := by
  obtain he | ⟨m, day, he, hday⟩ | ⟨-, he⟩ | ⟨c, -, he⟩ := step_cases cap w i <;> rw [he]
  · exact h
  · show (if _ then _ else 0) ≤ if _ then _ else 0
    split
    case isFalse => exact Nat.zero_le _
    case isTrue hlast =>
      have hweek : m.currencyWeek day = w.week := by
        unfold week HonorMaintenancer.currencyWeek
        rw [hlast]
        split
        case isFalse => rfl
        case isTrue h0 =>
          rcases hday hlast h0 with rfl | hsame
          · exact hd h0
          · exact hsame
      rw [if_pos hweek]
      exact h
  · exact h
  · cases i with
    | addSpendableHonor amount => exact Nat.add_le_add_right h _
    | modifySpendableHonor amount =>
      unfold WeekCounted CurrencyWorld.act
      dsimp only
      split <;> exact h
    | _ => exact h

/-- A new player on a realm with these days. -/
def start (m : HonorMaintenancer) (gameDay : Nat) : CurrencyWorld := { maintenancer := m, gameDay }

/-- In every run whose additions fit, the ledger agrees with the currencies; and in no week more
honor is credited than the cap. The week is the one of the maintenance, unless there was none and
the day of the game has changed. -/
theorem inCredit_of_run {m : HonorMaintenancer} {gameDay : Nat} {is : List CurrencyInput}
    (h : AlongRun (step cap) (Fits cap) (start m gameDay) is) :
    InCredit (run (step cap) (start m gameDay) is) ∧
      (run (step cap) (start m gameDay) is).ledger.weekCredited ≤ cap.toNat ∧
      (AlongRun (step cap) Dated (start m gameDay) is →
        (run (step cap) (start m gameDay) is).ledger.maintenanceCredited ≤ cap.toNat) := by
  have hcap : WithinCap cap (run (step cap) (start m gameDay) is) := by
    refine run_invariant (fun _ _ hs => WithinCap.step hs) ?_ is
    exact (Nat.zero_add _).trans_le (Nat.sub_le ..)
  have hweek := (Nat.le_add_right _ _).trans hcap
  refine ⟨run_keeps (fun _ _ hs hi => hs.step hi) ⟨rfl, rfl⟩ h, hweek, fun hd => ?_⟩
  have hcounted : WeekCounted (run (step cap) (start m gameDay) is) :=
    run_keeps (fun _ _ hs hi => WeekCounted.step hs hi) (Nat.le_refl 0) hd
  exact hcounted.trans hweek

/-- Honor over two weeks, with a purchase and a logout. -/
def twoWeeks : List CurrencyInput :=
  [.login, .addSpendableHonor 15000, .addSpendableHonor 15000, .spendSpendableHonor 4000, .logout,
    .newDay 20004, .setMaintenanceDays 20003 0, .login, .addSpendableHonor 7000,
    .addConquestPoints 40, .modifySpendableHonor (-500)]

theorem inCredit_twoWeeks :
    InCredit (run (step 20000) (start { lastMaintenanceDay := 19996 } 20000) twoWeeks) := by
  have hfits : AlongRun (step 20000) (Fits 20000) (start { lastMaintenanceDay := 19996 } 20000)
      twoWeeks := by
    refine ⟨trivial, ?_, ?_, trivial, trivial, trivial, trivial, trivial, ?_, ?_, trivial, trivial⟩
    all_goals
      rintro c hc
      obtain rfl := Option.some.inj hc
      decide
  exact (inCredit_of_run hfits).1

/-- The most honor a player can have, and one more. -/
def overflowRun : List CurrencyInput :=
  [.login, .modifySpendableHonor 2147483647, .modifySpendableHonor 2147483647,
    .modifySpendableHonor 1, .addSpendableHonor 1]

/-- The addition wraps around: he has nothing left. -/
theorem not_inCredit_overflowRun :
    ¬ ∀ cap m gameDay is, InCredit (run (step cap) (start m gameDay) is) := by
  intro h
  have hhonor := (h 20000 { lastMaintenanceDay := 19996 } 20000 overflowRun).honor
  revert hhonor
  decide

end CurrencyWorld

end Windrunner
