import Windrunner.GuildBank.Text
import Windrunner.Lib.Word

/-!
# Clocks and durations

* `getMSTimeDiff`: the time between two readings of a clock that wraps. `getMSTimeDiff_le`: it is the
  time that has passed, up to half a turn of the clock, and it is never more.
* `secsToTimeString`, `timeStringToSecs`: durations as texts. `durations`: what is written is read
  back, and every text of the grammar is read as its value.
-/

namespace Windrunner

open Lib List UInt32

/-! ## The clock -/

/-- `WorldTimer::getMSTime_internal`, by the milliseconds since the start. -/
def getMSTime (diff : Nat) : UInt32 := ofNat (diff % 0xFFFFFFFF)

/-- `WorldTimer::getMSTimeDiff` -/
def getMSTimeDiff (oldMSTime newMSTime : UInt32) : UInt32 :=
  if oldMSTime > newMSTime then
    min ((0xFFFFFFFF - oldMSTime) + newMSTime) (oldMSTime - newMSTime)
  else newMSTime - oldMSTime

theorem toNat_getMSTime (t : Nat) : (getMSTime t).toNat = t % 0xFFFFFFFF := by
  unfold getMSTime
  rw [toNat_ofNat']
  omega

/-- The shorter of the two ways around the clock. -/
theorem toNat_getMSTimeDiff (a b : UInt32) : (getMSTimeDiff a b).toNat =
    if a.toNat ≤ b.toNat then b.toNat - a.toNat
    else min (0xFFFFFFFF - a.toNat + b.toNat) (a.toNat - b.toNat) := by
  have ha := toNat_lt32 a
  unfold getMSTimeDiff
  by_cases h : a.toNat ≤ b.toNat
  · have hsub := toNat_sub h
    rw [if_neg (by rw [gt_iff_lt, lt_toNat]; omega), if_pos h]
    omega
  · have hsub := toNat_sub (a := a) (b := b) (by omega)
    have hturn : (0xFFFFFFFF - a).toNat + a.toNat = 0xFFFFFFFF :=
      toNat_sub (a := 0xFFFFFFFF) (show a.toNat ≤ 0xFFFFFFFF by omega)
    have hadd := toNat_add (a := 0xFFFFFFFF - a) (b := b) (by omega)
    rw [if_pos (by rw [gt_iff_lt, lt_toNat]; omega), if_neg h, Lib.toNat_min]
    omega

/-- Up to half a turn of the clock it is the time that has passed, and it is never more. -/
theorem getMSTimeDiff_le {t0 t1 : Nat} (h : t0 ≤ t1) :
    (t1 - t0 ≤ (2 ^ 32 - 1) / 2 →
        (getMSTimeDiff (getMSTime t0) (getMSTime t1)).toNat = t1 - t0) ∧
      (getMSTimeDiff (getMSTime t0) (getMSTime t1)).toNat ≤ t1 - t0 := by
  rw [toNat_getMSTimeDiff, toNat_getMSTime, toNat_getMSTime]
  split <;> omega

/-- Ten milliseconds, during which the clock wraps. -/
theorem getMSTimeDiff_wrap : (getMSTimeDiff (getMSTime 4294967290) (getMSTime 4294967300)).toNat ≤ 10 :=
  (@getMSTimeDiff_le 4294967290 4294967300 (by decide)).2

/-! ## Durations -/

inductive TimeUnit where
  | day
  | hour
  | minute
  | second
  deriving DecidableEq, Repr

namespace TimeUnit

def secs : TimeUnit → Nat
  | day => 86400
  | hour => 3600
  | minute => 60
  | second => 1

def short : TimeUnit → Char
  | day => 'd'
  | hour => 'h'
  | minute => 'm'
  | second => 's'

/-- The name of one unit, and the name of several. -/
def long : TimeUnit → Bool → List Char
  | day, one => (if one then " Day " else " Days ").toList
  | hour, one => (if one then " Hour " else " Hours ").toList
  | minute, one => (if one then " Minute " else " Minutes ").toList
  | second, one => (if one then " Second." else " Seconds.").toList

/-- A number with its unit. -/
def text (unit : TimeUnit) (shortText : Bool) (n : Nat) (one : Bool) : List Char :=
  Nat.toDigits 10 n ++ if shortText then [unit.short] else unit.long one

/-- The unit of a letter, or a bad format. -/
def ofChar : Char → Option TimeUnit
  | 'd' => some day
  | 'h' => some hour
  | 'm' => some minute
  | 's' => some second
  | _ => none

@[simp] theorem ofChar_short (unit : TimeUnit) : ofChar unit.short = some unit := by
  cases unit <;> rfl

end TimeUnit

/-- `secsToTimeString` of a time that is not negative. -/
def secsToTimeString (timeInSecs : Nat) (shortText hoursOnly : Bool) : List Char :=
  let secs := timeInSecs % 60
  let minutes := timeInSecs % 3600 / 60
  let hours := timeInSecs % 86400 / 3600
  let days := timeInSecs / 86400
  (if days ≠ 0 then TimeUnit.day.text shortText days (days == 1) else []) ++
    (if hours ≠ 0 || hoursOnly then TimeUnit.hour.text shortText hours (hours ≤ 1) else []) ++
    if hoursOnly then []
    else
      (if minutes ≠ 0 then TimeUnit.minute.text shortText minutes (minutes == 1) else []) ++
        if secs ≠ 0 || (days == 0 && hours == 0 && minutes == 0) then
          TimeUnit.second.text shortText secs (secs ≤ 1)
        else []

/-- `secs` and `buffer` of `TimeStringToSecs`. -/
structure TimeReader where
  secs : UInt32 := 0
  buffer : UInt32 := 0

/-- One turn of the loop, or a bad format. -/
def TimeReader.read (r : TimeReader) (c : Char) : Option TimeReader :=
  if c.isDigit then some { r with buffer := r.buffer * 10 + ofNat (c.toNat - '0'.toNat) }
  else (TimeUnit.ofChar c).map fun unit =>
    { secs := r.secs + r.buffer * ofNat unit.secs, buffer := 0 }

def timeStringToSecs (timestring : List Char) : UInt32 :=
  ((timestring.foldlM TimeReader.read {}).map (·.secs)).getD 0

/-- Digits and a unit. -/
structure TimePiece where
  digits : List Char
  unit : TimeUnit
  isDigit : ∀ c ∈ digits, c.isDigit = true

def TimePiece.render (p : TimePiece) : List Char := p.digits ++ [p.unit.short]

def TimePiece.value (p : TimePiece) : Nat := Nat.ofDigitChars 10 p.digits 0 * p.unit.secs

theorem read_digits {digits : List Char} (h : ∀ c ∈ digits, c.isDigit = true) (secs : UInt32)
    (n : Nat) : digits.foldlM TimeReader.read ⟨secs, ofNat n⟩ =
      some ⟨secs, ofNat (Nat.ofDigitChars 10 digits n)⟩ := by
  induction digits generalizing n with
  | nil => rfl
  | cons c digits ih =>
    have hstep : TimeReader.read ⟨secs, ofNat n⟩ c =
        some ⟨secs, ofNat (10 * n + (c.toNat - '0'.toNat))⟩ := by
      simp [TimeReader.read, h c mem_cons_self, ofNat_add, ofNat_mul, mul_comm]
    rw [foldlM_cons, hstep]
    exact ih (fun c hc => h c (mem_cons_of_mem _ hc)) _

theorem read_render (p : TimePiece) (n : Nat) :
    p.render.foldlM TimeReader.read ⟨ofNat n, 0⟩ =
      some ⟨ofNat (n + p.value), 0⟩ := by
  have hdigits := read_digits p.isDigit (ofNat n) 0
  have hletter : p.unit.short.isDigit = false := by cases p.unit <;> rfl
  unfold TimePiece.render
  rw [foldlM_append, show (0 : UInt32) = ofNat 0 from rfl, hdigits]
  simp [TimeReader.read, hletter, TimePiece.value, ofNat_add, ofNat_mul]

/-- A text of the grammar is read as its value modulo `2 ^ 32`. -/
theorem timeStringToSecs_render (pieces : List TimePiece) :
    timeStringToSecs (pieces.flatMap (·.render)) = ofNat (pieces.map (·.value)).sum := by
  have hrun : ∀ n, (pieces.flatMap (·.render)).foldlM TimeReader.read ⟨ofNat n, 0⟩ =
      some ⟨ofNat (n + (pieces.map (·.value)).sum), 0⟩ := by
    induction pieces with
    | nil => exact fun n => rfl
    | cons p pieces ih =>
      intro n
      rw [flatMap_cons, foldlM_append, read_render, map_cons, sum_cons, ← Nat.add_assoc]
      exact ih _
  have h := hrun 0
  unfold timeStringToSecs
  rw [show ({} : TimeReader) = ⟨ofNat 0, 0⟩ from rfl, h, Nat.zero_add]
  rfl

/-- A component of a duration. -/
def TimePiece.ofNat (n : Nat) (unit : TimeUnit) : TimePiece where
  digits := Nat.toDigits 10 n
  unit := unit
  isDigit _ hc := Nat.isDigit_of_mem_toDigits (by decide) (by decide) hc

/-- The components that are written. -/
def timePieces (t : Nat) : List TimePiece :=
  let secs := t % 60
  let minutes := t % 3600 / 60
  let hours := t % 86400 / 3600
  let days := t / 86400
  (if days ≠ 0 then [.ofNat days .day] else []) ++ (if hours ≠ 0 then [.ofNat hours .hour] else []) ++
    (if minutes ≠ 0 then [.ofNat minutes .minute] else []) ++
    if secs ≠ 0 || (days == 0 && hours == 0 && minutes == 0) then [.ofNat secs .second] else []

theorem TimePiece.value_ofNat (n : Nat) (unit : TimeUnit) :
    (TimePiece.ofNat n unit).value = n * unit.secs := by
  unfold TimePiece.value TimePiece.ofNat
  rw [Nat.ofDigitChars_ten_toDigits]

theorem render_timePieces (t : Nat) :
    (timePieces t).flatMap (·.render) = secsToTimeString t true false := by
  unfold timePieces secsToTimeString
  simp only [flatMap_append, apply_ite (flatMap _), flatMap_cons, flatMap_nil, append_nil]
  simp [TimePiece.render, TimePiece.ofNat, TimeUnit.text]

/-- A component that is left out is zero. -/
theorem value_ite {c : Prop} [Decidable c] {n : Nat} (unit : TimeUnit) (h : ¬ c → n = 0) :
    ((if c then [TimePiece.ofNat n unit] else []).map (·.value)).sum = n * unit.secs := by
  split
  case isTrue => simp [TimePiece.value_ofNat]
  case isFalse hc => simp [h hc]

theorem value_timePieces (t : Nat) : ((timePieces t).map (·.value)).sum = t := by
  unfold timePieces
  simp only [map_append, sum_append]
  rw [value_ite _ not_not.mp, value_ite _ not_not.mp, value_ite _ not_not.mp,
    value_ite _ fun h => by simp at h; omega]
  simp only [TimeUnit.secs]
  omega

/-- What is written is read back, and a text of the grammar is read as its value. -/
theorem durations :
    (∀ t : UInt32, timeStringToSecs (secsToTimeString t.toNat true false) = t) ∧
      ∀ pieces : List TimePiece, (pieces.map (·.value)).sum < 4294967296 →
        (timeStringToSecs (pieces.flatMap (·.render))).toNat = (pieces.map (·.value)).sum := by
  refine ⟨fun t => ?_, fun pieces h => ?_⟩
  · rw [← render_timePieces, timeStringToSecs_render, value_timePieces, UInt32.ofNat_toNat]
  · rw [timeStringToSecs_render, toNat_ofNat', Nat.mod_eq_of_lt h]

/-- `1d2h` -/
theorem durations_days :
    (timeStringToSecs ([TimePiece.ofNat 1 .day, .ofNat 2 .hour].flatMap (·.render))).toNat = 93600 :=
  (durations.2 _ (by decide)).trans (by decide)

end Windrunner
