import Windrunner.Instances.Turns

/-!
# The time of the next global reset

The last event of a map computes the time of its next reset twice: `Update` from the reset time in
memory, and `_ResetOrWarnAll` from the clock and what was left until the reset. Both write it to the
row of the map in `instance_reset`, `Update` at once and `_ResetOrWarnAll` through the delayed
operations, so either can be the last.

* `ResetWrite`: the two statements, and `rowAfter` what they leave in the row.
* `RightTimes`: what the new reset times are to be.
* `rightTimes_iff`: the two times are the same exactly when no midnight lies between the two
  times from which they are computed.
-/

namespace Windrunner

open Lib ResetSettings

/-- A `time_t` cut down to 32 bits. -/
def int32OfTime (t : Int) : Int := t.bmod (2 ^ 32)

/-- What `Update` passes on to `_ResetOrWarnAll`. -/
def timeLeft (resetTime now : Int) : Int := max (int32OfTime (resetTime - now)) 0

/-- The statements that set the row of the map at its last event. -/
inductive ResetWrite where
  /-- of `_ResetOrWarnAll` -/
  | delayed
  /-- of `Update` -/
  | direct
  deriving DecidableEq, Repr

/-- The reset time was `resetTime`; `Update` has read `now` from the clock and `_ResetOrWarnAll`
`now'`. -/
def ResetWrite.value (cfg : ResetSettings) (m : MapEntry) (resetTime now now' : Int) :
    ResetWrite → Int
  | delayed => cfg.calculateNextResetTime m (now' + timeLeft resetTime now)
  | direct => cfg.calculateNextResetTime m resetTime

@[simp] theorem ResetWrite.value_delayed (cfg : ResetSettings) (m : MapEntry)
    (resetTime now now' : Int) : delayed.value cfg m resetTime now now' =
      cfg.calculateNextResetTime m (now' + timeLeft resetTime now) := rfl

@[simp] theorem ResetWrite.value_direct (cfg : ResetSettings) (m : MapEntry)
    (resetTime now now' : Int) : direct.value cfg m resetTime now now' =
      cfg.calculateNextResetTime m resetTime := rfl

/-- The row after the statements in the order in which they reach the database. -/
def rowAfter (cfg : ResetSettings) (m : MapEntry) (resetTime now now' : Int)
    (order : List ResetWrite) : Int :=
  order.foldl (fun _ w => w.value cfg m resetTime now now') resetTime

/-- `SetResetTimeFor` of `Update`: the value in memory is that of the direct statement. -/
theorem processEvent_resetTime (cfg : ResetSettings) (w : ResetWorld) {front : ResetNode}
    {m : MapEntry} (hlast : front.event.type.isLast = true)
    (hm : cfg.lookupEntry front.event.mapid = some m) (now' : Int) :
    (w.processEvent cfg front).getResetTimeFor front.event.mapid =
      ResetWrite.direct.value cfg m (w.getResetTimeFor front.event.mapid) w.now now' := by
  have hnormal : front.event.type ≠ .normalDungeon := by
    intro h
    simp [h, ResetEventType.isLast] at hlast
  unfold ResetWorld.processEvent
  rw [if_neg hnormal, if_neg (by simp [hlast]), hm]
  simp [ResetWorld.followUp, ResetWorld.retype, ResetWorld.scheduleReset, ResetWorld.insertNode,
    ResetWorld.setResetTimeFor, ResetWorld.getResetTimeFor, SortedMap.find_insert]

/-- The new reset times: that of a last event, and those that a start computes for what has
expired. -/
structure RightTimes (cfg : ResetSettings) (m : MapEntry) (resetTime now now' : Nat) : Prop where
  later : resetTime < ResetWrite.direct.value cfg m resetTime now now'
  onHour : ResetWrite.direct.value cfg m resetTime now now' % day =
    cfg.instanceResetTimeHour * hour
  stored : ∀ order, order.Perm [.delayed, .direct] →
    rowAfter cfg m resetTime now now' order = ResetWrite.direct.value cfg m resetTime now now'
  atStart : ∀ now t : Nat, t < now → now < cfg.firstResetTime m now t

/-- No midnight lies between the two times. -/
def NoMidnightBetween (t t' : Int) : Prop := ∀ k : Int, t < k * day ↔ t' < k * day

theorem noMidnightBetween_iff {t t' : Int} :
    NoMidnightBetween t t' ↔ t / day = t' / day := by
  constructor
  · intro h
    have h1 := h (t / 86400 + 1)
    have h2 := h (t' / 86400 + 1)
    simp only [day] at h1 h2 ⊢
    omega
  · intro h k
    simp only [day] at h ⊢
    omega

section Times

variable {cfg : ResetSettings} {m : MapEntry}

theorem diff_eq (hhour : cfg.instanceResetTimeHour ≤ 23) :
    cfg.diff = cfg.instanceResetTimeHour * hour := by
  unfold diff
  have hword : cfg.instanceResetTimeHour * 3600 < 2 ^ 32 := by omega
  rw [Nat.mod_eq_of_lt hword, Int.natCast_mul]

theorem calculateNextResetTime_eq {prev : Int} (hprev : 0 ≤ prev) :
    cfg.calculateNextResetTime m prev =
      (prev + 60) / 86400 * 86400 + getMaxResetTimeFor m + cfg.diff := by
  unfold calculateNextResetTime
  rw [Int.tdiv_eq_ediv_of_nonneg (by simp only [minute]; omega)]

theorem timeLeft_nonneg (resetTime now : Int) : 0 ≤ timeLeft resetTime now := Int.le_max_right _ _

/-- The two statements write the same exactly when both times are on the same day. -/
theorem value_delayed_eq_iff {resetTime now now' : Nat} :
    ResetWrite.delayed.value cfg m resetTime now now' =
        ResetWrite.direct.value cfg m resetTime now now' ↔
      NoMidnightBetween (resetTime + minute) (now' + timeLeft resetTime now + minute) := by
  have hleft := timeLeft_nonneg resetTime now
  rw [ResetWrite.value_delayed, ResetWrite.value_direct, calculateNextResetTime_eq (by omega),
    calculateNextResetTime_eq (by omega), noMidnightBetween_iff]
  simp only [minute, day]
  omega

theorem stored_iff {resetTime now now' : Nat} :
    (∀ order, order.Perm [.delayed, .direct] → rowAfter cfg m resetTime now now' order =
        ResetWrite.direct.value cfg m resetTime now now') ↔
      ResetWrite.delayed.value cfg m resetTime now now' =
        ResetWrite.direct.value cfg m resetTime now now' := by
  constructor
  · intro h
    exact h [.direct, .delayed] (List.Perm.swap _ _ _)
  · intro h order horder
    have hlast : ∀ w : ResetWrite, w.value cfg m resetTime now now' =
        ResetWrite.direct.value cfg m resetTime now now' := by
      intro w
      cases w with
      | delayed => exact h
      | direct => rfl
    -- the last statement decides
    rcases List.eq_nil_or_concat' order with rfl | ⟨before, w, rfl⟩
    · simp at horder
    · rw [rowAfter, List.foldl_append, List.foldl_cons, List.foldl_nil, hlast w]

/-- Whole days: the next multiple of the period is a day or more after the days that have passed. -/
theorem day_le_nextPeriod {days period : Int} (hdays : 0 ≤ days) (hperiod : 0 < period)
    (hd : days % day = 0) (hp : period % day = 0) :
    days + day ≤ (days.tdiv period + 1) * period := by
  rw [Int.tdiv_eq_ediv_of_nonneg hdays]
  have hlt : days < (days / period + 1) * period := Int.lt_ediv_add_one_mul_self days hperiod
  have hmul : (days / period + 1) * period % day = 0 := by rw [Int.mul_emod, hp]; simp
  simp only [day] at hd hmul ⊢
  omega

theorem lt_firstResetTime (hperiod : day ≤ getMaxResetTimeFor m)
    (hwhole : getMaxResetTimeFor m % day = 0) {now t : Nat} (ht : t < now) :
    (now : Int) < cfg.firstResetTime m now t := by
  have hdiff : 0 ≤ cfg.diff := Int.natCast_nonneg _
  have htoday : (now : Int).tdiv day = (now : Int) / 86400 :=
    Int.tdiv_eq_ediv_of_nonneg (Int.natCast_nonneg _)
  have hday : (t : Int).tdiv day = (t : Int) / 86400 :=
    Int.tdiv_eq_ediv_of_nonneg (Int.natCast_nonneg _)
  simp only [day] at hperiod
  unfold firstResetTime
  simp only [htoday, day]
  by_cases h0 : (t : Int) = 0
  · rw [if_pos h0, if_neg (by omega)]
    omega
  · rw [if_neg h0, if_pos (by omega)]
    simp only [day] at hday
    rw [hday]
    have hdays : 0 ≤ (now : Int) / 86400 * 86400 - (t : Int) / 86400 * 86400 := by omega
    have hnext := day_le_nextPeriod hdays (by omega) (by simp only [day]; omega) hwhole
    simp only [day] at hnext
    omega

/-- An event that is processed before the reset itself has no midnight there. -/
theorem noMidnightBetween_of_le {type : ResetEventType} (hlast : type.isLast = true)
    {resetTime now : Nat} (hdue : resetTime - type.delay < now) (hle : now ≤ resetTime) :
    NoMidnightBetween (resetTime + minute) (now + timeLeft resetTime now + minute) := by
  have hdelay : type.delay ≤ 60 := by
    cases type <;> simp_all [ResetEventType.isLast, ResetEventType.delay]
  have hleft : timeLeft resetTime now = resetTime - now := by
    unfold timeLeft int32OfTime
    rw [Int.bmod_eq_of_le (by omega) (by omega), Int.max_eq_left (by omega)]
  rw [hleft, noMidnightBetween_iff]
  congr 1
  omega

end Times

/-- At the last event of a map and at a start, for every period of at least a day and every hour:
the new reset times are right exactly when the period is whole days, and no midnight lies between
the old reset time and the time from which `_ResetOrWarnAll` computes the new one, both with the
minute that the event is early. -/
theorem rightTimes_iff (cfg : ResetSettings) (m : MapEntry) (resetTime now now' : Nat)
    (hhour : cfg.instanceResetTimeHour ≤ 23) (hperiod : day ≤ getMaxResetTimeFor m) :
    RightTimes cfg m resetTime now now' ↔
      getMaxResetTimeFor m % day = 0 ∧
        NoMidnightBetween (resetTime + minute) (now' + timeLeft resetTime now + minute) := by
  have hdiff := diff_eq hhour
  constructor
  · intro h
    refine ⟨?_, value_delayed_eq_iff.1 (stored_iff.1 h.stored)⟩
    have honHour := h.onHour
    rw [ResetWrite.value_direct, calculateNextResetTime_eq (by omega), hdiff] at honHour
    simp only [day, hour] at honHour ⊢
    omega
  · rintro ⟨hwhole, hmidnight⟩
    refine ⟨?_, ?_, stored_iff.2 (value_delayed_eq_iff.2 hmidnight), ?_⟩
    · have := lt_calculateNextResetTime cfg resetTime hperiod
      rw [ResetWrite.value_direct]
      omega
    · rw [ResetWrite.value_direct, calculateNextResetTime_eq (by omega), hdiff]
      simp only [day, hour] at hwhole ⊢
      omega
    · intro now t ht
      exact lt_firstResetTime hperiod hwhole ht

/-- A raid with a reset every three days, at eleven in the evening. -/
def threeDays : ResetSettings where
  maps := [⟨309, .raid, 3⟩]
  nodup := by decide
  instanceResetTimeHour := 23

theorem rightTimes_iff_threeDays : RightTimes threeDays ⟨309, .raid, 3⟩ 946800 946750 946750 ↔
    getMaxResetTimeFor ⟨309, .raid, 3⟩ % day = 0 ∧
      NoMidnightBetween ((946800 : Nat) + minute)
        ((946750 : Nat) + timeLeft (946800 : Nat) (946750 : Nat) + minute) :=
  rightTimes_iff threeDays ⟨309, .raid, 3⟩ 946800 946750 946750 (by decide) (by decide)

/-- The event of eleven o'clock is processed an hour late. -/
theorem late_not_rightTimes : ¬ ∀ (cfg : ResetSettings) (m : MapEntry) (resetTime now now' : Nat),
    cfg.instanceResetTimeHour ≤ 23 → day ≤ getMaxResetTimeFor m →
      RightTimes cfg m resetTime now now' := by
  intro h
  have hstored := (h threeDays ⟨309, .raid, 3⟩ 946800 950400 950400 (by decide) (by decide)).stored
    [.direct, .delayed] (by decide)
  revert hstored
  decide

end Windrunner
