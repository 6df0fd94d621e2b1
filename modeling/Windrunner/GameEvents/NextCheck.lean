import Windrunner.GameEvents.Overwrite

/-!
# When the next `Update` is due

`CheckOneGameEvent` says whether an event is active and `NextCheck` after how many seconds to look
again; both divide by the seconds of `occurence`. `Update` returns the least of the delays, and the
next one is made a second after it.

* `check_of_nextCheck`: until the delay is over, the event stays as it is.
* `steady`: a change lasts for two seconds, unless it is a start in the last second of the event.
* `updates_see`: so the `Update`s see every change, at most a second late.
-/

namespace Windrunner

open Option

/-- `default_year_length`, in minutes. -/
def defaultYearLength : Nat := 525600

/-- A row of `game_event`; times are `time_t`s. -/
structure GameEventFields where
  entry : Nat
  start : Int
  endTime : Int
  occurence : UInt32
  length : UInt32
  hardcoded : UInt8
  disabled : UInt8
  requiredPhase : UInt8
  deriving DecidableEq

/-- What is kept of a row. -/
structure GameEventRow where
  start : Int
  endTime : Int
  occurence : Nat
  length : Nat
  hardcoded : Nat
  disabled : Nat
  leapDays : Nat
  deriving DecidableEq

/-- `LoadFromDB`, for a row: the id 0 is reserved, and a length of 0 is not valid. `leapYears` is how
many leap years there are from the start to now. -/
def loadRow (fields : GameEventFields) (contentPhase leapYears : Nat) : Option GameEventRow :=
  if fields.entry = 0 ∨ fields.length = 0 then none
  else some
    { start := fields.start, endTime := fields.endTime
      occurence := fields.occurence.toNat, length := fields.length.toNat
      hardcoded := fields.hardcoded.toNat
      disabled := if fields.requiredPhase.toNat > contentPhase then 1 else fields.disabled.toNat
      leapDays := if fields.occurence.toNat = defaultYearLength ∧
          fields.length.toNat < defaultYearLength then leapYears % 256 else 0 }

namespace GameEventRow

variable (e : GameEventRow)

def Accepted : Prop := ∃ fields contentPhase leapYears,
  loadRow fields contentPhase leapYears = some e

def enabled : Bool := e.hardcoded = 0 && e.disabled = 0

def period : Int := minutesInSeconds e.occurence

/-- `length * MINUTE`. -/
def window : Int := minutesInSeconds e.length

def elapsed (currenttime : Int) : Int := currenttime - e.start - e.leapDays * 86400

def phase (currenttime : Int) : Int := (e.elapsed currenttime).tmod e.period

/-- `CheckOneGameEvent`; `none` is a division by zero. -/
def checkOneGameEvent (currenttime : Int) : Option Bool :=
  if e.start ≤ currenttime ∧ currenttime < e.endTime then
    if e.period = 0 then none else some (e.phase currenttime < e.window)
  else some false

/-- `NextCheck`; the delays are `uint32`s. -/
def nextCheck (currenttime : Int) : Option Int :=
  if currenttime > e.endTime then some 86400
  else if e.start > currenttime then some ((e.start - currenttime) % 2 ^ 32)
  else if e.period = 0 then none
  else
    let delay := (if e.phase currenttime < e.window then e.window - e.phase currenttime
      else e.period - e.phase currenttime) % 2 ^ 32
    if e.endTime < currenttime + delay then some ((e.endTime - currenttime) % 2 ^ 32)
    else some delay

/-- The turn of an event in `Update`, which leaves out hardcoded and disabled ones. -/
def lessDelay (now delay : Int) (e : GameEventRow) : Option Int :=
  if e.enabled then
    (e.checkOneGameEvent now).bind fun _ => (e.nextCheck now).map (min delay)
  else some delay

def Defined (now : Int) : Prop := (e.checkOneGameEvent now).isSome ∧ (e.nextCheck now).isSome

end GameEventRow

/-- The delay that `Update` returns, less the second it adds: at most a day, what the scripts of
hardcoded events ask for, and what `NextCheck` does for the other ones. -/
def nextEventDelay (rows : List GameEventRow) (hardcoded : List Nat) (now : Int) : Option Int :=
  rows.foldlM (GameEventRow.lessDelay now)
    (hardcoded.foldl (fun (delay : Int) (n : Nat) => min delay n) 86400)

/-- The times of the `Update`s, from the first one on; `hardcoded` is what the scripts ask for. -/
def updates (rows : List GameEventRow) (hardcoded : Int → List Nat) (first : Int) : Nat → Option Int
  | 0 => some first
  | n + 1 => (updates rows hardcoded first n).bind fun now =>
      (nextEventDelay rows (hardcoded now) now).map (now + · + 1)

namespace GameEventRow

variable (e : GameEventRow)

/-- An `Update` finds the event changed at the time it changes, or a second later. -/
def Seen (rows : List GameEventRow) (hardcoded : Int → List Nat) (first : Int) : Prop :=
  ∀ c, first < c → e.checkOneGameEvent c ≠ e.checkOneGameEvent (c - 1) →
    ∃ n u, updates rows hardcoded first n = some u ∧ (u = c ∨ u = c + 1) ∧
      e.checkOneGameEvent u = e.checkOneGameEvent c

/-- No change is missed, whatever the other events are. -/
def NoneMissed : Prop :=
  (∀ now, e.Defined now) ∧
  (∀ now d t, e.nextCheck now = some d → now ≤ t → t < now + d →
    e.checkOneGameEvent t = e.checkOneGameEvent now) ∧
  ∀ rows hardcoded first, e ∈ rows → (∀ r ∈ rows, ∀ now, r.Defined now) → e.enabled = true →
    e.Seen rows hardcoded first

/-- The event starts in its last second. -/
def StartsAtEnd : Prop :=
  0 < e.window ∧ e.start < e.endTime ∧ (e.endTime = e.start + 1 ∨
    e.window < e.period ∧ 0 < e.elapsed (e.endTime - 1) ∧ e.period ∣ e.elapsed (e.endTime - 1))

/-! ## The phase -/

variable {e} {now t d : Int}

theorem period_nonneg : 0 ≤ e.period := Int.natCast_nonneg _

theorem window_nonneg : 0 ≤ e.window := Int.natCast_nonneg _

/-- Minutes are whole fours of seconds, also where they wrap around. -/
theorem four_dvd (minutes : Nat) : 4 ∣ minutesInSeconds minutes := by
  unfold minutesInSeconds
  omega

theorem Accepted.leap (h : e.Accepted) : e.leapDays = 0 ∨ 0 < e.window := by
  obtain ⟨fields, phase, leap, h⟩ := h
  unfold loadRow at h
  split at h
  · cases h
  · rename_i h0
    obtain rfl := some.inj h
    by_cases hyear : fields.occurence.toNat = defaultYearLength ∧
        fields.length.toNat < defaultYearLength
    · have hpos : fields.length.toNat ≠ 0 := fun hz => h0 (.inr (UInt32.toNat_inj.mp hz))
      have hlt := hyear.2
      unfold window minutesInSeconds defaultYearLength at *
      dsimp only
      omega
    · refine .inl ?_
      dsimp only
      rw [if_neg hyear]

theorem Accepted.window_pos (h : e.Accepted) (hs : e.start ≤ t) (hx : e.elapsed t < 0) :
    0 < e.window := h.leap.resolve_left fun hl => by
  unfold elapsed at hx
  rw [hl] at hx
  omega

/-- Before the leap days are over the event is active. -/
theorem phase_lt_iff (h : e.Accepted) (hs : e.start ≤ t) :
    e.phase t < e.window ↔ e.elapsed t < 0 ∨ e.elapsed t % e.period < e.window := by
  unfold phase
  rcases lt_or_ge (e.elapsed t) 0 with hx | hx
  · have hw := h.window_pos hs hx
    exact iff_of_true (tmod_lt_of_lt (hx.trans hw) period_nonneg hw) (.inl hx)
  · rw [Int.tmod_eq_emod_of_nonneg hx, or_iff_right (not_lt.mpr hx)]

theorem check_eq_true_iff (h : e.Accepted) (hp : e.period ≠ 0) :
    e.checkOneGameEvent t = some true ↔ e.start ≤ t ∧ t < e.endTime ∧
      (e.elapsed t < 0 ∨ e.elapsed t % e.period < e.window) := by
  unfold checkOneGameEvent
  split_ifs with ht
  · rw [some.injEq, decide_eq_true_eq, phase_lt_iff h ht.1]
    exact ⟨fun h => ⟨ht.1, ht.2, h⟩, fun h => h.2.2⟩
  · exact iff_of_false (by simp) fun h => ht ⟨h.1, h.2.1⟩

theorem check_congr (hp : e.period ≠ 0) {t' : Int}
    (h : e.checkOneGameEvent t = some true ↔ e.checkOneGameEvent t' = some true) :
    e.checkOneGameEvent t = e.checkOneGameEvent t' := by
  have hsome : ∀ t, ∃ b, e.checkOneGameEvent t = some b := by
    intro t
    unfold checkOneGameEvent
    split_ifs <;> exact ⟨_, rfl⟩
  obtain ⟨b, hb⟩ := hsome t
  obtain ⟨b', hb'⟩ := hsome t'
  rw [hb, hb'] at h ⊢
  cases b <;> cases b' <;> simp_all

/-! ## Until the delay is over -/

theorem emod_add {a k p : Int} (hp : 0 < p) (hk : 0 ≤ k) (h : a % p + k < p) :
    (a + k) % p = a % p + k := by
  have h0 := Int.emod_nonneg a hp.ne'
  rw [← Int.emod_add_emod, Int.emod_eq_of_lt (by omega) h]

theorem tmod_add_lt {x k p l : Int} (hp : 0 < p) (hl : 0 < l) (hk : 0 ≤ k)
    (h : k < l - x.tmod p) : (x + k).tmod p < l := by
  rcases lt_or_ge x 0 with hx | hx
  · have hle : (-x).tmod p < -x + 1 := tmod_lt_of_lt (by omega) hp.le (by omega)
    rw [Int.neg_tmod] at hle
    exact tmod_lt_of_lt (by omega) hp.le hl
  · rw [Int.tmod_eq_emod_of_nonneg hx] at h
    rw [Int.tmod_eq_emod_of_nonneg (by omega)]
    rcases lt_or_ge (x % p + k) p with hlt | hge
    · rw [emod_add hp hk hlt]
      omega
    · have := Int.emod_lt_of_pos (x + k) hp
      omega

/-- The delay is over no later than what is left of the window, or of the time to the next one, and
no later than the end. -/
theorem nextCheck_le (hs : e.start ≤ now) (he : now ≤ e.endTime) (h : e.nextCheck now = some d) :
    0 < e.period ∧ now + d ≤ e.endTime ∧ d ≤ (if e.phase now < e.window then
      e.window - e.phase now else e.period - e.phase now) := by
  unfold nextCheck at h
  rw [if_neg (not_lt.mpr he), if_neg (not_lt.mpr hs)] at h
  by_cases hp : e.period = 0
  · rw [if_pos hp] at h
    cases h
  rw [if_neg hp] at h
  have hpos : 0 < e.period := lt_of_le_of_ne period_nonneg (Ne.symm hp)
  have hlt : e.phase now < e.period := Int.tmod_lt_of_pos _ hpos
  have hleft : 0 ≤ if e.phase now < e.window then e.window - e.phase now
      else e.period - e.phase now := by split_ifs <;> omega
  refine ⟨hpos, ?_⟩
  generalize (if e.phase now < e.window then _ else _) = left at h hleft ⊢
  dsimp only at h
  split_ifs at h <;> obtain rfl := some.inj h <;> exact ⟨by omega, by omega⟩

/-- Before the next check the answer stays. -/
theorem check_of_nextCheck (ha : e.Accepted) (h : e.nextCheck now = some d) (h1 : now ≤ t)
    (h2 : t < now + d) : e.checkOneGameEvent t = e.checkOneGameEvent now := by
  by_cases hin : e.start ≤ now ∧ now ≤ e.endTime
  · obtain ⟨hp, hend, hd⟩ := nextCheck_le hin.1 hin.2 h
    refine check_congr hp.ne' ?_
    rw [check_eq_true_iff ha hp.ne', check_eq_true_iff ha hp.ne']
    have hel : e.elapsed t = e.elapsed now + (t - now) := by unfold elapsed; omega
    have hphase := phase_lt_iff ha hin.1
    split_ifs at hd with hw
    · refine iff_of_true ⟨by omega, by omega, ?_⟩ ⟨hin.1, by omega, hphase.mp hw⟩
      have hpos : 0 < e.window := (hphase.mp hw).elim (ha.window_pos hin.1) fun hx =>
        (Int.emod_nonneg _ hp.ne').trans_lt hx
      rw [← phase_lt_iff ha (by omega : e.start ≤ t)]
      unfold phase at hd ⊢
      rw [hel]
      exact tmod_add_lt hp hpos (by omega) (by omega)
    · refine iff_of_false (fun ht => ?_) fun hn => hw (hphase.mpr hn.2.2)
      obtain ⟨hx, hr⟩ := not_or.mp (mt hphase.mpr hw)
      unfold phase at hd
      rw [Int.tmod_eq_emod_of_nonneg (not_lt.mp hx)] at hd
      have hmod := @emod_add (e.elapsed now) (t - now) _ hp (by omega) (by omega)
      have := ht.2.2
      rw [hel, hmod] at this
      omega
  · have hout : ∀ u, now ≤ u → u < now + d → ¬ (e.start ≤ u ∧ u < e.endTime) := by
      intro u hu hud hu'
      have hend : ¬ now > e.endTime := by omega
      have hstart : e.start > now := by omega
      unfold nextCheck at h
      rw [if_neg hend, if_pos hstart] at h
      obtain rfl := some.inj h
      omega
    unfold checkOneGameEvent
    rw [if_neg (hout t h1 h2), if_neg (hout now le_rfl (by omega))]

/-! ## Changes last -/

theorem succ_emod (a : Int) {p : Int} (hp : 0 < p) :
    (a + 1) % p = a % p + 1 ∧ a % p + 1 < p ∨ (a + 1) % p = 0 ∧ a % p + 1 = p := by
  rcases lt_or_ge (a % p + 1) p with h | h
  · exact .inl ⟨emod_add hp (by decide) h, h⟩
  · have he : a % p + 1 = p := le_antisymm (Int.emod_lt_of_pos a hp) h
    exact .inr ⟨by rw [← Int.emod_add_emod, he, Int.emod_self], he⟩

theorem steady (ha : e.Accepted) (hp : e.period ≠ 0) (hno : ¬ e.StartsAtEnd) {c : Int}
    (h : e.checkOneGameEvent c ≠ e.checkOneGameEvent (c - 1)) :
    e.checkOneGameEvent (c + 1) = e.checkOneGameEvent c := by
  have hpos : 0 < e.period := lt_of_le_of_ne period_nonneg (Ne.symm hp)
  have hne := mt (check_congr hp) h
  refine check_congr hp ?_
  simp only [check_eq_true_iff ha hp] at hne ⊢
  have h0 : e.elapsed c = e.elapsed (c - 1) + 1 := by unfold elapsed; omega
  have h1 : e.elapsed (c + 1) = e.elapsed c + 1 := by unfold elapsed; omega
  have hlast : c + 1 = e.endTime → e.start ≤ c → 0 < e.window → c ≠ e.start ∧
      ¬ (e.window < e.period ∧ 0 < e.elapsed c ∧ e.elapsed c % e.period = 0) := by
    intro hc hs hw
    have hend : e.endTime - 1 = c := by omega
    refine ⟨fun heq => hno ⟨hw, by omega, .inl (by omega)⟩, fun ⟨hlt, hx, hm⟩ => ?_⟩
    refine hno ⟨hw, by omega, .inr ⟨hlt, ?_⟩⟩
    rw [hend]
    exact ⟨hx, Int.dvd_of_emod_eq_zero hm⟩
  have hm1 := succ_emod (e.elapsed (c - 1)) hpos
  have hm2 := succ_emod (e.elapsed c) hpos
  have hp4 : 4 ∣ e.period := four_dvd _
  have hw4 : 4 ∣ e.window := four_dvd _
  have hw0 : 0 ≤ e.window := window_nonneg
  have hleap := ha.leap
  have hm0 := Int.emod_nonneg (e.elapsed (c - 1)) hp
  have hx : e.elapsed (c - 1) = c - 1 - e.start - e.leapDays * 86400 := rfl
  rw [h0] at hm2 hlast hne h1 ⊢
  rw [h1]
  generalize e.elapsed (c - 1) = x at *
  have hz1 : x + 1 = 0 → (x + 1) % e.period = 0 := fun h => by rw [h, Int.zero_emod]
  have hz2 : x + 1 + 1 = 0 → (x + 1 + 1) % e.period = 0 := fun h => by rw [h, Int.zero_emod]
  generalize x % e.period = m0 at *
  generalize (x + 1) % e.period = m1 at *
  generalize (x + 1 + 1) % e.period = m2 at *
  generalize e.period = p at *
  generalize e.window = w at *
  omega

end GameEventRow

/-! ## The `Update`s -/

section Updates

open GameEventRow

variable {rows : List GameEventRow} {hardcoded : Int → List Nat} {first : Int}

theorem nextCheck_nonneg {e : GameEventRow} {now d : Int} (h : e.nextCheck now = some d) : 0 ≤ d := by
  unfold nextCheck at h
  dsimp only at h
  split_ifs at h <;> obtain rfl := some.inj h <;> omega

theorem foldlM_delay {now acc : Int} (hacc : 0 ≤ acc) (hdef : ∀ r ∈ rows, r.Defined now) :
    ∃ d, rows.foldlM (lessDelay now) acc = some d ∧ 0 ≤ d ∧ d ≤ acc ∧
      ∀ e ∈ rows, e.enabled = true → ∃ c, e.nextCheck now = some c ∧ d ≤ c := by
  induction rows generalizing acc with
  | nil => exact ⟨acc, rfl, hacc, le_rfl, nofun⟩
  | cons r rows ih =>
    obtain ⟨hr, hdef⟩ := List.forall_mem_cons.mp hdef
    obtain ⟨active, hactive⟩ := isSome_iff_exists.mp hr.1
    obtain ⟨c, hc⟩ := isSome_iff_exists.mp hr.2
    rw [List.foldlM_cons, lessDelay, hactive, hc]
    by_cases he : r.enabled = true
    · rw [if_pos he]
      obtain ⟨d, hd, h0, hle, hall⟩ := @ih (min acc c) (le_min hacc (nextCheck_nonneg hc)) hdef
      refine ⟨d, hd, h0, hle.trans (min_le_left ..), List.forall_mem_cons.mpr ⟨fun _ => ?_, hall⟩⟩
      exact ⟨c, hc, hle.trans (min_le_right ..)⟩
    · rw [if_neg he]
      obtain ⟨d, hd, h0, hle, hall⟩ := @ih acc hacc hdef
      exact ⟨d, hd, h0, hle, List.forall_mem_cons.mpr ⟨fun h => absurd h he, hall⟩⟩

theorem updates_succ (hdef : ∀ r ∈ rows, ∀ now, r.Defined now) {n : Nat} {u : Int}
    (h : updates rows hardcoded first n = some u) :
    ∃ d, updates rows hardcoded first (n + 1) = some (u + d + 1) ∧ 0 ≤ d ∧
      ∀ e ∈ rows, e.enabled = true → ∃ c, e.nextCheck u = some c ∧ d ≤ c := by
  have h0 : ∀ (l : List Nat) (acc : Int), 0 ≤ acc → 0 ≤ l.foldl (fun (d : Int) (n : Nat) => min d n) acc := by
    intro l
    induction l with
    | nil => exact fun _ h => h
    | cons n l ih => exact fun acc h => ih _ (le_min h (Int.natCast_nonneg n))
  obtain ⟨d, hd, hpos, -, hall⟩ := foldlM_delay (h0 (hardcoded u) 86400 (by decide)) fun r hr =>
    hdef r hr u
  refine ⟨d, ?_, hpos, hall⟩
  rw [updates, h]
  unfold nextEventDelay
  rw [bind_some, hd]
  rfl

/-- The last `Update` before a time, and the next one. -/
theorem exists_updates (hdef : ∀ r ∈ rows, ∀ now, r.Defined now) {c : Int} (k : Nat) {n : Nat}
    {u : Int} (h : updates rows hardcoded first n = some u) (hu : u < c) (hk : c - u ≤ k) :
    ∃ n u d, updates rows hardcoded first n = some u ∧ u < c ∧ c ≤ u + d + 1 ∧
      updates rows hardcoded first (n + 1) = some (u + d + 1) ∧
      ∀ e ∈ rows, e.enabled = true → ∃ c, e.nextCheck u = some c ∧ d ≤ c := by
  induction k generalizing n u with
  | zero => omega
  | succ k ih =>
    obtain ⟨d, hd, hpos, hall⟩ := updates_succ hdef h
    rcases lt_or_ge (u + d + 1) c with hlt | hge
    · exact ih hd hlt (by omega)
    · exact ⟨n, u, d, h, hu, hge, hd, hall⟩

/-- The updates see every change. -/
theorem updates_see {e : GameEventRow} (ha : e.Accepted) (hp : e.period ≠ 0)
    (hno : ¬ e.StartsAtEnd) (hmem : e ∈ rows) (hdef : ∀ r ∈ rows, ∀ now, r.Defined now)
    (he : e.enabled = true) : e.Seen rows hardcoded first := by
  intro c hc hne
  obtain ⟨n, u, d, -, hu, hle, hnext, hall⟩ := exists_updates hdef (c - first).toNat
    (rfl : updates rows hardcoded first 0 = some first) hc (by omega)
  obtain ⟨c', hc', hd⟩ := hall e hmem he
  have hge : u + d ≤ c := by
    by_contra hlt
    refine hne ?_
    rw [check_of_nextCheck ha hc' (t := c) (by omega) (by omega),
      check_of_nextCheck ha hc' (t := c - 1) (by omega) (by omega)]
  refine ⟨n + 1, u + d + 1, hnext, by omega, ?_⟩
  rcases (by omega : u + d + 1 = c ∨ u + d + 1 = c + 1) with heq | heq
  · rw [heq]
  · rw [heq]
    exact steady ha hp hno hne

theorem le_updates (hdef : ∀ r ∈ rows, ∀ now, r.Defined now) {v : Int}
    (hv : updates rows hardcoded first 1 = some v) (n : Nat) {u : Int}
    (hu : updates rows hardcoded first (n + 1) = some u) : v ≤ u := by
  induction n generalizing u with
  | zero => exact (some.inj (hv.symm.trans hu)).le
  | succ n ih =>
    obtain ⟨w, hw⟩ : ∃ w, updates rows hardcoded first (n + 1) = some w := by
      cases hw : updates rows hardcoded first (n + 1) with
      | none => rw [updates, hw] at hu; cases hu
      | some w => exact ⟨w, rfl⟩
    obtain ⟨d, hd, h0, -⟩ := updates_succ hdef hw
    obtain rfl := some.inj (hd.symm.trans hu)
    have := ih hw
    omega

end Updates

namespace GameEventRow

variable {e : GameEventRow}

theorem defined_iff : (∀ now, e.Defined now) ↔ e.period ≠ 0 ∨ e.endTime < e.start := by
  constructor
  · intro h
    by_contra hno
    have hp : e.period = 0 := by_contra fun hp => hno (.inl hp)
    have hle : e.start ≤ e.endTime := not_lt.mp fun hlt => hno (.inr hlt)
    have hs := (h e.start).2
    unfold nextCheck at hs
    rw [if_neg (not_lt.mpr hle), if_neg (lt_irrefl _), if_pos hp] at hs
    cases hs
  · intro h now
    unfold Defined checkOneGameEvent nextCheck
    dsimp only
    constructor <;> split_ifs <;> first | rfl | omega

/-- In the second before, the event is off and `NextCheck` returns one second. -/
theorem StartsAtEnd.before (ha : e.Accepted) (hp : e.period ≠ 0) (h : e.StartsAtEnd) :
    e.checkOneGameEvent (e.endTime - 1) = some true ∧
      e.checkOneGameEvent (e.endTime - 2) ≠ some true ∧ e.nextCheck (e.endTime - 2) = some 1 := by
  obtain ⟨hw, hlt, hlast⟩ := h
  have hpos : 0 < e.period := lt_of_le_of_ne period_nonneg (Ne.symm hp)
  have hel : e.elapsed (e.endTime - 1) = e.elapsed (e.endTime - 2) + 1 := by unfold elapsed; omega
  have hx : e.elapsed (e.endTime - 1) = e.endTime - 1 - e.start - e.leapDays * 86400 := rfl
  rw [check_eq_true_iff ha hp, ne_eq, check_eq_true_iff ha hp]
  unfold nextCheck
  rw [if_neg (by omega)]
  rcases hlast with hend | ⟨hlt', hy, hdvd⟩
  · refine ⟨⟨by omega, by omega, ?_⟩, by omega, ?_⟩
    · rcases Nat.eq_zero_or_pos e.leapDays with hl | hl
      · rw [hx, hl, hend]
        simpa using hw
      · exact .inl (by omega)
    · rw [if_pos (by omega)]
      exact congrArg some (by omega)
  · have hmod := Int.emod_eq_zero_of_dvd hdvd
    have hsucc := succ_emod (e.elapsed (e.endTime - 2)) hpos
    have h0 := Int.emod_nonneg (e.elapsed (e.endTime - 2)) hp
    rw [← hel, hmod] at hsucc
    have hphase : e.phase (e.endTime - 2) = e.period - 1 := by
      unfold phase
      rw [Int.tmod_eq_emod_of_nonneg (by omega)]
      omega
    refine ⟨⟨by omega, by omega, .inr (by omega)⟩, by omega, ?_⟩
    rw [if_neg (by omega), if_neg hp]
    dsimp only
    rw [hphase, if_neg (by omega), if_neg (by omega)]
    exact congrArg some (by omega)

/-- With no other event, the next `Update` is at the end, and the start is missed. -/
theorem StartsAtEnd.missed (ha : e.Accepted) (hdef : ∀ now, e.Defined now) (he : e.enabled = true)
    (h : e.StartsAtEnd) : ¬ e.Seen [e] (fun _ => []) (e.endTime - 2) := by
  intro hseen
  have hp : e.period ≠ 0 := (defined_iff.mp hdef).resolve_right (by have := h.2.1; omega)
  obtain ⟨hon, hoff, hnext⟩ := h.before ha hp
  obtain ⟨b, hb⟩ := isSome_iff_exists.mp (hdef (e.endTime - 2)).1
  have hone : updates [e] (fun _ => []) (e.endTime - 2) 1 = some e.endTime := by
    simp only [updates, nextEventDelay, lessDelay, List.foldlM_cons, List.foldlM_nil, he, if_true,
      hb, hnext, bind_some, map_some, List.foldl_nil]
    exact congrArg some (show e.endTime - 2 + 1 + 1 = _ by omega)
  have hprev : e.endTime - 1 - 1 = e.endTime - 2 := by omega
  obtain ⟨n, u, hu, huc, hsee⟩ := hseen (e.endTime - 1) (by omega) (by
    rw [hon, hprev]
    exact fun heq => hoff heq.symm)
  rw [hon, check_eq_true_iff ha hp] at hsee
  have hdef' : ∀ r ∈ [e], ∀ now, r.Defined now := fun r hr => List.mem_singleton.mp hr ▸ hdef
  cases n with
  | zero =>
    have := some.inj hu
    omega
  | succ n =>
    have := le_updates hdef' hone n hu
    omega

/-- No change of an event is missed if and only if the division is defined, and the event does not
start in its last second. -/
theorem noneMissed_iff (ha : e.Accepted) : e.NoneMissed ↔
    (e.period ≠ 0 ∨ e.endTime < e.start) ∧ (e.enabled = true → ¬ e.StartsAtEnd) := by
  constructor
  · rintro ⟨hdef, -, hseen⟩
    refine ⟨defined_iff.mp hdef, fun he hend => hend.missed ha hdef he ?_⟩
    exact hseen _ _ _ (List.mem_singleton_self e)
      (fun r hr => List.mem_singleton.mp hr ▸ hdef) he
  · rintro ⟨hp, hend⟩
    refine ⟨defined_iff.mpr hp, fun now d t => check_of_nextCheck ha, ?_⟩
    intro rows hardcoded first hmem hdef he
    rcases hp with hp | hp
    · exact updates_see ha hp (hend he) hmem hdef he
    · intro c _ hne
      refine absurd ?_ hne
      unfold checkOneGameEvent
      rw [if_neg (by omega), if_neg (by omega)]

/-- Ten minutes of every hour, up to a second after the third start. -/
def hourlyFields (endTime : Int) (occurence : UInt32) : GameEventFields :=
  { entry := 1, start := 1000, endTime := endTime, occurence := occurence, length := 10
    hardcoded := 0, disabled := 0, requiredPhase := 0 }

def hourlyRow (endTime : Int) (occurence : Nat) : GameEventRow :=
  { start := 1000, endTime := endTime, occurence := occurence, length := 10, hardcoded := 0
    disabled := 0, leapDays := 0 }

theorem noneMissed_hourly : (hourlyRow 8200 60).Accepted ∧ (hourlyRow 8200 60).NoneMissed := by
  have ha : (hourlyRow 8200 60).Accepted := ⟨hourlyFields 8200 60, 0, 0, by decide⟩
  refine ⟨ha, (noneMissed_iff ha).mpr ⟨.inl (by decide), fun _ h => ?_⟩⟩
  exact absurd h.2.2 (by decide)

/-- Without a period the check divides by zero; and a start in the last second is missed. -/
theorem not_noneMissed : ¬ (∀ e : GameEventRow, e.Accepted → ∀ now, e.Defined now) ∧
    ¬ ∀ e : GameEventRow, e.Accepted → e.NoneMissed := by
  have hdiv : ¬ (hourlyRow 8200 0).Defined 1000 := fun h => absurd h.1 (by decide)
  have hzero : (hourlyRow 8200 0).Accepted := ⟨hourlyFields 8200 0, 0, 0, by decide⟩
  refine ⟨fun h => hdiv (h _ hzero 1000), fun h => ?_⟩
  have ha : (hourlyRow 8201 60).Accepted := ⟨hourlyFields 8201 60, 0, 0, by decide⟩
  have hmissed : (hourlyRow 8201 60).StartsAtEnd := ⟨by decide, by decide, .inr (by decide)⟩
  obtain ⟨hdef, -, hseen⟩ := h _ ha
  exact hmissed.missed ha hdef (by decide) (hseen _ _ _ (List.mem_singleton_self _)
    (fun r hr => List.mem_singleton.mp hr ▸ hdef) (by decide))

end GameEventRow

end Windrunner
