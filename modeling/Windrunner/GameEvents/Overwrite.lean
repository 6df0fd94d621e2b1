import Mathlib.Algebra.Order.Ring.Int
import Windrunner.GameEvents.Active

/-!
# Runs of the game events

`Good` is kept by every step: what is active is in the game, and an overwritten event still has the
times that it was given, so that `check_started` and `check_stopped` say what the next `Update`
makes of it. `events_right` is for whole runs.
-/

namespace Windrunner

open Lib SortedMap Option

/-! ## The window of an overwritten event -/

theorem tmod_lt_of_lt {x y z : Int} (h : x < z) (hy : 0 ≤ y) (hz : 0 < z) : x.tmod y < z := by
  rcases lt_or_ge x 0 with hx | hx
  · have hneg := Int.neg_tmod (-x) y
    have := Int.tmod_nonneg y (by omega : 0 ≤ -x)
    rw [neg_neg] at hneg
    omega
  · obtain ⟨m, rfl⟩ := Int.eq_ofNat_of_zero_le hx
    obtain ⟨n, rfl⟩ := Int.eq_ofNat_of_zero_le hy
    rw [← Int.ofNat_tmod]
    have := Nat.mod_le m n
    omega

namespace GameEventData

variable {e : GameEventData} {s now : Int}

/-- A start time not long ago is in the window, with any number of leap days. -/
theorem check_started (hs : e.start = s) (hle : s ≤ now) (hend : now < e.endTime)
    (hlt : now - s < minutesInSeconds e.length) : e.check now = true := by
  unfold check
  simp only [Bool.and_eq_true, decide_eq_true_eq]
  refine ⟨⟨by omega, hend⟩, tmod_lt_of_lt ?_ (Int.natCast_nonneg _) (by omega)⟩
  omega

/-- After its length, an event without leap days is not in the window for the rest of its turn. -/
theorem check_stopped (hs : e.start = s - minutesInSeconds e.length) (hle : s ≤ now)
    (hfits : now < e.endTime → e.leapDays = 0 ∧
      minutesInSeconds e.length + (now - s) < minutesInSeconds e.occurence) :
    e.check now = false := by
  apply Bool.eq_false_of_not_eq_true
  unfold check
  simp only [Bool.and_eq_true, decide_eq_true_eq]
  rintro ⟨⟨-, hend⟩, hmod⟩
  obtain ⟨hleap, hocc⟩ := hfits hend
  have hlen : 0 ≤ minutesInSeconds e.length := Int.natCast_nonneg _
  have hx : now - e.start - e.leapDays * 86400 = minutesInSeconds e.length + (now - s) := by
    rw [hs, hleap]
    omega
  rw [hx, Int.tmod_eq_of_lt (by omega) hocc] at hmod
  omega

end GameEventData

namespace GameEventMgr

variable {tables : GameEventTables} {w w' : GameEventMgr tables}

/-! ## The invariant -/

structure Good (w : GameEventMgr tables) : Prop where
  pos : ∀ c e, w.events.find c = some e → IsInt16 c
  init : w.isGameEventsInit = true
  status : w.activeEvents = w.status
  right : ∀ c e, w.events.find c = some e → w.EventRight c
  started : ∀ c p, w.started.find c = some p → ∃ e, w.events.find c = some e ∧ e.start = p.1 ∧
    (e.disabled ≠ 0 → c ∈ w.activeEvents)
  stopped : ∀ c s, w.stopped.find c = some s → ∃ e, w.events.find c = some e ∧
    e.start = s - minutesInSeconds e.length ∧ (e.disabled ≠ 0 → c ∉ w.activeEvents)

theorem Good.consistent (hw : w.Good) : w.Consistent := by
  refine ⟨hw.status, fun c hc => ?_⟩
  obtain ⟨e, he⟩ := isSome_iff_exists.mp (mem_keys_iff.mp hc)
  exact hw.right c e he

/-- A step that rewrites one event. -/
theorem Good.of_event (hw : w.Good) {event : Nat} {e : GameEventData} (hpos : IsInt16 event)
    (hevents : ∀ c, w'.events.find c = if c = event then some e else w.events.find c)
    (hinit : w'.isGameEventsInit = true)
    (hstatus : w'.activeEvents = w'.status) {base : GameEventMgr tables}
    (hright : base.EventRight event) (hbase : Agree event base w')
    (hagree : ∀ c, c ≠ event → Agree c w w')
    (hother : ∀ c, c ≠ event → w'.started.find c = w.started.find c ∧
      w'.stopped.find c = w.stopped.find c)
    (hstarted : ∀ p, w'.started.find event = some p → e.start = p.1 ∧
      (e.disabled ≠ 0 → event ∈ w'.activeEvents))
    (hstopped : ∀ s, w'.stopped.find event = some s → e.start = s - minutesInSeconds e.length ∧
      (e.disabled ≠ 0 → event ∉ w'.activeEvents)) : w'.Good where
  pos c e' he := by
    rw [hevents] at he
    split at he
    · rename_i hc
      exact hc ▸ hpos
    · exact hw.pos c e' he
  init := hinit
  status := hstatus
  right c e' he := by
    by_cases hc : c = event
    · exact hc ▸ hbase.eventRight hright
    · rw [hevents, if_neg hc] at he
      exact (hagree c hc).eventRight (hw.right c e' he)
  started c p hp := by
    rw [hevents]
    by_cases hc : c = event
    · subst hc
      exact ⟨e, if_pos rfl, hstarted p hp⟩
    · rw [(hother c hc).1] at hp
      obtain ⟨e', he', hstart, hactive⟩ := hw.started c p hp
      exact ⟨e', (if_neg hc).trans he', hstart, fun hd => (hagree c hc).active.mpr (hactive hd)⟩
  stopped c s hs := by
    rw [hevents]
    by_cases hc : c = event
    · subst hc
      exact ⟨e, if_pos rfl, hstopped s hs⟩
    · rw [(hother c hc).2] at hs
      obtain ⟨e', he', hstart, hactive⟩ := hw.stopped c s hs
      exact ⟨e', (if_neg hc).trans he', hstart, fun hd => mt (hagree c hc).active.mp (hactive hd)⟩

/-- A start that overwrites moves the event's own times. -/
theorem startEvent_good (hw : w.Good) (event : Nat) (now : Int) :
    (w.startEvent event true now).Good := by
  unfold startEvent
  split
  swap
  · exact hw
  rename_i e he
  rw [if_pos rfl]
  have hpos := hw.pos event e he
  refine hw.of_event hpos (fun c => find_insert ..) hw.init
    (congrArg (insert event) hw.status)
    (applyNewEvent_right hpos w) (.of_eq event rfl rfl rfl rfl)
    (fun c hc => (applyNewEvent_agree hc hpos w).trans (.of_eq c rfl rfl rfl rfl))
    (fun c hc => ⟨?_, ?_⟩) (fun p hp => ?_) fun s hs => ?_
  · rw [find_insert, if_neg hc]
  · rw [find_erase, if_neg hc]
  · rw [find_insert, if_pos rfl] at hp
    exact ⟨(congrArg Prod.fst (some.inj hp) : now = p.1),
      fun _ => Finset.mem_insert_self _ _⟩
  · rw [find_erase, if_pos rfl] at hs
    exact absurd hs (by simp)

/-- What stopping with overwriting sets right. -/
theorem Good.stop (hw : w.Good) {event : Nat} {e : GameEventData} {now : Int} (hpos : IsInt16 event)
    (hevents : ∀ c, w'.events.find c =
      if c = event then some (e.overwriteStop now) else w.events.find c)
    (hagree : ∀ c, Agree c (w.unApplyEvent event) w')
    (hinit : w'.isGameEventsInit = w.isGameEventsInit) (hstatus : w'.activeEvents = w'.status)
    (hstarted : ∀ c, w'.started.find c = if c = event then none else w.started.find c)
    (hstopped : w'.stopped = w.stopped.insert event now) : w'.Good := by
  refine hw.of_event hpos hevents (hinit.trans hw.init) hstatus
    (unApplyEvent_right hpos w) (hagree event)
    (fun c hc => (unApplyEvent_agree hc hpos w).trans (hagree c)) (fun c hc => ⟨?_, ?_⟩)
    (fun p hp => ?_) fun s hs => ?_
  · rw [hstarted, if_neg hc]
  · rw [hstopped, find_insert, if_neg hc]
  · rw [hstarted, if_pos rfl] at hp
    exact absurd hp (by simp)
  · rw [hstopped, find_insert, if_pos rfl] at hs
    obtain rfl := some.inj hs
    exact ⟨rfl, fun _ => mt (hagree event).active.mp (Finset.notMem_erase _ _)⟩

theorem stopEvent_good (hw : w.Good) (event : Nat) (now : Int) :
    (w.stopEvent event true now).Good := by
  unfold stopEvent
  split
  swap
  · exact hw
  rename_i e he
  rw [if_pos rfl]
  exact hw.stop (hw.pos event e he) (fun c => find_insert ..)
    (fun c => .of_eq c rfl rfl rfl rfl) rfl (congrArg (·.erase event) hw.status)
    (fun c => find_erase ..) rfl

theorem find_promisesKept {event : Nat} {enable : Bool} {now : Int}
    (h : enable = true → ¬ w.Promised event now) (c : Nat) :
    (w.promisesKept event enable now).find c = if c = event then none else w.started.find c := by
  unfold promisesKept
  rw [if_neg fun hp => h hp.1 hp.2, find_erase]

theorem enableEvent_good (hw : w.Good) (event : Nat) (enable : Bool) (now : Int)
    (hfits : enable = true → ∀ e ∈ w.events.find event, e.disabled ≠ 0 → event ∈ w.activeEvents →
      ¬ w.Promised event now) : (w.enableEvent event enable now).Good := by
  unfold enableEvent
  split
  swap
  · exact hw
  rename_i e he
  have hpos := hw.pos event e he
  have hset : ∀ c, (w.setDisabled event e enable).events.find c =
      if c = event then some { e with disabled := disabledFlag enable } else w.events.find c :=
    fun c => find_insert ..
  split_ifs with hsame hactive
  · exact hw
  · -- it is active, and is stopped
    have hkept : enable = true → ¬ w.Promised event now := fun henable =>
      hfits henable e he (fun hd => hsame (by rw [hd, henable]; rfl)) hactive
    have hfind : (w.setDisabled event e enable).events.find event =
        some { e with disabled := disabledFlag enable } := (hset event).trans (if_pos rfl)
    unfold stopEvent
    rw [hfind]
    refine hw.stop (e := { e with disabled := disabledFlag enable }) hpos (fun c => ?_)
      (fun c => .of_eq c rfl rfl rfl rfl) rfl (congrArg (·.erase event) hw.status)
      (find_promisesKept hkept) rfl
    refine (find_insert ..).trans ?_
    split_ifs with hc
    · rfl
    · exact (hset c).trans (if_neg hc)
  · -- it is not active, so that only the flag changes
    have hnone : enable = true → ¬ w.Promised event now := by
      rintro henable ⟨p, hp, -⟩
      obtain ⟨e', he', -, hact⟩ := hw.started event p hp
      obtain rfl := some.inj (he.symm.trans he')
      exact hactive (hact fun hd => hsame (by rw [hd, henable]; rfl))
    have hkept := find_promisesKept hnone
    refine hw.of_event hpos hset hw.init hw.status
      (hw.right event e he) (.of_eq event rfl rfl rfl rfl)
      (fun c _ => .of_eq c rfl rfl rfl rfl) (fun c hc => ⟨(hkept c).trans (if_neg hc), rfl⟩)
      (fun p hp => ?_) fun s hs => ?_
    · exact absurd (((hkept event).trans (if_pos rfl)).symm.trans hp) (by simp)
    · obtain ⟨e', he', hstart, -⟩ := hw.stopped event s hs
      obtain rfl := some.inj (he.symm.trans he')
      exact ⟨hstart, fun _ => hactive⟩

/-! ## Updates -/

theorem keys_nodup (m : SortedMap Nat GameEventData) : m.keys.Nodup :=
  List.pairwise_map.mpr m.keys_pairwise

/-- After an update the active events are those whose check says so. -/
theorem update_good (hw : w.Good) (now : Int) : (w.update now).Good ∧
    ∀ c e, w.events.find c = some e → e.disabled = 0 →
      (c ∈ (w.update now).activeEvents ↔ e.check now = true) := by
  have hkey : ∀ c e, w.events.find c = some e → c ∈ w.events.keys := fun c e he =>
    mem_keys_iff.mpr (isSome_iff_exists.mpr ⟨e, he⟩)
  have hpos : ∀ c ∈ w.events.keys, IsInt16 c := fun c hc => by
    obtain ⟨e, he⟩ := isSome_iff_exists.mp (mem_keys_iff.mp hc)
    exact hw.pos c e he
  obtain ⟨hkeeps, -, hmem⟩ := foldl_updateEvent now (keys_nodup w.events) hpos w
  -- a disabled event is as active as before
  have hdisabled : ∀ c e, w.events.find c = some e → e.disabled ≠ 0 →
      Agree c w (w.update now) := fun c e he hd => (hmem c (hkey c e he) e he).1 hd
  have henabled : ∀ c e, w.events.find c = some e → e.disabled = 0 →
      (c ∈ (w.update now).activeEvents ↔ e.check now = true) ∧ (w.update now).EventRight c :=
    fun c e he hd => by
      obtain ⟨hactive, hright⟩ := (hmem c (hkey c e he) e he).2 hd
      exact ⟨hactive, hright (.inl (hw.right c e he))⟩
  have hevents : (w.update now).events = w.events := hkeeps.events
  refine ⟨⟨fun c e he => hw.pos c e (hevents ▸ he), hkeeps.init.trans hw.init,
    hkeeps.status hw.status, fun c e he => ?_, fun c p hp => ?_, fun c s hs => ?_⟩,
    fun c e he hd => (henabled c e he hd).1⟩
  · rw [hevents] at he
    by_cases hd : e.disabled = 0
    · exact (henabled c e he hd).2
    · exact (hdisabled c e he hd).eventRight (hw.right c e he)
  · have hp : w.started.find c = some p := hkeeps.started ▸ hp
    obtain ⟨e, he, hstart, hactive⟩ := hw.started c p hp
    exact ⟨e, hevents ▸ he, hstart, fun hd => (hdisabled c e he hd).active.mpr (hactive hd)⟩
  · have hs : w.stopped.find c = some s := hkeeps.stopped ▸ hs
    obtain ⟨e, he, hstart, hactive⟩ := hw.stopped c s hs
    exact ⟨e, hevents ▸ he, hstart, fun hd => mt (hdisabled c e he hd).active.mp (hactive hd)⟩

theorem update_right (hw : w.Good) {now : Int} (hfits : w.UpdateFits now) :
    UpdateRight w (w.update now) now := by
  obtain ⟨hgood, hactive⟩ := update_good hw now
  have hkeeps := (foldl_updateEvent now (keys_nodup w.events) (fun c hc => by
    obtain ⟨e, he⟩ := isSome_iff_exists.mp (mem_keys_iff.mp hc)
    exact hw.pos c e he) w).1
  refine ⟨fun p hp hle hlt => ?_, fun p hp hle hlt => ?_⟩
  · have hfind := mem_entries_iff.mp hp
    obtain ⟨e, he, hstart, -⟩ := hw.started p.1 p.2 hfind
    by_cases hd : e.disabled = 0
    · obtain ⟨hend, hlen⟩ := hfits.1 p hp hle hlt e he hd
      exact (hactive p.1 e he hd).mpr (GameEventData.check_started hstart hle hend hlen)
    · obtain ⟨e', he', -, hact⟩ := hgood.started p.1 p.2 (hkeeps.started.symm ▸ hfind)
      obtain rfl := some.inj (he.symm.trans (hkeeps.events ▸ he'))
      exact hact hd
  · have hfind := mem_entries_iff.mp hp
    obtain ⟨e, he, hstart, -⟩ := hw.stopped p.1 p.2 hfind
    by_cases hd : e.disabled = 0
    · have hcheck := GameEventData.check_stopped hstart hle fun hend =>
        hfits.2 p hp hle hlt e he hd hend
      rw [hactive p.1 e he hd, hcheck]
      exact Bool.false_ne_true
    · obtain ⟨e', he', -, hact⟩ := hgood.stopped p.1 p.2 (hkeeps.stopped.symm ▸ hfind)
      obtain rfl := some.inj (he.symm.trans (hkeeps.events ▸ he'))
      exact hact hd

/-! ## Runs -/

/-- No event that is disabled at the start has objects of its negation. -/
def NoneHidden (tables : GameEventTables) (list : GameEventList) : Prop :=
  ∀ x ∈ list.map.entries, x.2.disabled ≠ 0 → (∀ a ∈ tables.creatures, a.1 ≠ -x.1) ∧
    ∀ a ∈ tables.gameobjects, a.1 ≠ -x.1

instance (tables : GameEventTables) (list : GameEventList) : Decidable (NoneHidden tables list) := by
  unfold NoneHidden
  infer_instance

/-- From 2^15 on an id, as an `int16`, is the negation of another one. -/
def SmallIds (list : GameEventList) : Prop := ∀ event ∈ list.map.keys, event < 2 ^ 15

instance (list : GameEventList) : Decidable (SmallIds list) := by
  unfold SmallIds
  infer_instance

theorem initialise_good {list : GameEventList} (h : NoneHidden tables list) (hids : SmallIds list)
    (status : Finset Nat) (now : Int) : ((load tables list status).initialise now).Good := by
  have hpos : ∀ c ∈ list.map.keys, IsInt16 c := fun c hc => ⟨list.id_pos c hc, hids c hc⟩
  have hkey : ∀ c e, list.map.find c = some e → c ∈ list.map.keys := fun c e he =>
    mem_keys_iff.mpr (isSome_iff_exists.mpr ⟨e, he⟩)
  have hfresh : ∀ c, Fresh c (load tables list status).cleared := fun c =>
    ⟨Finset.notMem_empty c, fun a ha _ => tables.creatures_out a ha,
      fun a ha _ => tables.gameobjects_out a ha, fun a ha _ => tables.quests_out a ha⟩
  obtain ⟨hkeeps, -, hmem⟩ := foldl_updateEvent now (keys_nodup list.map) hpos
    (load tables list status).cleared
  have hevents : ((load tables list status).initialise now).events = list.map := hkeeps.events
  refine ⟨fun c e he => hpos c (hkey c e (hevents ▸ he)), rfl, hkeeps.status rfl, fun c e he => ?_,
    fun c p hp => ?_, fun c s hs => ?_⟩
  · rw [hevents] at he
    obtain ⟨hdisabled, henabled⟩ := hmem c (hkey c e he) e he
    have hinit : Agree c ((load tables list status).cleared.update now)
        ((load tables list status).initialise now) := .of_eq c rfl rfl rfl rfl
    by_cases hd : e.disabled = 0
    · exact hinit.eventRight ((henabled hd).2 (.inr ⟨rfl, hfresh c⟩))
    · obtain ⟨hc, hg⟩ := h (c, e) (mem_entries_iff.mpr he) hd
      exact hinit.eventRight ((((hdisabled hd).fresh (hfresh c))).eventRight hc hg)
  · have hnone : ((load tables list status).initialise now).started = ∅ := hkeeps.started
    rw [hnone] at hp
    exact absurd hp (by simp)
  · have hnone : ((load tables list status).initialise now).stopped = ∅ := hkeeps.stopped
    rw [hnone] at hs
    exact absurd hs (by simp)

/-- Every step that fits keeps the events consistent. -/
theorem step_good (hw : w.Good) {i : GameEventInput} (hi : w.StepFits i) : (w.step i).Good := by
  cases i with
  | update now => exact (update_good hw now).1
  | startEvent event now => exact startEvent_good hw event now
  | stopEvent event now => exact stopEvent_good hw event now
  | enableEvent event enable now =>
    refine enableEvent_good hw event enable now fun henable => ?_
    subst henable
    exact hi

theorem step_right (hw : w.Good) {i : GameEventInput} (hi : w.StepFits i) : w.StepRight i := by
  refine ⟨(step_good hw hi).consistent, ?_⟩
  cases i with
  | update now => exact ⟨hi.1, update_right hw hi.2⟩
  | startEvent | stopEvent | enableEvent => trivial

theorem alongRun_right (hw : w.Good) {is : List GameEventInput}
    (h : AlongRun step StepFits w is) : AlongRun step StepRight w is := by
  induction is generalizing w with
  | nil => trivial
  | cons i is ih => exact ⟨step_right hw h.1, ih (step_good hw h.1) h.2⟩

/-- From every start whose events fit, in every run whose steps do. -/
theorem events_right {list : GameEventList} (hlist : NoneHidden tables list) (hids : SmallIds list)
    (status : Finset Nat) (now : Int) (hnow : (load tables list status).Defined now)
    (is : List GameEventInput)
    (h : AlongRun step StepFits ((load tables list status).initialise now) is) :
    (load tables list status).Defined now ∧
      ((load tables list status).initialise now).Consistent ∧
      AlongRun step StepRight ((load tables list status).initialise now) is :=
  ⟨hnow, (initialise_good hlist hids status now).consistent,
    alongRun_right (initialise_good hlist hids status now) h⟩

end GameEventMgr

/-! ## A start that is over too soon -/

/-- Two events, their objects and a quest. -/
def fairTables : GameEventTables where
  creatures := [(1, 10), (-1, 11), (2, 20)]
  gameobjects := [(-1, 5)]
  quests := [(1, 7)]
  creatures_once := by decide
  gameobjects_once := by decide
  quests_once := by decide
  creatures_out := by decide
  gameobjects_out := by decide
  quests_out := by decide

/-- The first lasts 10 minutes in every 100; the second is long over. -/
def fairEvents : GameEventList where
  map := ((∅ : SortedMap Nat GameEventData).insert 1
    ⟨1000, 1000000, 100, 10, 0, 0, by decide⟩).insert 2
      ⟨1000, 2000, 100, 10, 0, 0, by decide⟩
  id_pos := by decide

namespace GameEventMgr

/-- The first event is started, stopped, disabled and enabled again. -/
def fairRun : List GameEventInput :=
  [.startEvent 1 100000, .update 100500, .update 100601, .stopEvent 1 200000, .update 200059,
    .enableEvent 1 false 200100, .update 200200, .enableEvent 1 true 200300, .update 201001]

theorem fairRun_right : NoneHidden fairTables fairEvents ∧ SmallIds fairEvents ∧
    AlongRun step StepFits ((load fairTables fairEvents {2}).initialise 100000) fairRun ∧
      (load fairTables fairEvents {2}).Defined 100000 ∧
      ((load fairTables fairEvents {2}).initialise 100000).Consistent ∧
        AlongRun step StepRight ((load fairTables fairEvents {2}).initialise 100000) fairRun :=
  have hlist : NoneHidden fairTables fairEvents := by decide +kernel
  have hids : SmallIds fairEvents := by decide +kernel
  have hnow : (load fairTables fairEvents {2}).Defined 100000 := by decide +kernel
  have h : AlongRun step StepFits ((load fairTables fairEvents {2}).initialise 100000) fairRun := by
    decide +kernel
  ⟨hlist, hids, h, events_right hlist hids {2} 100000 hnow fairRun h⟩

/-- The second event is started for its 10 minutes, and is over after 10 seconds. -/
theorem lateStart_not_right : ¬ ∀ (tables : GameEventTables) (list : GameEventList)
    (status : Finset Nat) (now : Int) (is : List GameEventInput),
      AlongRun step StepRight ((load tables list status).initialise now) is := by
  intro h
  have hrun := h fairTables fairEvents ∅ 100000 [.startEvent 2 300000, .update 300010]
  exact absurd hrun (by decide +kernel)

end GameEventMgr

end Windrunner
