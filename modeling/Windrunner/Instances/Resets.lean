import Mathlib.Data.List.Induction
import Windrunner.Instances.Turns

/-!
# Runs of the reset queue

`update_right`: `Update` does what it is to do. `scheduleAllDungeonResets_good`: the invariant holds
from the start. `resets_right` puts them together for whole runs.
-/

namespace Windrunner

open Lib List SortedMap

namespace ResetWorld

variable {cfg : ResetSettings} {w w' : ResetWorld}

/-! ## The loop -/

/-- How far the loop that began in `w` has come. -/
structure Progress (cfg : ResetSettings) (w w' : ResetWorld) : Prop where
  good : w'.Good cfg
  later : w'.LeaversLater cfg
  now : w'.now = w.now
  next : w.nextNode ≤ w'.nextNode
  due : ∀ p ∈ w'.processed, p.time < w.now ∧ p.erased = some p.node
  fresh : ∀ p ∈ w'.processed, p.node < w'.nextNode
  nodup : (w'.processed.map (·.node) ++ w'.queue.map (·.node)).Nodup
  /-- An event is processed at its time, or is still pending at it. -/
  old : ∀ x ∈ w.queue, (∃ p ∈ w'.processed, p.node = x.node ∧ p.time = x.time) ∨
    ∃ y ∈ w'.queue, y.node = x.node ∧ y.time = x.time
  inserted : ∀ k < w'.nextNode, w.nextNode ≤ k →
    k ∈ w'.processed.map (·.node) ∨ k ∈ w'.queue.map (·.node)

theorem Progress.turn (hmaps : cfg.DelaysFit) {w'' : ResetWorld} (h : Progress cfg w w')
    (ht : w'.turn cfg = some w'') : Progress cfg w w'' := by
  obtain ⟨front, rest, added, hq, hnow, hperm, hnext, hadded, hall, hproc, hclock, -⟩ :=
    turn_queue h.good hmaps h.later ht
  have hgood := turn_good h.good hmaps h.later ht
  have hfront : front ∈ w'.queue := hq ▸ mem_cons_self
  have hmem : ∀ n, n ∈ w''.queue ↔ n ∈ added ∨ n ∈ rest := fun n => by
    rw [hperm.mem_iff, mem_append]
  have hnoted : ∀ p, p ∈ w''.processed ↔
      p ∈ w'.processed ∨ p = ⟨front.node, front.time, some front.node⟩ := fun p => by
    rw [hproc]
    exact mem_append.trans (or_congr_right mem_singleton)
  have hnodup := nodup_append.mp h.nodup
  refine ⟨hgood, turn_leaversLater h.good hmaps h.later ht, hclock.trans h.now, h.next.trans hnext,
    ?_, ?_, ?_, ?_, ?_⟩
  · intro p hp
    rcases (hnoted p).mp hp with hp | rfl
    · exact h.due p hp
    · exact ⟨h.now ▸ hnow, rfl⟩
  · intro p hp
    rcases (hnoted p).mp hp with hp | rfl
    · exact (h.fresh p hp).trans_le hnext
    · exact (h.good.fresh front hfront).trans_le hnext
  · -- what was processed has left the queue, and what is inserted has new numbers
    have hfirst : (w'.queue.map (·.node)).Nodup := h.good.nodup
    rw [hq, map_cons, nodup_cons] at hfirst
    rw [nodup_append]
    refine ⟨?_, hgood.nodup, ?_⟩
    · rw [hproc]
      unfold noted
      rw [map_append, nodup_append]
      refine ⟨hnodup.1, nodup_singleton _, fun a ha b hb => ?_⟩
      rw [mem_singleton.mp hb]
      exact hnodup.2.2 a ha front.node (mem_map_of_mem hfront)
    · intro a ha b hb hab
      obtain ⟨p, hp, rfl⟩ := mem_map.mp ha
      obtain ⟨n, hn, rfl⟩ := mem_map.mp hb
      rcases (hmem n).mp hn with hn | hn
      · have h1 := hadded n hn
        have h2 : p.node < w'.nextNode := by
          rcases (hnoted p).mp hp with hp | rfl
          · exact h.fresh p hp
          · exact h.good.fresh front hfront
        omega
      · rcases (hnoted p).mp hp with hp | rfl
        · exact hnodup.2.2 _ (mem_map_of_mem hp) _
            (mem_map_of_mem (hq ▸ mem_cons_of_mem front hn)) hab
        · exact hfirst.1 ((show front.node = n.node from hab) ▸ mem_map_of_mem hn)
  · intro x hx
    rcases h.old x hx with ⟨p, hp, heq⟩ | ⟨y, hy, heq⟩
    · exact .inl ⟨p, (hnoted p).mpr (.inl hp), heq⟩
    · rcases mem_cons.mp (hq ▸ hy) with rfl | hy
      · exact .inl ⟨_, (hnoted _).mpr (.inr rfl), heq⟩
      · exact .inr ⟨y, (hmem y).mpr (.inr hy), heq⟩
  · intro k hk hle
    rw [hproc]
    unfold noted
    rw [map_append, mem_append]
    rcases Nat.lt_or_ge k w'.nextNode with hlt | hge
    · rcases h.inserted k hlt hle with hp | hn
      · exact .inl (.inl hp)
      · rw [hq] at hn
        rcases mem_cons.mp hn with rfl | hn
        · exact .inl (.inr mem_cons_self)
        · obtain ⟨n, hrest, rfl⟩ := mem_map.mp hn
          exact .inr (mem_map_of_mem ((hmem n).mpr (.inr hrest)))
    · obtain ⟨n, hn, rfl⟩ := mem_map.mp (hall k hge hk)
      exact .inr (mem_map_of_mem ((hmem n).mpr (.inl hn)))

theorem Progress.start (hw : w.Good cfg) (hl : w.LeaversLater cfg) :
    Progress cfg w { w with processed := [] } where
  good := { hw with
    nodes := fun n hn => (hw.nodes n hn).mono (fun _ => rfl) le_rfl fun _ i hi _ => ⟨i, hi, rfl⟩ }
  later := hl
  now := rfl
  next := le_rfl
  due _ h := absurd h not_mem_nil
  fresh _ h := absurd h not_mem_nil
  nodup := hw.nodup
  old x hx := .inr ⟨x, hx, rfl, rfl⟩
  inserted _ h1 h2 := absurd h1 (not_lt.mpr h2)

/-- A queue whose front is not due holds nothing that is. -/
theorem Good.not_due (hw : w.Good cfg) (h : w.turn cfg = none) :
    ∀ x ∈ w.queue, ¬ x.time < w.now := by
  intro x hx hlt
  cases hq : w.queue with
  | nil => exact absurd (hq ▸ hx) not_mem_nil
  | cons front rest =>
    have hle : front.time ≤ x.time := by
      have hs := hw.sorted
      rw [hq] at hx hs
      rcases mem_cons.mp hx with rfl | hx
      · exact le_rfl
      · exact (pairwise_cons.mp hs).1 x hx
    have hdue := Option.map_eq_none_iff.mp h
    unfold due at hdue
    rw [hq, head?_cons, Option.filter_some, if_pos (decide_eq_true (by omega))] at hdue
    exact absurd hdue (by simp)

/-- An update takes turns until no event is due. -/
theorem update_progress (hw : w.Good cfg) (hmaps : cfg.DelaysFit) (hl : w.LeaversLater cfg) :
    Progress cfg w (w.update cfg) ∧ (w.update cfg).turn cfg = none :=
  drain_spec lateSeconds (fun _ _ h ht => h.turn hmaps ht)
    (fun _ _ h ht => by
      obtain ⟨-, -, -, -, -, -, -, -, -, -, -, hlate⟩ := turn_queue h.good hmaps h.later ht
      exact hlate)
    (Progress.start hw hl) le_rfl

theorem update_right (hw : w.Good cfg) (hmaps : cfg.DelaysFit) (hl : w.LeaversLater cfg) :
    UpdateRight w (w.update cfg) := by
  obtain ⟨h, hend⟩ := update_progress hw hmaps hl
  have hnot := h.good.not_due hend
  rw [h.now] at hnot
  refine ⟨h.due, (nodup_append.mp h.nodup).1, fun x hx => ⟨fun hp => ?_, fun hlt => ?_⟩,
    h.inserted, hnot⟩
  · obtain ⟨p, hp, heq⟩ := mem_map.mp hp
    rcases h.old x hx with ⟨p', hp', hnode, htime⟩ | ⟨y, hy, hnode, -⟩
    · rw [← htime]
      exact (h.due p' hp').1
    · exact absurd (heq.trans hnode.symm)
        ((nodup_append.mp h.nodup).2.2 _ (mem_map_of_mem hp) _ (mem_map_of_mem hy))
  · rcases h.old x hx with ⟨p, hp, hnode, -⟩ | ⟨y, hy, -, htime⟩
    · exact hnode ▸ mem_map_of_mem hp
    · exact absurd (htime ▸ hlt) (hnot y hy)

/-! ## The start -/

/-- The queue while the rows `rows` and the maps `maps` have been scheduled. -/
structure Scheduled (cfg : ResetSettings) (start : ResetWorld) (rows : List (Nat × Nat × Int))
    (maps : List MapEntry) (w : ResetWorld) : Prop where
  instances : w.instances = start.instances
  maxInstanceId : w.maxInstanceId = start.maxInstanceId
  sorted : w.queue.Pairwise (·.time ≤ ·.time)
  nodup : (w.queue.map (·.node)).Nodup
  fresh : ∀ n ∈ w.queue, n.node < w.nextNode
  normal : ∀ n ∈ w.queue, n.event.type = .normalDungeon →
    ∃ r ∈ rows, n.event.instanceId = r.1 ∧ n.event.mapid = r.2.1
  global : ∀ n ∈ w.queue, n.event.type ≠ .normalDungeon → n.event.instanceId = 0 ∧
    n.time = w.getResetTimeFor n.event.mapid - n.event.type.delay ∧
    ∃ m ∈ maps, m.id = n.event.mapid ∧ m.hasGlobalReset = true
  one : ∀ m ∈ maps, m.hasGlobalReset = true → w.queue.countP (isGlobalOf m.id) = 1
  own : ∀ id mapid, 0 < id → w.queue.countP (isEventOf mapid id) =
    rows.countP fun r => r.1 = id && r.2.1 = mapid && r.2.2 ≠ 0

/-- The queue with a new event. -/
theorem insertNode_queue (hs : w.queue.Pairwise (·.time ≤ ·.time))
    (hn : (w.queue.map (·.node)).Nodup) (hf : ∀ n ∈ w.queue, n.node < w.nextNode) (t : Int)
    (event : DungeonResetEvent) :
    (w.insertNode t event).queue.Pairwise (·.time ≤ ·.time) ∧
    ((w.insertNode t event).queue.map (·.node)).Nodup ∧
    (∀ n ∈ (w.insertNode t event).queue, n.node < w.nextNode + 1) ∧
    (w.insertNode t event).queue.Perm (⟨t, event, w.nextNode⟩ :: w.queue) := by
  have hperm := insertAfter_perm ResetNode.time ⟨t, event, w.nextNode⟩ w.queue
  refine ⟨insertAfter_sorted hs, ?_, fun n h => ?_, hperm⟩
  · show (map _ (insertAfter ResetNode.time ⟨t, event, w.nextNode⟩ w.queue)).Nodup
    rw [(hperm.map _).nodup_iff, map_cons, nodup_cons]
    refine ⟨fun h => ?_, hn⟩
    obtain ⟨n, h, heq⟩ := mem_map.mp h
    have := hf n h
    dsimp only at heq
    omega
  · rcases mem_insertAfter.mp h with rfl | h
    · exact Nat.lt_succ_self _
    · exact (hf n h).trans (Nat.lt_succ_self _)

theorem Scheduled.scheduleRow {start : ResetWorld} {rows : List (Nat × Nat × Int)}
    (h : Scheduled cfg start rows [] w) (r : Nat × Nat × Int) :
    Scheduled cfg start (rows ++ [r]) [] (w.scheduleRow r) := by
  unfold ResetWorld.scheduleRow
  split_ifs with hzero
  · refine { h with normal := fun n hn ht => ?_, own := fun id mapid hid => ?_ }
    · obtain ⟨r', hr', heq⟩ := h.normal n hn ht
      exact ⟨r', mem_append_left _ hr', heq⟩
    · rw [countP_append, ← h.own id mapid hid]
      simp [hzero]
  · obtain ⟨hsorted, hnodup, hfresh, hperm⟩ :=
      insertNode_queue h.sorted h.nodup h.fresh r.2.2 ⟨.normalDungeon, r.2.1, r.1⟩
    refine ⟨h.instances, h.maxInstanceId, hsorted, hnodup, hfresh, fun n hn ht => ?_,
      fun n hn ht => ?_, nofun, fun id mapid hid => ?_⟩
    · rcases mem_insertAfter.mp hn with rfl | hn
      · exact ⟨r, mem_append_right _ mem_cons_self, rfl, rfl⟩
      · obtain ⟨r', hr', heq⟩ := h.normal n hn ht
        exact ⟨r', mem_append_left _ hr', heq⟩
    · rcases mem_insertAfter.mp hn with rfl | hn
      · exact absurd rfl ht
      · exact h.global n hn ht
    · rw [show (w.scheduleReset true r.2.2 ⟨.normalDungeon, r.2.1, r.1⟩).queue =
        (w.insertNode r.2.2 ⟨.normalDungeon, r.2.1, r.1⟩).queue from rfl, hperm.countP_eq,
        countP_cons, h.own id mapid hid, countP_append, countP_singleton]
      congr 2
      rw [eq_iff_iff, isEventOf_iff]
      simp [hzero, and_comm]

theorem Scheduled.scheduleMap {start : ResetWorld} {rows : List (Nat × Nat × Int)}
    {maps : List MapEntry} (h : Scheduled cfg start rows maps w) {m : MapEntry}
    (hm : m.id ∉ maps.map (·.id)) :
    Scheduled cfg start rows (maps ++ [m]) (w.scheduleMap cfg m) := by
  have hnew : ∀ n ∈ w.queue, n.event.type ≠ .normalDungeon → n.event.mapid ≠ m.id := by
    intro n hn ht heq
    obtain ⟨-, -, m', hm', hid, -⟩ := h.global n hn ht
    exact hm (mem_map.mpr ⟨m', hm', hid.trans heq⟩)
  unfold ResetWorld.scheduleMap
  split_ifs with hreset
  · generalize cfg.firstResetTime m w.now (w.getResetTimeFor m.id) = t
    have htype := (firstInform_spec t w.now).1
    generalize firstInform t w.now = type at htype ⊢
    obtain ⟨hsorted, hnodup, hfresh, hperm⟩ := insertNode_queue (w := w.setResetTimeFor m.id t)
      h.sorted h.nodup h.fresh (t - type.delay) ⟨type, m.id, 0⟩
    have htime : ∀ mapid, ((w.setResetTimeFor m.id t).insertNode (t - type.delay)
        ⟨type, m.id, 0⟩).getResetTimeFor mapid =
          if mapid = m.id then t else w.getResetTimeFor mapid := by
      intro mapid
      unfold getResetTimeFor insertNode setResetTimeFor
      rw [find_insert]
      split_ifs <;> rfl
    refine ⟨h.instances, h.maxInstanceId, hsorted, hnodup, hfresh, fun n hn ht => ?_,
      fun n hn ht => ?_, fun m' hm' hr => ?_, fun id mapid hid => ?_⟩
    · rcases mem_insertAfter.mp hn with rfl | hn
      · exact absurd ht htype
      · exact h.normal n hn ht
    · rcases mem_insertAfter.mp hn with rfl | hn
      · refine ⟨rfl, ?_, m, mem_append_right _ mem_cons_self, rfl, hreset⟩
        exact ((htime m.id).trans (if_pos rfl)).symm ▸ rfl
      · obtain ⟨h0, hold, m', hm', heq⟩ := h.global n hn ht
        refine ⟨h0, ?_, m', mem_append_left _ hm', heq⟩
        exact ((htime n.event.mapid).trans (if_neg (hnew n hn ht))).symm ▸ hold
    · refine hperm.countP_eq _ |>.trans ?_
      rw [countP_cons]
      rcases mem_append.mp hm' with hm' | hm'
      · have hne : ¬ isGlobalOf m'.id ⟨t - type.delay, ⟨type, m.id, 0⟩, w.nextNode⟩ = true := by
          intro hg
          exact hm (mem_map.mpr ⟨m', hm', (isGlobalOf_iff.mp hg).2.symm⟩)
        exact (congrArg _ (if_neg hne)).trans (h.one m' hm' hr)
      · obtain rfl := mem_singleton.mp hm'
        have hzero : w.queue.countP (isGlobalOf m'.id) = 0 := by
          rw [countP_eq_zero]
          intro n hn hg
          exact hnew n hn (isGlobalOf_iff.mp hg).1 (isGlobalOf_iff.mp hg).2
        have hyes : isGlobalOf m'.id ⟨t - type.delay, ⟨type, m'.id, 0⟩, w.nextNode⟩ = true :=
          isGlobalOf_iff.mpr ⟨htype, rfl⟩
        exact (congrArg₂ (· + ·) hzero (if_pos hyes)).trans rfl
    · refine hperm.countP_eq _ |>.trans ?_
      rw [countP_cons]
      have hno : isEventOf mapid id ⟨t - type.delay, ⟨type, m.id, 0⟩, w.nextNode⟩ = false :=
        isEventOf_global hid rfl
      exact (congrArg _ (if_neg (Bool.eq_false_iff.mp hno))).trans (h.own id mapid hid)
  · refine { h with global := fun n hn ht => ?_, one := fun m' hm' hr => ?_ }
    · obtain ⟨h0, htime, m', hm', heq⟩ := h.global n hn ht
      exact ⟨h0, htime, m', mem_append_left _ hm', heq⟩
    · rcases mem_append.mp hm' with hm' | hm'
      · exact h.one m' hm' hr
      · rw [mem_singleton.mp hm'] at hr
        exact absurd hr hreset

theorem loadResetTimes_scheduled (now : Int) (table : InstanceTable cfg)
    (resetTimes : SortedMap Nat Int) : Scheduled cfg (loadResetTimes cfg now table resetTimes) [] []
      (loadResetTimes cfg now table resetTimes) where
  instances := rfl
  maxInstanceId := rfl
  sorted := .nil
  nodup := .nil
  fresh _ h := absurd h not_mem_nil
  normal _ h := absurd h not_mem_nil
  global _ h := absurd h not_mem_nil
  one _ h := absurd h not_mem_nil
  own _ _ _ := rfl

theorem scheduleAllDungeonResets_scheduled (now : Int) (table : InstanceTable cfg)
    (resetTimes : SortedMap Nat Int) : Scheduled cfg (loadResetTimes cfg now table resetTimes)
      table.rows.entries cfg.maps (scheduleAllDungeonResets cfg now table resetTimes) := by
  have hrows : ∀ rows, Scheduled cfg (loadResetTimes cfg now table resetTimes) rows []
      (rows.foldl scheduleRow (loadResetTimes cfg now table resetTimes)) := by
    intro rows
    induction rows using reverseRecOn with
    | nil => exact loadResetTimes_scheduled now table resetTimes
    | append_singleton rows r ih =>
      rw [foldl_append]
      exact ih.scheduleRow r
  have hmaps : ∀ maps : List MapEntry, (maps.map (·.id)).Nodup →
      Scheduled cfg (loadResetTimes cfg now table resetTimes) table.rows.entries maps
        (maps.foldl (scheduleMap cfg)
          (table.rows.entries.foldl scheduleRow (loadResetTimes cfg now table resetTimes))) := by
    intro maps
    induction maps using reverseRecOn with
    | nil => exact fun _ => hrows table.rows.entries
    | append_singleton maps m ih =>
      intro hnodup
      rw [map_append, nodup_append] at hnodup
      rw [foldl_append]
      exact (ih hnodup.1).scheduleMap fun hm => hnodup.2.2 _ hm m.id mem_cons_self rfl
  exact hmaps cfg.maps cfg.nodup

theorem le_foldl_max (a : Nat) (l : List Nat) : a ≤ l.foldl max a ∧ ∀ x ∈ l, x ≤ l.foldl max a := by
  induction l generalizing a with
  | nil => exact ⟨le_rfl, nofun⟩
  | cons y l ih =>
    obtain ⟨hle, hall⟩ := ih (max a y)
    refine ⟨(le_max_left a y).trans hle, fun x hx => ?_⟩
    rcases mem_cons.mp hx with rfl | hx
    · exact (le_max_right a x).trans hle
    · exact hall x hx

theorem scheduleAllDungeonResets_good (now : Int) (table : InstanceTable cfg)
    (resetTimes : SortedMap Nat Int) :
    (scheduleAllDungeonResets cfg now table resetTimes).Good cfg := by
  have h := scheduleAllDungeonResets_scheduled now table resetTimes
  have hfind : ∀ id i, (scheduleAllDungeonResets cfg now table resetTimes).instances.find id =
      some i → ∃ r, (id, r) ∈ table.rows.entries ∧
        i = { mapId := r.1, resetTime := r.2, resetTimeDB := r.2 } := by
    intro id i hi
    rw [h.instances] at hi
    unfold loadResetTimes at hi
    rw [find_mapVal] at hi
    obtain ⟨r, hr, rfl⟩ := Option.map_eq_some_iff.mp hi
    exact ⟨r, mem_entries_iff.mpr hr, rfl⟩
  have hmax : ∀ e ∈ table.rows.entries, e.1 ≤
      (scheduleAllDungeonResets cfg now table resetTimes).maxInstanceId := by
    intro e he
    rw [h.maxInstanceId]
    exact (le_foldl_max 100 _).2 _ (mem_map_of_mem he)
  refine ⟨h.sorted, h.nodup, h.fresh, fun n hn => ?_, h.one, fun id i hi => ?_,
    fun id i hi hraid => ?_, fun id i hi => ?_⟩
  · unfold NodeRight
    split_ifs with ht
    · obtain ⟨r, hr, hid, hmap⟩ := h.normal n hn ht
      refine ⟨hid ▸ table.id_pos r hr, hid ▸ hmax r hr, fun i hi => ?_⟩
      obtain ⟨r', hr', rfl⟩ := hfind _ i hi
      rw [hid] at hr'
      have h1 := mem_entries_iff.mp hr
      have h2 := mem_entries_iff.mp hr'
      obtain rfl := Option.some.inj (h1.symm.trans h2)
      exact hmap.symm
    · obtain ⟨h0, htime, hentry⟩ := h.global n hn ht
      exact ⟨h0, htime, hentry⟩
  · obtain ⟨r, hr, rfl⟩ := hfind id i hi
    exact ⟨table.id_pos _ hr, hmax _ hr⟩
  · obtain ⟨r, hr, rfl⟩ := hfind id i hi
    rw [h.own id _ (table.id_pos _ hr)]
    have hne := table.normal _ hr hraid
    have hkey := countP_key table.rows.keys_pairwise hr fun r' => r'.2.1 = r.1 && r'.2.2 ≠ 0
    rw [countP_filter] at hkey
    simp only [Bool.and_assoc]
    refine hkey.trans ?_
    simp [hne, DungeonInstance.pending]
  · obtain ⟨r, hr, rfl⟩ := hfind id i hi
    exact ⟨fun hp => absurd rfl hp, fun _ hd => absurd hd (by simp)⟩

/-! ## Runs -/

theorem Good.consistent (hw : w.Good cfg) : w.Consistent cfg := by
  refine ⟨fun m hm hreset => ?_, fun e he hraid hloaded hwait => ?_⟩
  · have hone := hw.global m hm hreset
    rw [countP_eq_length_filter, length_eq_one_iff] at hone
    obtain ⟨n, hn⟩ := hone
    obtain ⟨hmem, hg⟩ := mem_filter.mp (hn ▸ mem_cons_self : n ∈ w.queue.filter _)
    obtain ⟨htype, hmap⟩ := isGlobalOf_iff.mp hg
    have hright := hw.nodes n hmem
    unfold NodeRight at hright
    rw [if_neg htype] at hright
    unfold GlobalPending
    rw [hn]
    exact hmap ▸ hright.time
  · have hfind := mem_entries_iff.mp he
    rw [hw.own _ _ hfind hraid]
    have hdone : e.2.resetDone = false := Bool.eq_false_of_not_eq_true fun hd =>
      absurd (((hw.states _ _ hfind).done hraid hd).2 hloaded) (by simp [hwait])
    unfold DungeonInstance.pending
    simp [hdone]

theorem step_good (hw : w.Good cfg) (hmaps : cfg.DelaysFit) {i : ResetInput}
    (hi : w.StepFits cfg i) : (w.step cfg i).Good cfg := by
  cases i with
  | tick seconds =>
    exact { hw with
      nodes := fun n hn => (hw.nodes n hn).mono (fun _ => rfl) le_rfl fun _ i hi _ => ⟨i, hi, rfl⟩ }
  | update => exact (update_progress hw hmaps hi).1.good
  | resetAllRaid => exact resetAllRaid_good hw
  | create mapId => exact create_good hw mapId
  | load id => exact load_good hw hi
  | unload id => exact unload_good hw id
  | reloadState id => exact reloadState_good hw id
  | bind id => exact bind_good hw id
  | unbind id => exact unbind_good hw id
  | enter id => exact enter_good hw id
  | leave id => exact leave_good hw id
  | bindToInstanceOrRaid id t => exact bindToInstanceOrRaid_good hw id t
  | resetMap id method => exact resetMap_good hw id method

/-- Every step does what it should. -/
theorem step_right (hw : w.Good cfg) (hmaps : cfg.DelaysFit) {i : ResetInput}
    (hi : w.StepFits cfg i) : w.StepRight cfg i := by
  refine ⟨(step_good hw hmaps hi).consistent, fun hu => ?_⟩
  subst hu
  exact update_right hw hmaps hi

theorem alongRun_right (hw : w.Good cfg) (hmaps : cfg.DelaysFit) {is : List ResetInput}
    (h : AlongRun (step cfg) (StepFits cfg) w is) : AlongRun (step cfg) (StepRight cfg) w is := by
  induction is generalizing w with
  | nil => trivial
  | cons i is ih => exact ⟨step_right hw hmaps h.1, ih (step_good hw hmaps h.1) h.2⟩

/-- From every start, in every run that loads no instance whose event was used up. -/
theorem resets_right (hmaps : cfg.DelaysFit) (now : Int) (table : InstanceTable cfg)
    (resetTimes : SortedMap Nat Int) (is : List ResetInput)
    (h : AlongRun (step cfg) (StepFits cfg)
      (scheduleAllDungeonResets cfg now table resetTimes) is) :
    (scheduleAllDungeonResets cfg now table resetTimes).Consistent cfg ∧
      AlongRun (step cfg) (StepRight cfg) (scheduleAllDungeonResets cfg now table resetTimes) is :=
  ⟨(scheduleAllDungeonResets_good now table resetTimes).consistent,
    alongRun_right (scheduleAllDungeonResets_good now table resetTimes) hmaps h⟩

end ResetWorld

/-! ## An event that is used up -/

/-- A dungeon and a raid. -/
def twoMaps : ResetSettings := ⟨[⟨36, .«instance», 0⟩, ⟨409, .raid, 7⟩], by decide, 4⟩

/-- One saved instance of each. -/
def twoInstances : InstanceTable twoMaps where
  rows := ((∅ : SortedMap Nat (Nat × Int)).insert 100 (36, 1000500)).insert 101 (409, 0)
  id_pos := by decide
  normal := by decide

namespace ResetWorld

def started : ResetWorld := scheduleAllDungeonResets twoMaps 1000000 twoInstances ∅

/-- A new instance is entered and left, the raid is reset by force, and updates come late. -/
def lateUpdates : List ResetInput :=
  [.create 36, .enter 102, .leave 102, .load 101, .enter 101, .tick 3000000, .update, .resetAllRaid,
    .tick 100, .update, .unload 102, .unload 101]

theorem lateUpdates_right : twoMaps.DelaysFit ∧
    AlongRun (step twoMaps) (StepFits twoMaps) started lateUpdates ∧ started.Consistent twoMaps ∧
      AlongRun (step twoMaps) (StepRight twoMaps) started lateUpdates :=
  have hmaps : twoMaps.DelaysFit := by unfold ResetSettings.DelaysFit; decide
  have h : AlongRun (step twoMaps) (StepFits twoMaps) started lateUpdates := by decide +kernel
  ⟨hmaps, h, resets_right hmaps 1000000 twoInstances ∅ lateUpdates h⟩

/-- The event of a new instance comes due while its map is still loaded, and is used up; the map
unloads, and whoever is bound to the instance comes back. -/
def comeBack : List ResetInput :=
  [.create 36, .bind 102, .tick 7201, .update, .unload 102, .load 102]

theorem comeBack_not_right : ¬ ∀ (cfg : ResetSettings) (now : Int) (table : InstanceTable cfg)
    (resetTimes : SortedMap Nat Int) (is : List ResetInput), cfg.DelaysFit →
      AlongRun (step cfg) (StepRight cfg)
        (scheduleAllDungeonResets cfg now table resetTimes) is := by
  intro h
  have hrun := h twoMaps 1000000 twoInstances ∅ comeBack
    (by unfold ResetSettings.DelaysFit; decide)
  exact absurd hrun (by decide +kernel)

end ResetWorld

end Windrunner
