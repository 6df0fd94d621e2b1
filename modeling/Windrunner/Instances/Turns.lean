import Windrunner.Instances.Pending

/-!
# The turns of `Update`

A turn processes the front event, and what it inserts is not earlier, so that the front is still
the front when it is erased (`turn_cases`). With every turn fewer seconds are late (`turn_queue`).
-/

namespace Windrunner

open Lib List SortedMap

namespace ResetEventType

/-- The warnings come closer to the reset. -/
theorem next_delay {type : ResetEventType} (hn : type ≠ normalDungeon) (hl : type.isLast = false) :
    type.next.delay < type.delay ∧ type.next ≠ normalDungeon ∧ type.next.last = type.last := by
  cases type <;> simp_all [next, delay, isLast, last]

theorem last_of_isLast {type : ResetEventType} (hl : type.isLast = true) :
    type ≠ normalDungeon ∧ type.last = type ∧ type.delay ≤ 60 := by
  cases type <;> simp_all [delay, isLast, last]

end ResetEventType

theorem firstInform_spec (resetTime now : Int) : firstInform resetTime now ≠ .normalDungeon ∧
    (now < resetTime - (firstInform resetTime now).delay ∨
      (firstInform resetTime now).delay = 60) := by
  unfold firstInform
  cases h : [ResetEventType.inform1, .inform2, .inform3].find?
      fun type => now < resetTime - type.delay with
  | none => exact ⟨by simp, .inr rfl⟩
  | some type =>
    have hmem := mem_of_find?_eq_some h
    have hnow := find?_some h
    refine ⟨?_, .inl (of_decide_eq_true hnow)⟩
    simp only [mem_cons, not_mem_nil, or_false] at hmem
    rcases hmem with rfl | rfl | rfl <;> simp

/-- The next reset is later than the last one, also by the minute that the event is early. -/
theorem lt_calculateNextResetTime (cfg : ResetSettings) {m : MapEntry} (prev : Int)
    (hm : 86400 ≤ ResetSettings.getMaxResetTimeFor m) :
    prev + 60 < cfg.calculateNextResetTime m prev := by
  unfold ResetSettings.calculateNextResetTime
  have hdiff : 0 ≤ cfg.diff := Int.natCast_nonneg _
  have hday : prev + 60 - 86400 < (prev + 60).tdiv 86400 * 86400 := by
    have h1 := Int.tmod_add_mul_tdiv (prev + 60) 86400
    have h2 : (prev + 60).tmod 86400 < 86400 := Int.tmod_lt_of_pos _ (by decide)
    omega
  show prev + 60 < (prev + 60).tdiv 86400 * 86400 + _ + _
  omega

namespace ResetWorld

variable {cfg : ResetSettings} {w w' : ResetWorld}

/-! ## What a turn inserts -/

/-- The events of those who leave, numbered from `k` on. -/
def leaverNodes (mapid : Nat) : List (Nat × DungeonInstance) → Nat → List ResetNode
  | [], _ => []
  | e :: es, k => ⟨e.2.resetTime, ⟨.normalDungeon, mapid, e.1⟩, k⟩ :: leaverNodes mapid es (k + 1)

theorem foldl_scheduleReset (mapid : Nat) (es : List (Nat × DungeonInstance)) (w : ResetWorld) :
    es.foldl (fun w e => w.scheduleReset true e.2.resetTime ⟨.normalDungeon, mapid, e.1⟩) w =
      { w with
        queue := insertAll (·.time) (leaverNodes mapid es w.nextNode) w.queue
        nextNode := w.nextNode + es.length } := by
  induction es generalizing w with
  | nil => rfl
  | cons e es ih =>
    rw [foldl_cons, ih]
    show ({ w with queue := _, nextNode := w.nextNode + 1 + es.length } : ResetWorld) = _
    rw [Nat.add_assoc, Nat.add_comm 1, ← length_cons]
    rfl

theorem mem_leaverNodes {mapid k : Nat} {es : List (Nat × DungeonInstance)} {n : ResetNode}
    (h : n ∈ leaverNodes mapid es k) : k ≤ n.node ∧ n.node < k + es.length ∧
      ∃ e ∈ es, n.time = e.2.resetTime ∧ n.event = ⟨.normalDungeon, mapid, e.1⟩ := by
  induction es generalizing k with
  | nil => exact absurd h not_mem_nil
  | cons e es ih =>
    rw [length_cons]
    rcases mem_cons.mp h with rfl | h
    · exact ⟨le_rfl, by show k < _; omega, e, mem_cons_self, rfl, rfl⟩
    · obtain ⟨h1, h2, e', he', h3⟩ := ih h
      exact ⟨by omega, by omega, e', mem_cons_of_mem e he', h3⟩

theorem leaverNodes_nodup (mapid k : Nat) (es : List (Nat × DungeonInstance)) :
    ((leaverNodes mapid es k).map (·.node)).Nodup := by
  induction es generalizing k with
  | nil => exact .nil
  | cons e es ih =>
    refine nodup_cons.mpr ⟨fun h => ?_, ih (k + 1)⟩
    obtain ⟨n, hn, heq⟩ := mem_map.mp h
    have := (mem_leaverNodes hn).1
    dsimp only at heq
    omega

theorem mem_leaverNodes_of_lt {mapid k n : Nat} {es : List (Nat × DungeonInstance)} (h1 : k ≤ n)
    (h2 : n < k + es.length) : n ∈ (leaverNodes mapid es k).map (·.node) := by
  induction es generalizing k with
  | nil => exact absurd h2 (not_lt.mpr h1)
  | cons e es ih =>
    rcases Nat.eq_or_lt_of_le h1 with rfl | h1
    · exact mem_cons_self
    · refine mem_cons_of_mem _ (ih h1 ?_)
      rw [length_cons] at h2
      omega

/-- Each leaver gets its own event. -/
theorem countP_leaverNodes (mapid k id : Nat) (es : List (Nat × DungeonInstance)) :
    (leaverNodes mapid es k).countP (isEventOf mapid id) = es.countP (·.1 = id) := by
  induction es generalizing k with
  | nil => rfl
  | cons e es ih =>
    unfold leaverNodes
    rw [countP_cons, countP_cons, ih (k + 1)]
    congr 1
    have : isEventOf mapid id ⟨e.2.resetTime, ⟨.normalDungeon, mapid, e.1⟩, k⟩ =
        decide (e.1 = id) := by
      rw [Bool.eq_iff_iff, isEventOf_iff, decide_eq_true_eq]
      exact and_iff_right rfl
    rw [this]

/-- The follow-up is not earlier than the front, which is therefore what is erased. -/
theorem followUp_eraseFront {front : ResetNode} {l : List ResetNode} {type : ResetEventType}
    {resetTime : Int} (hq : w.queue = front :: l) (hnode : ∀ n ∈ l, n.node ≠ front.node)
    (htime : front.time ≤ resetTime - type.delay) :
    (w.followUp front type resetTime).eraseFront front =
      { w with
        queue := insertAfter (·.time)
          ⟨resetTime - type.delay, { front.event with type := type }, w.nextNode⟩ l
        nextNode := w.nextNode + 1
        processed := w.processed ++ [⟨front.node, front.time, some front.node⟩] } := by
  have hmap : (front :: l).map (fun n =>
      if n.node = front.node then { n with event := { n.event with type := type } } else n) =
        { front with event := { front.event with type := type } } :: l := by
    rw [map_cons, if_pos rfl, map_congr_left fun n hn => if_neg (hnode n hn),
      map_id']
  have hins : insertAfter (·.time)
      ⟨resetTime - type.delay, { front.event with type := type }, w.nextNode⟩
        ({ front with event := { front.event with type := type } } :: l) =
      { front with event := { front.event with type := type } } :: insertAfter (·.time)
        ⟨resetTime - type.delay, { front.event with type := type }, w.nextNode⟩ l :=
    insertAfter_cons_of_le htime
  unfold followUp scheduleReset retype insertNode eraseFront
  rw [if_pos rfl]
  dsimp only
  rw [hq, hmap, hins]
  rfl

theorem lookupEntry_of_mem {m : MapEntry} (hm : m ∈ cfg.maps) : cfg.lookupEntry m.id = some m := by
  unfold ResetSettings.lookupEntry
  cases h : cfg.maps.find? (·.id = m.id) with
  | none => exact absurd (find?_eq_none.mp h m hm) (by simp)
  | some m' =>
    have hid : m'.id = m.id :=
      of_decide_eq_true (find?_some (p := fun x : MapEntry => x.id = m.id) h)
    rw [inj_on_of_nodup_map cfg.nodup (mem_of_find?_eq_some h) hm hid]

theorem resetInstance_eq (w : ResetWorld) (mapid id : Nat) :
    w.resetInstance mapid id = { w with instances := (w.resetInstance mapid id).instances } := by
  unfold resetInstance
  split
  · split_ifs <;> rfl
  · rfl

/-- The instances after a reset of all instances of the map. -/
def resetInstances (w : ResetWorld) (mapid : Nat) : SortedMap Nat DungeonInstance :=
  (w.instances.filter fun _ i => i.mapId ≠ mapid || i.loaded).mapVal fun _ i =>
    if i.mapId = mapid then i.resetGlobal else i

/-- What the turn of `front` notes. -/
def noted (w : ResetWorld) (front : ResetNode) : List ProcessedEvent :=
  w.processed ++ [⟨front.node, front.time, some front.node⟩]

def leaving (cfg : ResetSettings) (w : ResetWorld) (mapid : Nat) : List ResetNode :=
  leaverNodes mapid (w.leavers cfg mapid) w.nextNode

section

variable (cfg : ResetSettings) (w : ResetWorld) (front : ResetNode) (rest : List ResetNode)
  (time : Int) (type : ResetEventType)

def afterNormal : ResetWorld :=
  { w with
    instances := (w.resetInstance front.event.mapid front.event.instanceId).instances
    queue := rest
    processed := w.noted front }

def afterWarning : ResetWorld :=
  { w with
    queue := insertAfter (·.time) ⟨time, { front.event with type := type }, w.nextNode⟩ rest
    nextNode := w.nextNode + 1
    processed := w.noted front }

/-- The event of the next reset, after those of the leavers. -/
def nextReset : ResetNode :=
  ⟨time, { front.event with type := type },
    w.nextNode + (w.leavers cfg front.event.mapid).length⟩

def afterReset (resetTime : Int) : ResetWorld :=
  { w with
    queue := insertAfter (·.time) (w.nextReset cfg front time type)
      (insertAll (·.time) (w.leaving cfg front.event.mapid) rest)
    nextNode := w.nextNode + (w.leavers cfg front.event.mapid).length + 1
    resetTimeByMapId := w.resetTimeByMapId.insert front.event.mapid resetTime
    instances := w.resetInstances front.event.mapid
    processed := w.noted front }

theorem afterReset_queue (resetTime : Int) : ((w.afterReset cfg front rest time type resetTime).queue).Perm
    ((w.nextReset cfg front time type :: w.leaving cfg front.event.mapid) ++ rest) :=
  (insertAfter_perm _ _ _).trans ((insertAll_perm _ _ _).cons _)

theorem getResetTimeFor_afterReset (resetTime : Int) (mapid : Nat) :
    (w.afterReset cfg front rest time type resetTime).getResetTimeFor mapid =
      if mapid = front.event.mapid then resetTime else w.getResetTimeFor mapid := by
  unfold getResetTimeFor afterReset
  rw [find_insert]
  split_ifs <;> rfl

end

/-- Everything a turn can do. -/
theorem turn_cases (hw : w.Good cfg) (hmaps : cfg.DelaysFit) (hl : w.LeaversLater cfg)
    (h : w.turn cfg = some w') :
    ∃ front rest, w.queue = front :: rest ∧ front.time < w.now ∧
      ((front.event.type = .normalDungeon ∧ w' = w.afterNormal front rest) ∨
      (∃ time type, front.event.type ≠ .normalDungeon ∧ front.time < time ∧
        type ≠ .normalDungeon ∧ type.last = front.event.type.last ∧
        time = w.getResetTimeFor front.event.mapid - type.delay ∧
        w' = w.afterWarning front rest time type) ∨
      ∃ resetTime time type, front.event.type ≠ .normalDungeon ∧ front.time < time ∧
        type ≠ .normalDungeon ∧ time = resetTime - type.delay ∧
        (∀ e ∈ w.leavers cfg front.event.mapid, front.time ≤ e.2.resetTime) ∧
        w' = w.afterReset cfg front rest time type resetTime) := by
  obtain ⟨front, hdue, rfl⟩ := Option.map_eq_some_iff.mp h
  obtain ⟨hhead, hnow⟩ := Option.filter_eq_some_iff.mp hdue
  obtain ⟨rest, hq⟩ := head?_eq_some_iff.mp hhead
  have hnow := of_decide_eq_true hnow
  have hfront : front ∈ w.queue := hq ▸ mem_cons_self
  have hnode : ∀ n ∈ rest, n.node ≠ front.node := by
    have := hw.nodup
    rw [hq, map_cons, nodup_cons] at this
    exact fun n hn heq => this.1 (mem_map.mpr ⟨n, hn, heq⟩)
  have hright := hw.nodes front hfront
  refine ⟨front, rest, hq, hnow, ?_⟩
  unfold processEvent
  split_ifs with htype hlast
  · refine .inl ⟨htype, ?_⟩
    rw [resetInstance_eq]
    unfold eraseFront
    dsimp only
    rw [hq]
    rfl
  · right; left
    unfold NodeRight at hright
    rw [if_neg htype] at hright
    obtain ⟨hdelay, hnext, hsame⟩ := ResetEventType.next_delay htype hlast
    have hlt : front.time < w.getResetTimeFor front.event.mapid - front.event.type.next.delay := by
      rw [hright.time]
      omega
    exact ⟨_, _, htype, hlt, hnext, hsame, rfl, followUp_eraseFront hq hnode hlt.le⟩
  · right; right
    unfold NodeRight at hright
    rw [if_neg htype] at hright
    obtain ⟨m, hm, hmid, hreset⟩ := hright.entry
    obtain ⟨-, hsame, hdelay⟩ := ResetEventType.last_of_isLast (Bool.eq_true_of_not_eq_false hlast)
    have hleave : ∀ e ∈ w.leavers cfg front.event.mapid, front.time ≤ e.2.resetTime := by
      intro e he
      obtain ⟨hmem, hcond⟩ := mem_filter.mp he
      simp only [Bool.and_eq_true, decide_eq_true_eq, bne_iff_ne, Bool.not_eq_true'] at hcond
      obtain ⟨⟨⟨hmap, -⟩, hp⟩, hraid⟩ := hcond
      have hltime : w.lastTime front = front.time := by
        unfold lastTime
        rw [hsame, hright.time]
      have := hl e hmem hp (hmap ▸ hraid) front hfront htype hmap.symm
      rw [hltime] at this
      exact this hnow
    rw [← hmid, lookupEntry_of_mem hm, hmid]
    dsimp only
    have hlate := lt_calculateNextResetTime cfg (w.getResetTimeFor front.event.mapid)
      (hmaps m hm hreset)
    generalize cfg.calculateNextResetTime m (w.getResetTimeFor front.event.mapid) = t at hlate ⊢
    obtain ⟨hft, hfd⟩ := firstInform_spec t w.now
    have htime := hright.time
    have hpos : 0 ≤ front.event.type.delay := by cases front.event.type <;> decide
    have hlt : front.time < t - (firstInform t w.now).delay := by
      rcases hfd with hfd | hfd <;> omega
    refine ⟨t, _, _, htype, hlt, hft, rfl, hleave, ?_⟩
    have hcons : insertAll (·.time) (w.leaving cfg front.event.mapid) (front :: rest) =
        front :: insertAll (·.time) (w.leaving cfg front.event.mapid) rest := by
      refine insertAll_cons_of_le fun n hn => ?_
      obtain ⟨-, -, e, he, htime, -⟩ := mem_leaverNodes hn
      rw [htime]
      exact hleave e he
    unfold resetAll setResetTimeFor
    rw [foldl_scheduleReset, hq, ← leaving, hcons]
    refine (followUp_eraseFront rfl ?_ hlt.le).trans rfl
    intro n hn heq
    rcases mem_append.mp ((insertAll_perm _ _ _).mem_iff.mp hn) with hn | hn
    · have h1 := (mem_leaverNodes hn).1
      have h2 := hw.fresh front hfront
      omega
    · exact hnode n hn heq

/-! ## A turn keeps the invariant -/

theorem reset_respawnDelay (i : DungeonInstance) :
    i.reset .respawnDelay = { i with resetAfterUnload := true } := if_neg (by simp)

theorem resetGlobal_eq (i : DungeonInstance) :
    i.resetGlobal = { i with players := 0, resetAfterUnload := true, saved := false } := by
  unfold DungeonInstance.resetGlobal DungeonInstance.reset
  rw [if_neg (by simp)]

theorem find_resetInstance {mapid id c : Nat} {j' : DungeonInstance}
    (hmap : ∀ i, w.instances.find id = some i → i.mapId = mapid)
    (h : (w.resetInstance mapid id).instances.find c = some j') :
    (c ≠ id ∧ w.instances.find c = some j') ∨ (c = id ∧ ∃ j, w.instances.find c = some j ∧
      j.loaded = true ∧ j' = { j with resetAfterUnload := true, resetDone := true }) := by
  unfold resetInstance at h
  split at h
  · rename_i i hi
    rw [if_neg (not_not.mpr (hmap i hi).symm)] at h
    split_ifs at h with hloaded
    · unfold modifyInstance at h
      rw [find_modify] at h
      split at h
      · rename_i hc
        rw [hc, hi] at h
        refine .inr ⟨hc, i, by rw [hc, hi], hloaded, ?_⟩
        rw [← Option.some.inj h]
        dsimp only
        rw [reset_respawnDelay]
      · rename_i hc
        exact .inl ⟨hc, h⟩
    · unfold eraseInstance at h
      rw [find_erase] at h
      split at h
      · exact absurd h (by simp)
      · rename_i hc
        exact .inl ⟨hc, h⟩
  · rename_i hnone
    refine .inl ⟨fun hc => ?_, h⟩
    rw [hc, hnone] at h
    exact absurd h (by simp)

theorem find_resetInstances {mapid c : Nat} {j' : DungeonInstance}
    (h : (w.resetInstances mapid).find c = some j') : ∃ j, w.instances.find c = some j ∧
      ((j.mapId ≠ mapid ∧ j' = j) ∨ (j.mapId = mapid ∧ j.loaded = true ∧
        j' = { j with players := 0, resetAfterUnload := true, saved := false })) := by
  unfold resetInstances at h
  rw [find_mapVal] at h
  obtain ⟨j, hj, rfl⟩ := Option.map_eq_some_iff.mp h
  rw [find_filter] at hj
  obtain ⟨hj, hcond⟩ := Option.filter_eq_some_iff.mp hj
  refine ⟨j, hj, ?_⟩
  split_ifs with hmap
  · refine .inr ⟨hmap, ?_, resetGlobal_eq j⟩
    simpa [hmap] using hcond
  · exact .inl ⟨hmap, rfl⟩

/-- The map of the front event has no other global event. -/
theorem Good.mapid_ne (hw : w.Good cfg) {front n : ResetNode} {rest : List ResetNode}
    (hq : w.queue = front :: rest) (hfront : front.event.type ≠ .normalDungeon) (hn : n ∈ rest)
    (htype : n.event.type ≠ .normalDungeon) : n.event.mapid ≠ front.event.mapid := by
  intro heq
  have hright := hw.nodes front (hq ▸ mem_cons_self)
  unfold NodeRight at hright
  rw [if_neg hfront] at hright
  obtain ⟨m, hm, hmid, hreset⟩ := hright.entry
  have hone := hw.global m hm hreset
  rw [hq, countP_cons, if_pos (isGlobalOf_iff.mpr ⟨hfront, hmid.symm⟩)] at hone
  have hpos : 0 < rest.countP (isGlobalOf m.id) :=
    countP_pos_iff.mpr ⟨n, hn, isGlobalOf_iff.mpr ⟨htype, heq.trans hmid.symm⟩⟩
  omega

/-- A global event is no instance's. -/
theorem isEventOf_global {m c : Nat} {n : ResetNode} (hc : 0 < c) (hn : n.event.instanceId = 0) :
    isEventOf m c n = false := Bool.eq_false_of_not_eq_true fun he => by
  have := (isEventOf_iff.mp he).2
  omega

/-- Keys occur once. -/
theorem countP_key {β : Type} {l : List (Nat × β)} (hl : l.Pairwise fun a b => a.1 ≠ b.1)
    {e : Nat × β} (he : e ∈ l) (q : Nat × β → Bool) :
    (l.filter q).countP (·.1 = e.1) = if q e then 1 else 0 := by
  induction l with
  | nil => exact absurd he not_mem_nil
  | cons a l ih =>
    obtain ⟨ha, hl⟩ := pairwise_cons.mp hl
    rcases mem_cons.mp he with rfl | he
    · have hzero : (l.filter q).countP (·.1 = e.1) = 0 := by
        rw [countP_eq_zero]
        exact fun b hb heq => ha b (mem_filter.mp hb).1 (of_decide_eq_true heq).symm
      by_cases hq : q e <;> simp [hq, hzero]
    · rw [filter_cons]
      split
      · have hne : (decide (a.1 = e.1)) ≠ true := by simpa using ha e he
        rw [countP_cons, ih hl he, if_neg hne, add_zero]
      · exact ih hl he

section

variable {front : ResetNode} {rest : List ResetNode} {time : Int} {type : ResetEventType}

theorem normal_good (hw : w.Good cfg) (hq : w.queue = front :: rest)
    (htype : front.event.type = .normalDungeon) : (w.afterNormal front rest).Good cfg := by
  have hright := hw.nodes front (hq ▸ mem_cons_self)
  have hsorted : rest.Pairwise (·.time ≤ ·.time) := (pairwise_cons.mp (hq ▸ hw.sorted)).2
  unfold NodeRight at hright
  rw [if_pos htype] at hright
  have hused : ∀ j, w.instances.find front.event.instanceId = some j →
      cfg.isRaid j.mapId = false →
      w.queue.countP (isEventOf j.mapId front.event.instanceId) = 1 ∧ j.players = 0 := by
    intro j hj hraid
    have hown := hw.own _ j hj hraid
    have hpos : 0 < w.queue.countP (isEventOf j.mapId front.event.instanceId) :=
      countP_pos_iff.mpr ⟨front, hq ▸ mem_cons_self,
        isEventOf_iff.mpr ⟨(hright.mapId j hj).symm, rfl⟩⟩
    unfold DungeonInstance.pending at hown
    split_ifs at hown with hp
    · exact ⟨hown, hp.1⟩
    · omega
  refine hw.of_change [front] [] (hq ▸ .refl _) (.refl _) hsorted le_rfl
    .nil
    nofun ?_ nofun ?_ ?_ ?_ ?_
  · intro n _ hn
    refine hn.mono (fun _ => rfl) le_rfl fun c j' hj' _ => ?_
    rcases find_resetInstance hright.mapId hj' with ⟨-, hj⟩ | ⟨-, j, hj, -, rfl⟩
    · exact ⟨j', hj, rfl⟩
    · exact ⟨j, hj, rfl⟩
  · intro m _ _
    have hnot : isGlobalOf m.id front = false :=
      Bool.eq_false_of_not_eq_true fun hg => (isGlobalOf_iff.mp hg).1 htype
    rw [countP_singleton, hnot]
    rfl
  · intro c j' hj'
    rcases find_resetInstance hright.mapId hj' with ⟨-, hj⟩ | ⟨-, j, hj, -, rfl⟩
    · exact hw.ids c j' hj
    · exact hw.ids c j hj
  · intro c j' hj'
    rcases find_resetInstance hright.mapId hj' with ⟨-, hj⟩ | ⟨rfl, j, hj, hloaded, rfl⟩
    · exact hw.states c j' hj
    · exact ⟨fun _ => hloaded, fun hraid _ => ⟨(hused j hj hraid).2, fun _ => rfl⟩⟩
  · intro c j' hj' hraid
    rw [countP_singleton]
    rcases find_resetInstance hright.mapId hj' with ⟨hc, hj⟩ | ⟨rfl, j, hj, -, rfl⟩
    · have hnot : isEventOf j'.mapId c front = false := Bool.eq_false_of_not_eq_true fun he =>
        hc (isEventOf_iff.mp he).2.symm
      rw [hnot, hw.own c j' hj hraid]
      exact Nat.add_comm _ _
    · dsimp only at hraid ⊢
      have hyes : isEventOf j.mapId front.event.instanceId front = true :=
        isEventOf_iff.mpr ⟨(hright.mapId j hj).symm, rfl⟩
      have hnone : DungeonInstance.pending { j with resetAfterUnload := true, resetDone := true } =
          0 := if_neg fun hp => absurd hp.2 (by simp)
      rw [if_pos hyes, (hused j hj hraid).1, hnone]
      rfl

section

variable (hw : w.Good cfg) (hq : w.queue = front :: rest)
  (hfront : front.event.type ≠ .normalDungeon) (htype : type ≠ .normalDungeon)
include hw hq hfront htype

theorem warning_good (htime : time = w.getResetTimeFor front.event.mapid - type.delay) :
    (w.afterWarning front rest time type).Good cfg := by
  have hright := hw.nodes front (hq ▸ mem_cons_self)
  have hsorted : rest.Pairwise (·.time ≤ ·.time) := (pairwise_cons.mp (hq ▸ hw.sorted)).2
  unfold NodeRight at hright
  rw [if_neg hfront] at hright
  refine hw.of_change [front] [⟨time, { front.event with type := type }, w.nextNode⟩] (hq ▸ .refl _)
    (insertAfter_perm _ _ _) (insertAfter_sorted hsorted) (Nat.le_succ _) (nodup_singleton _)
    ?_ (fun n _ hn => hn.mono (fun _ => rfl) le_rfl fun _ i hi _ => ⟨i, hi, rfl⟩) ?_ ?_ hw.ids
    hw.states ?_
  · intro n hn
    obtain rfl := mem_singleton.mp hn
    exact ⟨le_rfl, Nat.lt_succ_self _⟩
  · intro n hn
    obtain rfl := mem_singleton.mp hn
    unfold NodeRight
    rw [if_neg htype]
    exact ⟨hright.instanceId, htime, hright.entry⟩
  · intro m _ _
    rw [countP_singleton, countP_singleton]
    unfold isGlobalOf
    simp [htype, hfront]
  · intro c j hj hraid
    have hpos := (hw.ids c j hj).1
    rw [countP_singleton, countP_singleton, isEventOf_global hpos hright.instanceId,
      isEventOf_global (n := ⟨time, { front.event with type := type }, w.nextNode⟩) hpos
        hright.instanceId, hw.own c j hj hraid]
    exact Nat.add_comm _ _

theorem reset_good {resetTime : Int} (htime : time = resetTime - type.delay) :
    (w.afterReset cfg front rest time type resetTime).Good cfg := by
  have hright := hw.nodes front (hq ▸ mem_cons_self)
  have hsorted : rest.Pairwise (·.time ≤ ·.time) := (pairwise_cons.mp (hq ▸ hw.sorted)).2
  unfold NodeRight at hright
  rw [if_neg hfront] at hright
  refine hw.of_change [front] _ (hq ▸ .refl _) (afterReset_queue ..)
    (insertAfter_sorted (insertAll_sorted hsorted)) (by show w.nextNode ≤ _ + 1; omega) ?_ ?_ ?_ ?_ ?_ ?_ ?_ ?_
  · refine nodup_cons.mpr ⟨fun hmem => ?_, leaverNodes_nodup _ _ _⟩
    obtain ⟨n, hn, heq⟩ := mem_map.mp hmem
    have := (mem_leaverNodes hn).2.1
    dsimp only [nextReset] at heq
    omega
  · intro n hn
    rcases mem_cons.mp hn with rfl | hn
    · refine ⟨Nat.le_add_right _ _, Nat.lt_succ_self _⟩
    · exact ⟨(mem_leaverNodes hn).1, (mem_leaverNodes hn).2.1.trans (Nat.lt_succ_self _)⟩
  · intro n hn h
    refine h.mono (fun hg => ?_) le_rfl fun c j' hj' _ => ?_
    · rw [getResetTimeFor_afterReset, if_neg (hw.mapid_ne hq hfront hn hg)]
    · obtain ⟨j, hj, ⟨-, rfl⟩ | ⟨-, -, rfl⟩⟩ := find_resetInstances hj'
      · exact ⟨_, hj, rfl⟩
      · exact ⟨j, hj, rfl⟩
  · intro n hn
    unfold NodeRight
    rcases mem_cons.mp hn with rfl | hn
    · rw [if_neg (show (w.nextReset cfg front time type).event.type ≠ _ from htype)]
      refine ⟨hright.instanceId, ?_, hright.entry⟩
      refine htime.trans (congrArg (· - type.delay) ?_)
      exact (((getResetTimeFor_afterReset ..).trans (if_pos rfl))).symm
    · obtain ⟨-, -, e, he, -, hev⟩ := mem_leaverNodes hn
      obtain ⟨hmem, hcond⟩ := mem_filter.mp he
      have hfind := mem_entries_iff.mp hmem
      have hmap : e.2.mapId = front.event.mapid := by
        simp only [Bool.and_eq_true, decide_eq_true_eq] at hcond
        exact hcond.1.1.1
      rw [if_pos (by rw [hev])]
      refine ⟨?_, ?_, ?_⟩
      · rw [hev]
        exact (hw.ids _ _ hfind).1
      · rw [hev]
        exact (hw.ids _ _ hfind).2
      · intro j' hj'
        rw [hev] at hj' ⊢
        obtain ⟨j, hj, h⟩ := find_resetInstances hj'
        obtain rfl := Option.some.inj (hfind.symm.trans hj)
        rcases h with ⟨hne, -⟩ | ⟨-, -, rfl⟩
        · exact absurd hmap hne
        · exact hmap
  · intro m _ _
    have hnone : (w.leaving cfg front.event.mapid).countP (isGlobalOf m.id) = 0 := by
      rw [countP_eq_zero]
      intro n hn hg
      obtain ⟨-, -, e, -, -, hev⟩ := mem_leaverNodes hn
      exact (isGlobalOf_iff.mp hg).1 (by rw [hev])
    rw [countP_cons, countP_singleton, hnone, zero_add]
    unfold isGlobalOf nextReset
    simp [htype, hfront]
  · intro c j' hj'
    obtain ⟨j, hj, -⟩ := find_resetInstances hj'
    exact hw.ids c j hj
  · intro c j' hj'
    obtain ⟨j, hj, ⟨-, rfl⟩ | ⟨-, -, rfl⟩⟩ := find_resetInstances hj'
    · exact hw.states c _ hj
    · exact ⟨fun hp => absurd rfl hp, fun _ _ => ⟨rfl, fun _ => rfl⟩⟩
  · intro c j' hj' hraid
    obtain ⟨j, hj, hcase⟩ := find_resetInstances hj'
    have hpos := (hw.ids c j hj).1
    rw [countP_singleton, countP_cons, isEventOf_global hpos hright.instanceId,
      isEventOf_global (n := w.nextReset cfg front time type) hpos hright.instanceId]
    rcases hcase with ⟨hne, rfl⟩ | ⟨hmap, hloaded, rfl⟩
    · have hnone : (w.leaving cfg front.event.mapid).countP (isEventOf j'.mapId c) = 0 := by
        rw [countP_eq_zero]
        intro n hn he
        obtain ⟨-, -, e, -, -, hev⟩ := mem_leaverNodes hn
        exact hne (by rw [← (isEventOf_iff.mp he).1, hev])
      rw [hnone, hw.own c j' hj hraid]
      exact Nat.add_comm _ _
    · dsimp only at hraid ⊢
      have hkey := countP_key w.instances.keys_pairwise (mem_entries_iff.mpr hj) fun e =>
        e.2.mapId = front.event.mapid && e.2.loaded && e.2.players != 0 &&
          !cfg.isRaid front.event.mapid
      have hcount : (w.leaving cfg front.event.mapid).countP (isEventOf j.mapId c) =
          if j.players ≠ 0 then 1 else 0 := by
        rw [hmap, leaving, countP_leaverNodes]
        refine hkey.trans ?_
        rw [hmap] at hraid
        simp [hmap, hloaded, hraid]
      rw [hcount, hw.own c j hj hraid]
      have hdone := (hw.states c j hj).done hraid
      unfold DungeonInstance.pending
      by_cases hp : j.players = 0
      · simp [hp]
      · have hd : j.resetDone = false := Bool.eq_false_of_not_eq_true fun h => hp (hdone h).1
        simp [hp, hd]

end

end

section

variable (hw : w.Good cfg) (hmaps : cfg.DelaysFit) (hl : w.LeaversLater cfg)
  (h : w.turn cfg = some w')
include hw hmaps hl h

/-- A turn keeps the schedule good. -/
theorem turn_good : w'.Good cfg := by
  obtain ⟨front, rest, hq, -, hcases⟩ := turn_cases hw hmaps hl h
  rcases hcases with ⟨htype, rfl⟩ | ⟨time, type, hfront, -, htype, -, htime, rfl⟩ |
    ⟨resetTime, time, type, hfront, -, htype, htime, -, rfl⟩
  · exact normal_good hw hq htype
  · exact warning_good hw hq hfront htype htime
  · exact reset_good hw hq hfront htype htime

theorem turn_leaversLater : w'.LeaversLater cfg := by
  obtain ⟨front, rest, hq, -, hcases⟩ := turn_cases hw hmaps hl h
  have hmem : front ∈ w.queue := hq ▸ mem_cons_self
  have hrest : ∀ n ∈ rest, n ∈ w.queue := fun n hn => hq ▸ mem_cons_of_mem front hn
  rcases hcases with ⟨htype, rfl⟩ | ⟨time, type, hfront, -, -, hlast, -, rfl⟩ |
    ⟨resetTime, time, type, hfront, -, -, -, -, rfl⟩
  · have hright := hw.nodes front hmem
    unfold NodeRight at hright
    rw [if_pos htype] at hright
    intro e he hp hraid n hn
    rcases find_resetInstance hright.mapId (mem_entries_iff.mp he) with
      ⟨-, hj⟩ | ⟨-, j, hj, -, heq⟩
    · exact hl e (mem_entries_iff.mpr hj) hp hraid n (hrest n hn)
    · rw [heq] at hp hraid ⊢
      exact hl (e.1, j) (mem_entries_iff.mpr hj) hp hraid n (hrest n hn)
  · intro e he hp hraid n hn htype hmap
    rcases mem_insertAfter.mp hn with rfl | hn
    · have := hl e he hp hraid front hmem hfront hmap
      unfold lastTime at this ⊢
      rw [hlast]
      exact this
    · exact hl e he hp hraid n (hrest n hn) htype hmap
  · intro e he hp hraid n hn htype hmap
    obtain ⟨j, hj, ⟨hne, heq⟩ | ⟨-, -, heq⟩⟩ :=
      find_resetInstances (mem_entries_iff.mp he)
    · rw [heq] at hp hraid hmap ⊢
      rcases mem_insertAfter.mp hn with rfl | hn
      · exact absurd hmap.symm hne
      · rcases mem_append.mp ((insertAll_perm _ _ _).mem_iff.mp hn) with hn | hn
        · obtain ⟨-, -, e', -, -, hev⟩ := mem_leaverNodes hn
          exact absurd (by rw [hev]) htype
        · have := hl (e.1, j) (mem_entries_iff.mpr hj) hp hraid n (hrest n hn) htype hmap
          unfold lastTime at this ⊢
          rw [getResetTimeFor_afterReset, if_neg (hw.mapid_ne hq hfront hn htype)]
          exact this
    · rw [heq] at hp
      exact absurd rfl hp

end

/-! ## Every turn leaves fewer late seconds -/

def lateNode (now : Int) (n : ResetNode) : Nat := (now - n.time).toNat

/-- What the event of this instance is late once the players inside have left. -/
def lateInside (now : Int) (e : Nat × DungeonInstance) : Nat :=
  if e.2.players = 0 then 0 else (now - e.2.resetTime).toNat

theorem lateSeconds_eq (w : ResetWorld) : w.lateSeconds =
    (w.queue.map (lateNode w.now)).sum + (w.instances.entries.map (lateInside w.now)).sum := rfl

theorem lateInside_resetInstance (now : Int) (mapid id : Nat) :
    ((w.resetInstance mapid id).instances.entries.map (lateInside now)).sum ≤
      (w.instances.entries.map (lateInside now)).sum := by
  have herase : (((w.eraseInstance id).instances.entries).map (lateInside now)).sum ≤
      (w.instances.entries.map (lateInside now)).sum := by
    have := sum_filter_add_filter_le (l := w.instances.entries) (f := lateInside now)
      (g := lateInside now) (p := fun e => e.1 ≠ id) (q := fun _ => false)
      fun a _ => by split <;> simp
    exact (Nat.le_add_right _ _).trans this
  unfold resetInstance
  split
  · split_ifs
    · exact le_rfl
    · refine le_of_eq ?_
      show (map (lateInside now) (map _ w.instances.entries)).sum = _
      rw [map_map]
      congr 1
      refine map_congr_left fun e _ => ?_
      unfold Function.comp lateInside
      dsimp only
      split_ifs <;> simp_all [reset_respawnDelay]
    · exact herase
  · exact le_rfl

theorem lateNode_leaverNodes (now : Int) (mapid k : Nat) (es : List (Nat × DungeonInstance)) :
    ((leaverNodes mapid es k).map (lateNode now)).sum =
      (es.map fun e => (now - e.2.resetTime).toNat).sum := by
  induction es generalizing k with
  | nil => rfl
  | cons e es ih =>
    unfold leaverNodes
    rw [map_cons, map_cons, sum_cons, sum_cons, ih]
    rfl

/-- Those who leave take their seconds into the queue. -/
theorem lateInside_resetInstances (cfg : ResetSettings) (w : ResetWorld) (now : Int)
    (mapid k : Nat) :
    ((w.resetInstances mapid).entries.map (lateInside now)).sum +
      ((leaverNodes mapid (w.leavers cfg mapid) k).map (lateNode now)).sum ≤
        (w.instances.entries.map (lateInside now)).sum := by
  have hleave : ((w.leavers cfg mapid).map fun e => (now - e.2.resetTime).toNat) =
      (w.leavers cfg mapid).map (lateInside now) := by
    refine map_congr_left fun e he => ?_
    have hcond := (mem_filter.mp he).2
    simp only [Bool.and_eq_true, bne_iff_ne] at hcond
    exact (if_neg hcond.1.2).symm
  rw [lateNode_leaverNodes, hleave]
  show (map (lateInside now) (map _ (filter _ w.instances.entries))).sum + _ ≤ _
  rw [map_map]
  refine sum_filter_add_filter_le fun e _ => ?_
  unfold Function.comp lateInside
  simp only [resetGlobal_eq]
  by_cases hmap : e.2.mapId = mapid <;> by_cases hp : e.2.players = 0 <;> simp [hmap, hp]
  -- an instance of the map with players inside leaves what it had, or nothing
  split <;> omega

/-- What a turn leaves: the rest of the queue and what was inserted. -/
theorem turn_queue (hw : w.Good cfg) (hmaps : cfg.DelaysFit) (hl : w.LeaversLater cfg)
    (h : w.turn cfg = some w') : ∃ front rest added, w.queue = front :: rest ∧
      front.time < w.now ∧ w'.queue.Perm (added ++ rest) ∧ w.nextNode ≤ w'.nextNode ∧
      (∀ n ∈ added, w.nextNode ≤ n.node) ∧
      (∀ k, w.nextNode ≤ k → k < w'.nextNode → k ∈ added.map (·.node)) ∧
      w'.processed = w.noted front ∧ w'.now = w.now ∧ w'.lateSeconds < w.lateSeconds := by
  obtain ⟨front, rest, hq, hnow, hcases⟩ := turn_cases hw hmaps hl h
  have hlate : 0 < lateNode w.now front := by
    unfold lateNode
    omega
  have hsum : (w.queue.map (lateNode w.now)).sum =
      lateNode w.now front + (rest.map (lateNode w.now)).sum := by
    rw [hq, map_cons, sum_cons]
  have hnew : ∀ time, front.time < time → ∀ event k,
      lateNode w.now ⟨time, event, k⟩ < lateNode w.now front := by
    intro time htime event k
    unfold lateNode
    dsimp only
    omega
  refine ⟨front, rest, ?_⟩
  rcases hcases with ⟨-, rfl⟩ | ⟨time, type, -, htime, -, -, -, rfl⟩ |
    ⟨resetTime, time, type, -, htime, -, -, -, rfl⟩
  · refine ⟨[], hq, hnow, .refl _, le_rfl, nofun,
      fun k h1 h2 => absurd h2 (not_lt.mpr h1), rfl, rfl, ?_⟩
    have hinside := lateInside_resetInstance (w := w) w.now front.event.mapid front.event.instanceId
    rw [lateSeconds_eq, lateSeconds_eq, hsum]
    dsimp only [afterNormal]
    omega
  · refine ⟨[_], hq, hnow, insertAfter_perm _ _ _, Nat.le_succ _, fun n hn => ?_, fun k h1 h2 => ?_,
      rfl, rfl, ?_⟩
    · rw [mem_singleton.mp hn]
    · exact mem_singleton.mpr (le_antisymm (Nat.le_of_lt_succ h2) h1)
    · unfold afterWarning
      rw [lateSeconds_eq, lateSeconds_eq, hsum, ((insertAfter_perm _ _ _).map _).sum_eq,
        map_cons, sum_cons]
      exact Nat.add_lt_add_right (Nat.add_lt_add_right (hnew time htime _ _) _) _
  · have hperm := w.afterReset_queue cfg front rest time type resetTime
    refine ⟨_, hq, hnow, hperm, by show w.nextNode ≤ _ + 1; omega, fun n hn => ?_, fun k h1 h2 => ?_,
      rfl, rfl, ?_⟩
    · rcases mem_cons.mp hn with rfl | hn
      · exact Nat.le_add_right _ _
      · exact (mem_leaverNodes hn).1
    · rcases Nat.lt_or_ge k (w.nextNode + (w.leavers cfg front.event.mapid).length) with h | h
      · exact mem_cons_of_mem _ (mem_leaverNodes_of_lt h1 h)
      · exact mem_cons.mpr (.inl (le_antisymm (Nat.le_of_lt_succ h2) h))
    · have hinside : ((w.resetInstances _).entries.map _).sum + ((w.leaving cfg _).map _).sum ≤ _ :=
        lateInside_resetInstances cfg w w.now front.event.mapid w.nextNode
      have hlt : lateNode w.now (w.nextReset cfg front time type) < _ := hnew time htime _ _
      rw [lateSeconds_eq, lateSeconds_eq, hsum, (hperm.map _).sum_eq, cons_append,
        map_cons, sum_cons, map_append, sum_append]
      dsimp only [afterReset]
      omega

end ResetWorld

end Windrunner
