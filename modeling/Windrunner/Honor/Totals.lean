import Windrunner.Honor.State
import Windrunner.Lib.Run

/-!
# Every kill counts once, but for one day

`HonorWorld.Booked` says where the kills of a character are: those before the week in the counters,
and those since the day before the week in the table or with the player. The day before the week is
in both places: the maintenance counts the last day of the week it closes and keeps its records for
the honor tab. `Update` leaves the honorable ones of that day out, but counts the dishonorable ones
again (`login_totals_iff`).
-/

namespace Windrunner

open Lib List SortedMap
open Option hiding filter_filter filter_map map_map

/-! ## The loops -/

namespace HonorMgr

theorem count_foldl (today weekBegin : Nat) (l : List HonorCP) (m : HonorMgr) :
    (l.foldl (count today weekBegin) m).totalHK =
        m.totalHK + l.countP (fun c => c.type == .honorable && weekBegin ≤ c.date) ∧
      (l.foldl (count today weekBegin) m).totalDK =
        m.totalDK + l.countP (·.type == .dishonorable) ∧
      (l.foldl (count today weekBegin) m).honorCP = m.honorCP ∧
      (l.foldl (count today weekBegin) m).storedHK = m.storedHK ∧
      (l.foldl (count today weekBegin) m).storedDK = m.storedDK := by
  induction l generalizing m with
  | nil => exact ⟨rfl, rfl, rfl, rfl, rfl⟩
  | cons c l ih =>
    obtain ⟨h1, h2, h3, h4, h5⟩ := ih (count today weekBegin m c)
    rw [foldl_cons, h1, h2, h3, h4, h5, countP_cons, countP_cons]
    unfold count
    cases ht : c.type with
    | honorable =>
      by_cases hd : weekBegin ≤ c.date
      · simp [hd]; omega
      · simp [hd]
    | dishonorable => simp; omega
    | bonus => simp
    | quest => simp
    | other => simp

theorem update_spec (m : HonorMgr) (today weekBegin : Nat) :
    (m.update today weekBegin).totalHK =
        m.storedHK + m.honorCP.countP (fun c => c.type == .honorable && weekBegin ≤ c.date) ∧
      (m.update today weekBegin).totalDK =
        m.storedDK + m.honorCP.countP (·.type == .dishonorable) ∧
      (m.update today weekBegin).honorCP = m.honorCP ∧
      (m.update today weekBegin).storedHK = m.storedHK ∧
      (m.update today weekBegin).storedDK = m.storedDK :=
  count_foldl today weekBegin m.honorCP _

end HonorMgr

namespace HonorDb

variable {db : HonorDb} {m : HonorMaintenancer}

theorem countBetween_eq_zero {guid : Nat} (h : ((db.rowsOf guid).any fun c =>
    m.weekBeginDay ≤ c.date && c.date ≤ m.weekEndDay) = false) (type : HonorType) :
    db.countBetween guid type m.weekBeginDay m.weekEndDay = 0 := by
  unfold countBetween
  rw [countP_eq_zero]
  intro c hc
  have hd := any_eq_false.mp h c hc
  rw [Bool.and_eq_true]
  exact fun hcon => hd hcon.2

/-- What the flush leaves in the counters of a character. -/
theorem flush_find (db : HonorDb) (m : HonorMaintenancer) (guid : Nat) :
    (db.flushRankPoints m (db.loadWeeklyScores m)).characters.find guid =
      (db.characters.find guid).map fun c =>
        ⟨c.storedHK + db.countBetween guid .honorable m.weekBeginDay m.weekEndDay,
          c.storedDK + db.countBetween guid .dishonorable m.weekBeginDay m.weekEndDay⟩ := by
  have hloop := find_foldl
    (f := fun (cs : SortedMap Nat HonorCharacter) (pair : Nat × WeeklyScore) =>
      cs.modify pair.1 fun c =>
        { c with storedHK := c.storedHK + pair.2.hk, storedDK := c.storedDK + pair.2.dk })
    (k := fun pair => some pair.1)
    (g := fun pair o => o.map fun c =>
      { c with storedHK := c.storedHK + pair.2.hk, storedDK := c.storedDK + pair.2.dk })
    (fun cs pair c => by
      rw [find_modify]
      simp only [some.injEq, eq_comm])
    (l := (db.loadWeeklyScores m).entries)
    ((db.loadWeeklyScores m).keys_pairwise.imp fun hne c hx hy =>
      hne (some.inj (hx.trans hy.symm)))
    db.characters guid
  have hfind : (db.loadWeeklyScores m).find guid = _ := find_mapVal _ _ guid
  rw [find_filter] at hfind
  cases hc : db.characters.find guid with
  | none =>
    rw [hc] at hfind
    refine (hloop.2 fun x hx hk => ?_).trans hc
    obtain rfl := some.inj hk
    rw [mem_entries_iff.mp hx] at hfind
    cases hfind
  | some c =>
    rw [hc] at hfind hloop
    by_cases hany : ((db.rowsOf guid).any fun c =>
        m.weekBeginDay ≤ c.date && c.date ≤ m.weekEndDay) = true
    · rw [filter_some, if_pos hany] at hfind
      exact hloop.1 _ (mem_entries_iff.mpr hfind) rfl
    · -- a character without records in the week gets nothing
      have hzero := countBetween_eq_zero (Bool.not_eq_true _ ▸ hany)
      rw [filter_some, if_neg hany] at hfind
      rw [map_some, hzero, hzero]
      refine hloop.2 fun x hx hk => ?_
      obtain rfl := some.inj hk
      rw [mem_entries_iff.mp hx] at hfind
      cases hfind

/-- What the flush leaves in the table of a character. -/
theorem flush_rowsOf (db : HonorDb) (m : HonorMaintenancer) (scores : SortedMap Nat WeeklyScore)
    (guid : Nat) : (db.flushRankPoints m scores).rowsOf guid =
      (db.rowsOf guid).filter fun c => m.weekEndDay ≤ c.date := by
  unfold rowsOf flushRankPoints
  rw [filter_map, filter_filter, filter_filter]
  congr 1
  apply filter_congr
  intro r _
  simp only [Function.comp_apply, Bool.and_comm, ← decide_not, not_lt]

end HonorDb

/-! ## Where the kills are -/

/-- The kills of a type among some records. -/
def killsIn (l : List HonorCP) (type : HonorType) : Nat := l.countP (·.type == type)

namespace HonorWorld

variable {cfg : HonorConfig} {w : HonorWorld} {guid g : Nat}

/-- The first day of the week. -/
abbrev weekBegin (w : HonorWorld) : Nat := w.maintenancer.lastMaintenanceDay

/-- The records that are with the player only. -/
def unsaved (w : HonorWorld) (guid : Nat) : List HonorCP :=
  match w.online.find guid with
  | some m => m.honorCP.filter (·.isNew)
  | none => []

/-- The history from the day before the week on. -/
def recent (w : HonorWorld) (guid : Nat) : List HonorCP :=
  (w.history guid).filter fun c => w.weekBegin ≤ c.date + 1

/-- The kills of a type before the week. -/
def storedKills (w : HonorWorld) (guid : Nat) (type : HonorType) : Nat :=
  (w.history guid).countP fun c => c.type == type && decide (c.date < w.weekBegin)

/-- Where the records of a character are. -/
structure Booked (w : HonorWorld) (guid : Nat) : Prop where
  settled : ∀ c ∈ w.history guid, c.isNew = false
  kept : w.db.rowsOf guid ++ (w.unsaved guid).map HonorCP.unchanged = w.recent guid
  stored : ∀ c, w.db.characters.find guid = some c →
    c.storedHK = w.storedKills guid .honorable ∧ c.storedDK = w.storedKills guid .dishonorable
  player : ∀ m, w.online.find guid = some m →
    m.honorCP = w.db.rowsOf guid ++ w.unsaved guid ∧
      w.db.characters.find guid = some ⟨m.storedHK, m.storedDK⟩
  absent : w.db.characters.find guid = none → w.history guid = []

/-- The maintenance days are in order, and every character is booked. -/
structure Good (w : HonorWorld) : Prop where
  started : 0 < w.weekBegin
  next : w.maintenancer.nextMaintenanceDay = w.weekBegin + 7
  today : w.weekBegin ≤ w.gameDay
  marker : w.maintenancer.markerToStart = true → w.maintenancer.nextMaintenanceDay ≤ w.gameDay
  saved : w.db.savedVariables = some w.maintenancer
  booked : ∀ g, w.Booked g

theorem Booked.rows_settled (h : w.Booked guid) {c : HonorCP} (hc : c ∈ w.db.rowsOf guid) :
    c.isNew = false := by
  have hm : c ∈ w.recent guid := h.kept ▸ mem_append_left _ hc
  exact h.settled c (mem_filter.mp hm).1

theorem Booked.rows_unchanged (h : w.Booked guid) :
    (w.db.rowsOf guid).map HonorCP.unchanged = w.db.rowsOf guid := by
  refine (map_congr_left fun c hc => ?_).trans (map_id _)
  have hs := h.rows_settled hc
  unfold HonorCP.unchanged
  rw [← hs]
  rfl

theorem Booked.rows_new (h : w.Booked guid) : (w.db.rowsOf guid).filter (·.isNew) = [] := by
  rw [filter_eq_nil_iff]
  intro c hc
  rw [h.rows_settled hc]
  decide

/-- What is new with a player stays so. -/
theorem unsaved_new {c : HonorCP} (hc : c ∈ w.unsaved guid) : c.isNew = true := by
  unfold unsaved at hc
  split at hc
  · exact (mem_filter.mp hc).2
  · cases hc

/-- A step that touches nothing of a character. -/
theorem Booked.congr {w' : HonorWorld} (h : w.Booked guid)
    (hrows : w'.db.rowsOf guid = w.db.rowsOf guid)
    (hchar : w'.db.characters.find guid = w.db.characters.find guid)
    (honline : w'.online.find guid = w.online.find guid)
    (hhist : w'.history guid = w.history guid) (hweek : w'.weekBegin = w.weekBegin) :
    w'.Booked guid := by
  have hu : w'.unsaved guid = w.unsaved guid := by unfold unsaved; rw [honline]
  have hr : w'.recent guid = w.recent guid := by unfold recent; rw [hhist, hweek]
  have hk : ∀ type, w'.storedKills guid type = w.storedKills guid type := fun type => by
    unfold storedKills; rw [hhist, hweek]
  refine ⟨?_, ?_, ?_, ?_, ?_⟩
  · rw [hhist]; exact h.settled
  · rw [hrows, hu, hr]; exact h.kept
  · intro c hc
    rw [hk, hk]
    exact h.stored c (hchar ▸ hc)
  · intro m hm
    rw [hrows, hu, hchar]
    exact h.player m (honline ▸ hm)
  · rw [hchar, hhist]; exact h.absent

/-! ## The steps -/

theorem updated_spec (w : HonorWorld) (m : HonorMgr) :
    (w.updated m).honorCP = m.honorCP ∧ (w.updated m).storedHK = m.storedHK ∧
      (w.updated m).storedDK = m.storedDK :=
  (m.update_spec w.gameDay w.maintenancer.weekBeginDay).2.2

/-- A player whose records are those of the table and new ones. -/
theorem unsaved_of_player {w' : HonorWorld} {m : HonorMgr} {l fresh : List HonorCP}
    (hm : w'.online.find guid = some m) (hcp : m.honorCP = l ++ fresh)
    (hl : l.filter (·.isNew) = []) (hf : ∀ c ∈ fresh, c.isNew = true) :
    w'.unsaved guid = fresh := by
  unfold unsaved
  rw [hm]
  dsimp only
  rw [hcp, filter_append, hl, nil_append]
  exact filter_eq_self.mpr hf

theorem good_login (h : w.Good) (guid : Nat) : (w.login guid).Good := by
  unfold login
  split
  · rename_i c hn hc
    refine { h with booked := fun g => ?_ }
    have hb := h.booked g
    by_cases hg : g = guid
    · subst hg
      obtain ⟨hcp, hhk, hdk⟩ := w.updated_spec (w.db.loadHonor g c)
      have hload : (w.db.loadHonor g c).honorCP = w.db.rowsOf g ++ [] :=
        hb.rows_unchanged.trans (append_nil _).symm
      set w' : HonorWorld :=
        { w with online := w.online.insert g (w.updated (w.db.loadHonor g c)) } with hw'
      have hfind : w'.online.find g = some (w.updated (w.db.loadHonor g c)) :=
        (find_insert ..).trans (if_pos rfl)
      have hu : w'.unsaved g = [] := unsaved_of_player hfind (hcp.trans hload) hb.rows_new (by simp)
      have hkept := hb.kept
      rw [show w.unsaved g = [] by unfold unsaved; rw [hn]] at hkept
      refine ⟨hb.settled, by rw [hu]; exact hkept, hb.stored, fun m hm => ?_, hb.absent⟩
      rw [hfind] at hm
      obtain rfl := some.inj hm
      rw [hu, hcp, hhk, hdk]
      exact ⟨hload, hc⟩
    · refine hb.congr rfl rfl ?_ rfl rfl
      exact (find_insert ..).trans (if_neg hg)
  · exact h

theorem good_record (h : w.Good) {m : HonorMgr} (hm : w.online.find guid = some m) {c : HonorCP}
    (hd : c.date = w.gameDay) (hc : c.isNew = true) : (w.record guid m c).Good := by
  refine { h with booked := fun g => ?_ }
  have hb := h.booked g
  by_cases hg : g = guid
  · subst hg
    obtain ⟨hpl, hpc⟩ := hb.player m hm
    obtain ⟨hcp, hhk, hdk⟩ := w.updated_spec { m with honorCP := m.honorCP ++ [c] }
    have hfind : (w.record g m c).online.find g =
        some (w.updated { m with honorCP := m.honorCP ++ [c] }) :=
      (find_insert ..).trans (if_pos rfl)
    have hhist : (w.record g m c).history g = w.history g ++ [c.unchanged] := if_pos rfl
    have hnew : m.honorCP ++ [c] = w.db.rowsOf g ++ (w.unsaved g ++ [c]) := by
      rw [hpl, append_assoc]
    have hu : (w.record g m c).unsaved g = w.unsaved g ++ [c] := by
      refine unsaved_of_player hfind (hcp.trans hnew) hb.rows_new fun x hx => ?_
      rcases mem_append.mp hx with hx | hx
      · exact unsaved_new hx
      · rw [mem_singleton.mp hx]; exact hc
    have hdate : w.weekBegin ≤ c.date + 1 := hd ▸ Nat.le_succ_of_le h.today
    refine ⟨fun k hk => ?_, ?_, fun x hx => ?_, fun m' hm' => ?_, fun hn => ?_⟩
    · rw [hhist] at hk
      rcases mem_append.mp hk with hk | hk
      · exact hb.settled k hk
      · rw [mem_singleton.mp hk]; rfl
    · rw [hu, map_append, ← append_assoc]
      show w.db.rowsOf g ++ _ ++ _ = _
      rw [hb.kept]
      unfold recent
      rw [hhist, filter_append]
      congr 1
      refine (filter_eq_self.mpr fun x hx => ?_).symm
      rw [mem_singleton.mp hx]
      exact decide_eq_true hdate
    · -- the day of the record is in the week
      have hk : ∀ ty, (w.record g m c).storedKills g ty = w.storedKills g ty := by
        intro ty
        unfold storedKills
        rw [hhist, countP_append, countP_singleton]
        have hlt : ¬ c.unchanged.date < (w.record g m c).weekBegin :=
          Nat.not_lt.mpr (show w.weekBegin ≤ c.date from hd ▸ h.today)
        rw [decide_eq_false hlt, Bool.and_false]
        rfl
      rw [hk, hk]
      exact hb.stored x hx
    · rw [hfind] at hm'
      obtain rfl := some.inj hm'
      rw [hcp, hhk, hdk, hu]
      exact ⟨hnew, hpc⟩
    · have hx : w.db.characters.find g = none := hn
      rw [hpc] at hx
      cases hx
  · refine hb.congr rfl rfl ?_ (if_neg hg) rfl
    exact (find_insert ..).trans (if_neg hg)

theorem good_add (h : w.Good) (guid : Nat) (cp : ℚ) (type : HonorType)
    (victimType victimId : Nat) : (w.add cfg guid cp type victimType victimId).Good := by
  unfold add
  split
  · exact h
  · rename_i m hm
    split_ifs
    · exact h
    · exact h
    · exact good_record h hm rfl rfl

theorem rowsOf_append (db : HonorDb) (l : List HonorCP) (guid g : Nat) :
    ({ db with honorCp := db.honorCp ++ l.map fun c => { guid, cp := c } } : HonorDb).rowsOf g =
      db.rowsOf g ++ if g = guid then l else [] := by
  unfold HonorDb.rowsOf
  rw [filter_append, map_append, filter_map]
  congr 1
  by_cases hg : g = guid
  · subst hg
    simp [Function.comp_def]
  · simp [Function.comp_def, hg, Ne.symm hg]

theorem good_savePlayer (h : w.Good) {m m' : HonorMgr} (hm : w.online.find guid = some m)
    (hcp : m'.honorCP = m.honorCP) (hhk : m'.storedHK = m.storedHK)
    (hdk : m'.storedDK = m.storedDK) : (w.savePlayer guid m').Good := by
  refine { h with booked := fun g => ?_ }
  have hb := h.booked g
  have hrows : (w.savePlayer guid m').db.rowsOf g = w.db.rowsOf g ++
      if g = guid then (m.honorCP.filter (·.isNew)).map HonorCP.unchanged else [] := by
    rw [← rowsOf_append, ← hcp, map_map]
    rfl
  have hchar : (w.savePlayer guid m').db.characters.find g = w.db.characters.find g := by
    refine (find_modify ..).trans ?_
    by_cases hg : g = guid
    · subst hg
      rw [if_pos rfl, (hb.player m hm).2, hhk, hdk]
      rfl
    · exact if_neg hg
  by_cases hg : g = guid
  · subst hg
    rw [if_pos rfl] at hrows
    obtain ⟨hpl, hpc⟩ := hb.player m hm
    have hold : w.unsaved g = m.honorCP.filter (·.isNew) := by unfold unsaved; rw [hm]
    rw [← hold, hb.kept] at hrows
    have hfind : (w.savePlayer g m').online.find g =
        some { m' with honorCP := m'.honorCP.map HonorCP.unchanged } :=
      (find_insert ..).trans (if_pos rfl)
    -- everything is in the table now
    have hall : m'.honorCP.map HonorCP.unchanged = w.recent g ++ [] := by
      rw [hcp, hpl, map_append, hb.rows_unchanged, hb.kept, append_nil]
    have hu : (w.savePlayer g m').unsaved g = [] := by
      refine unsaved_of_player hfind hall ?_ (by simp)
      rw [filter_eq_nil_iff]
      intro c hc
      rw [hb.settled c (mem_filter.mp hc).1]
      decide
    refine ⟨hb.settled, ?_, ?_, fun m'' hm'' => ?_, ?_⟩
    · rw [hu, hrows]; exact append_nil _
    · rw [hchar]; exact hb.stored
    · rw [hfind] at hm''
      obtain rfl := some.inj hm''
      rw [hu, hrows, hchar]
      exact ⟨hall, by rw [hpc]; dsimp only; rw [hhk, hdk]⟩
    · rw [hchar]; exact hb.absent
  · rw [if_neg hg, append_nil] at hrows
    exact hb.congr hrows hchar ((find_insert ..).trans (if_neg hg)) rfl rfl

theorem good_save (h : w.Good) (guid : Nat) : (w.save guid).Good := by
  unfold save
  split
  · exact h
  · rename_i m hm
    obtain ⟨hcp, hhk, hdk⟩ := w.updated_spec m
    exact good_savePlayer h hm hcp hhk hdk

/-- After a save nothing is with the player only. -/
theorem unsaved_save (w : HonorWorld) (guid : Nat) : (w.save guid).unsaved guid = [] := by
  unfold save
  split
  · rename_i hm
    unfold unsaved
    rw [hm]
  · rename_i m hm
    unfold unsaved
    rw [show (w.savePlayer guid (w.updated m)).online.find guid = some
      { w.updated m with honorCP := (w.updated m).honorCP.map HonorCP.unchanged } from
      (find_insert ..).trans (if_pos rfl)]
    dsimp only
    rw [filter_eq_nil_iff]
    intro c hc
    obtain ⟨x, -, rfl⟩ := mem_map.mp hc
    exact Bool.false_ne_true

theorem good_logout (h : w.Good) (guid : Nat) : (w.logout guid).Good := by
  have hs := good_save h guid
  have hu := w.unsaved_save guid
  refine { hs with booked := fun g => ?_ }
  have hb := hs.booked g
  have hfind : (w.logout guid).online.find g =
      if g = guid then none else (w.save guid).online.find g := find_erase ..
  by_cases hg : g = guid
  · subst hg
    rw [if_pos rfl] at hfind
    have hu' : (w.logout g).unsaved g = [] := by unfold unsaved; rw [hfind]
    refine ⟨hb.settled, ?_, hb.stored, fun m hm => ?_, hb.absent⟩
    · have hk := hb.kept
      rw [hu] at hk
      rw [hu']
      exact hk
    · rw [hfind] at hm; cases hm
  · rw [if_neg hg] at hfind
    exact hb.congr rfl rfl hfind rfl rfl

theorem good_create (h : w.Good) (guid : Nat) : (w.step cfg (.create guid)).Good := by
  unfold step
  dsimp only
  split
  · exact h
  · rename_i hn
    refine { h with booked := fun g => ?_ }
    have hb := h.booked g
    by_cases hg : g = guid
    · subst hg
      have hhist := hb.absent hn
      refine ⟨hb.settled, hb.kept, fun c hc => ?_, fun m hm => ?_, fun _ => hhist⟩
      · obtain rfl := some.inj (hc.symm.trans
          ((find_insert ..).trans (if_pos rfl)))
        unfold storedKills
        rw [show ({ w with db := _ } : HonorWorld).history g = [] from hhist]
        exact ⟨rfl, rfl⟩
      · have hp := (hb.player m hm).2
        rw [hn] at hp
        cases hp
    · exact hb.congr rfl ((find_insert ..).trans (if_neg hg)) rfl rfl rfl

theorem good_checkMaintenanceDay (h : w.Good) : w.checkMaintenanceDay.Good := by
  unfold checkMaintenanceDay
  split_ifs with hc
  · exact ⟨h.started, h.next, h.today, fun _ => hc.1, rfl,
      fun g => (h.booked g).congr rfl rfl rfl rfl rfl⟩
  · exact h

/-- A server that starts finds its maintenance days. -/
theorem initializeMaintenance_eq (h : w.Good) (wday : UInt32) :
    w.initializeMaintenance cfg wday = w := by
  unfold initializeMaintenance
  rw [h.saved]
  exact if_neg (Nat.ne_of_gt h.started)

/-- The kills of a week are those of the history, seen through the table. -/
theorem countBetween_week (h : w.Good) (hn : w.online.find g = none) (type : HonorType) :
    w.db.countBetween g type w.weekBegin (w.weekBegin + 6) =
      (w.history g).countP fun c => c.type == type &&
        (w.weekBegin ≤ c.date && c.date ≤ w.weekBegin + 6) := by
  have hk := (h.booked g).kept
  rw [show w.unsaved g = [] by unfold unsaved; rw [hn], map_nil, append_nil] at hk
  unfold HonorDb.countBetween
  rw [hk]
  unfold recent
  rw [countP_filter]
  apply countP_congr
  intro c _
  simp only [Bool.and_eq_true, beq_iff_eq, decide_eq_true_eq]
  exact and_iff_left_of_imp fun hc => Nat.le_succ_of_le hc.2.1

theorem storedKills_add (l : List HonorCP) (type : HonorType) (first : Nat) :
    l.countP (fun c => c.type == type && decide (c.date < first)) +
      l.countP (fun c => c.type == type && (first ≤ c.date && c.date ≤ first + 6)) =
      l.countP (fun c => c.type == type && decide (c.date < first + 7)) := by
  induction l with
  | nil => rfl
  | cons c l ih =>
    rw [countP_cons, countP_cons, countP_cons, ← ih]
    by_cases ht : c.type = type
    · simp only [ht, BEq.rfl, Bool.true_and, Bool.and_eq_true, decide_eq_true_eq]
      split_ifs <;> omega
    · simp [ht]

/-- A flush of the week moves its kills into the counters. -/
theorem Booked.flush {w' : HonorWorld} (h : w.Good) (hoff : w.online.find g = none)
    (hrows : w'.db.rowsOf g = (w.db.rowsOf g).filter fun c => w.weekBegin + 6 ≤ c.date)
    (hchar : w'.db.characters.find g = (w.db.characters.find g).map fun c =>
      ⟨c.storedHK + w.db.countBetween g .honorable w.weekBegin (w.weekBegin + 6),
        c.storedDK + w.db.countBetween g .dishonorable w.weekBegin (w.weekBegin + 6)⟩)
    (honline : w'.online.find g = none) (hhist : w'.history g = w.history g)
    (hweek : w'.weekBegin = w.weekBegin + 7) : w'.Booked g := by
  have hb := h.booked g
  have hk := hb.kept
  rw [show w.unsaved g = [] by unfold unsaved; rw [hoff], map_nil, append_nil] at hk
  have hu : w'.unsaved g = [] := by unfold unsaved; rw [honline]
  have hstored : ∀ type, w'.storedKills g type =
      w.storedKills g type + w.db.countBetween g type w.weekBegin (w.weekBegin + 6) := by
    intro type
    rw [countBetween_week h hoff]
    unfold storedKills
    rw [hhist, hweek]
    exact (storedKills_add (w.history g) type w.weekBegin).symm
  refine ⟨by rw [hhist]; exact hb.settled, ?_, fun c hc => ?_, fun m hm => ?_, fun hn => ?_⟩
  · rw [hu, map_nil, append_nil, hrows, hk]
    unfold recent
    rw [filter_filter, hhist, hweek]
    apply filter_congr
    intro c _
    rw [← Bool.decide_and]
    exact decide_eq_decide.mpr (by omega)
  · rw [hchar, map_eq_some_iff] at hc
    obtain ⟨x, hx, rfl⟩ := hc
    obtain ⟨h1, h2⟩ := hb.stored x hx
    rw [hstored, hstored, ← h1, ← h2]
    exact ⟨rfl, rfl⟩
  · rw [honline] at hm; cases hm
  · rw [hchar, map_eq_none_iff] at hn
    rw [hhist]
    exact hb.absent hn

theorem good_doMaintenance (h : w.Good) (hoff : ∀ g, w.online.find g = none) :
    w.doMaintenance.Good := by
  by_cases hm : w.maintenancer.markerToStart = true
  · -- the new week starts with the day after the one that was flushed
    have hbegin : w.doMaintenance.weekBegin = w.weekBegin + 7 := by
      unfold doMaintenance
      rw [if_pos hm]
      exact h.next
    have hdb : w.doMaintenance.db =
        { w.db.flushRankPoints w.maintenancer (w.db.loadWeeklyScores w.maintenancer) with
          savedVariables := some w.doMaintenance.maintenancer } := by
      unfold doMaintenance
      rw [if_pos hm]
      rfl
    have hrest : w.doMaintenance.online = w.online ∧ w.doMaintenance.history = w.history ∧
        w.doMaintenance.gameDay = w.gameDay ∧
        w.doMaintenance.maintenancer.nextMaintenanceDay = w.doMaintenance.weekBegin + 7 ∧
        w.doMaintenance.maintenancer.markerToStart = false := by
      unfold doMaintenance
      rw [if_pos hm]
      refine ⟨rfl, rfl, rfl, rfl, ?_⟩
      show (!w.maintenancer.markerToStart) = false
      rw [hm]
      rfl
    obtain ⟨honline, hhist, hday, hnext, hmark⟩ := hrest
    refine ⟨by omega, hnext, ?_, fun hf => ?_, by rw [hdb], fun g => ?_⟩
    · rw [hbegin, hday, ← h.next]
      exact h.marker hm
    · rw [hmark] at hf; cases hf
    · refine Booked.flush h (hoff g) ?_ ?_ (by rw [honline]; exact hoff g) (by rw [hhist]) hbegin
      · rw [hdb]
        exact w.db.flush_rowsOf w.maintenancer (w.db.loadWeeklyScores w.maintenancer) g
      · rw [hdb]
        exact w.db.flush_find w.maintenancer g
  · unfold doMaintenance
    rw [if_neg hm]
    exact h

theorem find_of_isEmpty {m : SortedMap Nat HonorMgr} (h : m.entries.isEmpty = true) (g : Nat) :
    m.find g = none := by
  unfold find
  rw [isEmpty_iff.mp h]
  rfl

theorem good_step (h : w.Good) (i : HonorInput) : (w.step cfg i).Good := by
  cases i with
  | newDays days =>
    refine ⟨h.started, h.next, Nat.le_add_right_of_le h.today,
      fun hm => Nat.le_add_right_of_le (h.marker hm), h.saved, fun g => ?_⟩
    exact (h.booked g).congr rfl rfl rfl rfl rfl
  | create guid => exact good_create h guid
  | login guid => exact good_login h guid
  | add guid cp type victimType victimId => exact good_add h guid cp type victimType victimId
  | save guid => exact good_save h guid
  | logout guid => exact good_logout h guid
  | checkMaintenanceDay => exact good_checkMaintenanceDay h
  | serverStart wday =>
    unfold step
    dsimp only
    split_ifs with he
    · rw [initializeMaintenance_eq h]
      exact good_doMaintenance h fun g => find_of_isEmpty he g
    · exact h

theorem good_newRealm (cfg : HonorConfig) {gameDay : Nat} (hd : 7 ≤ gameDay) (wday : UInt32) :
    (newRealm cfg gameDay wday).Good := by
  have hlt : ((wday - cfg.maintenanceDay + 7) % 7).toNat < 7 := by
    rw [UInt32.toNat_mod]
    exact Nat.mod_lt _ (by decide)
  have hbegin : (newRealm cfg gameDay wday).weekBegin =
      gameDay - ((wday - cfg.maintenanceDay + 7) % 7).toNat := rfl
  refine ⟨by omega, rfl, ?_, fun hm => (by cases hm), rfl, fun g => ?_⟩
  · rw [hbegin]
    exact Nat.sub_le _ _
  · refine ⟨fun _ hc => ?_, rfl, fun _ hc => ?_, fun _ hm => ?_, fun _ => rfl⟩
    · cases hc
    · cases hc
    · cases hm

/-! ## The totals at a login -/

/-- The records of a dishonorable kill on the day before the week, which the counter has and the
table keeps. -/
def countedTwice (w : HonorWorld) (guid : Nat) : Nat :=
  (w.history guid).countP fun c => c.type == .dishonorable && decide (c.date + 1 = w.weekBegin)

theorem split_at (l : List HonorCP) (type : HonorType) (first : Nat) :
    l.countP (fun c => c.type == type && decide (c.date < first)) +
      l.countP (fun c => (c.type == type && first ≤ c.date) && decide (first ≤ c.date + 1)) =
      killsIn l type ∧
    l.countP (fun c => c.type == type && decide (c.date < first)) +
      l.countP (fun c => c.type == type && decide (first ≤ c.date + 1)) =
      killsIn l type + l.countP (fun c => c.type == type && decide (c.date + 1 = first)) := by
  unfold killsIn
  induction l with
  | nil => exact ⟨rfl, rfl⟩
  | cons c l ih =>
    simp only [countP_cons]
    by_cases ht : c.type = type
    · simp only [ht, BEq.rfl, Bool.true_and, Bool.and_eq_true, decide_eq_true_eq, if_true] at ih ⊢
      split_ifs <;> omega
    · simp only [beq_eq_false_iff_ne.mpr ht, Bool.false_and, Bool.false_eq_true, if_false] at ih ⊢
      omega

/-- What a login computes: the honorable kills, and the dishonorable ones with those of one day
twice. -/
theorem login_totals (h : w.Good) (hoff : w.online.find guid = none) {m : HonorMgr}
    (hm : (w.login guid).online.find guid = some m) :
    m.totalHK = killsIn (w.history guid) .honorable ∧
      m.totalDK = killsIn (w.history guid) .dishonorable + w.countedTwice guid := by
  have hb := h.booked guid
  unfold login at hm
  rw [hoff] at hm
  cases hc : w.db.characters.find guid with
  | none =>
    rw [hc] at hm
    have hm' : w.online.find guid = some m := hm
    rw [hoff] at hm'
    cases hm'
  | some c =>
    rw [hc] at hm
    obtain rfl := some.inj (hm.symm.trans ((find_insert ..).trans (if_pos rfl)))
    have hk := hb.kept
    rw [show w.unsaved guid = [] by unfold unsaved; rw [hoff], map_nil, append_nil] at hk
    obtain ⟨h1, h2, -⟩ := (w.db.loadHonor guid c).update_spec w.gameDay w.weekBegin
    have hload : (w.db.loadHonor guid c).honorCP = w.recent guid := hb.rows_unchanged.trans hk
    obtain ⟨hs1, hs2⟩ := hb.stored c hc
    have hu : w.updated (w.db.loadHonor guid c) =
        (w.db.loadHonor guid c).update w.gameDay w.weekBegin := rfl
    rw [hu, h1, h2, hload]
    unfold recent
    rw [countP_filter, countP_filter]
    refine ⟨?_, ?_⟩
    · rw [show (w.db.loadHonor guid c).storedHK = c.storedHK from rfl, hs1]
      exact (split_at (w.history guid) .honorable w.weekBegin).1
    · rw [show (w.db.loadHonor guid c).storedDK = c.storedDK from rfl, hs2]
      exact (split_at (w.history guid) .dishonorable w.weekBegin).2

/-- The player that a login makes has the totals of the kills made so far. -/
def TotalsRight (cfg : HonorConfig) (w : HonorWorld) : HonorInput → Prop
  | .login guid => w.online.find guid = none → ∀ m ∈ (w.step cfg (.login guid)).online.find guid,
      m.totalHK = killsIn (w.history guid) .honorable ∧
        m.totalDK = killsIn (w.history guid) .dishonorable
  | _ => True

/-- Who logs in made no dishonorable kill on the last day of the week that was closed last. -/
def NoLastDayKill (w : HonorWorld) : HonorInput → Prop
  | .login guid => w.online.find guid = none → ∀ c ∈ w.history guid,
      c.type = .dishonorable → c.date + 1 ≠ w.weekBegin
  | _ => True

instance (cfg : HonorConfig) (w : HonorWorld) : DecidablePred (TotalsRight cfg w) := fun i => by
  unfold TotalsRight
  cases i <;> infer_instance

instance (w : HonorWorld) : DecidablePred w.NoLastDayKill := fun i => by
  unfold NoLastDayKill
  cases i <;> infer_instance

theorem countedTwice_eq_zero (w : HonorWorld) (guid : Nat) : w.countedTwice guid = 0 ↔
    ∀ c ∈ w.history guid, c.type = .dishonorable → c.date + 1 ≠ w.weekBegin := by
  unfold countedTwice
  rw [countP_eq_zero]
  simp only [Bool.and_eq_true, beq_iff_eq, decide_eq_true_eq, not_and]

theorem login_right_iff (h : w.Good) (guid : Nat) :
    TotalsRight cfg w (.login guid) ↔ w.NoLastDayKill (.login guid) := by
  constructor
  · intro ht hoff
    rw [← countedTwice_eq_zero]
    cases hm : (w.login guid).online.find guid with
    | some m =>
      have h1 := (ht hoff m hm).2
      have h2 := (login_totals h hoff hm).2
      omega
    | none =>
      -- there is no such character, and nothing was recorded
      have hnone : w.db.characters.find guid = none := by
        cases hc : w.db.characters.find guid with
        | none => rfl
        | some c =>
          unfold login at hm
          rw [hoff, hc] at hm
          exact absurd (hm.symm.trans ((find_insert ..).trans (if_pos rfl))) (by simp)
      unfold countedTwice
      rw [(h.booked guid).absent hnone]
      rfl
  · intro hn hoff m hm
    obtain ⟨h1, h2⟩ := login_totals h hoff hm
    have hz := (w.countedTwice_eq_zero guid).mpr (hn hoff)
    exact ⟨h1, by omega⟩

theorem totalsRight_iff (h : w.Good) (i : HonorInput) :
    TotalsRight cfg w i ↔ w.NoLastDayKill i := by
  cases i with
  | login guid => exact login_right_iff h guid
  | newDays => exact Iff.rfl
  | create => exact Iff.rfl
  | add => exact Iff.rfl
  | save => exact Iff.rfl
  | logout => exact Iff.rfl
  | checkMaintenanceDay => exact Iff.rfl
  | serverStart => exact Iff.rfl

/-- In every run of a realm the totals are right at every login, exactly when at every login the
character made no dishonorable kill on the last day of the week that was closed last. -/
theorem login_totals_iff (cfg : HonorConfig) (gameDay : Nat) (hd : 7 ≤ gameDay) (wday : UInt32)
    (is : List HonorInput) :
    AlongRun (step cfg) (TotalsRight cfg) (newRealm cfg gameDay wday) is ↔
      AlongRun (step cfg) NoLastDayKill (newRealm cfg gameDay wday) is := by
  have hgood := good_newRealm cfg hd wday
  constructor
  · exact AlongRun.imp (I := Good) (fun w i h ht => ⟨(totalsRight_iff h i).mp ht, good_step h i⟩)
      hgood
  · exact AlongRun.imp (I := Good) (fun w i h hn => ⟨(totalsRight_iff h i).mpr hn, good_step h i⟩)
      hgood

end HonorWorld

/-! ## Two weeks -/

/-- Maintenance on the first day of the calendar's week. -/
def sundayConfig : HonorConfig := ⟨1, 0⟩

/-- A dishonorable kill on the `days`-th day after the start, and a login in the next week. -/
def killThenLogin (days : Nat) : List HonorInput :=
  [.create 1, .newDays days, .login 1, .add 1 10 .dishonorable 3 1976, .logout 1,
    .newDays (7 - days), .checkMaintenanceDay, .serverStart 0, .login 1]

/-- A kill in the middle of the week. -/
theorem killThenLogin_right : AlongRun (HonorWorld.step sundayConfig)
    (HonorWorld.TotalsRight sundayConfig) (.newRealm sundayConfig 14 0) (killThenLogin 3) :=
  (HonorWorld.login_totals_iff sundayConfig 14 (by decide) 0 _).mpr (by decide +kernel)

/-- A kill on its last day. -/
theorem killThenLogin_not_right : ¬ AlongRun (HonorWorld.step sundayConfig)
    (HonorWorld.TotalsRight sundayConfig) (.newRealm sundayConfig 14 0) (killThenLogin 6) := by
  decide +kernel

end Windrunner
