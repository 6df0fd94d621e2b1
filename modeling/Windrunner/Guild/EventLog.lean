import Windrunner.Lib.Ring
import Windrunner.Lib.Run
import Windrunner.Lib.Word

/-!
# The event log of a guild

A guild has its last events in a list, and in the table `guild_eventlog` a row for each of its last
`count` ones, `LogGuid` being the place in a ring. After a restart the list and the place of the
newest row come from the table.

The statements of an event are executed in the order in which they are sent. `run_eventLog`: the
list is not changed by a restart, and the table has the events of the list.
-/

namespace Windrunner

open Lib List UInt32

abbrev guildEventLogMaxRecords : Nat := 100

structure GuildEventLogEntry where
  eventType : UInt8
  playerGuid1 : UInt32
  playerGuid2 : UInt32
  newRank : UInt8
  timeStamp : UInt64
  deriving DecidableEq, Repr

/-- A row of `guild_eventlog`, with the key `(guildid, LogGuid)`. The columns of the guids are `int(11)`
and those of the type and the rank `tinyint`, all signed: guids from 2^31 on and types or ranks from
128 on are taken for values that the table holds, too. `LogGuid` is below the configured number of
rows. -/
structure EventLogRow where
  guildid : Nat
  logGuid : UInt32
  entry : GuildEventLogEntry
  deriving DecidableEq, Repr

structure GuildEventLog where
  /-- `m_GuildEventLog`, the oldest event first -/
  log : List GuildEventLogEntry := []
  nextGuid : UInt32 := 0
  deriving DecidableEq, Repr

structure EventLogWorld where
  table : List EventLogRow := []
  logs : Nat → GuildEventLog := fun _ => {}

namespace EventLogWorld

/-! ## The table -/

def rowsOf (s : EventLogWorld) (guildid : Nat) : List EventLogRow :=
  s.table.filter (·.guildid = guildid)

/-- An insert fails when its key is taken. -/
def insertRow (table : List EventLogRow) (row : EventLogRow) : List EventLogRow :=
  if table.any fun r => r.guildid = row.guildid ∧ r.logGuid = row.logGuid then table
  else table ++ [row]

/-- `ORDER BY TimeStamp DESC,LogGuid DESC` -/
def Newer (a b : EventLogRow) : Prop :=
  b.entry.timeStamp < a.entry.timeStamp ∨
    (a.entry.timeStamp = b.entry.timeStamp ∧ b.logGuid ≤ a.logGuid)

instance (a b : EventLogRow) : Decidable (Newer a b) := inferInstanceAs (Decidable (_ ∨ _))

/-! ## Events and restarts -/

/-- The rows come newest first, and each goes to the front of the list. -/
def loadGuildEventLogFromDB (s : EventLogWorld) (guildid : Nat) : GuildEventLog :=
  match ((s.rowsOf guildid).insertionSort Newer).take guildEventLogMaxRecords with
  | [] => {}
  | row :: rows => {
      log := (row :: rows).foldl (fun log row => row.entry :: log) []
      nextGuid := row.logGuid }

/-- `count` is `CONFIG_UINT32_GUILD_EVENT_LOG_COUNT`. -/
def logGuildEvent (count : UInt32) (s : EventLogWorld) (guildid : Nat) (newEvent : GuildEventLogEntry) :
    EventLogWorld :=
  let l := s.logs guildid
  let nextGuid := (l.nextGuid + 1) % count
  let log := if guildEventLogMaxRecords ≤ l.log.length then l.log.tail else l.log
  let table := s.table.filter fun r => ¬ (r.guildid = guildid ∧ r.logGuid = nextGuid)
  { table := insertRow table ⟨guildid, nextGuid, newEvent⟩
    logs := fun g => if g = guildid then ⟨log ++ [newEvent], nextGuid⟩ else s.logs g }

/-- Every guild is loaded, and then `LoadGuilds` deletes the rows that are not used. -/
def restart (count : UInt32) (s : EventLogWorld) : EventLogWorld where
  table := s.table.filter fun r => ¬ count < r.logGuid
  logs := s.loadGuildEventLogFromDB

inductive Step where
  | logGuildEvent (guildid : Nat) (eventType : UInt8) (playerGuid1 playerGuid2 : UInt32)
      (newRank : UInt8) (time : UInt32)
  | restart

def step (count : UInt32) (s : EventLogWorld) : Step → EventLogWorld
  | .logGuildEvent guildid eventType playerGuid1 playerGuid2 newRank time =>
    s.logGuildEvent count guildid ⟨eventType, playerGuid1, playerGuid2, newRank, time.toUInt64⟩
  | .restart => s.restart count

def Step.event (guildid : Nat) : Step → Option GuildEventLogEntry
  | .logGuildEvent g eventType playerGuid1 playerGuid2 newRank time =>
    if g = guildid then some ⟨eventType, playerGuid1, playerGuid2, newRank, time.toUInt64⟩ else none
  | .restart => none

/-- All events of a guild, the oldest first -/
def eventsOf (guildid : Nat) (steps : List Step) : List GuildEventLogEntry :=
  steps.filterMap (Step.event guildid)

/-! ## The ring -/

variable {count : UInt32} {g : Nat} {evs : List GuildEventLogEntry} {s : EventLogWorld}

/-- The row of the event that has `i` before it -/
def eventRow (count : UInt32) (g i : Nat) (e : GuildEventLogEntry) : EventLogRow :=
  ⟨g, .ofNat (ringSlot count.toNat i), e⟩

theorem ringSlot_lt (hcount : 0 < count.toNat) (i : Nat) : ringSlot count.toNat i < count.toNat :=
  Nat.mod_lt _ hcount

theorem toNat_slot (hcount : 0 < count.toNat) (i : Nat) :
    (ofNat (ringSlot count.toNat i)).toNat = ringSlot count.toNat i := by
  exact toNat_ofNat_of_lt' ((ringSlot_lt hcount i).trans count.toNat_lt)

/-- The place in the ring -/
def place (r : EventLogRow) : Nat := r.logGuid.toNat

theorem place_eventRow (hcount : 0 < count.toNat) (i : Nat) (e : GuildEventLogEntry) :
    place (eventRow count g i e) = ringSlot count.toNat i :=
  toNat_slot hcount i

/-- The next event goes to the place after the last one. -/
theorem ringRows_push (hcount : 0 < count.toNat) (evs : List GuildEventLogEntry)
    (e : GuildEventLogEntry) :
    (ringRows (eventRow count g) count.toNat evs).filter
        (fun r => place r ≠ ringSlot count.toNat evs.length) ++ [eventRow count g evs.length e] =
      ringRows (eventRow count g) count.toNat (evs ++ [e]) :=
  ring_push (place_eventRow hcount) hcount evs e

/-- What a guild and the table have after the events `evs`. -/
structure Kept (count : UInt32) (g : Nat) (evs : List GuildEventLogEntry) (s : EventLogWorld) :
    Prop where
  log : (s.logs g).log = evs.rtake guildEventLogMaxRecords
  nextGuid : (s.logs g).nextGuid.toNat = evs.length % count.toNat
  rows : s.rowsOf g = ringRows (eventRow count g) count.toNat evs

theorem kept_empty (count : UInt32) (g : Nat) : Kept count g [] {} := by
  refine ⟨rfl, ?_, ringRows_nil.symm⟩
  rw [length_nil, Nat.zero_mod]
  rfl

/-- The counter stays below `count`, and so `+ 1` does not wrap. -/
theorem Kept.next (h : Kept count g evs s) (hcount : 0 < count.toNat) :
    ((s.logs g).nextGuid + 1) % count = .ofNat (ringSlot count.toNat evs.length) := by
  have hlt : (s.logs g).nextGuid.toNat < count.toNat := by
    rw [h.nextGuid]
    exact Nat.mod_lt _ hcount
  have hmax := toNat_lt32 count
  rw [eq_toNat, toNat_slot hcount, UInt32.toNat_mod, toNat_add (by rw [UInt32.toNat_one]; omega),
    h.nextGuid, UInt32.toNat_one, Nat.mod_add_mod]
  rfl

theorem rowsOf_filter (table : List EventLogRow) (logs : Nat → GuildEventLog) (p : EventLogRow → Bool)
    (g : Nat) : rowsOf ⟨table.filter p, logs⟩ g = (rowsOf ⟨table, logs⟩ g).filter p := by
  unfold rowsOf
  rw [filter_filter, filter_filter]
  exact filter_congr fun r _ => Bool.and_comm _ _

/-- A new event takes the next place of the ring, over the oldest one there. -/
theorem Kept.logGuildEvent (h : Kept count g evs s) (hcount : 0 < count.toNat)
    (e : GuildEventLogEntry) : Kept count g (evs ++ [e]) (s.logGuildEvent count g e) := by
  have hnext := h.next hcount
  refine ⟨?_, ?_, ?_⟩
  · show ((if g = g then _ else _ : GuildEventLog)).log = _
    rw [if_pos rfl, ← rtake_push (by decide), h.log]
  · show ((if g = g then _ else _ : GuildEventLog)).nextGuid.toNat = _
    rw [if_pos rfl, length_append, length_singleton]
    show (((s.logs g).nextGuid + 1) % count).toNat = _
    rw [hnext, toNat_slot hcount]
    rfl
  · have hfree : (s.table.filter fun r => ¬ (r.guildid = g ∧ r.logGuid = ((s.logs g).nextGuid + 1) % count)).any
        (fun r => r.guildid = g ∧ r.logGuid = ((s.logs g).nextGuid + 1) % count) = false := by
      rw [any_eq_false]
      intro r hr
      have hne := of_decide_eq_true (mem_filter.mp hr).2
      exact fun hr' => hne (of_decide_eq_true hr')
    unfold EventLogWorld.logGuildEvent
    dsimp only
    unfold insertRow
    dsimp only
    rw [hfree, if_neg Bool.false_ne_true, ← ringRows_push hcount, ← h.rows, hnext]
    unfold rowsOf
    dsimp only
    rw [filter_append, filter_filter, filter_filter]
    congr 1
    · refine filter_congr fun r _ => ?_
      have heq : r.logGuid = .ofNat (ringSlot count.toNat evs.length) ↔
          place r = ringSlot count.toNat evs.length := by
        rw [eq_toNat, toNat_slot hcount]
        rfl
      by_cases hg : r.guildid = g
      · simp [hg, heq]
      · simp [hg]
    · simp [eventRow]

/-- Other guilds have rows of their own. -/
theorem Kept.logGuildEvent_other (h : Kept count g evs s) {g' : Nat} (hne : g' ≠ g)
    (e : GuildEventLogEntry) : Kept count g evs (s.logGuildEvent count g' e) := by
  have hlogs : (s.logGuildEvent count g' e).logs g = s.logs g := if_neg hne.symm
  refine ⟨by rw [hlogs]; exact h.log, by rw [hlogs]; exact h.nextGuid, ?_⟩
  rw [← h.rows]
  unfold EventLogWorld.logGuildEvent
  dsimp only
  generalize ((s.logs g').nextGuid + 1) % count = nextGuid
  have hkeep : (s.table.filter fun r => ¬ (r.guildid = g' ∧ r.logGuid = nextGuid)).filter
      (·.guildid = g) = s.table.filter (·.guildid = g) := by
    rw [filter_filter]
    refine filter_congr fun r _ => ?_
    by_cases hg : r.guildid = g
    · simp [hg, hne.symm]
    · simp [hg]
  unfold insertRow rowsOf
  dsimp only
  split
  · exact hkeep
  · rw [filter_append, hkeep]
    simp [hne]

/-! ## Restarts -/

theorem ringRows_map (evs : List GuildEventLogEntry) :
    (ringRows (eventRow count g) count.toNat evs).map EventLogRow.entry = evs.rtake count.toNat := by
  unfold ringRows
  rw [← rtake_map, map_map]
  congr 1
  exact zipIdx_map_fst 0 evs

section

variable (h : Kept count g evs s)
include h

/-- The rows are in the order of their time stamps, so the select has them the other way round. -/
theorem Kept.select (hinc : (evs.map GuildEventLogEntry.timeStamp).Pairwise (· < ·)) :
    ((s.rowsOf g).insertionSort Newer).take guildEventLogMaxRecords =
      ((s.rowsOf g).rtake guildEventLogMaxRecords).reverse := by
  have hrows : ((s.rowsOf g).map EventLogRow.entry).Pairwise fun a b => a.timeStamp < b.timeStamp := by
    rw [h.rows, ringRows_map]
    exact (pairwise_map.mp hinc).sublist (drop_sublist _ _)
  rw [insertionSort_eq_reverse, rtake_eq_reverse_take_reverse, reverse_reverse]
  refine (pairwise_map.mp hrows).imp fun {a b} hlt => ?_
  rintro (hgt | ⟨heq, -⟩)
  · exact UInt64.lt_asymm hlt hgt
  · exact UInt64.ne_of_lt hlt heq

/-- The load reads the newest events, in their order. -/
theorem Kept.load_log (hcount : guildEventLogMaxRecords ≤ count.toNat)
    (hinc : (evs.map GuildEventLogEntry.timeStamp).Pairwise (· < ·)) :
    (s.loadGuildEventLogFromDB g).log = evs.rtake guildEventLogMaxRecords := by
  have hfront : ∀ rows : List EventLogRow,
      rows.reverse.foldl (fun log row => row.entry :: log) [] = rows.map EventLogRow.entry := by
    intro rows
    rw [foldl_reverse]
    induction rows with
    | nil => rfl
    | cons row rows ih => exact congrArg (row.entry :: ·) ih
  have hload : (s.loadGuildEventLogFromDB g).log =
      ((s.rowsOf g).rtake guildEventLogMaxRecords).map EventLogRow.entry := by
    unfold loadGuildEventLogFromDB
    rw [h.select hinc]
    cases hrows : ((s.rowsOf g).rtake guildEventLogMaxRecords).reverse with
    | nil => rw [reverse_eq_nil_iff.mp hrows]; rfl
    | cons row rows =>
      dsimp only
      rw [← hrows, hfront]
  rw [hload, ← rtake_map, h.rows, ringRows_map, rtake_rtake hcount]

/-- The counter goes on from the newest row. -/
theorem Kept.load_nextGuid (hcount : 0 < count.toNat)
    (hinc : (evs.map GuildEventLogEntry.timeStamp).Pairwise (· < ·)) :
    (s.loadGuildEventLogFromDB g).nextGuid.toNat = evs.length % count.toNat := by
  unfold loadGuildEventLogFromDB
  rw [h.select hinc, h.rows]
  cases evs using reverseRecOn with
  | nil =>
    rw [ringRows_nil, rtake_nil]
    exact (Nat.zero_mod _).symm
  | append_singleton evs e =>
    rw [← ringRows_push hcount, rtake_concat_succ, reverse_append]
    show (ofNat (ringSlot count.toNat evs.length)).toNat = _
    rw [toNat_slot hcount, length_append]
    rfl

/-- After a restart the next place is again behind the newest row. -/
theorem Kept.restart (hcount : guildEventLogMaxRecords ≤ count.toNat)
    (hinc : (evs.map GuildEventLogEntry.timeStamp).Pairwise (· < ·)) :
    Kept count g evs (s.restart count) := by
  have hpos : 0 < count.toNat := Nat.lt_of_lt_of_le (by decide) hcount
  refine ⟨h.load_log hcount hinc, h.load_nextGuid hpos hinc, ?_⟩
  -- All places are below `count`, and no row is deleted.
  refine ((rowsOf_filter _ s.logs _ g).trans (filter_eq_self.mpr fun r hr => ?_)).trans h.rows
  have hr' := h.rows ▸ hr
  obtain ⟨i, e, -, -, rfl⟩ := mem_drop_rows hr'
  rw [decide_eq_true_eq, lt_toNat]
  show ¬ count.toNat < (ofNat (ringSlot count.toNat i)).toNat
  rw [toNat_slot hpos]
  exact Nat.not_lt.mpr (ringSlot_lt hpos i).le

end

/-! ## Runs -/

/-- Events and restarts keep the ring. -/
theorem Kept.step (h : Kept count g evs s) (hcount : guildEventLogMaxRecords ≤ count.toNat)
    (hinc : (evs.map GuildEventLogEntry.timeStamp).Pairwise (· < ·)) (a : Step) :
    Kept count g (evs ++ (a.event g).toList) (s.step count a) := by
  have hpos : 0 < count.toNat := Nat.lt_of_lt_of_le (by decide) hcount
  cases a with
  | restart =>
    rw [show (Step.restart.event g).toList = [] from rfl, append_nil]
    exact h.restart hcount hinc
  | logGuildEvent g' eventType playerGuid1 playerGuid2 newRank time =>
    unfold Step.event EventLogWorld.step
    dsimp only
    split
    case isTrue hg =>
      subst hg
      exact h.logGuildEvent hpos _
    case isFalse hg =>
      rw [Option.toList_none, append_nil]
      exact h.logGuildEvent_other hg _

/-- So it is after any number of them. -/
theorem Kept.run (h : Kept count g evs s) (hcount : guildEventLogMaxRecords ≤ count.toNat)
    (steps : List Step)
    (hinc : ((evs ++ eventsOf g steps).map GuildEventLogEntry.timeStamp).Pairwise (· < ·)) :
    Kept count g (evs ++ eventsOf g steps) (Lib.run (EventLogWorld.step count) s steps) := by
  induction steps generalizing evs s with
  | nil =>
    rw [eventsOf, filterMap_nil, append_nil]
    exact h
  | cons a steps ih =>
    have hevents : evs ++ eventsOf g (a :: steps) = evs ++ (a.event g).toList ++ eventsOf g steps := by
      unfold eventsOf
      cases ha : a.event g with
      | none => rw [filterMap_cons_none ha, Option.toList_none, append_nil]
      | some e =>
        rw [filterMap_cons_some ha, Option.toList_some, append_assoc]
        rfl
    rw [hevents] at hinc ⊢
    have hfirst : (evs.map GuildEventLogEntry.timeStamp).Pairwise (· < ·) := by
      rw [append_assoc, map_append] at hinc
      exact (pairwise_append.mp hinc).1
    exact ih (h.step hcount hfirst a) hinc

/-- After any events and restarts the list has the last events of the guild, and the table has them
too, each place of its ring once. -/
theorem run_eventLog (hcount : guildEventLogMaxRecords ≤ count.toNat) (g : Nat) (steps : List Step)
    (hinc : ((eventsOf g steps).map GuildEventLogEntry.timeStamp).Pairwise (· < ·)) :
    let s := run (step count) {} steps
    let evs := eventsOf g steps
    (s.logs g).log = evs.rtake (min evs.length guildEventLogMaxRecords) ∧
      ((s.rowsOf g).map EventLogRow.logGuid).Nodup ∧
      ((s.rowsOf g).map EventLogRow.entry).Perm (evs.rtake count.toNat) ∧
      ∀ e ∈ evs.rtake (min evs.length guildEventLogMaxRecords), ∃ row ∈ s.rowsOf g, row.entry = e := by
  intro s evs
  have hpos : 0 < count.toNat := Nat.lt_of_lt_of_le (by decide) hcount
  have h : Kept count g evs s := (kept_empty count g).run hcount steps hinc
  have hmin : evs.rtake (min evs.length guildEventLogMaxRecords) = evs.rtake guildEventLogMaxRecords := by
    unfold rtake
    congr 1
    omega
  have hentries : (s.rowsOf g).map EventLogRow.entry = evs.rtake count.toNat := by
    rw [h.rows, ringRows_map]
  refine ⟨by rw [h.log, hmin], ?_, .of_eq hentries, fun e he => ?_⟩
  · have hnodup : ((s.rowsOf g).map place).Nodup := by
      rw [h.rows]
      exact ring_nodup (place_eventRow hpos) hpos evs
    refine List.Nodup.of_map toNat ?_
    rw [map_map]
    exact hnodup
  · rw [hmin, ← rtake_rtake hcount, ← hentries] at he
    exact mem_map.mp (mem_of_mem_drop he)

/-- Two guilds log events, and the server is restarted in between. -/
def inviteAndJoin : List Step :=
  [.logGuildEvent 1 1 10 11 0 1000, .logGuildEvent 2 1 20 21 0 1000, .restart,
    .logGuildEvent 1 2 11 0 0 1001]

theorem inviteAndJoin_log :
    ((run (step 100) {} inviteAndJoin).logs 1).log =
      [⟨1, 10, 11, 0, 1000⟩, ⟨2, 11, 0, 0, 1001⟩] := by
  have hcount : guildEventLogMaxRecords ≤ (100 : UInt32).toNat := by decide
  exact (run_eventLog hcount 1 inviteAndJoin (by decide)).1

end EventLogWorld

end Windrunner
