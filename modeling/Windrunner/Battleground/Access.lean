import Windrunner.Battleground.Update

/-!
# Which queues an update looks at

`m_QueuedGroups` has eight brackets of four lists. The functions of a queue compute the index of a list
from the team, the premade flag and the type of the queue; `IsAllQueuesEmpty` counts with `BG_QUEUE_MAX`,
which is six.

- **Accesses** (`updateAccesses` and the function of each step): the lists that are looked at, in their
  order. A list that a loop goes over is named once.
- **Bounds** (`mem_updateAccesses`): all of them are in the array but the two at the end of
  `IsAllQueuesEmpty`.
- **The early return** (`isAllQueuesEmpty_iff`): it also asks for the first two lists of the next
  bracket.
-/

namespace Windrunner

open List

abbrev bgQueuePremadeAlliance : Nat := 0
abbrev bgQueueNormalAlliance : Nat := 2
abbrev bgQueueNormalHorde : Nat := 3
abbrev bgQueueMax : Nat := 6
abbrev bgQueueGroupTypesCount : Nat := 4

inductive BgFunction where
  | update
  | isAllQueuesEmpty
  | checkPremadeMatch
  | checkNormalMatch
  | fillPlayersToBG
  | removePlayer
  deriving DecidableEq, Repr

/-- `m_QueuedGroups[bracket][type]` in the function `fn`. -/
structure GroupsAccess where
  fn : BgFunction
  bracket : Nat
  type : Nat
  deriving DecidableEq, Repr

def GroupsAccess.Inside (a : GroupsAccess) : Prop :=
  a.bracket < maxBattlegroundBrackets ∧ a.type < bgQueueGroupTypesCount

instance (a : GroupsAccess) : Decidable a.Inside := inferInstanceAs (Decidable (_ ∧ _))

/-- The function looks at lists of a bracket. -/
def BgFunction.at (fn : BgFunction) (bracket : Nat) (types : List Nat) : List GroupsAccess :=
  types.map (⟨fn, bracket, ·⟩)

namespace BgQueue

/-! ## Accesses -/

/-- The types from `index` on, of one team. -/
def searchedTypes (index : Nat) : List Nat :=
  range' index ((bgQueueGroupTypesCount - index + 1) / bgQueueNormalAlliance) bgQueueNormalAlliance

/-- The brackets up to the one that has the group. -/
def searchedBrackets (found : Nat → Bool) : List Nat → List Nat
  | [] => []
  | b :: bs => b :: if found b then [] else searchedBrackets found bs

def removePlayerAccesses (q : BgQueue) (guid : Nat) : List GroupsAccess :=
  match q.groupOf guid with
  | none => []
  | some i =>
    let team := (q.info i).groupTeam
    let has b := (searchedTypes team.index).any fun type => decide (i ∈ q.queuedGroups b type)
    ((searchedBrackets has (range maxBattlegroundBrackets).reverse).flatMap fun b =>
        BgFunction.removePlayer.at b (searchedTypes team.index)) ++
      match q.findGroup i team with
      | none => []
      | some (bracket, type) =>
        if (q.takeOut guid i).playersOf i = [] then BgFunction.removePlayer.at bracket [type] else []

def isAllQueuesEmptyAccesses (bracket : Nat) : List GroupsAccess :=
  BgFunction.isAllQueuesEmpty.at bracket (range bgQueueMax)

def fillPlayersToBGAccesses (bracket : Nat) (bg : BgRunning) : List GroupsAccess :=
  if bg.isArena then []
  else BgFunction.fillPlayersToBG.at bracket [bgQueueNormalAlliance, bgQueueNormalHorde]

/-- The first premade group of a team is looked at, and may go to the normal groups. -/
def moveToNormalAccesses (cfg : BgConfig) (m : BgMoment) (q : BgQueue) (bracket minPlayers i : Nat) :
    List GroupsAccess :=
  BgFunction.checkPremadeMatch.at bracket <|
    (bgQueuePremadeAlliance + i) ::
      match q.queuedGroups bracket (bgQueuePremadeAlliance + i) with
      | [] => []
      | group :: _ =>
        if q.ripe cfg m minPlayers group then [bgQueueNormalAlliance + i, bgQueuePremadeAlliance + i]
        else []

def checkPremadeMatchAccesses (cfg : BgConfig) (m : BgMoment) (q : BgQueue)
    (bracket minPlayers maxPlayers : Nat) (pools : SelectionPools) : List GroupsAccess :=
  ((range 2).flatMap fun queueType => (range bgTeamsCount).flatMap fun i =>
      BgFunction.checkPremadeMatch.at bracket [2 * queueType + i]) ++
    if enoughPlayers (q.premadePools cfg m bracket minPlayers maxPlayers pools) minPlayers then []
    else
      (range bgTeamsCount).flatMap (moveToNormalAccesses cfg m q bracket minPlayers)

def checkNormalMatchAccesses (cfg : BgConfig) (m : BgMoment) (q : BgQueue)
    (bracket minPlayers maxPlayers : Nat) (pools : SelectionPools) : List GroupsAccess :=
  let found t := (q.normalPools m bracket minPlayers maxPlayers pools t).1
  let j : BgTeam := if (found .horde).playerCount < (found .alliance).playerCount then .horde
    else .alliance
  ((range bgTeamsCount).flatMap fun i =>
      BgFunction.checkNormalMatch.at bracket [bgQueueNormalAlliance + i]) ++
    if cfg.invitationType ≠ 0 ∧ enoughPlayers found minPlayers then
      BgFunction.checkNormalMatch.at bracket [bgQueueNormalAlliance + j.index]
    else []

end BgQueue

namespace BgOutcome

open BgQueue

def removeExpiredAccesses (m : BgMoment) : Nat → BgOutcome → List GroupsAccess
  | 0, _ => []
  | fuel + 1, o =>
    match o.queue.queuedPlayers.entries.find? fun x => expired m o.queue x.2 with
    | none => []
    | some ⟨guid, _⟩ =>
      o.queue.removePlayerAccesses guid ++
        removeExpiredAccesses m fuel { o with queue := o.queue.removePlayer guid }

/-- Both normal lists are shuffled. -/
def shuffleAccesses (bracket : Nat) : List GroupsAccess :=
  BgFunction.update.at bracket [bgQueueNormalAlliance, bgQueueNormalHorde]

def normalMatchesAccesses (cfg : BgConfig) (m : BgMoment) (bracket minPlayers maxPlayers : Nat) :
    List Nat → SelectionPools → BgOutcome → List GroupsAccess
  | [], _, _ => []
  | attempt :: rest, pools, o =>
    o.queue.checkNormalMatchAccesses cfg m bracket minPlayers maxPlayers pools ++
      match o.queue.checkNormalMatch cfg m bracket minPlayers maxPlayers pools with
      | (false, pools) => normalMatchesAccesses cfg m bracket minPlayers maxPlayers rest pools o
      | (true, pools) =>
        match m.newInstance attempt with
        | none => []
        | some instanceId =>
          normalMatchesAccesses cfg m bracket minPlayers maxPlayers rest (fun _ => {})
            (o.start m ⟨false, pools, o.queue, minPlayers, maxPlayers⟩ instanceId)

def makeMatchesAccesses (cfg : BgConfig) (m : BgMoment) (bracket minPlayers maxPlayers attempts : Nat)
    (o : BgOutcome) : List GroupsAccess :=
  let tries := (range attempts).map (· + 1)
  o.queue.checkPremadeMatchAccesses cfg m bracket minPlayers maxPlayers (fun _ => {}) ++
    match o.queue.checkPremadeMatch cfg m bracket minPlayers maxPlayers fun _ => {} with
    | (false, pools, q) =>
      normalMatchesAccesses cfg m bracket minPlayers maxPlayers tries pools { o with queue := q }
    | (true, pools, q) =>
      match m.newInstance 0 with
      | none => []
      | some instanceId =>
        normalMatchesAccesses cfg m bracket minPlayers maxPlayers tries (fun _ => {})
          (o.start m ⟨true, pools, q, minPlayers, maxPlayers⟩ instanceId)

/-- The lists are counted for Alterac Valley, and shuffled when there are enough groups. -/
def avAccesses (cfg : BgConfig) (q : BgQueue) (type : BgType) (bracket : Nat) : List GroupsAccess :=
  if type = .av ∧ cfg.avMinPlayersInQueue ≠ 0 then
    ((range bgTeamsCount).flatMap fun i =>
        BgFunction.update.at bracket [bgQueueNormalAlliance + i]) ++
      if avEnough cfg q bracket then shuffleAccesses bracket else []
  else []

end BgOutcome

namespace BgQueue

open BgOutcome

/-- The players who should not be in the queue any more are gone. -/
def swept (m : BgMoment) (q : BgQueue) : BgOutcome :=
  removeExpired m q.queuedPlayers.entries.length { queue := q }

/-- Accesses of `Update`, with those of the functions it calls. -/
def updateAccesses (cfg : BgConfig) (tmpl : Option BgTemplate) (m : BgMoment) (q : BgQueue)
    (type : BgType) (bracket : Nat) : List GroupsAccess :=
  removeExpiredAccesses m q.queuedPlayers.entries.length { queue := q } ++
    isAllQueuesEmptyAccesses bracket ++
    if isAllQueuesEmpty m (q.swept m).queue bracket then []
    else
      (if cfg.randomize then shuffleAccesses bracket else []) ++
        m.running.flatMap (fillPlayersToBGAccesses bracket) ++
        let o := refill cfg m type bracket (q.swept m)
        match tmpl with
        | none => []
        | some tmpl =>
          avAccesses cfg o.queue type bracket ++
            makeMatchesAccesses cfg m bracket tmpl.minPlayersPerTeam
              (maxPlayers cfg o.queue type tmpl bracket) (attempts cfg o.queue type bracket)
              { o with queue := avShuffle cfg m type bracket o.queue }

end BgQueue

/-! ## Bounds -/

/-- All accesses are in the array, and none is made by `IsAllQueuesEmpty`. -/
def Contained (l : List GroupsAccess) : Prop := ∀ a ∈ l, a.Inside ∧ a.fn ≠ .isAllQueuesEmpty

variable {l l' : List GroupsAccess} {fn : BgFunction} {b i : Nat} {types : List Nat}

theorem contained_nil : Contained [] := nofun

theorem Contained.append (h : Contained l) (h' : Contained l') : Contained (l ++ l') := fun a ha =>
  (mem_append.mp ha).elim (h a) (h' a)

theorem contained_flatMap {α : Type} {as : List α} {f : α → List GroupsAccess}
    (h : ∀ x ∈ as, Contained (f x)) : Contained (as.flatMap f) := by
  intro a ha
  obtain ⟨x, hx, ha⟩ := mem_flatMap.mp ha
  exact h x hx a ha

theorem contained_at (hb : b < maxBattlegroundBrackets) (hfn : fn ≠ .isAllQueuesEmpty)
    (ht : ∀ type ∈ types, type < bgQueueGroupTypesCount) : Contained (fn.at b types) := by
  intro a ha
  obtain ⟨type, htype, rfl⟩ := mem_map.mp ha
  exact ⟨⟨hb, ht type htype⟩, hfn⟩

theorem contained_ite {c : Prop} [Decidable c] (h : c → Contained l) (h' : ¬ c → Contained l') :
    Contained (if c then l else l') := by
  split_ifs with hc
  · exact h hc
  · exact h' hc

theorem BgTeam.index_lt (t : BgTeam) : t.index < bgTeamsCount := by cases t <;> decide

theorem normal_lt (h : i < bgTeamsCount) : bgQueueNormalAlliance + i < bgQueueGroupTypesCount :=
  Nat.add_lt_add_left h 2

theorem premade_lt (h : i < bgTeamsCount) : bgQueuePremadeAlliance + i < bgQueueGroupTypesCount := by
  rw [Nat.zero_add]
  exact h.trans (by decide)

namespace BgQueue

variable {cfg : BgConfig} {m : BgMoment} {q : BgQueue} {minPlayers maxPlayers : Nat}
  {pools : SelectionPools}

theorem mem_searchedBrackets {found : Nat → Bool} {bs : List Nat} (h : b ∈ searchedBrackets found bs) :
    b ∈ bs := by
  induction bs with
  | nil => exact h
  | cons c bs ih =>
    unfold searchedBrackets at h
    obtain rfl | h := mem_cons.mp h
    · exact mem_cons_self
    · split_ifs at h
      · exact absurd h not_mem_nil
      · exact mem_cons_of_mem _ (ih h)

theorem searchedTypes_lt (t : BgTeam) : ∀ type ∈ searchedTypes t.index, type < bgQueueGroupTypesCount := by
  cases t <;> decide

theorem findGroup_inside {team : BgTeam} {place : Nat × Nat} (h : q.findGroup i team = some place) :
    place.1 < maxBattlegroundBrackets ∧ place.2 < bgQueueGroupTypesCount := by
  obtain ⟨bracket, hmem, h⟩ := exists_of_findSome?_eq_some h
  obtain ⟨type, htype, rfl⟩ := Option.map_eq_some_iff.mp h
  refine ⟨mem_range.mp (mem_reverse.mp hmem), ?_⟩
  have hlt := BgTeam.index_lt team
  have hin := mem_of_find?_eq_some htype
  rw [mem_cons, mem_singleton] at hin
  show type < 4
  have h2 : bgTeamsCount = 2 := rfl
  omega

theorem contained_removePlayer (q : BgQueue) (guid : Nat) : Contained (q.removePlayerAccesses guid) := by
  unfold removePlayerAccesses
  split
  · exact contained_nil
  · refine (contained_flatMap fun b hb => ?_).append ?_
    · have hlt := mem_range.mp (mem_reverse.mp (mem_searchedBrackets hb))
      exact contained_at hlt (by decide) (searchedTypes_lt _)
    · split
      · exact contained_nil
      · next place hplace =>
        have hin := findGroup_inside hplace
        refine contained_ite (fun _ => contained_at hin.1 (by decide) fun type htype => ?_)
          fun _ => contained_nil
        rw [mem_singleton.mp htype]
        exact hin.2

section

variable (hb : b < maxBattlegroundBrackets)
include hb

theorem contained_fillPlayersToBG (bg : BgRunning) :
    Contained (fillPlayersToBGAccesses b bg) :=
  contained_ite (fun _ => contained_nil) fun _ => contained_at hb (by decide) (by decide)

theorem contained_checkPremadeMatch :
    Contained (q.checkPremadeMatchAccesses cfg m b minPlayers maxPlayers pools) := by
  refine (contained_flatMap fun queueType hq => contained_flatMap fun i hi => ?_).append
    (contained_ite (fun _ => contained_nil) fun _ => contained_flatMap fun i hi => ?_)
  · rw [mem_range] at hq hi
    refine contained_at hb (by decide) fun type htype => ?_
    rw [mem_singleton.mp htype]
    have h2 : bgTeamsCount = 2 := rfl
    show _ < 4
    omega
  · have hi := mem_range.mp hi
    refine contained_at hb (by decide) fun type htype => ?_
    obtain rfl | htype := mem_cons.mp htype
    · exact premade_lt hi
    · split at htype
      · exact absurd htype not_mem_nil
      · split_ifs at htype
        · obtain rfl | htype := mem_cons.mp htype
          · exact normal_lt hi
          · rw [mem_singleton.mp htype]
            exact premade_lt hi
        · exact absurd htype not_mem_nil

theorem contained_checkNormalMatch :
    Contained (q.checkNormalMatchAccesses cfg m b minPlayers maxPlayers pools) := by
  have hat : ∀ i, i < bgTeamsCount →
      Contained (BgFunction.checkNormalMatch.at b [bgQueueNormalAlliance + i]) := by
    intro i hi
    refine contained_at hb (by decide) fun type htype => ?_
    rw [mem_singleton.mp htype]
    exact normal_lt hi
  exact (contained_flatMap fun i hi => hat i (mem_range.mp hi)).append
    (contained_ite (fun _ => hat _ (BgTeam.index_lt _)) fun _ => contained_nil)

end

end BgQueue

namespace BgOutcome

open BgQueue

variable {cfg : BgConfig} {m : BgMoment} {o : BgOutcome} {minPlayers maxPlayers : Nat}
  {pools : SelectionPools}

theorem contained_removeExpired (fuel : Nat) (o : BgOutcome) :
    Contained (removeExpiredAccesses m fuel o) := by
  induction fuel generalizing o with
  | zero => exact contained_nil
  | succ fuel ih =>
    unfold removeExpiredAccesses
    split
    · exact contained_nil
    · exact (contained_removePlayer _ _).append (ih _)

section

variable (hb : b < maxBattlegroundBrackets)
include hb

theorem contained_shuffle : Contained (shuffleAccesses b) :=
  contained_at hb (by decide) (by decide)

theorem contained_normalMatches (tries : List Nat) :
    Contained (normalMatchesAccesses cfg m b minPlayers maxPlayers tries pools o) := by
  induction tries generalizing pools o with
  | nil => exact contained_nil
  | cons attempt rest ih =>
    unfold normalMatchesAccesses
    refine (contained_checkNormalMatch hb).append ?_
    split
    · exact ih
    · split
      · exact contained_nil
      · exact ih

/-- Every index of a match is below the bounds. -/
theorem contained_makeMatches (tries : Nat) :
    Contained (makeMatchesAccesses cfg m b minPlayers maxPlayers tries o) := by
  unfold makeMatchesAccesses
  refine (contained_checkPremadeMatch hb).append ?_
  split
  · exact contained_normalMatches hb _
  · split
    · exact contained_nil
    · exact contained_normalMatches hb _

theorem contained_av (q : BgQueue) (type : BgType) :
    Contained (avAccesses cfg q type b) := by
  refine contained_ite (fun _ => (contained_flatMap fun i hi => ?_).append
    (contained_ite (fun _ => contained_shuffle hb) fun _ => contained_nil)) fun _ => contained_nil
  refine contained_at hb (by decide) fun type htype => ?_
  rw [mem_singleton.mp htype]
  exact normal_lt (mem_range.mp hi)

end

/-! ## The early return -/

/-- The four lists of a bracket are empty. -/
def bracketEmpty (q : BgQueue) (bracket : Nat) : Bool :=
  (range bgQueueGroupTypesCount).all fun type => (q.queuedGroups bracket type).isEmpty

/-- What lies after the lists of a bracket reads as empty: the premade lists of the next one. -/
def nextEmpty (m : BgMoment) (q : BgQueue) (bracket : Nat) : Bool :=
  if bracket + 1 < maxBattlegroundBrackets then
    (range 2).all fun type => (q.queuedGroups (bracket + 1) type).isEmpty
  else m.beyond

/-- The check is right on a bracket exactly if behind an empty one the next lists are empty, too. -/
theorem isAllQueuesEmpty_iff (m : BgMoment) (q : BgQueue) (bracket : Nat) :
    (isAllQueuesEmpty m q bracket = true ↔ bracketEmpty q bracket = true) ↔
      (bracketEmpty q bracket = true → nextEmpty m q bracket = true) := by
  have heq : isAllQueuesEmpty m q bracket = (bracketEmpty q bracket && nextEmpty m q bracket) := rfl
  rw [heq, Bool.and_eq_true]
  constructor
  · exact fun h hempty => (h.mpr hempty).2
  · exact fun h => ⟨And.left, fun hempty => ⟨hempty, h hempty⟩⟩

end BgOutcome

namespace BgQueue

open BgOutcome

variable {cfg : BgConfig} {tmpl : Option BgTemplate} {m : BgMoment} {q : BgQueue} {type : BgType}
  {bracket : Nat}

theorem mem_updateAccesses {a : GroupsAccess} (hb : bracket < maxBattlegroundBrackets)
    (h : a ∈ q.updateAccesses cfg tmpl m type bracket) :
    a ∈ isAllQueuesEmptyAccesses bracket ∨ (a.Inside ∧ a.fn ≠ .isAllQueuesEmpty) := by
  unfold updateAccesses at h
  rw [mem_append, mem_append] at h
  obtain (h | h) | h := h
  · exact .inr (contained_removeExpired _ _ a h)
  · exact .inl h
  · refine .inr (contained_ite (fun _ => contained_nil) (fun _ => ?_) a h)
    refine ((contained_ite (fun _ => contained_shuffle hb) fun _ => contained_nil).append
      (contained_flatMap fun bg _ => contained_fillPlayersToBG hb bg)).append ?_
    split
    · exact contained_nil
    · exact (contained_av hb _ _).append (contained_makeMatches hb _)

/-- What an update is to look at. -/
structure LooksRight (cfg : BgConfig) (tmpl : Option BgTemplate) (m : BgMoment) (q : BgQueue)
    (type : BgType) (bracket : Nat) : Prop where
  early : isAllQueuesEmpty m (q.swept m).queue bracket = true ↔
    bracketEmpty (q.swept m).queue bracket = true
  inside : ∀ a ∈ q.updateAccesses cfg tmpl m type bracket, a.Inside

/-- An update always looks at two lists that its bracket does not have, and at no others outside. -/
theorem update_looks (hb : bracket < maxBattlegroundBrackets) :
    ¬ q.LooksRight cfg tmpl m type bracket ∧
      (∀ a ∈ q.updateAccesses cfg tmpl m type bracket,
        a.Inside ↔ ¬ (a.fn = .isAllQueuesEmpty ∧ bgQueueGroupTypesCount ≤ a.type)) ∧
      (∀ guid, ∀ a ∈ q.removePlayerAccesses guid, a.Inside) ∧
      ((isAllQueuesEmpty m (q.swept m).queue bracket = true ↔
          bracketEmpty (q.swept m).queue bracket = true) ↔
        (bracketEmpty (q.swept m).queue bracket = true → nextEmpty m (q.swept m).queue bracket = true)) := by
  refine ⟨fun h => ?_, fun a ha => ?_, fun guid a ha => (contained_removePlayer q guid a ha).1,
    isAllQueuesEmpty_iff _ _ _⟩
  · have hmem : (⟨.isAllQueuesEmpty, bracket, 4⟩ : GroupsAccess) ∈
        q.updateAccesses cfg tmpl m type bracket :=
      mem_append_left _ (mem_append_right _ (mem_map.mpr ⟨4, by decide, rfl⟩))
    exact absurd (h.inside _ hmem).2 (Nat.lt_irrefl 4)
  · obtain ha | ⟨hin, hfn⟩ := mem_updateAccesses hb ha
    · obtain ⟨t, -, rfl⟩ := mem_map.mp ha
      exact ⟨fun h hno => absurd h.2 (Nat.not_lt.mpr hno.2),
        fun h => ⟨hb, Nat.not_le.mp fun hle => h ⟨rfl, hle⟩⟩⟩
    · exact iff_of_true hin fun h => hfn h.1

end BgQueue

/-! ## A premade group in the next bracket -/

/-- A premade group of one waits in bracket 5. -/
def premadeInFive : BgQueue where
  queuedPlayers := (∅ : Lib.FinMap Nat PlayerQueueInfo).insert 1 { groupInfo := 1 }
  infos i := if i = 1 then some { players := [1], bracketId := 5 } else none
  nextInfo := 2
  queuedGroups b type := if b = 5 ∧ type = 0 then [1] else []

/-- The removal of the player looks at the lists of its own team. -/
theorem premadeInFive_looks :
    ¬ premadeInFive.LooksRight {} none {} .ws 7 ∧
      (∀ a ∈ premadeInFive.updateAccesses {} none {} .ws 7,
        a.Inside ↔ ¬ (a.fn = .isAllQueuesEmpty ∧ bgQueueGroupTypesCount ≤ a.type)) := by
  obtain ⟨hno, hin, -, -⟩ :=
    @BgQueue.update_looks {} none {} premadeInFive .ws 7 (by decide)
  exact ⟨hno, hin⟩

/-- Bracket 4 has no groups, and its update does not return early. -/
theorem premadeInFive_not_early : ¬ ∀ (m : BgMoment) (q : BgQueue) (bracket : Nat),
    bracket < maxBattlegroundBrackets → q.LooksRight {} none m .ws bracket := by
  intro h
  have hearly := (h {} premadeInFive 4 (by decide)).early
  exact absurd (hearly.mpr (by decide)) (by decide)

end Windrunner
