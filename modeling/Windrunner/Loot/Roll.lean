import Windrunner.Lib.Run
import Windrunner.Lib.Total
import Windrunner.Lib.Word

/-!
# Group loot rolls

The rolls of a group (`RollId`), each with its vote map and the counters kept beside it.

* `Roll.countRollVote`: one vote, and whether it ends the roll.
* `Rolls.step`: a roll starts, a member votes or leaves, the time runs out, the loot is deleted.
* `Roll.Exact`: the counters are what the vote map says, and somebody has still to vote.
* `Rolls.exact_of_run`: what holds as long as nobody votes twice on a roll and nobody leaves who is
  the last one to vote on it.
-/

namespace Windrunner

open Lib List

abbrev maxRaidSize : Nat := 40

inductive RollVote where
  | pass
  | need
  | greed
  | notEmittedYet
  | notValid
  deriving DecidableEq, Repr

/-- The votes a client can send (below `MAX_ROLL_FROM_CLIENT`). -/
inductive ClientVote where
  | pass
  | need
  | greed
  deriving DecidableEq, Repr

def ClientVote.toRollVote : ClientVote → RollVote
  | pass => .pass
  | need => .need
  | greed => .greed

structure Roll where
  lootedTarget : Nat
  itemSlot : Nat
  /-- The loot is still there. It then has items: a roll starts for one of them, and clearing the
  loot invalidates its rolls. -/
  isValid : Bool := true
  playerVote : FinMap Nat RollVote
  totalPlayersRolling : UInt8
  totalNeed : UInt8 := 0
  totalGreed : UInt8 := 0
  totalPass : UInt8 := 0

/-- The group members that a roll is started for: online, near and allowed to loot. -/
structure Looters where
  guids : List Nat
  nodup : guids.Nodup
  length_le : guids.length ≤ maxRaidSize

namespace Roll

/-- The number of players in the vote map whose vote is `v`. -/
def votesFor (r : Roll) (v : RollVote) : Nat := total (fun _ w => if w = v then 1 else 0) r.playerVote

/-- The number of players in the vote map. -/
def size (r : Roll) : Nat := total (fun _ _ => 1) r.playerVote

/-- A new roll, nobody having voted. -/
def start (target slot : Nat) (looters : Looters) : Roll where
  lootedTarget := target
  itemSlot := slot
  playerVote := ⟨looters.guids.map fun g => ⟨g, .notEmittedYet⟩, by
    rw [List.NodupKeys, keys, map_map]
    exact (map_id looters.guids).symm ▸ looters.nodup⟩
  totalPlayersRolling := UInt8.ofNat looters.guids.length

/-- The counters and the map after a vote. -/
def setVote (r : Roll) (guid : Nat) (vote : RollVote) : Roll :=
  match vote with
  | .pass => { r with totalPass := r.totalPass + 1, playerVote := r.playerVote.insert guid .pass }
  | .need => { r with totalNeed := r.totalNeed + 1, playerVote := r.playerVote.insert guid .need }
  | .greed => { r with totalGreed := r.totalGreed + 1, playerVote := r.playerVote.insert guid .greed }
  | _ => r

/-- `Group::CountRollVote`: the roll after the vote, and whether it goes to `CountTheRoll`. -/
def countRollVote (r : Roll) (guid : Nat) (vote : RollVote) : Roll × Bool :=
  match r.playerVote.lookup guid with
  | none => (r, false)
  | some _ =>
    let r := r.setVote guid vote
    (r, r.totalPass.toNat + r.totalNeed.toNat + r.totalGreed.toNat ≥ r.totalPlayersRolling.toNat)

/-- The player's part is taken out of the counters and the map. -/
def erase (r : Roll) (guid : Nat) (vote : RollVote) : Roll :=
  { r with
    totalGreed := if vote = .greed then r.totalGreed - 1 else r.totalGreed
    totalNeed := if vote = .need then r.totalNeed - 1 else r.totalNeed
    totalPass := if vote = .pass then r.totalPass - 1 else r.totalPass
    totalPlayersRolling :=
      if vote ≠ .notValid then r.totalPlayersRolling - 1 else r.totalPlayersRolling
    playerVote := r.playerVote.erase guid }

end Roll

/-- The open rolls of a group, and the rolls that votes have ended, as they were then. -/
structure Rolls where
  rollId : List Roll := []
  counted : List Roll := []

/-- What happens to the rolls of a group. -/
inductive RollInput where
  | startLootRoll (target slot : Nat) (looters : Looters)
  | lootRoll (guid target slot : Nat) (vote : ClientVote)
  | leave (guid : Nat)
  | endRoll (target : Nat)
  | lootGone (target : Nat)

namespace Rolls

def startLootRoll (s : Rolls) (target slot : Nat) (looters : Looters) : Rolls :=
  if looters.guids = [] then s
  else { s with rollId := s.rollId ++ [.start target slot looters] }

/-- The roll that a vote is for. -/
def isFor (target slot : Nat) (r : Roll) : Bool :=
  r.isValid && r.lootedTarget == target && r.itemSlot == slot

/-- `Group::CountRollVote` for the first roll on that slot. -/
def countRollVote (s : Rolls) (guid target slot : Nat) (vote : ClientVote) : Rolls :=
  match s.rollId.findIdx? (isFor target slot) with
  | none => s
  | some i =>
    match s.rollId[i]? with
    | none => s
    | some r =>
      let (r, done) := r.countRollVote guid vote.toRollVote
      if done then { rollId := s.rollId.eraseIdx i, counted := s.counted ++ [r] }
      else { s with rollId := s.rollId.set i r }

/-- The loop of `Group::_removeRolls`: the vote function is entered again for the player who was
just erased. -/
def removeFrom (guid : Nat) : List Roll → List Roll × List Roll
  | [] => ([], [])
  | r :: rs =>
    let (rest, counted) := removeFrom guid rs
    match r.playerVote.lookup guid with
    | none => (r :: rest, counted)
    | some vote =>
      let (r, done) := (r.erase guid vote).countRollVote guid .notEmittedYet
      if done then (rest, r :: counted) else (r :: rest, counted)

def removeRolls (s : Rolls) (guid : Nat) : Rolls :=
  let (rest, counted) := removeFrom guid s.rollId
  { rollId := rest, counted := s.counted ++ counted }

/-- `Group::EndRoll`: every roll of the loot goes to `CountTheRoll`. -/
def endRoll (s : Rolls) (target : Nat) : Rolls :=
  { s with rollId := s.rollId.filter fun r => !(r.isValid && r.lootedTarget == target) }

/-- The loot is deleted or cleared: its rolls lose their reference to it. -/
def lootGone (s : Rolls) (target : Nat) : Rolls :=
  { s with rollId := s.rollId.map fun r =>
      if r.lootedTarget = target then { r with isValid := false } else r }

def step (s : Rolls) (i : RollInput) : Rolls :=
  match i with
  | .startLootRoll target slot looters => s.startLootRoll target slot looters
  | .lootRoll guid target slot vote => s.countRollVote guid target slot vote
  | .leave guid => s.removeRolls guid
  | .endRoll target => s.endRoll target
  | .lootGone target => s.lootGone target

end Rolls

/-! ## The counters and the vote map -/

namespace Roll

variable {r : Roll} {guid : Nat} {vote w : RollVote} {v : ClientVote}

/-- The counters say what the vote map says, and somebody has still to vote. -/
structure Exact (r : Roll) : Prop where
  need : r.totalNeed.toNat = r.votesFor .need
  greed : r.totalGreed.toNat = r.votesFor .greed
  pass : r.totalPass.toNat = r.votesFor .pass
  rolling : r.totalPlayersRolling.toNat = r.size
  waiting : 0 < r.votesFor .notEmittedYet

/-- What an exact roll keeps besides. -/
structure Sound (r : Roll) : Prop extends Exact r where
  valid : r.votesFor .notValid = 0
  size_le : r.size ≤ maxRaidSize

/-- Every player of the vote map has one of the five votes. -/
theorem size_eq (r : Roll) :
    r.size = r.votesFor .pass + r.votesFor .need + r.votesFor .greed + r.votesFor .notEmittedYet +
      r.votesFor .notValid := by
  unfold size votesFor
  rw [← total_add, ← total_add, ← total_add, ← total_add]
  refine total_congr fun _ w _ => ?_
  cases w <;> rfl

theorem start_sound (target slot : Nat) {looters : Looters} (h : looters.guids ≠ []) :
    (start target slot looters).Sound := by
  have hvotes : ∀ w, (start target slot looters).votesFor w =
      if w = .notEmittedYet then looters.guids.length else 0 := by
    intro w
    unfold votesFor total start
    rw [map_map]
    by_cases hw : w = .notEmittedYet
    · simp [Function.comp_def, hw]
    · simp [Function.comp_def, hw, Ne.symm hw]
  have hsize : (start target slot looters).size = looters.guids.length := by
    rw [size_eq]
    simp [hvotes]
  have hle : looters.guids.length ≤ 40 := looters.length_le
  have hpos : 0 < looters.guids.length := length_pos_iff.mpr h
  refine ⟨⟨?_, ?_, ?_, ?_, ?_⟩, ?_, ?_⟩
  · rw [hvotes]; rfl
  · rw [hvotes]; rfl
  · rw [hvotes]; rfl
  · rw [hsize]
    exact UInt8.toNat_ofNat_of_lt' (by rw [UInt8.size]; omega)
  · rw [hvotes, if_pos rfl]; exact hpos
  · rw [hvotes]; rfl
  · rw [hsize]; exact hle

/-- A first vote moves the player from the ones who have not voted. -/
theorem votesFor_insert (vote : RollVote) (h : r.playerVote.lookup guid = some .notEmittedYet)
    (w : RollVote) :
    total (fun _ x => if x = w then 1 else 0) (r.playerVote.insert guid vote) +
      (if w = .notEmittedYet then 1 else 0) = r.votesFor w + if vote = w then 1 else 0 := by
  have ht := total_insert (fun _ x => if x = w then 1 else 0) r.playerVote guid vote
  rw [weightAt_some h] at ht
  rw [votesFor]
  simpa only [eq_comm (a := RollVote.notEmittedYet)] using ht

theorem size_insert (vote : RollVote) (h : r.playerVote.lookup guid = some w) :
    total (fun _ _ => 1) (r.playerVote.insert guid vote) = r.size := by
  have ht := total_insert (fun _ _ => 1) r.playerVote guid vote
  rw [weightAt_some h] at ht
  exact Nat.add_right_cancel ht

/-- A first vote is counted, and it ends the roll exactly when it is the last one. -/
theorem countRollVote_sound (hs : r.Sound) (h : r.playerVote.lookup guid = some .notEmittedYet) :
    ((r.countRollVote guid v.toRollVote).2 = true →
      (r.countRollVote guid v.toRollVote).1.votesFor .notEmittedYet = 0) ∧
    ((r.countRollVote guid v.toRollVote).2 = false →
      (r.countRollVote guid v.toRollVote).1.Sound) := by
  have hins := votesFor_insert v.toRollVote h
  have hsz := size_insert v.toRollVote h
  have hn := hs.need
  have hg := hs.greed
  have hp := hs.pass
  have hr := hs.rolling
  have hw := hs.waiting
  have hv := hs.valid
  have hle : r.size ≤ 40 := hs.size_le
  have hsum := r.size_eq
  unfold countRollVote
  rw [h]
  dsimp only
  generalize hr' : r.setVote guid v.toRollVote = r'
  -- the map after the vote; the counter of the vote goes up by one
  have hmap : r'.playerVote = r.playerVote.insert guid v.toRollVote := by
    rw [← hr']; cases v <;> rfl
  have hvotes : ∀ w, r'.votesFor w + (if w = .notEmittedYet then 1 else 0) =
      r.votesFor w + if v.toRollVote = w then 1 else 0 := by
    intro w
    rw [votesFor, hmap]
    exact hins w
  have hsize' : r'.size = r.size := by rw [size, hmap]; exact hsz
  have hrolling : r'.totalPlayersRolling = r.totalPlayersRolling := by
    rw [← hr']; cases v <;> rfl
  have hcount : r'.totalNeed.toNat = r'.votesFor .need ∧ r'.totalGreed.toNat = r'.votesFor .greed ∧
      r'.totalPass.toNat = r'.votesFor .pass := by
    have h1 := hvotes .need
    have h2 := hvotes .greed
    have h3 := hvotes .pass
    subst hr'
    cases v <;> simp only [setVote, ClientVote.toRollVote, reduceCtorEq, if_true, if_false] at h1 h2 h3 ⊢
    · have := toNat_succ8 (a := r.totalPass) (by omega); omega
    · have := toNat_succ8 (a := r.totalNeed) (by omega); omega
    · have := toNat_succ8 (a := r.totalGreed) (by omega); omega
  have hvalid : r'.votesFor .notValid = 0 := by
    have := hvotes .notValid
    cases v <;> simp only [ClientVote.toRollVote, reduceCtorEq, if_false] at this <;> omega
  have hsum' := r'.size_eq
  have hroll : r'.totalPlayersRolling.toNat = r'.size := by rw [hrolling, hr, hsize']
  refine ⟨fun hdone => ?_, fun hdone => ?_⟩
  · rw [decide_eq_true_eq] at hdone
    omega
  · rw [decide_eq_false_iff_not] at hdone
    exact ⟨⟨hcount.1, hcount.2.1, hcount.2.2, hroll, by omega⟩, hvalid, by rw [hsize']; exact hle⟩

/-- A player who leaves takes their vote along; the roll is not ended by that. -/
theorem erase_sound (hs : r.Sound) (h : r.playerVote.lookup guid = some vote)
    (hw : 0 < total (fun _ x => if x = .notEmittedYet then 1 else 0) (r.playerVote.erase guid)) :
    (r.erase guid vote).Sound := by
  have hvotes : ∀ w, (r.erase guid vote).votesFor w + (if vote = w then 1 else 0) = r.votesFor w := by
    intro w
    have ht := total_erase (fun _ x => if x = w then 1 else 0) r.playerVote guid
    rw [weightAt_some h] at ht
    exact ht
  have hsize : (r.erase guid vote).size + 1 = r.size := by
    have ht := total_erase (fun _ _ => 1) r.playerVote guid
    rw [weightAt_some h] at ht
    exact ht
  have hn := hs.need
  have hg := hs.greed
  have hp := hs.pass
  have hr := hs.rolling
  have hv := hs.valid
  have hle : r.size ≤ 40 := hs.size_le
  have h1 := hvotes .need
  have h2 := hvotes .greed
  have h3 := hvotes .pass
  have h4 := hvotes .notValid
  have hroll := toNat_pred8 (a := r.totalPlayersRolling) (by omega)
  have hcount : (r.erase guid vote).totalNeed.toNat = (r.erase guid vote).votesFor .need ∧
      (r.erase guid vote).totalGreed.toNat = (r.erase guid vote).votesFor .greed ∧
      (r.erase guid vote).totalPass.toNat = (r.erase guid vote).votesFor .pass ∧
      (r.erase guid vote).totalPlayersRolling.toNat = (r.erase guid vote).size := by
    cases vote <;> simp only [reduceCtorEq, if_true, if_false] at h1 h2 h3 h4 <;>
      simp only [erase, reduceCtorEq, if_true, if_false, ne_eq, not_false_eq_true] at h1 h2 h3 hsize ⊢
    · have := toNat_pred8 (a := r.totalPass) (by omega); omega
    · have := toNat_pred8 (a := r.totalNeed) (by omega); omega
    · have := toNat_pred8 (a := r.totalGreed) (by omega); omega
    · omega
    · omega
  exact ⟨⟨hcount.1, hcount.2.1, hcount.2.2.1, hcount.2.2.2, hw⟩, by omega,
    Nat.le_trans (by omega) hs.size_le⟩

/-- The vote function does nothing for a player who is not in the map. -/
theorem countRollVote_erase : (r.erase guid vote).countRollVote guid w = (r.erase guid vote, false) := by
  unfold countRollVote
  rw [show (r.erase guid vote).playerVote.lookup guid = none from AList.lookup_erase ..]

end Roll

/-! ## Runs -/

namespace Rolls

variable {s : Rolls} {i : RollInput}

/-- Nobody votes a second time on a roll, and nobody leaves a roll on which all others have voted. -/
def StepOk (s : Rolls) (i : RollInput) : Prop :=
  match i with
  | .lootRoll guid target slot _ => ∀ r ∈ s.rollId.find? (isFor target slot),
      ∀ vote ∈ r.playerVote.lookup guid, vote = .notEmittedYet
  | .leave guid => ∀ r ∈ s.rollId, (r.playerVote.lookup guid).isSome →
      ∃ x ∈ r.playerVote.entries, x.1 ≠ guid ∧ x.2 = .notEmittedYet
  | _ => True

instance : Decidable (s.StepOk i) := by
  unfold StepOk
  cases i <;> infer_instance

/-- Every open roll is sound; a roll that votes have ended had all its votes. -/
structure Sound (s : Rolls) : Prop where
  open_sound : ∀ r ∈ s.rollId, r.Sound
  all_voted : ∀ r ∈ s.counted, r.votesFor .notEmittedYet = 0

theorem countRollVote_keeps {guid target slot : Nat} {vote : ClientVote} (hs : s.Sound)
    (hok : s.StepOk (.lootRoll guid target slot vote)) :
    (s.countRollVote guid target slot vote).Sound := by
  unfold countRollVote
  cases hi : s.rollId.findIdx? (isFor target slot) with
  | none => exact hs
  | some i =>
    dsimp only
    cases hr : s.rollId[i]? with
    | none => exact hs
    | some r =>
      have hmem : r ∈ s.rollId := mem_of_getElem? hr
      have hfind : s.rollId.find? (isFor target slot) = some r := by
        obtain ⟨hlt, hp, hbefore⟩ := findIdx?_eq_some_iff_getElem.mp hi
        rw [getElem?_eq_getElem hlt, Option.some.injEq] at hr
        subst hr
        exact find?_eq_some_iff_getElem.mpr
          ⟨hp, i, hlt, rfl, fun j hj => by simpa using hbefore j hj⟩
      dsimp only
      cases hl : r.playerVote.lookup guid with
      | none =>
        -- somebody who joined the group after the roll began
        have hsame : r.countRollVote guid vote.toRollVote = (r, false) := by
          unfold Roll.countRollVote; rw [hl]
        rw [hsame]
        simp only [Bool.false_eq_true, if_false]
        refine ⟨fun x hx => ?_, hs.all_voted⟩
        obtain hx | rfl := mem_or_eq_of_mem_set hx
        · exact hs.open_sound x hx
        · exact hs.open_sound x hmem
      | some v =>
        obtain rfl := hok r hfind v hl
        obtain ⟨hdone, hopen⟩ := Roll.countRollVote_sound (v := vote) (hs.open_sound r hmem) hl
        cases hd : (r.countRollVote guid vote.toRollVote).2 with
        | true =>
          refine ⟨fun x hx => hs.open_sound x (mem_of_mem_eraseIdx hx), fun x hx => ?_⟩
          obtain hx | hx := mem_append.mp hx
          · exact hs.all_voted x hx
          · rw [mem_singleton.mp hx]; exact hdone hd
        | false =>
          refine ⟨fun x hx => ?_, hs.all_voted⟩
          obtain hx | rfl := mem_or_eq_of_mem_set hx
          · exact hs.open_sound x hx
          · exact hopen hd

/-- The rolls that a leaving member is taken out of. -/
theorem removeFrom_eq (guid : Nat) (rs : List Roll) :
    removeFrom guid rs = (rs.map fun r =>
      match r.playerVote.lookup guid with
      | none => r
      | some vote => r.erase guid vote, []) := by
  induction rs with
  | nil => rfl
  | cons r rs ih =>
    unfold removeFrom
    rw [ih, map_cons]
    cases r.playerVote.lookup guid with
    | none => rfl
    | some vote =>
      dsimp only
      rw [Roll.countRollVote_erase]
      rfl

/-- The rolls stay about the same items. -/
theorem removeFrom_itemSlot (guid : Nat) (rs : List Roll) :
    (removeFrom guid rs).1.map (·.itemSlot) = rs.map (·.itemSlot) := by
  rw [removeFrom_eq, map_map]
  refine map_congr_left fun r _ => ?_
  dsimp only [Function.comp]
  cases r.playerVote.lookup guid <;> rfl

theorem removeRolls_keeps {guid : Nat} (hs : s.Sound) (hok : s.StepOk (.leave guid)) :
    (s.removeRolls guid).Sound := by
  unfold removeRolls
  rw [removeFrom_eq]
  refine ⟨fun x hx => ?_, by simpa using hs.all_voted⟩
  obtain ⟨r, hr, rfl⟩ := mem_map.mp hx
  have hsound := hs.open_sound r hr
  cases hl : r.playerVote.lookup guid with
  | none => exact hsound
  | some vote =>
    refine Roll.erase_sound hsound hl ?_
    obtain ⟨⟨g, v⟩, hx, hne, rfl⟩ := hok r hr (by rw [hl]; rfl)
    have hlook : (r.playerVote.erase guid).lookup g = some .notEmittedYet := by
      rw [AList.lookup_erase_ne hne]
      exact mem_dlookup r.playerVote.nodupKeys hx
    have hle := Lib.le_total (f := fun _ x => if x = RollVote.notEmittedYet then 1 else 0) hlook
    rwa [if_pos rfl] at hle

/-- An admissible step keeps every roll exact. -/
theorem step_keeps (hs : s.Sound) (hok : s.StepOk i) : (s.step i).Sound := by
  cases i with
  | startLootRoll target slot looters =>
    unfold step startLootRoll
    dsimp only
    split_ifs with hl
    · exact hs
    · refine ⟨fun x hx => ?_, hs.all_voted⟩
      obtain hx | hx := mem_append.mp hx
      · exact hs.open_sound x hx
      · rw [mem_singleton.mp hx]; exact Roll.start_sound target slot hl
  | lootRoll guid target slot vote => exact countRollVote_keeps hs hok
  | leave guid => exact removeRolls_keeps hs hok
  | endRoll target =>
    exact ⟨fun x hx => hs.open_sound x (mem_filter.mp hx).1, hs.all_voted⟩
  | lootGone target =>
    refine ⟨fun x hx => ?_, hs.all_voted⟩
    obtain ⟨r, hr, rfl⟩ := mem_map.mp hx
    have hsound := hs.open_sound r hr
    split_ifs
    · exact ⟨{ hsound with }, hsound.valid,
        hsound.size_le⟩
    · exact hsound

/-- In every run without second votes and without the last outstanding voter leaving, the counters
of every open roll are exact, somebody has still to vote on it, and votes have ended a roll only
when everybody had voted. -/
theorem exact_of_run (is : List RollInput) (h : AlongRun step StepOk {} is) :
    (∀ r ∈ (run step {} is).rollId, r.Exact) ∧
      ∀ r ∈ (run step {} is).counted, r.votesFor .notEmittedYet = 0 := by
  have hs : (run step {} is).Sound :=
    run_keeps (fun s i hs hok => step_keeps hs hok) ⟨by simp, by simp⟩ h
  exact ⟨fun r hr => (hs.open_sound r hr).toExact, hs.all_voted⟩

def pair : Looters := ⟨[1, 2], by decide, by decide⟩

/-- A roll that ends with the second of two votes. -/
theorem exact_of_run_pair :
    AlongRun step StepOk {}
      [.startLootRoll 9 0 pair, .lootRoll 1 9 0 .need, .lootRoll 2 9 0 .pass] ∧
    ∀ r ∈ (run step {} [.startLootRoll 9 0 pair, .lootRoll 1 9 0 .need, .lootRoll 2 9 0 .pass]).counted,
      r.votesFor .notEmittedYet = 0 :=
  have h : AlongRun step StepOk {}
      [.startLootRoll 9 0 pair, .lootRoll 1 9 0 .need, .lootRoll 2 9 0 .pass] := by decide
  ⟨h, (exact_of_run _ h).2⟩

/-- One player passes twice, and the roll is over for the other one, who has not voted. -/
theorem second_vote_ends_roll :
    ∃ r ∈ (run step {}
      [.startLootRoll 9 0 pair, .lootRoll 1 9 0 .pass, .lootRoll 1 9 0 .pass]).counted,
      r.votesFor .notEmittedYet ≠ 0 := by
  decide

end Rolls

end Windrunner
