import Mathlib.Data.Prod.Lex
import Windrunner.Loot.Roll
import Windrunner.Loot.State

/-!
# Handing out a loot

The three ways in which an entry of a loot becomes an item: a player takes it from a slot, the
winner of a roll gets it, the master looter gives it away. `LootWorld` is a loot with the rolls
on it, the players who have it open, and a record of the items created and the gold paid.

* `LootWorld.step`: one packet, or one event of the server, with what the code reads of the world
  outside the loot at that moment (`Moment`).
* `Advances`: what no step undoes. A mark, once set, stays set.
* `Once`: no entry has been created more often than it may, and what was created is marked.
-/

namespace Windrunner

open Lib

inductive LootMethod where
  | freeForAll
  | roundRobin
  | masterLoot
  | groupLoot
  | needBeforeGreed
  deriving DecidableEq, Repr

/-- What the code reads of the world outside the loot while it handles one packet. -/
structure Moment where
  meets : Meets
  inWorld : Nat → Bool
  /-- `sObjectMgr.GetPlayer` finds the player, with a session. -/
  online : Nat → Bool
  /-- The looted object is there, in the right state and near enough for the player. -/
  reaches : Nat → Bool
  /-- `CanStoreNewItem` of a player, an item and a count. -/
  canStoreNewItem : Nat → Nat → UInt8 → Bool
  /-- The loot method of the player's group. -/
  lootMethod : Nat → Option LootMethod
  /-- The player is the master looter of the group, and the target is in the world, in the same
  raid and on the same map; the loot is that of a creature or an object at reward distance. -/
  mayGive : Nat → Nat → Bool
  /-- The player's group is the one whose loot it is. -/
  ownsLoot : Nat → Bool
  /-- The loot method of the group whose loot it is. -/
  recipientMethod : Option LootMethod
  lootThreshold : Nat
  quality : Nat → Option Nat
  /-- The members of that group who are in the world and near the corpse. -/
  members : Looters
  canUseItem : Nat → Nat → Bool
  /-- `urand(1, 100)` for each player. -/
  dice : Nat → Nat
  /-- The place of a guid in the vote map of a roll. That is a hash map, which may have its keys in any
  order. -/
  place : Nat → Nat
  /-- The members the gold is shared with, when it is shared. -/
  playersNear : Nat → Option (List Nat)

/-- An item that the server has created from an entry. -/
structure Created where
  quest : Bool
  index : Nat
  player : Nat
  deriving DecidableEq, Repr

structure LootWorld where
  loot : Loot
  isCreature : Bool
  lootGuid : Nat := 1
  rolls : Rolls := {}
  lootForBody : Bool := false
  /-- The players whose loot guid is this loot's. -/
  looting : List Nat := []
  created : List Created := []
  paid : Int := 0

inductive LootInput where
  | addItem (li : LootStoreItem)
  | fillNotNormalLootFor (m : Moment) (player : Nat)
  | fillLoot (m : Moment) (lis : List LootStoreItem) (owner : Nat) (group : Option (List Nat))
  | sendLoot (m : Moment) (player : Nat)
  | lootRelease (m : Moment) (player : Nat)
  | autostoreLootItem (m : Moment) (player slot : Nat)
  | lootMasterGive (m : Moment) (player slot target : Nat)
  | lootRoll (m : Moment) (player slot : Nat) (vote : ClientVote)
  | leave (m : Moment) (player : Nat)
  | endRoll (m : Moment)
  | lootMoney (m : Moment) (player : Nat)

def Looters.filter (p : Nat → Bool) (looters : Looters) : Looters :=
  ⟨looters.guids.filter p, looters.nodup.filter p,
    Nat.le_trans (List.length_filter_le p looters.guids) looters.length_le⟩

namespace Loot

/-- The items of a quality under the threshold are marked. -/
def markUnderthreshold (l : Loot) (m : Moment) : Loot :=
  { l with items := l.items.map fun item =>
      if (m.quality item.itemid).any (· < m.lootThreshold) then { item with isUnderthreshold := true }
      else item }

/-- `Loot::FillLoot`; `group` are the members who get access. -/
def fillLoot (l : Loot) (m : Moment) (lis : List LootStoreItem) (owner : Nat)
    (group : Option (List Nat)) : Loot :=
  let l := lis.foldl addItem l
  match group with
  | none => l.fillNotNormalLootFor m.meets m.inWorld owner
  | some members =>
    let l := members.foldl (fun l player =>
      { l with allowedLooters := l.allowedLooters ++ [player] }.fillNotNormalLootFor m.meets m.inWorld
        player) { l with roundRobinPlayer := owner }
    l.markUnderthreshold m

def isAllowedLooter (l : Loot) (guid : Nat) : Bool := l.allowedLooters.contains guid

/-- The checks of `HandleAutostoreLootItemOpcode` on the entry in a slot. `held` says that the loot
is a creature's and the player's group uses master loot. -/
def takeable (l : Loot) (meets : Meets) (held : Bool) (player slot : Nat) : Option LootSlot :=
  match l.lootItemInSlot slot player with
  | none => none
  | some s =>
    if !s.item.allowedForPlayer meets player then none
    -- quest entries use the blocked field for other purposes
    else if !s.mark.isQuest && s.item.isBlocked then none
    else if held && !s.item.isUnderthreshold && !s.mark.isQuest && !s.mark.isFFA then none
    else some s

/-- The player's own mark for what they took. -/
def markOwn (l : Loot) (player : Nat) : SlotMark → Loot
  | .plain => l
  | .quest pos => { l with playerQuestItems := l.playerQuestItems.setLooted player pos }
  | .ffa pos => { l with playerFFAItems := l.playerFFAItems.setLooted player pos }
  | .conditional pos =>
    { l with playerConditionalItems := l.playerConditionalItems.setLooted player pos }

/-- The marks that `HandleAutostoreLootItemOpcode` leaves. -/
def take (l : Loot) (player : Nat) (s : LootSlot) : Loot :=
  let l := l.markOwn player s.mark
  let l :=
    if s.item.freeforall then l
    else if s.mark.isQuest then
      { l with questItems := l.questItems.modify s.index fun item => { item with isLooted := true } }
    else { l with items := l.items.modify s.index fun item => { item with isLooted := true } }
  { l with unlootedCount := l.unlootedCount - 1 }

/-- The marks that `HandleLootMasterGiveOpcode` leaves. -/
def giveAway (l : Loot) (slot : Nat) : Loot :=
  { l with
    items := l.items.modify slot fun item => { item with count := 0, isLooted := true }
    unlootedCount := l.unlootedCount - 1 }

end Loot

namespace Roll

/-- Guids by their places in the map -/
def mapKey (place : Nat → Nat) (guid : Nat) : Nat ×ₗ Nat := toLex (place guid, guid)

/-- The votes in the order of the map. -/
def votes (r : Roll) (place : Nat → Nat) : List (Σ _ : Nat, RollVote) :=
  r.playerVote.entries.insertionSort fun a b => mapKey place a.1 ≤ mapKey place b.1

/-- The loop of `CountTheRoll` over the players who voted `vote`: the first of the highest. -/
def winner (r : Roll) (vote : RollVote) (m : Moment) : Option Nat :=
  match r.votes m.place with
  | [] => none
  | x :: _ => some ((r.votes m.place).foldl (fun best y =>
      if y.2 = vote ∧ best.2 < m.dice y.1 then (y.1, m.dice y.1) else best) (x.1, 0)).1

/-- What the roll decides about its slot. -/
inductive Outcome where
  /-- The winner gets the item. -/
  | given (guid : Nat)
  /-- The winner has no room: the item is kept for them. -/
  | kept (guid : Nat)
  /-- The winner of a need roll is not there: the item is theirs and stays blocked. -/
  | absent (guid : Nat)
  | nothing
  | allPassed
  deriving DecidableEq, Repr

/-- `CountTheRoll` up to the change of the item. -/
def outcome (r : Roll) (m : Moment) (item : LootItem) : Outcome :=
  if 0 < r.totalNeed then
    match r.winner .need m with
    | none => .nothing
    | some guid =>
      if m.online guid then
        if m.canStoreNewItem guid item.itemid item.count then .given guid else .kept guid
      else .absent guid
  else if 0 < r.totalGreed then
    match r.winner .greed m with
    | none => .nothing
    | some guid =>
      if m.online guid then
        if m.canStoreNewItem guid item.itemid item.count then .given guid else .kept guid
      else .nothing
  else .allPassed

/-- The item after the roll. -/
def Outcome.apply (o : Outcome) (item : LootItem) : LootItem :=
  match o with
  | given _ => { item with isLooted := true }
  | kept guid => { item with isBlocked := false, lootOwner := guid }
  | absent guid => { item with lootOwner := guid }
  | nothing => item
  | allPassed => { item with isBlocked := false }

end Roll

namespace LootWorld

variable (w : LootWorld) (m : Moment)

/-- `Group::CountTheRoll`. -/
def countTheRoll (w : LootWorld) (r : Roll) : LootWorld :=
  match w.loot.items[r.itemSlot]? with
  | none => w
  | some item =>
    let o := r.outcome m item
    let items := w.loot.items.modify r.itemSlot o.apply
    match o with
    | .given guid =>
      { w with
        loot := { w.loot with items, unlootedCount := w.loot.unlootedCount - 1 }
        -- no item is created at a count of zero
        created := if item.count = 0 then w.created else w.created ++ [⟨false, r.itemSlot, guid⟩] }
    | _ => { w with loot := { w.loot with items } }

/-- `Group::StartLootRoll`. -/
def startLootRoll (method : LootMethod) (slot : Nat) (item : LootItem) :
    LootWorld :=
  let looters := m.members.filter fun p =>
    (method != .needBeforeGreed || m.canUseItem p item.itemid) &&
      item.allowedForPlayer m.meets p && w.loot.isAllowedLooter p
  if looters.guids = [] then w
  else
    { w with
      rolls := w.rolls.startLootRoll w.lootGuid slot looters
      loot := { w.loot with
        items := w.loot.items.modify slot fun item => { item with isBlocked := true } } }

/-- One turn of the loops of `Group::GroupLoot` and `Group::NeedBeforeGreed`. -/
def rollSlot (method : LootMethod) (w : LootWorld) (slot : Nat) : LootWorld :=
  match w.loot.items[slot]? with
  | none => w
  | some item =>
    if item.freeforall then w
    else
      match m.quality item.itemid with
      | none => w
      | some q =>
        if m.lootThreshold ≤ q then w.startLootRoll m method slot item
        else
          { w with loot := { w.loot with
              items := w.loot.items.modify slot fun item => { item with isUnderthreshold := true } } }

def groupLoot (method : LootMethod) : LootWorld :=
  (List.range w.loot.items.length).foldl (rollSlot m method) w

/-- The rolls of `Player::SendLoot`: they start when a corpse is first opened. -/
def openBody : LootWorld :=
  if w.isCreature = true ∧ w.lootForBody = false then
    let w := { w with lootForBody := true }
    match m.recipientMethod with
    | some .groupLoot => w.groupLoot m .groupLoot
    | some .needBeforeGreed => w.groupLoot m .needBeforeGreed
    | _ => w
  else w

/-- `Group::MasterLoot`, when a member of the group opens the corpse. -/
def masterLoot (player : Nat) : LootWorld :=
  if w.isCreature = true ∧ m.ownsLoot player = true ∧ m.lootMethod player = some .masterLoot then
    { w with loot := w.loot.markUnderthreshold m }
  else w

/-- `Player::SendLoot`, when it goes through. -/
def sendLoot (player : Nat) : LootWorld :=
  { (w.openBody m).masterLoot m player with looting := player :: w.looting }

/-- `DoLootRelease` of a loot that is not all looted. -/
def lootRelease (player : Nat) : LootWorld :=
  { w with
    looting := w.looting.filter (· ≠ player)
    loot :=
      if w.isCreature ∧ player = w.loot.roundRobinPlayer ∧ m.lootMethod player ≠ some .masterLoot then
        { w.loot with roundRobinPlayer := 0 }
      else w.loot }

/-- The player's group holds the loot of the creature back for the master looter. -/
def heldBack (player : Nat) : Bool :=
  w.isCreature && m.lootMethod player == some .masterLoot

/-- The entry that `HandleAutostoreLootItemOpcode` creates an item from. -/
def taken (player slot : Nat) : Option LootSlot :=
  if w.looting.contains player && m.reaches player then
    match w.loot.takeable m.meets (w.heldBack m player) player slot with
    | none => none
    | some s => if m.canStoreNewItem player s.item.itemid s.item.count && s.item.count != 0 then some s
        else none
  else none

/-- `HandleAutostoreLootItemOpcode`. -/
def autostoreLootItem (player slot : Nat) : LootWorld :=
  match w.taken m player slot with
  | none => w
  | some s =>
    { w with
      loot := w.loot.take player s
      created := w.created ++ [⟨s.mark.isQuest, s.index, player⟩] }

/-- The item that `HandleLootMasterGiveOpcode` marks as looted. -/
def given (player slot target : Nat) : Option LootItem :=
  if w.looting.contains player && m.mayGive player target && w.loot.isAllowedLooter target then
    match w.loot.items[slot]? with
    | none => none
    | some item => if m.canStoreNewItem target item.itemid item.count then some item else none
  else none

/-- `HandleLootMasterGiveOpcode`. -/
def lootMasterGive (player slot target : Nat) : LootWorld :=
  match w.given m player slot target with
  | none => w
  | some item =>
    { w with
      loot := w.loot.giveAway slot
      created := if item.count = 0 then w.created else w.created ++ [⟨false, slot, target⟩] }

/-- The rolls that a change of the group's rolls has ended are counted. -/
def withRolls (rolls : Rolls) : LootWorld :=
  (rolls.counted.drop w.rolls.counted.length).foldl (countTheRoll m) { w with rolls }

/-- `Group::EndRoll`. -/
def endRoll : LootWorld :=
  (w.rolls.rollId.filter fun r => r.isValid && r.lootedTarget == w.lootGuid).foldl (countTheRoll m)
    { w with rolls := w.rolls.endRoll w.lootGuid }

/-- `Player::LootMoney` takes a signed amount. -/
def payout (gold : UInt32) (n : Option Nat) : Int :=
  match n with
  | none => gold.toInt32.toInt
  | some n => n * (UInt32.ofNat (gold.toNat / n)).toInt32.toInt

/-- `HandleLootMoneyOpcode`. -/
def lootMoney (player : Nat) : LootWorld :=
  if w.looting.contains player && m.reaches player then
    { w with
      paid := w.paid + payout w.loot.gold ((m.playersNear player).map List.length)
      loot := { w.loot with gold := 0 } }
  else w

def step (i : LootInput) : LootWorld :=
  match i with
  | .addItem li => { w with loot := w.loot.addItem li }
  | .fillNotNormalLootFor m player =>
    { w with loot := w.loot.fillNotNormalLootFor m.meets m.inWorld player }
  | .fillLoot m lis owner group => { w with loot := w.loot.fillLoot m lis owner group }
  | .sendLoot m player => w.sendLoot m player
  | .lootRelease m player => w.lootRelease m player
  | .autostoreLootItem m player slot => w.autostoreLootItem m player slot
  | .lootMasterGive m player slot target => w.lootMasterGive m player slot target
  | .lootRoll m player slot vote => w.withRolls m (w.rolls.countRollVote player w.lootGuid slot vote)
  | .leave m player => w.withRolls m (w.rolls.removeRolls player)
  | .endRoll m => w.endRoll m
  | .lootMoney m player => w.lootMoney m player

/-- A loot before it is filled. -/
def start (isCreature : Bool) (gold : UInt32) : LootWorld where
  loot := { gold }
  isCreature := isCreature

/-- Everything fits, and the group lets everybody take what they like. -/
def anyMoment : Moment where
  meets _ _ _ _ := true
  inWorld _ := true
  online _ := true
  reaches _ := true
  canStoreNewItem _ _ _ := true
  lootMethod _ := some .freeForAll
  mayGive _ _ := false
  ownsLoot _ := true
  recipientMethod := none
  lootThreshold := 2
  quality _ := some 4
  members := Rolls.pair
  canUseItem _ _ := true
  dice player := player
  place player := player
  playersNear _ := none

/-- The group uses master loot. -/
def masterMoment : Moment :=
  { anyMoment with lootMethod := fun _ => some .masterLoot, mayGive := fun _ _ => true }

end LootWorld

/-- What filling a loot keeps: the items come one by one, and the players get their lists. -/
structure Loot.Filling (P : Loot → Prop) : Prop where
  addItem : ∀ {l}, P l → ∀ li, P (l.addItem li)
  looters : ∀ {l}, P l → ∀ allowedLooters roundRobinPlayer, P { l with allowedLooters, roundRobinPlayer }
  quest : ∀ {l meets player}, l.playerQuestItems.lookup player = none → P l → P (l.fillQuestLoot meets player)
  ffa : ∀ {l meets player}, l.playerFFAItems.lookup player = none → P l → P (l.fillFFALoot meets player)
  conditional : ∀ {l meets player}, l.playerConditionalItems.lookup player = none → P l →
    P (l.fillConditionalLoot meets player)
  underthreshold : ∀ {l}, P l → ∀ m, P (l.markUnderthreshold m)

namespace Loot.Filling

variable {P : Loot → Prop} {l : Loot}

theorem fillNotNormalLootFor (h : Filling P) (hl : P l) (meets : Meets) (inWorld : Nat → Bool) (player : Nat) :
    P (l.fillNotNormalLootFor meets inWorld player) := by
  have hif : ∀ {c : Prop} [Decidable c] {l l' : Loot}, (c → P l → P l') → P l → P (if c then l' else l) := by
    intro c _ l l' h' h
    split_ifs with hc
    · exact h' hc h
    · exact h
  unfold Loot.fillNotNormalLootFor
  -- the three lists, one after the other
  exact hif (fun _ hl => hif h.conditional (hif h.ffa (hif h.quest (h.looters hl _ _)))) hl

theorem fillLoot (h : Filling P) (hl : P l) (m : Moment) (lis : List LootStoreItem) (owner : Nat)
    (group : Option (List Nat)) : P (l.fillLoot m lis owner group) := by
  have hadd : P (lis.foldl Loot.addItem l) := run_invariant (I := P) (fun _ li hl => h.addItem hl li) hl lis
  unfold Loot.fillLoot
  cases group with
  | none => exact h.fillNotNormalLootFor hadd ..
  | some members =>
    exact h.underthreshold (run_invariant (I := P)
      (fun _ _ hl => h.fillNotNormalLootFor (h.looters hl _ _) ..) (h.looters hadd _ _) members) m

end Loot.Filling

/-- The slots that can be taken from. -/
theorem Loot.takeable_iff {l : Loot} {meets : Meets} {held : Bool} {player slot : Nat} {s : LootSlot} :
    l.takeable meets held player slot = some s ↔
      l.InSlot slot player s ∧ s.item.allowedForPlayer meets player = true ∧
        (s.mark.isQuest = true ∨ s.item.isBlocked = false) ∧
        (held = true → s.item.isUnderthreshold = true ∨ s.mark.isQuest = true ∨ s.mark.isFFA = true) := by
  unfold takeable
  rw [← lootItemInSlot_iff]
  cases hs : l.lootItemInSlot slot player with
  | none => simp
  | some s' =>
    dsimp only
    rw [Option.some.injEq]
    constructor
    · intro h
      split_ifs at h with ha hb hm
      obtain rfl := Option.some.inj h
      simp only [Bool.not_eq_true', Bool.not_eq_false] at ha
      refine ⟨rfl, ha, ?_, fun hheld => ?_⟩
      · by_cases hq : s'.mark.isQuest = true
        · exact .inl hq
        · simp only [Bool.not_eq_true] at hq
          exact .inr (by simpa [hq] using hb)
      · by_contra hne
        simp only [not_or, Bool.not_eq_true] at hne
        exact hm (by simp [hheld, hne])
    · rintro ⟨rfl, ha, hb, hm⟩
      rw [if_neg (by simp [ha]), if_neg, if_neg]
      · intro h
        simp only [Bool.and_eq_true, Bool.not_eq_true'] at h
        rcases hm h.1.1.1 with h' | h' | h' <;> simp [h'] at h
      · intro h
        simp only [Bool.and_eq_true, Bool.not_eq_true'] at h
        rcases hb with h' | h' <;> simp [h'] at h

namespace LootWorld

variable {w : LootWorld} {m : Moment} {player slot target : Nat}

/-- What the handler takes is in the slot, has a count, and is not blocked by a roll. -/
theorem taken_spec {s : LootSlot} (h : w.taken m player slot = some s) :
    w.loot.InSlot slot player s ∧ s.item.count ≠ 0 ∧ (s.mark.isQuest = false → s.item.isBlocked = false) ∧
      w.looting ≠ [] := by
  unfold taken at h
  split_ifs at h with hl
  have hlooting : w.looting ≠ [] := by
    rintro hnil
    rw [hnil] at hl
    simp at hl
  cases hs : w.loot.takeable m.meets (w.heldBack m player) player slot with
  | none => rw [hs] at h; cases h
  | some s' =>
    rw [hs] at h
    dsimp only at h
    split_ifs at h with hstore
    obtain rfl := Option.some.inj h
    rw [Bool.and_eq_true, bne_iff_ne] at hstore
    obtain ⟨hin, -, hb, -⟩ := Loot.takeable_iff.mp hs
    refine ⟨hin, hstore.2, fun hq => ?_, hlooting⟩
    rcases hb with hb | hb
    · rw [hq] at hb
      cases hb
    · exact hb

theorem given_spec {item : LootItem} (h : w.given m player slot target = some item) :
    w.loot.items[slot]? = some item ∧ w.looting ≠ [] := by
  unfold given at h
  split_ifs at h with hl
  cases hi : w.loot.items[slot]? with
  | none => rw [hi] at h; cases h
  | some item' =>
    rw [hi] at h
    dsimp only at h
    split_ifs at h
    refine ⟨h, ?_⟩
    rintro hnil
    rw [hnil] at hl
    simp at hl

end LootWorld

end Windrunner
