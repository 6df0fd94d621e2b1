import Windrunner.Group.Office
import Windrunner.Lib.RoundRobin

/-!
# The looter's turn

Unless the group loots under `freeForAll` or `masterLoot`, its looter is a turn: `UpdateLooterGuid`
goes on to the next member who is near, in the order of the slots and round them. `looters` are those
who have had the turn after each call.
-/

namespace Windrunner

open Lib
open List hiding after

def Group.guids (g : Group) : List Nat := g.memberSlots.map (·.guid)

namespace Offices

variable {g : Group} {o : Offices} {near : Nat → Bool}

/-- The looter after each of the calls, while nobody moves. -/
def looters (g : Group) (near : Nat → Bool) : Nat → Offices → List Nat
  | 0, _ => []
  | n + 1, o =>
    let o := o.updateLooterGuid g near false
    o.looterGuid :: looters g near n o

/-- The turn goes round the members who are near. -/
structure FairTurns (g : Group) (near : Nat → Bool) (o : Offices) : Prop where
  others : o.updateLooterGuid g near false =
    { o with looterGuid := (o.updateLooterGuid g near false).looterGuid }
  /-- The next one after the looter, round the slots; in the end the looter himself. -/
  next : o.looterGuid ∈ g.guids → (o.updateLooterGuid g near false).looterGuid =
    ((g.guids.rotate (g.guids.idxOf o.looterGuid + 1)).find? near).getD 0
  first : o.looterGuid ∉ g.guids →
    (o.updateLooterGuid g near false).looterGuid = (g.guids.find? near).getD 0
  nobody : g.guids.filter near = [] → (o.updateLooterGuid g near false).looterGuid = 0
  rounds : ∀ k, ∀ guid ∈ g.guids.filter near,
    (looters g near (k * (g.guids.filter near).length) o).count guid = k

theorem updateLooterGuid_eq (hm : o.lootMethod ≠ .masterLoot) (hf : o.lootMethod ≠ .freeForAll) :
    o.updateLooterGuid g near false =
      { o with looterGuid := (nextTurn near g.guids o.looterGuid).getD 0 } := by
  -- the place at which the search starts
  have hat : g.guids.idxOf o.looterGuid = g.memberSlots.findIdx (·.guid == o.looterGuid) := by
    rw [Group.guids, idxOf, findIdx_map]
    rfl
  have hnext : nextTurn near g.guids o.looterGuid =
      ((g.memberSlots.drop (g.guids.idxOf o.looterGuid + 1) ++
        g.memberSlots.take (g.guids.idxOf o.looterGuid + 1)).find? (near ·.guid)).map (·.guid) := by
    rw [nextTurn, after, Group.guids, ← List.map_drop, ← List.map_take, ← List.map_append,
      find?_map]
    rfl
  unfold updateLooterGuid
  rw [if_neg (not_or.mpr ⟨hm, hf⟩), hnext, find?_append, hat]
  simp only [Bool.false_and, Bool.false_eq_true, if_false]
  cases h : g.memberSlots.findIdx? (·.guid == o.looterGuid) with
  | none =>
    have hlen : g.memberSlots.length ≤ g.memberSlots.findIdx (·.guid == o.looterGuid) + 1 := by
      rw [findIdx_eq_length.mpr (by simpa using h)]
      omega
    rw [Option.elim_none, drop_of_length_le hlen, take_of_length_le hlen, drop_length,
      take_length]
    cases g.memberSlots.find? (near ·.guid) <;> rfl
  | some i =>
    rw [(findIdx?_eq_some_iff_findIdx_eq.mp h).2, Option.elim_some]
    cases (g.memberSlots.drop (i + 1)).find? (near ·.guid) with
    | some s => rfl
    | none => cases (g.memberSlots.take (i + 1)).find? (near ·.guid) <;> rfl

/-- The looters are those whose turn it is. -/
theorem looters_eq (hm : o.lootMethod ≠ .masterLoot) (hf : o.lootMethod ≠ .freeForAll)
    (hne : g.guids.filter near ≠ []) (n : Nat) :
    looters g near n o = turns near g.guids n o.looterGuid := by
  induction n generalizing o with
  | zero => rfl
  | succ n ih =>
    have hsome : (nextTurn near g.guids o.looterGuid).isSome := by
      rw [nextTurn_eq, getElem?_eq_getElem (Nat.mod_lt _ (length_pos_iff.mpr hne))]
      rfl
    obtain ⟨guid, hguid⟩ := Option.isSome_iff_exists.mp hsome
    rw [looters, updateLooterGuid_eq hm hf, turns, hguid]
    exact congrArg (guid :: ·) (ih hm hf)

/-- Round-robin looting is fair. -/
theorem updateLooterGuid_fair
    (hm : o.lootMethod ∈ [LootMethod.roundRobin, .groupLoot, .needBeforeGreed])
    (hg : g.guids.Nodup) : FairTurns g near o := by
  have hmaster : o.lootMethod ≠ .masterLoot := fun h => by simp [h] at hm
  have hfree : o.lootMethod ≠ .freeForAll := fun h => by simp [h] at hm
  have hstep : o.updateLooterGuid g near false = _ := updateLooterGuid_eq hmaster hfree
  refine ⟨by rw [hstep], fun h => ?_, fun h => ?_, fun h => ?_, fun k guid hguid => ?_⟩
  · rw [hstep, ← after_of_mem h]
    rfl
  · rw [hstep, nextTurn, after_of_notMem h]
  · rw [hstep, nextTurn_eq, h]
    rfl
  · rw [looters_eq hmaster hfree (ne_nil_of_mem hguid)]
    exact count_turns hg hguid

/-- Three members, the second one out of reach; the looter has left the group. -/
theorem threeMembers_fair :
    FairTurns { memberSlots := [⟨1, 0, false⟩, ⟨2, 0, false⟩, ⟨3, 0, false⟩] } (· != 2)
      { lootMethod := .groupLoot, looterGuid := 9 } :=
  updateLooterGuid_fair (by decide) (by decide)

end Offices

end Windrunner
