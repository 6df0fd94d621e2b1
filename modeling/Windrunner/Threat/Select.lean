import Windrunner.Lib.Sort
import Windrunner.Threat.Consistent

/-!
# The choice of a victim and the order of the list

`ThreatContainer::update` sorts the list when the manager has marked it dirty, and not every change
of the order marks it: a threat that sinks does so only for the current victim. Which of the targets
that have changed their order can be told apart by the choice is `Harmless`; while the others are in
order, the choice is that from the sorted list.
-/

namespace Windrunner

open Lib

namespace ThreatManager

/-! ## What the choice sees -/

section Choice

variable (t : Nat → Target)

/-- The choice passes over the target in both attempts, whoever has been the victim. -/
def Skipped (currentVictim : Option Nat) (id : Nat) : Prop :=
  (t id).outOfThreatArea = false ∧ (t id).validAttackTarget = false ∧ currentVictim ≠ some id

/-- A victim that the first attempt does not pass over -/
def Sound (v : Nat) : Prop := (t v).validAttackTarget = true ∧ (t v).lowPriority = false

/-- What the first attempt decides at a target, when the victim `v` is sound -/
def verdict (v id : Nat) : Option (Option Nat) :=
  if (t id).outOfThreatArea then some none
  else if !(t id).validAttackTarget || (t id).lowPriority then none
  else if v = id ∨ (t id).threat ≤ 11 / 10 * (t v).threat then some (some v)
  else if 13 / 10 * (t v).threat < (t id).threat ∨
      (11 / 10 * (t v).threat < (t id).threat ∧ (t id).canReachWithMeleeAutoAttack) then
    some (some id)
  else none

/-- Two targets that can change places in the list without a difference to the choice -/
def Harmless (currentVictim : Option Nat) (x y : Nat) : Prop :=
  Skipped t currentVictim x ∨ Skipped t currentVictim y ∨
    ∃ v ∈ currentVictim, Sound t v ∧
      (verdict t v x = none ∨ verdict t v y = none ∨ verdict t v x = verdict t v y)

instance (currentVictim : Option Nat) (id : Nat) : Decidable (Skipped t currentVictim id) :=
  inferInstanceAs (Decidable (_ ∧ _ ∧ _))

instance (v : Nat) : Decidable (Sound t v) := inferInstanceAs (Decidable (_ ∧ _))

instance (currentVictim : Option Nat) (x y : Nat) : Decidable (Harmless t currentVictim x y) :=
  inferInstanceAs (Decidable (_ ∨ _ ∨ _))

variable {t}

theorem scan_skip {allow : Bool} {id : Nat} {rest : List Nat} {s : Option Nat}
    (ha : (t id).outOfThreatArea = false)
    (hs : (!(t id).validAttackTarget || (!allow && (t id).lowPriority)) = true) :
    scan t allow (id :: rest) s = scan t allow rest (if s = some id then none else s) := by
  rw [scan.eq_def]
  dsimp only
  rw [if_neg (by simp [ha]), if_pos hs]

/-- With a sound victim the first attempt goes on until there is a verdict. -/
theorem scan_sound {v : Nat} (hv : Sound t v) (id : Nat) (rest : List Nat) :
    scan t false (id :: rest) (some v) =
      match verdict t v id with
      | some victim => .chosen victim
      | none => scan t false rest (some v) := by
  rw [scan.eq_def]
  dsimp only
  unfold verdict
  split
  · rfl
  simp only [Bool.not_false, Bool.true_and]
  split
  case isTrue hs =>
    have hne : some v ≠ some id := by
      intro h
      cases h
      simp [hv.1, hv.2] at hs
    rw [if_neg hne]
  case isFalse =>
    split
    · rfl
    split
    · rfl
    · rfl

/-- A sound victim that is in the list is always good enough. -/
theorem scan_sound_chosen {v : Nat} (hv : Sound t v) {l : List Nat} (hl : v ∈ l) :
    ∃ c, scan t false l (some v) = .chosen c := by
  induction l with
  | nil => cases hl
  | cons id rest ih =>
    rw [scan_sound hv]
    cases hd : verdict t v id with
    | some c => exact ⟨c, rfl⟩
    | none =>
      rcases List.mem_cons.1 hl with rfl | hl
      · -- The victim itself has a verdict.
        unfold verdict at hd
        split at hd
        · cases hd
        simp [hv.1, hv.2] at hd
      · exact ih hl

theorem scan_reads_sound {v : Nat} (hv : Sound t v) :
    Reads (scan t false) (· = some v) fun x y =>
      verdict t v x = none ∨ verdict t v y = none ∨ verdict t v x = verdict t v y where
  cons := by
    rintro a l l' h s rfl
    rw [scan_sound hv, scan_sound hv, h _ rfl]
  swap := by
    rintro a b l s hC rfl
    rw [scan_sound hv, scan_sound hv, scan_sound hv, scan_sound hv]
    rcases hC with ha | hb | hab
    · rw [ha]
    · rw [hb]
    · rw [hab]

theorem scan_cons_congr {allow : Bool} {S : Option Nat → Prop} (hnone : S none) (a : Nat)
    (l l' : List Nat) (h : ∀ s, S s → scan t allow l s = scan t allow l' s) (s : Option Nat)
    (hs : S s) : scan t allow (a :: l) s = scan t allow (a :: l') s := by
  have hstep : S (if s = some a then none else s) := by
    split
    · exact hnone
    · exact hs
  rw [scan.eq_def, scan.eq_def t allow (a :: l')]
  dsimp only
  rw [h _ hstep]
  split
  · rfl
  split
  · rfl
  cases s with
  | none => rfl
  | some v => rw [h _ hs]

/-- A target that is passed over makes no difference, wherever it is. -/
theorem scan_reads_skipped (allow : Bool) (currentVictim : Option Nat) :
    Reads (scan t allow) (fun s => s = currentVictim ∨ s = none) fun x y =>
      Skipped t currentVictim x ∨ Skipped t currentVictim y where
  cons := scan_cons_congr (Or.inr rfl)
  swap := by
    intro a b l s hC hs
    have hskip : ∀ {x : Nat} {rest : List Nat} {s : Option Nat}, Skipped t currentVictim x →
        (s = currentVictim ∨ s = none) → scan t allow (x :: rest) s = scan t allow rest s := by
      intro x rest s hx hs
      rw [scan_skip hx.1 (by simp [hx.2.1]), if_neg]
      rintro rfl
      rcases hs with hs | hs
      · exact hx.2.2 hs.symm
      · cases hs
    rcases hC with ha | hb
    · rw [hskip ha hs]
      exact scan_cons_congr (Or.inr rfl) b _ _ (fun s hs => (hskip ha hs).symm) s hs
    · rw [hskip hb hs]
      exact scan_cons_congr (Or.inr rfl) a _ _ (fun s hs => hskip hb hs) s hs

theorem scan_nobody {allow : Bool} {l : List Nat} {s c : Option Nat}
    (h : scan t allow l s = .nobody c) : c = s ∨ c = none := by
  rcases hc : c with _ | v
  · exact Or.inr rfl
  · subst hc
    exact Or.inl (scan_mem.2 v h).symm

/-- While the targets that a sort would make change places are harmless, the choice does not see
the sort. -/
theorem selectNextVictim_insertionSort (r : Nat → Nat → Prop) [DecidableRel r] {l : List Nat}
    {currentVictim : Option Nat} (hmem : ∀ v, currentVictim = some v → v ∈ l)
    (h : l.Pairwise fun x y => r x y ∨ Harmless t currentVictim x y) :
    selectNextVictim t (l.insertionSort r) currentVictim =
      selectNextVictim t l currentVictim := by
  by_cases hsound : ∃ v, currentVictim = some v ∧ Sound t v
  · obtain ⟨v, rfl, hv⟩ := hsound
    have hl : l.Pairwise fun x y => r x y ∨
        (verdict t v x = none ∨ verdict t v y = none ∨ verdict t v x = verdict t v y) := by
      refine h.imp fun {x y} hxy => hxy.imp_right fun hxy => ?_
      have hskip : ∀ {x}, Skipped t (some v) x → verdict t v x = none := by
        intro x hx
        simp [verdict, hx.1, hx.2.1]
      rcases hxy with hx | hy | ⟨u, hu, -, huv⟩
      · exact Or.inl (hskip hx)
      · exact Or.inr (Or.inl (hskip hy))
      · cases hu
        exact huv
    have hfirst := (scan_reads_sound hv).insertionSort r hl rfl
    obtain ⟨c, hc⟩ := scan_sound_chosen hv (hmem v rfl)
    rw [selectNextVictim, selectNextVictim, hfirst, hc]
  · have hl : l.Pairwise fun x y => r x y ∨
        (Skipped t currentVictim x ∨ Skipped t currentVictim y) := by
      refine h.imp fun {x y} hxy => hxy.imp_right fun hxy => ?_
      rcases hxy with hx | hy | ⟨v, hv, hsv, -⟩
      · exact Or.inl hx
      · exact Or.inr hy
      · exact absurd ⟨v, hv, hsv⟩ hsound
    have hscan : ∀ allow s, (s = currentVictim ∨ s = none) →
        scan t allow (l.insertionSort r) s = scan t allow l s :=
      fun allow s hs => (scan_reads_skipped allow currentVictim).insertionSort r hl hs
    rw [selectNextVictim, selectNextVictim, hscan false _ (Or.inl rfl)]
    cases hc : scan t false l currentVictim with
    | chosen c => rfl
    | nobody c => simp only [hscan true c (scan_nobody hc)]

end Choice

/-! ## The lazy sort -/

variable (w : ThreatWorld) (m : ThreatManager)

/-- The list has been marked to be sorted, or only harmless targets of it are out of order. -/
def InOrder : Prop :=
  m.dirty = true ∨ m.online.Pairwise fun x y =>
    m.threat y ≤ m.threat x ∨ Harmless (m.target w) m.currentVictim x y

instance : Decidable (m.InOrder w) := inferInstanceAs (Decidable (_ ∨ _))

/-- The unit that `selectNextVictim` returns for the list sorted -/
def victimOfSorted : Option Nat :=
  let m := { m with online := m.sorted m.online, dirty := false }
  let m := { m with currentVictim := selectNextVictim (m.target w) m.online m.currentVictim }
  m.victimTarget

/-- At a choice of a victim the list is in order. -/
def ChoosesInOrder (m : ThreatManager) : Op → Prop
  | .getHostileTarget w => m.InOrder w
  | _ => True

/-- A choice of a victim is the choice from the sorted list. -/
def ChoosesAsSorted (m : ThreatManager) : Op → Prop
  | .getHostileTarget w => (m.getHostileTarget w).2 = m.victimOfSorted w
  | _ => True

instance (m : ThreatManager) : DecidablePred (ChoosesInOrder m) := fun op => by
  unfold ChoosesInOrder
  cases op <;> infer_instance

instance (m : ThreatManager) : DecidablePred (ChoosesAsSorted m) := fun op => by
  unfold ChoosesAsSorted
  cases op <;> infer_instance

variable {w m}

/-- A list of at most one target is sorted. -/
theorem update_online_dirty (h : m.dirty = true) : m.update.online = m.sorted m.online := by
  unfold update
  dsimp only
  split
  · rfl
  case isFalse hlen =>
    have hle : m.online.length ≤ 1 := Nat.le_of_not_lt fun hlt => hlen ⟨h, hlt⟩
    match hl : m.online, hle with
    | [], _ => rfl
    | [id], _ => rfl

theorem getHostileTarget_inOrder (hmem : ∀ v, m.currentVictim = some v → v ∈ m.online)
    (h : m.InOrder w) : (m.getHostileTarget w).2 = m.victimOfSorted w := by
  have hchoice : selectNextVictim (m.target w) m.update.online m.currentVictim =
      selectNextVictim (m.target w) (m.sorted m.online) m.currentVictim := by
    by_cases hd : m.dirty = true
    · rw [update_online_dirty hd]
    · have hclean : m.update.online = m.online := by
        unfold update
        dsimp only
        rw [if_neg fun h => hd h.1]
      rw [hclean]
      exact (selectNextVictim_insertionSort _ hmem (h.resolve_left hd)).symm
  show victimTarget { m.update with
    currentVictim := selectNextVictim (m.target w) m.update.online m.currentVictim } = _
  rw [hchoice]
  rfl

/-- Where, at every choice of a victim, the list is marked to be sorted or all that is out of order
in it is harmless, every choice is the one from the sorted list. -/
theorem run_choosesAsSorted (ops : List Op) (h : AlongRun step ChoosesInOrder {} ops) :
    AlongRun step ChoosesAsSorted {} ops := by
  refine h.imp (fun m op hm hop => ⟨?_, hm.step op⟩) consistent_empty
  cases op with
  | getHostileTarget w => exact getHostileTarget_inOrder hm.victim hop
  | _ => trivial

/-- The units 2, 3 and 4 have attacked the creature 1, which has chosen 2. -/
def threeAttackers : List Op :=
  let w := ThreatWorld.creature1
  [.addThreat w 4 80 false false id, .addThreat w 3 90 false false id,
    .addThreat w 2 100 false false id, .getHostileTarget w]

/-- Unit 3 loses half of its threat, then unit 2 can no longer be attacked. -/
def victimLost : List Op :=
  let w := ThreatWorld.creature1
  [.modifyThreatPercent w 3 (-50),
    .getHostileTarget { w with validAttackTarget := fun u => u ≠ 2 }]

/-- Unit 3 loses half of its threat while unit 2 remains the victim. -/
theorem run_choosesAsSorted_victimKept :
    AlongRun step ChoosesAsSorted {}
      (threeAttackers ++ [.modifyThreatPercent { self := 1 } 3 (-50),
        .getHostileTarget { self := 1 }]) :=
  run_choosesAsSorted _ (by decide +kernel)

/-- Unit 3 is chosen with a threat of 45, although unit 4 has 80. -/
theorem victimLost_notSorted :
    ¬ ∀ ops, AlongRun step ChoosesAsSorted {} ops := by
  intro h
  have hlost := h (threeAttackers ++ victimLost)
  revert hlost
  decide +kernel

end ThreatManager

end Windrunner
