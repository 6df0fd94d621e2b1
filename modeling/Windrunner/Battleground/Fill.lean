import Mathlib.Data.List.GetD
import Windrunner.Battleground.Consistent

/-!
# A running battleground is filled

`FillPlayersToBG` first gives each team as many groups as it has free slots. The loop after it kicks
groups until the free slots are even.

- **A filling** (`Fits`): the groups of a pool and those not looked at are a part of the normal list,
  in its order; the counter of the pool is their players, and there are slots for them.
- **One pass** (`fits_evenOut`): a group is kicked, or the loop breaks. The measure of the filling
  gets less with each pass that goes on.
- **The loop** (`evenRun_evenLoop`): with the measure as fuel it comes to its end (`EvenRun`), where
  the free slots are even or a pool is empty (`Even`).
-/

namespace Windrunner

open BgQueue List Function

variable {m : BgMoment} {q : BgQueue} {p : SelectionPool} {l : List Nat}

theorem BgTeam.other_ne (t : BgTeam) : t.other ≠ t := by cases t <;> decide

namespace SelectionPool

variable {desiredCount bgInstanceId : Nat}

/-! ## A pool -/

/-- The counter of the pool is the players of its groups. -/
def Counted (q : BgQueue) (p : SelectionPool) : Prop :=
  p.playerCount = (p.selectedGroups.map q.sizeOf).sum

theorem counted_empty : Counted q {} := rfl

theorem Counted.selectedGroups_eq_nil (h : p.Counted q)
    (hne : ∀ i ∈ p.selectedGroups, q.playersOf i ≠ []) :
    p.playerCount = 0 ↔ p.selectedGroups = [] := by
  constructor
  · intro h0
    refine eq_nil_iff_forall_not_mem.mpr fun i hi => hne i hi ?_
    have hz := List.sum_eq_zero_iff_forall_eq_nat.mp (h ▸ h0) (q.sizeOf i) (List.mem_map_of_mem hi)
    exact length_eq_zero_iff.mp hz
  · intro hnil
    rw [h, hnil]
    rfl

/-- What the loop that adds groups makes of a pool and a list. -/
structure ToppedUp (q : BgQueue) (desiredCount : Nat) (p : SelectionPool) (l : List Nat)
    (out : SelectionPool × List Nat) : Prop where
  sublist : (out.1.selectedGroups ++ out.2).Sublist (p.selectedGroups ++ l)
  counted : p.Counted q → out.1.Counted q
  room : out.1.playerCount ≤ max p.playerCount desiredCount
  less : 2 * out.2.length + out.1.selectedGroups.length ≤ 2 * l.length + p.selectedGroups.length

/-- Groups are taken while they fit. -/
theorem topUp_spec : ToppedUp q desiredCount p l
    (p.topUp m q (fun _ => true) desiredCount bgInstanceId l) := by
  induction l generalizing p with
  | nil => exact ⟨.refl _, id, le_max_left _ _, Nat.le_refl _⟩
  | cons i l ih =>
    unfold topUp addGroup
    simp only [if_true]
    split_ifs with hadd
    · rw [Bool.and_eq_true, decide_eq_true_eq] at hadd
      dsimp only
      obtain ⟨hs, hc, hr, hl⟩ :=
        ih (p := ⟨p.selectedGroups ++ [i], p.playerCount + q.sizeOf i⟩)
      refine ⟨by simpa using hs, fun h => hc ?_, ?_, ?_⟩
      · rw [Counted, map_append, sum_append, ← h]
        simp
      · exact hr.trans (max_le (hadd.2.trans (le_max_right _ _)) (le_max_right _ _))
      · rw [length_append, length_singleton] at hl
        rw [length_cons]
        omega
    · split
      · next heq =>
        obtain ⟨-, rfl⟩ := Prod.mk.injEq .. ▸ heq
        obtain ⟨hs, hc, hr, hl⟩ := ih (p := p)
        refine ⟨hs.trans ((sublist_cons_self i l).append_left _), hc, hr, ?_⟩
        rw [length_cons]
        omega
      · next heq =>
        obtain ⟨-, rfl⟩ := Prod.mk.injEq .. ▸ heq
        exact ⟨.refl _, id, le_max_left _ _, Nat.le_refl _⟩

theorem groupToKick_lt (groups : List Nat) (size : Nat) (h : groups ≠ []) :
    groupToKick q groups size < groups.length := by
  have hpos := length_pos_iff.mpr h
  unfold groupToKick
  refine foldlRecOn (motive := fun x : Bool × Nat => x.2 < groups.length) _ _ hpos
    fun x hx y hy => ?_
  have hn := (mem_zipIdx' hy).1
  dsimp only
  split_ifs
  · exact hn
  · exact hn
  · exact hx

/-- The groups of a pool and those not looked at are a part of the list, and there is room for the
players. -/
structure Fits (q : BgQueue) (free : Nat) (list : List Nat) (p : SelectionPool) (rest : List Nat) :
    Prop where
  sublist : (p.selectedGroups ++ rest).Sublist list
  counted : p.Counted q
  room : p.playerCount ≤ free

variable {free : Nat} {list rest : List Nat}

theorem fits_empty : Fits q free list {} list := ⟨.refl _, counted_empty, Nat.zero_le _⟩

/-- What is taken is in the pool, and still fits. -/
theorem Fits.topUp (h : Fits q free list p rest) (hd : desiredCount ≤ free) :
    Fits q free list (p.topUp m q (fun _ => true) desiredCount bgInstanceId rest).1
      (p.topUp m q (fun _ => true) desiredCount bgInstanceId rest).2 :=
  ⟨topUp_spec.sublist.trans h.sublist, topUp_spec.counted h.counted,
    topUp_spec.room.trans (max_le h.room hd)⟩

theorem Counted.ne_nil (hc : p.Counted q) (h0 : p.playerCount ≠ 0) : p.selectedGroups ≠ [] := by
  intro hnil
  rw [Counted, hnil] at hc
  exact h0 hc

/-- A kick makes the pool smaller. -/
theorem Fits.kickGroup (h : Fits q free list p rest) (size : Nat) :
    Fits q free list (p.kickGroup q size).2 rest := by
  unfold SelectionPool.kickGroup
  split_ifs with h0
  · exact h
  · have hlt := groupToKick_lt (q := q) p.selectedGroups size (h.counted.ne_nil h0)
    have hsum := Lib.sum_eraseIdx q.sizeOf (getElem?_eq_getElem hlt)
    refine ⟨((eraseIdx_sublist _ _).append_right _).trans h.sublist, ?_,
      (Nat.sub_le _ _).trans h.room⟩
    dsimp only
    rw [Counted, getD_eq_getElem _ _ hlt, h.counted, ← hsum, Nat.add_sub_cancel]

/-- A pool with players loses a group. -/
theorem length_kickGroup (size : Nat) (hc : p.Counted q) (h0 : p.playerCount ≠ 0) :
    (p.kickGroup q size).2.selectedGroups.length + 1 = p.selectedGroups.length := by
  have hlt := groupToKick_lt (q := q) p.selectedGroups size (hc.ne_nil h0)
  unfold kickGroup
  rw [if_neg h0]
  rw [length_eraseIdx_of_lt hlt]
  omega

theorem kickGroup_empty (size : Nat) (h0 : p.playerCount = 0) : p.kickGroup q size = (true, p) :=
  if_pos h0

end SelectionPool

open SelectionPool

namespace BgQueue

variable {bg : BgRunning} {f f' : Filling} {t : BgTeam} {lists : BgTeam → List Nat}
  {size desired differential : Nat}

/-! ## A filling -/

def Filling.Fits (q : BgQueue) (bg : BgRunning) (lists : BgTeam → List Nat) (f : Filling) : Prop :=
  ∀ t, (f.pool t).Fits q (bg.free t) (lists t) (f.rest t)

/-- The part of the measure that belongs to a team. -/
def Filling.share (f : Filling) (t : BgTeam) : Nat :=
  2 * (f.rest t).length + (f.pool t).selectedGroups.length

theorem Filling.measure_eq (f : Filling) (t : BgTeam) : f.measure = f.share t + f.share t.other := by
  unfold measure share
  cases t
  · show _ = _ + (2 * (f.rest .horde).length + (f.pool .horde).selectedGroups.length)
    omega
  · show _ = _ + (2 * (f.rest .alliance).length + (f.pool .alliance).selectedGroups.length)
    omega

@[simp] theorem addGroups_pool : (f.addGroups m q bg t desired).pool = Function.update f.pool t
    ((f.pool t).topUp m q (fun _ => true) desired bg.clientInstanceId (f.rest t)).1 := rfl

@[simp] theorem addGroups_rest : (f.addGroups m q bg t desired).rest = Function.update f.rest t
    ((f.pool t).topUp m q (fun _ => true) desired bg.clientInstanceId (f.rest t)).2 := rfl

@[simp] theorem kick_pool :
    (f.kick q t size).2.pool = Function.update f.pool t ((f.pool t).kickGroup q size).2 := rfl

@[simp] theorem kick_rest : (f.kick q t size).2.rest = f.rest := rfl

namespace Filling.Fits

theorem addGroups (h : f.Fits q bg lists) (hd : desired ≤ bg.free t) :
    (f.addGroups m q bg t desired).Fits q bg lists := by
  intro t'
  rw [addGroups_pool, addGroups_rest]
  by_cases ht : t' = t
  · subst ht
    rw [update_self, update_self]
    exact (h t').topUp hd
  · rw [update_of_ne ht, update_of_ne ht]
    exact h t'

theorem kick (h : f.Fits q bg lists) : (f.kick q t size).2.Fits q bg lists := by
  intro t'
  rw [kick_pool, kick_rest]
  by_cases ht : t' = t
  · subst ht
    rw [update_self]
    exact (h t').kickGroup size
  · rw [update_of_ne ht]
    exact h t'

end Filling.Fits

theorem share_addGroups : (f.addGroups m q bg t desired).share t ≤ f.share t := by
  unfold Filling.share
  rw [addGroups_pool, addGroups_rest, update_self, update_self]
  exact topUp_spec.less

/-- A kick that hits somebody makes the share smaller. -/
theorem share_kick (h : f.Fits q bg lists) (t : BgTeam) (size : Nat) :
    (f.kick q t size).2.share t + (if (f.pool t).playerCount = 0 then 0 else 1) = f.share t := by
  unfold Filling.share
  rw [kick_pool, kick_rest, update_self]
  split_ifs with h0
  · rw [kickGroup_empty size h0, Nat.add_zero]
  · rw [Nat.add_assoc, length_kickGroup size (h t).counted h0]

theorem share_kick_other : (f.kick q t size).2.share t.other = f.share t.other := by
  unfold Filling.share
  rw [kick_pool, kick_rest, update_of_ne (BgTeam.other_ne t)]

/-! ## A pass -/

/-- What the loop adds groups to, after a kick. -/
def afterKick (m : BgMoment) (q : BgQueue) (bg : BgRunning) (f : Filling) (t : BgTeam) : Filling :=
  let size := (freeAfter bg f t.other - freeAfter bg f t).toNat
  if (f.kick q t size).1 then
    (f.kick q t size).2.addGroups m q bg t ((bg.free t : Int) - freeAfter bg f t.other).toNat
  else (f.kick q t size).2

theorem evenOut_eq : q.evenOut m bg f t =
    if ((afterKick m q bg f t).pool t).playerCount = 0 then
      if (bg.free t : Int) ≤ freeAfter bg f t.other + 1 then (false, afterKick m q bg f t)
      else
        (true, ((afterKick m q bg f t).kick q t.other
          (freeAfter bg f t.other - freeAfter bg f t).toNat).2)
    else (true, afterKick m q bg f t) := rfl

theorem freeAfter_nonneg (h : f.Fits q bg lists) (t : BgTeam) : 0 ≤ freeAfter bg f t := by
  have := (h t).room
  unfold freeAfter
  omega

theorem fits_afterKick (h : f.Fits q bg lists) (t : BgTeam) :
    (afterKick m q bg f t).Fits q bg lists := by
  have hfree := freeAfter_nonneg h t.other
  unfold afterKick
  dsimp only
  split_ifs
  · exact h.kick.addGroups (by omega)
  · exact h.kick

theorem afterKick_other :
    (afterKick m q bg f t).pool t.other = f.pool t.other ∧
      (afterKick m q bg f t).rest t.other = f.rest t.other := by
  have hne := BgTeam.other_ne t
  unfold afterKick
  dsimp only
  split_ifs
  · rw [addGroups_pool, addGroups_rest, kick_pool, kick_rest]
    simp [update_of_ne hne]
  · rw [kick_pool, kick_rest, update_of_ne hne]
    exact ⟨rfl, rfl⟩

theorem share_afterKick (h : f.Fits q bg lists) (t : BgTeam) :
    (afterKick m q bg f t).share t + (if (f.pool t).playerCount = 0 then 0 else 1) ≤ f.share t := by
  unfold afterKick
  dsimp only
  rw [← share_kick h t (freeAfter bg f t.other - freeAfter bg f t).toNat]
  split_ifs
  all_goals first | exact Nat.add_le_add_right share_addGroups _ | exact Nat.le_refl _

/-- A team without selected players gets none, as it has the fewer free slots. -/
theorem afterKick_empty (hle : freeAfter bg f t ≤ freeAfter bg f t.other)
    (h0 : (f.pool t).playerCount = 0) : ((afterKick m q bg f t).pool t).playerCount = 0 := by
  have hmine : freeAfter bg f t = bg.free t := by
    rw [freeAfter, h0]
    exact Int.sub_zero _
  have hd : ((bg.free t : Int) - freeAfter bg f t.other).toNat = 0 := by omega
  unfold afterKick
  dsimp only
  rw [hd]
  split_ifs
  · rw [addGroups_pool, update_self, kick_pool, update_self,
      kickGroup_empty _ h0, kick_rest]
    refine Nat.eq_zero_of_le_zero (topUp_spec.room.trans ?_)
    exact (max_le (Nat.le_of_eq h0) (Nat.le_refl 0))
  · rw [kick_pool, update_self, kickGroup_empty _ h0, h0]

/-- The slots that are left to a team. -/
def left (bg : BgRunning) (pools : SelectionPools) (t : BgTeam) : Int :=
  (bg.free t : Int) - ((pools t).playerCount : Int)

/-- The free slots are even, or the pool of a team is empty that has at most one more of them. -/
def Even (bg : BgRunning) (differential : Nat) (pools : SelectionPools) : Prop :=
  (left bg pools .alliance - left bg pools .horde).natAbs ≤ differential ∨
    ∃ t, (pools t).selectedGroups = [] ∧ left bg pools t ≤ left bg pools t.other + 1

theorem even_of_empty {pools : SelectionPools} (h : ∀ t, (pools t).selectedGroups = []) :
    Even bg differential pools := by
  obtain hle | hle := le_total (left bg pools .alliance) (left bg pools .horde)
  · exact .inr ⟨.alliance, h _, hle.trans (Int.le_add_one (Int.le_refl _))⟩
  · exact .inr ⟨.horde, h _, hle.trans (Int.le_add_one (Int.le_refl _))⟩

/-- No group of a list is empty. -/
def Peopled (q : BgQueue) (lists : BgTeam → List Nat) : Prop := ∀ t, ∀ i ∈ lists t, q.playersOf i ≠ []

section

variable (h : f.Fits q bg lists)
include h

theorem Filling.Fits.empty_iff (hq : Peopled q lists) (t : BgTeam) :
    (f.pool t).playerCount = 0 ↔ (f.pool t).selectedGroups = [] :=
  (h t).counted.selectedGroups_eq_nil fun i hi =>
    hq t i ((h t).sublist.subset (mem_append_left _ hi))

/-- Evening out keeps within the room there is. -/
theorem fits_evenOut (t : BgTeam) : (q.evenOut m bg f t).2.Fits q bg lists := by
  rw [evenOut_eq]
  split_ifs
  · exact fits_afterKick h t
  · exact (fits_afterKick h t).kick
  · exact fits_afterKick h t

/-- A pass that goes on has kicked a group. -/
theorem measure_evenOut (hle : freeAfter bg f t ≤ freeAfter bg f t.other)
    (hmore : (q.evenOut m bg f t).1 = true) : (q.evenOut m bg f t).2.measure < f.measure := by
  have hmine := share_afterKick (m := m) h t
  have hother : (afterKick m q bg f t).share t.other = f.share t.other := by
    unfold Filling.share
    rw [afterKick_other.1, afterKick_other.2]
  rw [evenOut_eq] at hmore ⊢
  rw [Filling.measure_eq f t]
  by_cases hz : ((afterKick m q bg f t).pool t).playerCount = 0
  · rw [if_pos hz] at hmore ⊢
    by_cases hfree : (bg.free t : Int) ≤ freeAfter bg f t.other + 1
    · rw [if_pos hfree] at hmore
      cases hmore
    · -- the team had selected players
      have h0 : (f.pool t).playerCount ≠ 0 := by
        intro h0
        rw [freeAfter, h0] at hle
        omega
      rw [if_neg h0] at hmine
      have hkick := share_kick (fits_afterKick (m := m) h t) t.other
        (freeAfter bg f t.other - freeAfter bg f t).toNat
      have hsame : ((afterKick m q bg f t).kick q t.other
          (freeAfter bg f t.other - freeAfter bg f t).toNat).2.share t =
          (afterKick m q bg f t).share t := by
        cases t <;> exact share_kick_other (q := q) (f := afterKick m q bg f _) (t := _)
      rw [if_neg hfree]
      dsimp only
      rw [Filling.measure_eq _ t, hsame]
      omega
  · rw [if_neg hz] at hmore ⊢
    have h0 : (f.pool t).playerCount ≠ 0 := fun h0 => hz (afterKick_empty hle h0)
    rw [if_neg h0] at hmine
    dsimp only
    rw [Filling.measure_eq _ t, hother]
    omega

/-- Where the loop breaks, the team's pool is empty. -/
theorem even_evenOut (hq : Peopled q lists)
    (hbreak : (q.evenOut m bg f t).1 = false) : Even bg differential (q.evenOut m bg f t).2.pool := by
  rw [evenOut_eq] at hbreak ⊢
  split_ifs at hbreak ⊢ with hz hfree
  refine .inr ⟨t, ((fits_afterKick h t).empty_iff hq t).mp hz, ?_⟩
  unfold freeAfter at hfree
  unfold left
  rw [hz, afterKick_other.1]
  omega

end

/-! ## The loop -/

/-- The loop goes on. -/
def Uneven (bg : BgRunning) (differential : Nat) (f : Filling) : Prop :=
  differential < (freeAfter bg f .alliance - freeAfter bg f .horde).natAbs ∧
    (0 < (f.pool .horde).playerCount ∨ 0 < (f.pool .alliance).playerCount)

instance : Decidable (Uneven bg differential f) :=
  inferInstanceAs (Decidable (_ < _ ∧ (_ < _ ∨ _ < _)))

/-- The team with fewer free slots. -/
def shortTeam (bg : BgRunning) (f : Filling) : BgTeam :=
  if freeAfter bg f .alliance < freeAfter bg f .horde then .alliance else .horde

/-- The loop from `f` comes to its end at `f'`. -/
inductive EvenRun (m : BgMoment) (q : BgQueue) (bg : BgRunning) (differential : Nat) :
    Filling → Filling → Prop
  | done {f : Filling} (h : ¬ Uneven bg differential f) : EvenRun m q bg differential f f
  | broke {f f' : Filling} (h : Uneven bg differential f)
    (he : q.evenOut m bg f (shortTeam bg f) = (false, f')) : EvenRun m q bg differential f f'
  | next {f f' f'' : Filling} (h : Uneven bg differential f)
    (he : q.evenOut m bg f (shortTeam bg f) = (true, f')) (hr : EvenRun m q bg differential f' f'') :
    EvenRun m q bg differential f f''

theorem shortTeam_le (bg : BgRunning) (f : Filling) :
    freeAfter bg f (shortTeam bg f) ≤ freeAfter bg f (shortTeam bg f).other := by
  unfold shortTeam
  split_ifs with h
  · exact h.le
  · exact not_lt.mp h

theorem evenLoop_succ (fuel : Nat) (f : Filling) : q.evenLoop m bg differential (fuel + 1) f =
    if Uneven bg differential f then
      if (q.evenOut m bg f (shortTeam bg f)).1 then
        q.evenLoop m bg differential fuel (q.evenOut m bg f (shortTeam bg f)).2
      else (q.evenOut m bg f (shortTeam bg f)).2
    else f := by
  rw [evenLoop]
  refine if_congr Iff.rfl ?_ rfl
  show _ = if (q.evenOut m bg f (shortTeam bg f)).1 = true then _ else _
  unfold shortTeam
  obtain ⟨more, f'⟩ := q.evenOut m bg f _
  cases more <;> rfl

/-- With the measure as fuel the loop comes to its end. -/
theorem evenRun_evenLoop {fuel : Nat} (h : f.Fits q bg lists) (hfuel : f.measure ≤ fuel) :
    EvenRun m q bg differential f (q.evenLoop m bg differential fuel f) := by
  induction fuel generalizing f with
  | zero =>
    -- nothing is selected
    refine .done fun hu => ?_
    have hnil : ∀ t, (f.pool t).playerCount = 0 := by
      intro t
      have hm := Filling.measure_eq f t
      unfold Filling.share at hm
      have hlen : (f.pool t).selectedGroups.length = 0 := by omega
      rw [(h t).counted, length_eq_zero_iff.mp hlen]
      rfl
    rw [Uneven, hnil, hnil] at hu
    omega
  | succ fuel ih =>
    rw [evenLoop_succ]
    by_cases hu : Uneven bg differential f
    · rw [if_pos hu]
      have hlt := measure_evenOut (m := m) h (shortTeam_le bg f)
      have hfits := fits_evenOut (m := m) h (shortTeam bg f)
      cases he : q.evenOut m bg f (shortTeam bg f) with
      | mk more f' =>
        rw [he] at hlt hfits
        cases more with
        | false => exact .broke hu he
        | true =>
          have hm : f'.measure < f.measure := hlt rfl
          exact .next hu he (ih hfits (by omega))
    · rw [if_neg hu]
      exact .done hu

/-- So does a run of it. -/
theorem EvenRun.fits (hr : EvenRun m q bg differential f f') (h : f.Fits q bg lists) :
    f'.Fits q bg lists := by
  induction hr with
  | done => exact h
  | @broke f f' _ he =>
    have hfits := fits_evenOut (m := m) h (shortTeam bg f)
    rwa [he] at hfits
  | @next f f' _ _ he _ ih =>
    have hfits := fits_evenOut (m := m) h (shortTeam bg f)
    rw [he] at hfits
    exact ih hfits

/-- It ends when the teams are even. -/
theorem EvenRun.even (hr : EvenRun m q bg differential f f') (h : f.Fits q bg lists)
    (hq : Peopled q lists) : Even bg differential f'.pool := by
  induction hr with
  | @done f hn =>
    rw [Uneven, not_and_or, not_lt, not_or, not_lt, not_lt] at hn
    obtain hdiff | hz := hn
    · exact .inl hdiff
    refine even_of_empty fun t => (h.empty_iff hq t).mp ?_
    cases t
    · exact Nat.le_zero.mp hz.2
    · exact Nat.le_zero.mp hz.1
  | @broke f f' _ he =>
    have hbreak : (q.evenOut m bg f (shortTeam bg f)).1 = false := by rw [he]
    have heven : Even bg differential (q.evenOut m bg f (shortTeam bg f)).2.pool :=
      even_evenOut h hq hbreak
    rw [he] at heven
    exact heven
  | @next f f' _ _ he _ ih =>
    have hfits := fits_evenOut (m := m) h (shortTeam bg f)
    rw [he] at hfits
    exact ih hfits

/-- Both teams get groups, before the loop. -/
def firstFilling (m : BgMoment) (q : BgQueue) (bracket : Nat) (bg : BgRunning) : Filling :=
  ((⟨fun _ => {}, q.normalGroups bracket⟩ : Filling).addGroups m q bg .alliance
    bg.allianceFree).addGroups m q bg .horde bg.hordeFree

def bgDifferential (type : BgType) : Nat := if type = .av then 3 else 0

variable {cfg : BgConfig} {type : BgType} {bracket : Nat}

/-- Which of the three ways the battleground is filled. -/
theorem fillPlayersToBG_eq : q.fillPlayersToBG cfg m type bracket bg =
    if bg.isArena then fun _ => {}
    else if cfg.invitationType = 0 then (firstFilling m q bracket bg).pool
    else (q.evenLoop m bg (bgDifferential type) (firstFilling m q bracket bg).measure
      (firstFilling m q bracket bg)).pool := rfl

theorem fits_firstFilling : (firstFilling m q bracket bg).Fits q bg (q.normalGroups bracket) := by
  have hstart : Filling.Fits q bg (q.normalGroups bracket) ⟨fun _ => {}, q.normalGroups bracket⟩ :=
    fun _ => fits_empty
  exact (hstart.addGroups (t := .alliance) (Nat.le_refl _)).addGroups (t := .horde) (Nat.le_refl _)

/-- What `FillPlayersToBG` makes of the pools. -/
structure Filled (cfg : BgConfig) (m : BgMoment) (q : BgQueue) (type : BgType) (bracket : Nat)
    (bg : BgRunning) (pools : SelectionPools) : Prop where
  /-- The loop comes to its end with them. -/
  ends : bg.isArena = false → cfg.invitationType ≠ 0 →
    ∃ f, EvenRun m q bg (bgDifferential type) (firstFilling m q bracket bg) f ∧ f.pool = pools
  distinct : ∀ t, (pools t).selectedGroups.Nodup
  counted : ∀ t, (pools t).playerCount = ((pools t).selectedGroups.map q.sizeOf).sum
  room : ∀ t, (pools t).playerCount ≤ bg.free t
  even : cfg.invitationType ≠ 0 → Even bg (bgDifferential type) pools

/-- A running battleground is filled, for lists in which each group stands once and none is empty. -/
theorem fillPlayersToBG_filled (hn : ∀ t, (q.normalGroups bracket t).Nodup)
    (hq : Peopled q (q.normalGroups bracket)) :
    Filled cfg m q type bracket bg (q.fillPlayersToBG cfg m type bracket bg) := by
  have of_fits : ∀ {f : Filling}, f.Fits q bg (q.normalGroups bracket) →
      (∀ t, (f.pool t).selectedGroups.Nodup) ∧ (∀ t, (f.pool t).Counted q) ∧
        ∀ t, (f.pool t).playerCount ≤ bg.free t := fun h =>
    ⟨fun t => (hn t).sublist ((sublist_append_left _ _).trans (h t).sublist),
      fun t => (h t).counted, fun t => (h t).room⟩
  have hfirst : (firstFilling m q bracket bg).Fits q bg (q.normalGroups bracket) :=
    fits_firstFilling
  rw [fillPlayersToBG_eq]
  by_cases harena : bg.isArena = true
  · rw [if_pos harena]
    exact ⟨fun h => absurd harena (by simp [h]), fun _ => nodup_nil, fun _ => rfl,
      fun _ => Nat.zero_le _, fun _ => even_of_empty fun _ => rfl⟩
  rw [if_neg harena]
  by_cases htype : cfg.invitationType = 0
  · rw [if_pos htype]
    obtain ⟨hd, hc, hr⟩ := of_fits hfirst
    exact ⟨fun _ h => absurd htype h, hd, hc, hr, fun h => absurd htype h⟩
  · rw [if_neg htype]
    have hrun : EvenRun m q bg (bgDifferential type) (firstFilling m q bracket bg)
        (q.evenLoop m bg (bgDifferential type) (firstFilling m q bracket bg).measure
          (firstFilling m q bracket bg)) := evenRun_evenLoop hfirst (Nat.le_refl _)
    obtain ⟨hd, hc, hr⟩ := of_fits (hrun.fits hfirst)
    exact ⟨fun _ _ => ⟨_, hrun, rfl⟩, hd, hc, hr, fun _ => hrun.even hfirst hq⟩

end BgQueue

/-! ## A break with one slot more -/

/-- Two players of the alliance have joined together, and one of the horde alone. -/
def twoAgainstOne : BgQueue where
  infos i := if i = 1 then some { players := [1, 2] } else
    if i = 2 then some { players := [3], groupTeam := .horde } else none
  nextInfo := 3
  queuedGroups b type := if b ≠ 0 then [] else if type = 2 then [1] else if type = 3 then [2] else []

/-- A battleground with three free slots on each side. -/
def threeFree : BgRunning :=
  { instanceId := 7, clientInstanceId := 7, allianceFree := 3, hordeFree := 3 }

theorem twoAgainstOne_filled : BgQueue.Filled { invitationType := 1 } {} twoAgainstOne .ws 0 threeFree
    (twoAgainstOne.fillPlayersToBG { invitationType := 1 } {} .ws 0 threeFree) :=
  BgQueue.fillPlayersToBG_filled (fun t => by cases t <;> decide)
    (fun t => by cases t <;> decide)

/-- The two are kicked, and the one stays with one slot less for the horde. -/
theorem twoAgainstOne_not_even : ¬ ∀ (cfg : BgConfig) (m : BgMoment) (q : BgQueue) (type : BgType)
    (bracket : Nat) (bg : BgRunning), (∀ t, (q.normalGroups bracket t).Nodup) →
      BgQueue.Peopled q (q.normalGroups bracket) → cfg.invitationType ≠ 0 →
      let pools := q.fillPlayersToBG cfg m type bracket bg
      (BgQueue.left bg pools .alliance - BgQueue.left bg pools .horde).natAbs ≤
          BgQueue.bgDifferential type ∨
        ∀ t, BgQueue.left bg pools t < BgQueue.left bg pools t.other →
          (pools t).selectedGroups = [] := by
  intro h
  obtain hdiff | hshort := h { invitationType := 1 } {} twoAgainstOne .ws 0 threeFree
    (fun t => by cases t <;> decide) (fun t => by cases t <;> decide) (by decide)
  · exact absurd hdiff (by decide)
  · exact absurd (hshort .horde (by decide)) (by decide)

end Windrunner
