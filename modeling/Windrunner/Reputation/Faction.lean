import Windrunner.Reputation.State

/-!
# One faction

The flags that a load builds are compared with the ones that were saved. `Derived` is what every
write to a faction keeps against the defaults, and `load_flags_eq_iff` says, for flags derived from the
defaults, when a load gives them back (`Restorable`).
-/

namespace Windrunner

open FactionState
open Bool hiding true_and

/-! ## Flags -/

namespace FactionFlags

/-- The bits that nothing ever writes. -/
def fixed (f : FactionFlags) : FactionFlags :=
  { f with visible := false, atWar := false, inactive := false }

/-- Flags that came from the defaults `d` by what can be written to a faction. -/
structure Derived (d f : FactionFlags) : Prop where
  fixed : f.fixed = d.fixed
  visible : d.visible = true → f.visible = true
  shown : f.visible = true → d.visible = true ∨ (d.hidden = false ∧ d.invisibleForced = false)
  inactive : f.inactive = true → d.inactive = true ∨
    (f.visible = true ∧ d.hidden = false ∧ d.invisibleForced = false)

variable {d f : FactionFlags}

theorem Derived.refl (d : FactionFlags) : Derived d d := ⟨rfl, id, .inl, .inl⟩

theorem Derived.hidden (h : Derived d f) : f.hidden = d.hidden :=
  show f.fixed.hidden = d.fixed.hidden by rw [h.fixed]

theorem Derived.invisibleForced (h : Derived d f) : f.invisibleForced = d.invisibleForced :=
  show f.fixed.invisibleForced = d.fixed.invisibleForced by rw [h.fixed]

theorem Derived.peaceForced (h : Derived d f) : f.peaceForced = d.peaceForced :=
  show f.fixed.peaceForced = d.fixed.peaceForced by rw [h.fixed]

end FactionFlags

open FactionFlags (Derived)

namespace FactionState

variable {st : FactionState} {d : FactionFlags} {base : Int32}

/-! ## Writes -/

/-- War cannot be declared on a faction of forced peace, unless its standing is that of the hated. -/
def refusesWar (st : FactionState) : Bool :=
  st.flags.peaceForced && reputationToRank st.standing > .hated

/-- A hidden faction is not shown. -/
theorem setVisible_eq (st : FactionState) : st.setVisible.id = st.id ∧
    st.setVisible.standing = st.standing ∧
    st.setVisible.flags = { st.flags with visible := st.flags.visible || st.isShown } := by
  unfold setVisible
  split_ifs with h1 h2
  · rw [not_eq_true'] at h1
    simp [h1]
  · exact ⟨rfl, rfl, FactionFlags.ext (by simp [h2]) rfl rfl rfl rfl rfl rfl rfl⟩
  · rw [not_eq_true', not_eq_false] at h1
    simp [h1]

/-- A declaration of war may be refused, the end of one is not. -/
theorem setAtWar_eq (st : FactionState) (on : Bool) : (st.setAtWar on).id = st.id ∧
    (st.setAtWar on).standing = st.standing ∧
    (st.setAtWar on).flags =
      { st.flags with atWar := on && (st.flags.atWar || !st.refusesWar) } := by
  unfold setAtWar refusesWar
  cases on with
  | false => simp
  | true =>
    simp only [Bool.and_true, Bool.true_and]
    split_ifs with h1 h2
    · exact ⟨rfl, rfl, FactionFlags.ext rfl (by simp [h1]) rfl rfl rfl rfl rfl rfl⟩
    · exact ⟨rfl, rfl, FactionFlags.ext rfl (by simp [h2]) rfl rfl rfl rfl rfl rfl⟩
    · rw [Bool.not_eq_true] at h2
      simp [h2]

/-- A faction that is not shown is not put aside. -/
theorem setInactive_eq (st : FactionState) (on : Bool) : (st.setInactive on).id = st.id ∧
    (st.setInactive on).standing = st.standing ∧
    (st.setInactive on).flags =
      { st.flags with inactive := on && (st.flags.inactive || (st.isShown && st.flags.visible)) } := by
  unfold setInactive
  cases on with
  | false =>
    simp only [Bool.false_and, Bool.false_eq_true, if_false]
    split_ifs with h
    · rw [beq_iff_eq] at h
      exact ⟨rfl, rfl, FactionFlags.ext rfl rfl rfl rfl rfl h rfl rfl⟩
    · exact ⟨rfl, rfl, rfl⟩
  | true =>
    simp only [Bool.true_and]
    split_ifs with h1 h2
    · refine ⟨rfl, rfl, FactionFlags.ext rfl rfl rfl rfl rfl ?_ rfl rfl⟩
      cases hs : st.isShown <;> cases hv : st.flags.visible <;> simp_all
    · rw [beq_iff_eq] at h2
      exact ⟨rfl, rfl, FactionFlags.ext rfl rfl rfl rfl rfl (by simp [h2]) rfl rfl⟩
    · refine ⟨rfl, rfl, FactionFlags.ext rfl rfl rfl rfl rfl ?_ rfl rfl⟩
      cases hs : st.isShown <;> cases hv : st.flags.visible <;> simp_all

/-- What a write keeps: the defaults, and a record that needs no save is not changed. -/
structure Writes (st st' : FactionState) : Prop where
  id : st'.id = st.id
  derived : ∀ d, Derived d st.flags → Derived d st'.flags
  saved : st'.needSave = false → st' = st

theorem Writes.refl (st : FactionState) : Writes st st := ⟨rfl, fun _ h => h, fun _ => rfl⟩

theorem Writes.trans {s t : FactionState} (h : Writes st s) (h' : Writes s t) :
    Writes st t := by
  refine ⟨h'.id.trans h.id, fun d hd => h'.derived d (h.derived d hd), fun hs => ?_⟩
  have he := h'.saved hs
  rw [he] at hs ⊢
  exact h.saved hs

theorem isShown_iff (st : FactionState) :
    st.isShown = true ↔ st.flags.hidden = false ∧ st.flags.invisibleForced = false := by
  unfold isShown
  cases st.flags.hidden <;> cases st.flags.invisibleForced <;> simp

theorem writes_setVisible (st : FactionState) : Writes st st.setVisible := by
  obtain ⟨hid, -, hf⟩ := st.setVisible_eq
  refine ⟨hid, fun d hd => ?_, fun hs => ?_⟩
  · rw [hf]
    have hshown := st.isShown_iff
    rw [hd.hidden, hd.invisibleForced] at hshown
    refine ⟨hd.fixed, fun h => by simp [hd.visible h], fun h => ?_, fun h => ?_⟩
    · rcases (or_eq_true _ _).mp h with h | h
      · exact hd.shown h
      · exact .inr (hshown.mp h)
    · exact (hd.inactive h).imp_right fun h => ⟨by simp [h.1], h.2⟩
  · unfold setVisible at hs ⊢
    split_ifs at hs ⊢
    · rfl
    · rfl

/-- Each of the writes marks the record for a save, if it changes it. -/
theorem writes_setAtWar (st : FactionState) (on : Bool) : Writes st (st.setAtWar on) := by
  obtain ⟨hid, -, hf⟩ := st.setAtWar_eq on
  refine ⟨hid, fun d hd => ?_, fun hs => ?_⟩
  · rw [hf]
    exact { hd with }
  · unfold setAtWar at hs ⊢
    split_ifs at hs ⊢
    · rfl
    · rfl

theorem writes_setAtWarById (st : FactionState) (on : Bool) : Writes st (st.setAtWarById on) := by
  unfold setAtWarById
  split_ifs
  · exact .refl st
  · exact writes_setAtWar st on

theorem writes_setInactive (st : FactionState) (on : Bool) : Writes st (st.setInactive on) := by
  obtain ⟨hid, -, hf⟩ := st.setInactive_eq on
  refine ⟨hid, fun d hd => ?_, fun hs => ?_⟩
  · rw [hf]
    have hshown := st.isShown_iff
    rw [hd.hidden, hd.invisibleForced] at hshown
    refine { hd with inactive := fun h => ?_ }
    have h := (and_eq_true _ _).mp h
    rcases (or_eq_true _ _).mp h.2 with h | h
    · exact hd.inactive h
    · obtain ⟨hs, hv⟩ := (and_eq_true _ _).mp h
      exact .inr ⟨hv, hshown.mp hs⟩
  · unfold setInactive at hs ⊢
    split_ifs at hs ⊢
    · rfl
    · rfl

/-! ## A new reputation -/

theorem writes_followRank (st : FactionState) (rankOld rankNew : ReputationRank) :
    Writes st (st.followRank rankOld rankNew) := by
  unfold followRank
  split_ifs
  · exact .refl st
  · exact writes_setAtWar st true
  · exact writes_setAtWarById st false
  · exact .refl st

/-- The flags follow the rank, not the standing. -/
theorem followRank_standing (st : FactionState) (rankOld rankNew : ReputationRank) :
    (st.followRank rankOld rankNew).standing = st.standing := by
  unfold followRank setAtWarById
  split_ifs
  · rfl
  · exact (setAtWar_eq st true).2.1
  · rfl
  · exact (setAtWar_eq st false).2.1
  · rfl

/-- The standing is written, and the faction shown. -/
theorem writes_setOneReputation (st : FactionState) (standing : Int32) (incremental noBase : Bool) :
    Writes st (st.setOneReputation base standing incremental noBase) := by
  refine .trans (s := { st with
    standing := if noBase then newReputation base st standing incremental
      else newReputation base st standing incremental - base
    needSave := true }) ⟨rfl, fun _ h => h, fun h => (by cases h)⟩ ?_
  exact (writes_setVisible _).trans (writes_followRank _ _ _)

theorem setOneReputation_standing (st : FactionState) (standing : Int32) (incremental : Bool) :
    (st.setOneReputation base standing incremental false).standing =
      newReputation base st standing incremental - base :=
  (followRank_standing _ _ _).trans (setVisible_eq _).2.1

/-- A new reputation is between the bounds. -/
theorem newReputation_bounds (st : FactionState) (standing : Int32) (incremental : Bool) :
    reputationBottom ≤ newReputation base st standing incremental ∧
      newReputation base st standing incremental ≤ reputationCap := by
  unfold newReputation
  dsimp only
  generalize (if incremental = true then _ else standing : Int32) = x
  split_ifs with h1 h2
  · exact ⟨by decide, Int32.le_refl _⟩
  · exact ⟨Int32.le_refl _, by decide⟩
  · exact ⟨Int32.not_lt.mp h2, Int32.not_lt.mp h1⟩

/-- Not hidden, not kept invisible and not of forced peace. -/
def isPlain (st : FactionState) : Bool := st.isShown && !st.flags.peaceForced

/-- The faction is at war if that can be set. -/
def Warring (st : FactionState) : Prop := st.isPlain = true → st.flags.atWar = true

theorem isPlain_of_derived {st' : FactionState} (h : Derived d st.flags) (h' : Derived d st'.flags) :
    st'.isPlain = st.isPlain := by
  unfold isPlain isShown
  rw [h.hidden, h.invisibleForced, h.peaceForced, h'.hidden, h'.invisibleForced, h'.peaceForced]

theorem Writes.isPlain {st' : FactionState} (h : Writes st st') : st'.isPlain = st.isPlain :=
  isPlain_of_derived (.refl st.flags) (h.derived _ (.refl st.flags))

/-- War is declared on every plain faction. -/
theorem warring_setAtWar (st : FactionState) : (st.setAtWar true).Warring := by
  intro hp
  rw [(writes_setAtWar st true).isPlain] at hp
  rw [(setAtWar_eq st true).2.2]
  have hpeace : st.flags.peaceForced = false := by
    unfold FactionState.isPlain at hp
    simpa using ((and_eq_true _ _).mp hp).2
  simp [refusesWar, hpeace]

/-- With a rank that sinks to hostile, or stays there, the faction is at war. -/
theorem warring_setOneReputation {standing : Int32} {incremental noBase : Bool}
    (hnew : reputationToRank (newReputation base st standing incremental) ≤ .hostile)
    (hold : reputationToRank (st.standing + base) > .hostile ∨ st.Warring) :
    (st.setOneReputation base standing incremental noBase).Warring := by
  unfold setOneReputation
  dsimp only
  generalize hr : reputationToRank (newReputation base st standing incremental) = rankNew at *
  generalize reputationToRank (st.standing + base) = rankOld at *
  generalize ho : ({ st with standing := _, needSave := true } : FactionState) = st₁
  have hw : Writes st st₁ := by
    rw [← ho]
    exact ⟨rfl, fun _ h => h, fun h => (by cases h)⟩
  have hwar : st₁.flags = st.flags := by rw [← ho]
  -- a faction that was at war is left alone
  have hstay : st.Warring → st₁.setVisible.Warring := by
    intro h hp
    rw [(hw.trans (writes_setVisible st₁)).isPlain] at hp
    rw [(setVisible_eq st₁).2.2, hwar]
    exact h hp
  change rankNew.toNat ≤ 1 at hnew
  change rankOld.toNat > 1 ∨ _ at hold
  unfold followRank
  split_ifs with h1 h2 h3
  · rcases hold with hold | hold
    · rw [h1] at hnew
      omega
    · exact hstay hold
  · exact warring_setAtWar _
  · have : rankNew.toNat > 2 := h3.1
    omega
  · rcases hold with hold | hold
    · refine absurd ⟨?_, ?_, hold⟩ h2
      · show rankNew.toNat < 2
        omega
      · show rankNew.toNat < rankOld.toNat
        omega
    · exact hstay hold

/-! ## Loading -/

/-- The flags that a load makes of the defaults. -/
def loadedFlags (d : FactionFlags) (base standing : Int32) (f : FactionFlags) : FactionFlags :=
  let isShown := !(d.invisibleForced || d.hidden)
  let refuses := d.peaceForced && decide (reputationToRank standing > .hated)
  let visible := d.visible || (f.visible && isShown)
  let inactive := d.inactive || (f.inactive && isShown && visible)
  let atWar := if f.atWar then d.atWar || !refuses else if visible then false else d.atWar
  let atWar := atWar || (decide (reputationToRank (base + standing) ≤ .hostile) && !refuses)
  { d with visible, inactive, atWar }

/-- The standing and the flags of a state with the given id. -/
def Holds (st : FactionState) (id : Nat) (standing : Int32) (flags : FactionFlags) : Prop :=
  st.id = id ∧ st.standing = standing ∧ st.flags = flags

theorem holds_setVisible (st : FactionState) (b : Bool) :
    Holds (if b then st.setVisible else st) st.id st.standing
      { st.flags with visible := st.flags.visible || (b && st.isShown) } := by
  cases b with
  | true => exact setVisible_eq st
  | false => exact ⟨rfl, rfl, FactionFlags.ext (by simp) rfl rfl rfl rfl rfl rfl rfl⟩

theorem holds_setInactive (st : FactionState) (b : Bool) :
    Holds (if b then st.setInactive true else st) st.id st.standing
      { st.flags with inactive := st.flags.inactive || (b && st.isShown && st.flags.visible) } := by
  cases b with
  | true => exact setInactive_eq st true
  | false => exact ⟨rfl, rfl, FactionFlags.ext rfl rfl rfl rfl rfl (by simp) rfl rfl⟩

theorem holds_setAtWar (st : FactionState) (b : Bool) :
    Holds (if b then st.setAtWar true else if st.flags.visible then st.setAtWar false else st) st.id
      st.standing
      { st.flags with
        atWar := if b then st.flags.atWar || !st.refusesWar
          else if st.flags.visible then false else st.flags.atWar } := by
  cases b with
  | true => exact setAtWar_eq st true
  | false =>
    cases hv : st.flags.visible with
    | true => exact setAtWar_eq st false
    | false => exact ⟨rfl, rfl, FactionFlags.ext rfl rfl rfl rfl rfl rfl rfl rfl⟩

theorem holds_rank (st : FactionState) (p : Prop) [Decidable p] :
    Holds (if p then st.setAtWar true else st) st.id st.standing
      { st.flags with atWar := st.flags.atWar || (decide p && !st.refusesWar) } := by
  split_ifs with h
  · obtain ⟨h1, h2, h3⟩ := setAtWar_eq st true
    exact ⟨h1, h2, h3.trans (FactionFlags.ext rfl (by simp [h]) rfl rfl rfl rfl rfl rfl)⟩
  · exact ⟨rfl, rfl, FactionFlags.ext rfl (by simp [h]) rfl rfl rfl rfl rfl rfl⟩

/-- A load, one stage after another. -/
theorem load_spec (base : Int32) (st : FactionState) (standing : Int32) (f : FactionFlags) :
    ∃ st', Holds st' st.id standing (loadedFlags st.flags base standing f) ∧
      Writes { st with standing } st' ∧
      st.load base none standing f = if st'.flags = f then { st' with needSave := false } else st' := by
  obtain ⟨st₁, h₁⟩ : ∃ st₁ : FactionState, st₁ = { st with standing } := ⟨_, rfl⟩
  obtain ⟨st₂, h₂⟩ : ∃ st₂ : FactionState, st₂ = if f.visible then st₁.setVisible else st₁ := ⟨_, rfl⟩
  obtain ⟨st₃, h₃⟩ : ∃ st₃ : FactionState, st₃ = if f.inactive then st₂.setInactive true else st₂ :=
    ⟨_, rfl⟩
  obtain ⟨st₄, h₄⟩ : ∃ st₄ : FactionState, st₄ = if f.atWar then st₃.setAtWar true
    else if st₃.flags.visible then st₃.setAtWar false else st₃ := ⟨_, rfl⟩
  obtain ⟨st₅, h₅⟩ : ∃ st₅ : FactionState, st₅ =
    if reputationToRank (base + st₄.standing) ≤ .hostile then st₄.setAtWar true else st₄ := ⟨_, rfl⟩
  have e₂ := holds_setVisible st₁ f.visible
  have e₃ := holds_setInactive st₂ f.inactive
  have e₄ := holds_setAtWar st₃ f.atWar
  have e₅ := holds_rank st₄ (reputationToRank (base + st₄.standing) ≤ .hostile)
  rw [← h₂] at e₂
  rw [← h₃] at e₃
  rw [← h₄] at e₄
  rw [← h₅] at e₅
  refine ⟨st₅, ⟨?_, ?_, ?_⟩, ?_, ?_⟩
  · rw [e₅.1, e₄.1, e₃.1, e₂.1, h₁]
  · rw [e₅.2.1, e₄.2.1, e₃.2.1, e₂.2.1, h₁]
  · have hs₄ : st₄.standing = standing := by rw [e₄.2.1, e₃.2.1, e₂.2.1, h₁]
    have hs₃ : st₃.standing = standing := by rw [e₃.2.1, e₂.2.1, h₁]
    rw [e₅.2.2]
    unfold refusesWar
    rw [hs₄, e₄.2.2]
    unfold refusesWar
    rw [hs₃, e₃.2.2]
    unfold isShown
    rw [e₂.2.2, h₁]
    rfl
  · rw [← h₁]
    refine .trans (.trans (.trans (s := st₂) ?_ (t := st₃) ?_) (t := st₄) ?_) ?_
    · rw [h₂]
      split_ifs
      · exact writes_setVisible st₁
      · exact .refl st₁
    · rw [h₃]
      split_ifs
      · exact writes_setInactive st₂ true
      · exact .refl st₂
    · rw [h₄]
      split_ifs
      · exact writes_setAtWar st₃ true
      · exact writes_setAtWar st₃ false
      · exact .refl st₃
    · rw [h₅]
      split_ifs
      · exact writes_setAtWar st₄ true
      · exact .refl st₄
  · rw [h₅, h₄, h₃, h₂, h₁]
    rfl

/-- The flags that were saved are the ones that a load gives back. -/
structure Restorable (d : FactionFlags) (base : Int32) (st : FactionState) : Prop where
  /-- A faction that is inactive from the start is still so. -/
  inactive : d.inactive = true → st.flags.inactive = true
  /-- War that was declared can be declared again. -/
  war : st.flags.atWar = true → d.atWar = true ∨ st.refusesWar = false
  /-- Peace needs that the defaults know none of it, or the faction is visible. -/
  peace : st.flags.atWar = false → st.flags.visible = true ∨ d.atWar = false
  /-- With a rank of hostile or worse, a load declares war. -/
  rank : st.flags.atWar = false →
    reputationToRank (base + st.standing) > .hostile ∨ st.refusesWar = true

/-- With a rank of hostile or worse, a load leaves no plain faction at peace. -/
theorem warring_loaded {standing : Int32} {f : FactionFlags} {id : Nat}
    (h : Holds st id standing (loadedFlags d base standing f))
    (hrank : reputationToRank (base + standing) ≤ .hostile) : st.Warring := by
  intro hp
  unfold isPlain at hp
  rw [and_eq_true, not_eq_true', h.2.2] at hp
  rw [h.2.2]
  have hpeace : d.peaceForced = false := hp.2
  simp [loadedFlags, hrank, hpeace]

/-- The flags come back from their row exactly if they can be restored. -/
theorem load_flags_eq_iff (h : Derived d st.flags) :
    loadedFlags d base st.standing st.flags = st.flags ↔ st.Restorable d base := by
  have hrefuses : st.refusesWar = (d.peaceForced && decide (reputationToRank st.standing > .hated)) := by
    unfold refusesWar
    rw [h.peaceForced]
  have hrank : ∀ r : ReputationRank, r ≤ .hostile ↔ ¬ r > .hostile := fun r => Nat.not_lt.symm
  have hfixed := h.fixed
  obtain ⟨-, hv1, hv2, hi⟩ := h
  have hiff : st.Restorable d base ↔
      ((d.inactive = true → st.flags.inactive = true) ∧
      (st.flags.atWar = true → d.atWar = true ∨ st.refusesWar = false) ∧
      (st.flags.atWar = false → st.flags.visible = true ∨ d.atWar = false) ∧
      (st.flags.atWar = false →
        reputationToRank (base + st.standing) > .hostile ∨ st.refusesWar = true)) :=
    ⟨fun ⟨a, b, c, e⟩ => ⟨a, b, c, e⟩, fun ⟨a, b, c, e⟩ => ⟨a, b, c, e⟩⟩
  rw [hiff, hrefuses, FactionFlags.ext_iff]
  simp only [FactionFlags.fixed, FactionFlags.ext_iff] at hfixed
  simp only [loadedFlags, hrank]
  grind

end FactionState

end Windrunner
