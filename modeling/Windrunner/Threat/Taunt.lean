import Mathlib.Tactic.Linarith
import Windrunner.Threat.Consistent

/-!
# Taunts

A taunt lifts the threat of the taunter to that of the victim and remembers by how much, in
`iTempThreatModifyer`; when it fades out this is taken off again. The threat without it is
`lasting`. A change of threat adds to it (`Adds`), a taunt does not touch it, and so it is over a
run what has been added (`run_lasts`). The fade-out looks for the taunter in the online list only.
-/

namespace Windrunner

open Lib

/-- The threat without the temporary part -/
def HostileReference.lasting (r : HostileReference) : Rat := r.threat - r.tempThreatModifyer

namespace ThreatManager

variable {w : ThreatWorld} {m m' m'' : ThreatManager} {id : Nat} {r : HostileReference}
  {change change' : Nat → Rat}

/-! ## Changes of threat -/

/-- Threat is added to the references, and no taunt begins or ends. -/
def Adds (change : Nat → Rat) (m m' : ThreatManager) : Prop :=
  ∀ i r, m.refs i = some r → ∃ r', m'.refs i = some r' ∧ r'.unitGuid = r.unitGuid ∧
    r'.tempThreatModifyer = r.tempThreatModifyer ∧ r'.threat = r.threat + change i

/-- The change of one reference -/
def only (id : Nat) (mod : Rat) : Nat → Rat := fun i => if i = id then mod else 0

theorem only_zero (id : Nat) : only id 0 = fun _ => 0 := funext fun _ => ite_self 0

theorem adds_of_refs (h : m'.refs = m.refs) : Adds (fun _ => 0) m m' := by
  intro i r hr
  exact ⟨r, by rw [h, hr], rfl, rfl, (add_zero _).symm⟩

theorem Adds.trans (h : Adds change m m') (h' : Adds change' m' m'') :
    Adds (fun i => change i + change' i) m m'' := by
  intro i r hr
  obtain ⟨r', hr', hguid, htemp, hthreat⟩ := h i r hr
  obtain ⟨r'', hr'', hguid', htemp', hthreat'⟩ := h' i r' hr'
  refine ⟨r'', hr'', hguid'.trans hguid, htemp'.trans htemp, ?_⟩
  rw [hthreat', hthreat, add_assoc]

/-- What comes after a change adds nothing. -/
theorem Adds.then_nothing (h : Adds change m m') (h' : Adds (fun _ => 0) m' m'') :
    Adds change m m'' := by
  have h'' := h.trans h'
  simpa only [add_zero] using h''

theorem adds_set (hr : m.refs id = some r) {r' : HostileReference} {mod : Rat}
    (hguid : r'.unitGuid = r.unitGuid) (htemp : r'.tempThreatModifyer = r.tempThreatModifyer)
    (hthreat : r'.threat = r.threat + mod) : Adds (only id mod) m (m.set id r') := by
  intro i q hq
  by_cases hi : i = id
  · subst hi
    rw [hr] at hq
    cases hq
    exact ⟨r', set_refs_self _ _, hguid, htemp, by rw [hthreat, only, if_pos rfl]⟩
  · exact ⟨q, by rw [set_refs_ne hi, hq], rfl, rfl, by rw [only, if_neg hi, add_zero]⟩

theorem adds_set_same (hr : m.refs id = some r) {r' : HostileReference}
    (hguid : r'.unitGuid = r.unitGuid) (htemp : r'.tempThreatModifyer = r.tempThreatModifyer)
    (hthreat : r'.threat = r.threat) : Adds (fun _ => 0) m (m.set id r') := by
  rw [← only_zero id]
  exact adds_set hr hguid htemp (hthreat.trans (add_zero _).symm)

theorem adds_setOnlineOfflineState (m : ThreatManager) (id : Nat) (b : Bool) :
    Adds (fun _ => 0) m (m.setOnlineOfflineState id b) := by
  unfold setOnlineOfflineState
  split
  · exact adds_of_refs rfl
  · next r hr =>
    split
    · exact adds_of_refs rfl
    · have hset : Adds (fun _ => 0) m (m.set id { r with
          online := b, accessible := r.accessible && b }) := adds_set_same hr rfl rfl rfl
      exact hset.then_nothing (adds_of_refs (onlineStatusChanged_refs _ _ _))

theorem adds_updateOnlineStatus (w : ThreatWorld) (m : ThreatManager) (id : Nat) :
    Adds (fun _ => 0) m (m.updateOnlineStatus w id) := by
  unfold updateOnlineStatus
  split
  · exact adds_of_refs rfl
  · next r hr =>
    have hset : Adds (fun _ => 0) m (m.set id { r with
        valid := r.valid || w.found r.unitGuid, accessible := false }) :=
      adds_set_same hr rfl rfl rfl
    exact hset.then_nothing (adds_setOnlineOfflineState _ _ _)

theorem adds_invalidate (m : ThreatManager) (id : Nat) : Adds (fun _ => 0) m (m.invalidate id) := by
  have hoff := adds_setOnlineOfflineState m id false
  unfold invalidate
  dsimp only
  split
  · exact hoff
  · next r hr => exact hoff.then_nothing (adds_set_same hr rfl rfl rfl)

theorem threatChanged_refs (m : ThreatManager) (id : Nat) (value : Rat) :
    (m.threatChanged id value).refs = m.refs := by
  unfold threatChanged
  split
  · rfl
  · rfl

section Again

variable {again : ThreatManager → Nat → Rat → ThreatManager}

section

variable (h : Consistent m) (hagain : ∀ m id, Consistent m → Adds (fun _ => 0) m (again m id 0))
include h hagain

/-- No threat for a unit: it may get a reference by it. -/
theorem adds_addThreatDirectlyWith (w : ThreatWorld)
    (victim : Nat) : Adds (fun _ => 0) m (m.addThreatDirectlyWith w again victim 0) := by
  unfold addThreatDirectlyWith
  split
  · exact adds_of_refs rfl
  split
  · exact hagain _ _ h
  split
  · exact hagain _ _ h
  case h_2 honline _ hoffline =>
    have hnew : Adds (fun _ => 0) m { m.set m.nextRef { unitGuid := victim } with
        nextRef := m.nextRef + 1, online := m.online ++ [m.nextRef] } := by
      intro i r hr
      refine ⟨r, ?_, rfl, rfl, (add_zero _).symm⟩
      exact (set_refs_ne (Nat.ne_of_lt (h.fresh i r hr)) _).trans hr
    have hadd := hnew.then_nothing (hagain _ m.nextRef (h.addReference honline hoffline))
    dsimp only
    split
    · exact hadd.then_nothing (adds_setOnlineOfflineState _ _ _)
    · exact hadd

theorem adds_addThreatWith
    (hkeeps : ∀ m id mod, Consistent m → Consistent (again m id mod)) (w : ThreatWorld)
    (victim : Nat) :
    Adds (fun _ => 0) m (m.addThreatWith w again victim 0 false false fun threat => threat) := by
  unfold addThreatWith
  split
  · exact adds_of_refs rfl
  split
  · exact adds_of_refs rfl
  split
  · exact adds_of_refs rfl
  split
  · exact adds_of_refs rfl
  simp only [Bool.false_eq_true, if_false, if_true]
  split
  · next owner _ =>
    split
    · simp only [zero_mul, zero_div, sub_zero]
      have howner := adds_addThreatDirectlyWith h hagain w owner
      exact howner.then_nothing
        (adds_addThreatDirectlyWith (h.addThreatDirectlyWith hkeeps w owner 0) hagain w victim)
    · exact adds_addThreatDirectlyWith h hagain w victim
  · exact adds_addThreatDirectlyWith h hagain w victim

end

end Again

/-- The threat of one reference changes; the owners above it get none. By induction on their
number. -/
theorem adds_addThreatToReference (w : ThreatWorld) (n : Nat) (h : Consistent m) (id : Nat)
    {mod : Rat} (hn : mod = 0 ∨ 0 < n) :
    Adds (only id mod) m (addThreatToReference w n m id mod) := by
  induction n generalizing m id mod with
  | zero =>
    obtain rfl := hn.resolve_right (Nat.lt_irrefl 0)
    rw [only_zero]
    exact adds_of_refs rfl
  | succ n ih =>
    unfold addThreatToReference
    split
    case h_1 hr =>
      intro i q hq
      have hne : i ≠ id := by
        rintro rfl
        rw [hr] at hq
        cases hq
      exact ⟨q, hq, rfl, rfl, by rw [only, if_neg hne, add_zero]⟩
    case h_2 r hr =>
      dsimp only
      have hset : Adds (only id mod) m (m.set id { r with threat := r.threat + mod }) :=
        adds_set hr rfl rfl rfl
      have hcons : Consistent (m.set id { r with threat := r.threat + mod }) := h.setThreat hr _ _
      generalize m.set id { r with threat := r.threat + mod } = m₀ at hset hcons
      have honline : Adds (only id mod) m (if r.online then m₀ else m₀.updateOnlineStatus w id) ∧
          Consistent (if r.online then m₀ else m₀.updateOnlineStatus w id) := by
        split
        · exact ⟨hset, hcons⟩
        · exact ⟨hset.then_nothing (adds_updateOnlineStatus w m₀ id), hcons.updateOnlineStatus w id⟩
      generalize (if r.online then m₀ else m₀.updateOnlineStatus w id) = m₁ at honline
      have hchanged : Adds (only id mod) m (if mod = 0 then m₁ else m₁.threatChanged id mod) ∧
          Consistent (if mod = 0 then m₁ else m₁.threatChanged id mod) := by
        split
        · exact honline
        · exact ⟨honline.1.then_nothing (adds_of_refs (threatChanged_refs _ _ _)),
            honline.2.threatChanged id mod⟩
      generalize (if mod = 0 then m₁ else m₁.threatChanged id mod) = m₂ at hchanged
      have howner : ∀ owner, Adds (fun _ => 0) m₂ (m₂.addThreatWith w
          (ThreatManager.addThreatToReference w n) owner 0 false false fun threat => threat) := by
        intro owner
        refine adds_addThreatWith hchanged.2 (fun m id h => ?_)
          (fun m id mod h => h.addThreatToReference w n m id mod) w owner
        have hnone := ih h id (.inl rfl)
        rwa [only_zero] at hnone
      split
      · exact hchanged.1
      split
      · split
        · split
          · exact hchanged.1.then_nothing (howner _)
          · exact hchanged.1
        · exact hchanged.1
      · exact hchanged.1

theorem adds_addThreatTo (h : Consistent m) (w : ThreatWorld) (hr : m.refs id = some r) (mod : Rat) :
    Adds (only id mod) m (m.addThreatTo w id mod) := by
  unfold addThreatTo
  rw [hr]
  exact adds_addThreatToReference w _ h id (.inr (Nat.succ_pos _))

/-! ## The lasting threat -/

/-- What becomes of the threat without the temporary part -/
def Lasts (change : Nat → Rat) (m m' : ThreatManager) : Prop :=
  ∀ i r, m.refs i = some r → ∃ r', m'.refs i = some r' ∧ r'.unitGuid = r.unitGuid ∧
    r'.lasting = r.lasting + change i

theorem Adds.lasts (h : Adds change m m') : Lasts change m m' := by
  intro i r hr
  obtain ⟨r', hr', hguid, htemp, hthreat⟩ := h i r hr
  refine ⟨r', hr', hguid, ?_⟩
  rw [HostileReference.lasting, HostileReference.lasting, htemp, hthreat]
  exact add_sub_right_comm _ _ _

theorem lasts_refl (m : ThreatManager) : Lasts (fun _ => 0) m m := (adds_of_refs rfl).lasts

theorem Lasts.trans (h : Lasts change m m') (h' : Lasts change' m' m'') :
    Lasts (fun i => change i + change' i) m m'' := by
  intro i r hr
  obtain ⟨r', hr', hguid, hlast⟩ := h i r hr
  obtain ⟨r'', hr'', hguid', hlast'⟩ := h' i r' hr'
  refine ⟨r'', hr'', hguid'.trans hguid, ?_⟩
  rw [hlast', hlast, add_assoc]

/-- A reference without a temporary part gets one, and as much threat. -/
theorem lasts_setTempThreat (h : Consistent m) (w : ThreatWorld) (hr : m.refs id = some r)
    (htemp : r.tempThreatModifyer = 0) (threat : Rat) :
    Lasts (fun _ => 0) m (m.setTempThreat w id threat) := by
  unfold setTempThreat
  rw [hr]
  dsimp only
  generalize hmod : threat - r.threat = mod
  have hset : Lasts (only id (-mod)) m (m.set id { r with tempThreatModifyer := mod }) := by
    intro i q hq
    by_cases hi : i = id
    · subst hi
      rw [hr] at hq
      cases hq
      refine ⟨_, set_refs_self _ _, rfl, ?_⟩
      rw [only, if_pos rfl, HostileReference.lasting, HostileReference.lasting, htemp, sub_zero,
        sub_eq_add_neg]
    · exact ⟨q, by rw [set_refs_ne hi, hq], rfl, by rw [only, if_neg hi, add_zero]⟩
  split
  case isTrue hzero =>
    rw [hzero, neg_zero, only_zero] at hset
    exact hzero ▸ hset
  case isFalse =>
    have hcons : Consistent (m.set id { r with tempThreatModifyer := mod }) :=
      h.setThreat hr r.threat mod
    have hadd := hset.trans (adds_addThreatTo hcons w (set_refs_self id _) mod).lasts
    have hsum : (fun i => only id (-mod) i + only id mod i) = fun _ => 0 := by
      funext i
      unfold only
      split
      · exact neg_add_cancel mod
      · exact add_zero 0
    rwa [hsum] at hadd

theorem lasts_tauntApply (h : Consistent m) (w : ThreatWorld) (taunter : Nat) :
    Lasts (fun _ => 0) m (m.tauntApply w taunter) := by
  unfold tauntApply
  split
  case h_1 id v _ _ =>
    split
    case isTrue ht =>
      cases hr : m.refs id with
      | none => rw [hr] at ht; exact absurd ht.2 (by simp)
      | some r =>
        have htemp : r.tempThreatModifyer = 0 := by simpa [hr] using ht.2
        exact lasts_setTempThreat h w hr htemp _
    case isFalse => exact lasts_refl m
  case h_2 => exact lasts_refl m

/-! ## The fade-out -/

theorem resetTempThreat_refs (h : Consistent m) (w : ThreatWorld) (hr : m.refs id = some r) :
    ∃ r', (m.resetTempThreat w id).refs id = some r' ∧ r'.threat = r.lasting ∧
      r'.tempThreatModifyer = 0 := by
  unfold resetTempThreat
  rw [hr]
  dsimp only
  split
  case isTrue hzero => exact ⟨r, hr, by rw [HostileReference.lasting, hzero, sub_zero], hzero⟩
  case isFalse =>
    obtain ⟨r', hr', -, -, hthreat⟩ := adds_addThreatTo h w hr (-r.tempThreatModifyer) id r hr
    rw [hr']
    refine ⟨_, set_refs_self _ _, ?_, rfl⟩
    rw [only, if_pos rfl] at hthreat
    rw [HostileReference.lasting, sub_eq_add_neg]
    exact hthreat

/-- A reference is found by its unit, in the online list. -/
theorem Consistent.getReferenceByTarget_online (h : Consistent m) (hr : m.refs id = some r) :
    m.getReferenceByTarget m.online r.unitGuid = if id ∈ m.online then some id else none := by
  have hsame : ∀ i ∈ m.online, ((m.refs i).any fun q => q.unitGuid = r.unitGuid) = true → i = id := by
    intro i _ hi
    obtain ⟨q, hq, hguid⟩ := (Option.any_eq_true _ _).mp hi
    exact h.unitGuid i id q r hq hr (of_decide_eq_true hguid)
  cases hfound : m.getReferenceByTarget m.online r.unitGuid with
  | none =>
    rw [if_neg]
    intro hid
    exact absurd (List.find?_eq_none.mp hfound id hid) (by simp [hr])
  | some i =>
    have hmem := getReferenceByTarget_mem hfound
    unfold getReferenceByTarget at hfound
    have hguid := List.find?_some hfound
    obtain rfl := hsame i hmem hguid
    rw [if_pos hmem]

/-- What is left to a reference when the taunt of its unit fades out. -/
theorem tauntFadeOut_refs (h : Consistent m) (w : ThreatWorld) (hr : m.refs id = some r) :
    ∃ r', (m.tauntFadeOut w r.unitGuid).refs id = some r' ∧
      if id ∈ m.online then r'.threat = r.lasting ∧ r'.tempThreatModifyer = 0 else r' = r := by
  unfold tauntFadeOut
  rw [h.getReferenceByTarget_online hr]
  by_cases hid : id ∈ m.online
  · rw [if_pos hid]
    simp only [if_pos hid]
    exact resetTempThreat_refs h w hr
  · rw [if_neg hid]
    simp only [if_neg hid]
    exact ⟨r, hr, rfl⟩

/-! ## Runs -/

namespace Op

/-- What can happen between a taunt and its end. -/
def DuringTaunt : Op → Prop
  | .addThreatTo .. | .setOnlineOfflineState .. | .updateOnlineStatus .. | .invalidate ..
  | .tauntApply .. | .setCurrentVictimIfCan .. | .getHostileTarget .. => True
  | _ => False

/-- The threat that is added to the reference `id`. -/
def added (id : Nat) : Op → Rat
  | .addThreatTo _ i mod => only i mod id
  | _ => 0

end Op

theorem lasts_step (h : Consistent m) {op : Op} (hop : op.DuringTaunt) :
    Lasts (fun i => op.added i) m (m.step op) := by
  cases op with
  | addThreatTo w id mod =>
    cases hr : m.refs id with
    | some r => exact (adds_addThreatTo h w hr mod).lasts
    | none =>
      intro i q hq
      have hne : i ≠ id := by
        rintro rfl
        rw [hr] at hq
        cases hq
      refine ⟨q, ?_, rfl, ?_⟩
      · show (m.addThreatTo w id mod).refs i = some q
        rw [addThreatTo, hr]
        exact hq
      · show q.lasting = q.lasting + only id mod i
        rw [only, if_neg hne, add_zero]
  | setOnlineOfflineState id isOnline =>
    unfold step
    dsimp only
    split
    · exact (adds_setOnlineOfflineState m id isOnline).lasts
    · exact lasts_refl m
  | updateOnlineStatus w id => exact (adds_updateOnlineStatus w m id).lasts
  | invalidate id => exact (adds_invalidate m id).lasts
  | tauntApply w taunter => exact lasts_tauntApply h w taunter
  | setCurrentVictimIfCan victim =>
    refine (adds_of_refs ?_).lasts
    unfold step setCurrentVictimIfCan
    dsimp only
    split
    · rfl
    · rfl
  | getHostileTarget w => exact (adds_of_refs rfl).lasts
  | _ => exact hop.elim

theorem run_lasts (h : Consistent m) (ops : List Op) (hops : ∀ op ∈ ops, op.DuringTaunt) :
    Lasts (fun i => (ops.map (Op.added i)).sum) m (run step m ops) := by
  induction ops generalizing m with
  | nil => exact lasts_refl m
  | cons op ops ih =>
    have hhead := lasts_step h (hops op List.mem_cons_self)
    have htail := ih (h.step op) fun o ho => hops o (List.mem_cons_of_mem _ ho)
    have hrun := hhead.trans htail
    simpa only [List.map_cons, List.sum_cons, run_cons] using hrun

/-- The taunt has left nothing: the threat of the reference is what it was and what has been added,
and there is no temporary part. -/
def TauntGone (id : Nat) (r : HostileReference) (added : Rat) (m : ThreatManager) : Prop :=
  ∃ r', m.refs id = some r' ∧ r'.threat = r.threat + added ∧ r'.tempThreatModifyer = 0

/-- A taunt leaves nothing exactly if there was none before it, and at the fade-out the reference is
online or has no temporary part. -/
theorem run_tauntGone (before : List Op) (hr : (run step {} before).refs id = some r)
    (w w' : ThreatWorld) (ops : List Op) (hops : ∀ op ∈ ops, op.DuringTaunt) :
    let m := run step (run step {} before) (.tauntApply w r.unitGuid :: ops)
    TauntGone id r (ops.map (Op.added id)).sum (m.step (.tauntFadeOut w' r.unitGuid)) ↔
      r.tempThreatModifyer = 0 ∧
        (id ∈ m.online ∨ ∃ r', m.refs id = some r' ∧ r'.tempThreatModifyer = 0) := by
  intro m
  have h₀ : Consistent (run step {} before) :=
    run_invariant (fun _ op h => h.step op) consistent_empty before
  have h : Consistent m := run_invariant (fun _ op h => h.step op) h₀ _
  obtain ⟨q, hq, hguid, hlast⟩ := run_lasts h₀ (.tauntApply w r.unitGuid :: ops)
    (List.forall_mem_cons.mpr ⟨trivial, hops⟩) id r hr
  -- The taunt itself adds nothing.
  simp only [List.map_cons, List.sum_cons, Op.added, zero_add] at hlast
  generalize (ops.map (Op.added id)).sum = added at hlast ⊢
  obtain ⟨q', hq', hfade⟩ := tauntFadeOut_refs h w' hq
  rw [hguid] at hq'
  have hgone : TauntGone id r added (m.step (.tauntFadeOut w' r.unitGuid)) ↔
      q'.threat = r.threat + added ∧ q'.tempThreatModifyer = 0 := by
    constructor
    · rintro ⟨p, hp, hthreat, htemp⟩
      obtain rfl : q' = p := Option.some.inj (hq'.symm.trans hp)
      exact ⟨hthreat, htemp⟩
    · exact fun hq => ⟨q', hq', hq⟩
  have htemp : (∃ r', m.refs id = some r' ∧ r'.tempThreatModifyer = 0) ↔
      q.tempThreatModifyer = 0 := by
    constructor
    · rintro ⟨p, hp, htemp⟩
      obtain rfl : q = p := Option.some.inj (hq.symm.trans hp)
      exact htemp
    · exact fun h => ⟨q, hq, h⟩
  rw [hgone, htemp]
  unfold HostileReference.lasting at hlast hfade
  split at hfade
  case isTrue hid =>
    obtain ⟨hthreat, hzero⟩ := hfade
    rw [hthreat, hlast]
    constructor
    · rintro ⟨heq, -⟩
      exact ⟨by linarith, .inl hid⟩
    · rintro ⟨h0, -⟩
      exact ⟨by rw [h0, sub_zero], hzero⟩
  case isFalse hid =>
    subst hfade
    constructor
    · rintro ⟨heq, hzero⟩
      exact ⟨by linarith, .inr hzero⟩
    · rintro ⟨h0, hon⟩
      have hzero := hon.resolve_left hid
      exact ⟨by linarith, hzero⟩

/-! ## A taunter who goes offline -/

/-- The units 2 and 3 have attacked the creature 1, which has chosen 2. -/
def twoAttackers : List Op :=
  let w := ThreatWorld.creature1
  [.addThreat w 3 90 false false fun threat => threat,
    .addThreat w 2 100 false false fun threat => threat, .getHostileTarget w]

/-- Unit 3 has taunted, made 5 more threat, gone offline and come back. -/
theorem twoAttackers_tauntGone :
    TauntGone 0 { unitGuid := 3, threat := 90 } 5
      (run step {} (twoAttackers ++ [.tauntApply { self := 1 } 3, .addThreatTo { self := 1 } 0 5,
        .setOnlineOfflineState 0 false, .setOnlineOfflineState 0 true,
        .tauntFadeOut { self := 1 } 3])) := by
  have hr : (run step {} twoAttackers).refs 0 = some { unitGuid := 3, threat := 90 } := by
    decide +kernel
  have h := (run_tauntGone twoAttackers hr { self := 1 } { self := 1 }
      [.addThreatTo { self := 1 } 0 5, .setOnlineOfflineState 0 false,
        .setOnlineOfflineState 0 true] (by simp [Op.DuringTaunt])).mpr
    ⟨rfl, .inl (by decide +kernel)⟩
  unfold run at h ⊢
  rw [List.foldl_append]
  simpa [Op.added, only] using h

/-- The taunt fades out while unit 3 is offline, and its threat stays at 100. -/
theorem twoAttackers_notGone : ¬ ∀ (before : List Op) (id : Nat) (r : HostileReference)
    (w : ThreatWorld) (ops : List Op), (run step {} before).refs id = some r →
    r.tempThreatModifyer = 0 → (∀ op ∈ ops, op.DuringTaunt) →
    TauntGone id r (ops.map (Op.added id)).sum
      (run step {} (before ++ [.tauntApply w r.unitGuid] ++ ops ++ [.tauntFadeOut w r.unitGuid])) := by
  intro h
  obtain ⟨r', hr', hthreat, -⟩ := h twoAttackers 0 { unitGuid := 3, threat := 90 } { self := 1 }
    [.setOnlineOfflineState 0 false] (by decide +kernel) rfl (by simp [Op.DuringTaunt])
  have hstays : ((run step {} (twoAttackers ++ [.tauntApply { self := 1 } 3] ++
      [.setOnlineOfflineState 0 false] ++ [.tauntFadeOut { self := 1 } 3])).refs 0).map
        HostileReference.threat = some 100 := by decide +kernel
  rw [hr'] at hstays
  obtain hr100 := Option.some.inj hstays
  rw [hr100] at hthreat
  revert hthreat
  decide +kernel

end ThreatManager

end Windrunner
