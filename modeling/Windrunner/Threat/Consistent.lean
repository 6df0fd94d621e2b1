import Windrunner.Threat.Manager

/-!
# The threat lists are consistent

`Consistent`: each reference is in the list that its status says, once, no two are of the same unit,
and the victim is in the online list. The references move themselves between the lists, from inside
a change of threat and on the way to the owner of a unit. So what a change keeps is proved of one
reference first, then for the owners above it by induction on their number
(`Consistent.addThreatToReference`), and from that of every operation.
-/

namespace Windrunner

open Lib

namespace ThreatManager

variable {w : ThreatWorld} {m : ThreatManager}

structure Consistent (m : ThreatManager) : Prop where
  online : ∀ id, id ∈ m.online ↔ ∃ r, m.refs id = some r ∧ r.online = true
  offline : ∀ id, id ∈ m.offline ↔ ∃ r, m.refs id = some r ∧ r.online = false
  nodup_online : m.online.Nodup
  nodup_offline : m.offline.Nodup
  unitGuid : ∀ i j r r', m.refs i = some r → m.refs j = some r' → r.unitGuid = r'.unitGuid → i = j
  fresh : ∀ id r, m.refs id = some r → id < m.nextRef
  victim : ∀ v, m.currentVictim = some v → v ∈ m.online
  /-- The unit of a reference that is online is there. -/
  valid : ∀ id r, m.refs id = some r → r.online = true → r.valid = true

theorem consistent_empty : Consistent {} := by
  refine ⟨?_, ?_, ?_, ?_, ?_, ?_, ?_, ?_⟩ <;> simp

@[simp] theorem set_refs_self (id : Nat) (r : HostileReference) :
    (m.set id r).refs id = some r := by
  simp [set]

variable {id : Nat} {r : HostileReference}

theorem set_refs_ne {i : Nat} (h : i ≠ id) (r : HostileReference) :
    (m.set id r).refs i = m.refs i := by
  simp [set, h]

/-! ## One reference -/

section

variable (h : Consistent m)
include h

/-- What is kept when a reference keeps its unit and its status. -/
theorem Consistent.set {r' : HostileReference}
    (hr : m.refs id = some r) (hguid : r'.unitGuid = r.unitGuid) (honline : r'.online = r.online)
    (hvalid : r'.online = true → r'.valid = true) : Consistent (m.set id r') := by
  have hrefs : ∀ {i q}, (m.set id r').refs i = some q →
      ∃ q', m.refs i = some q' ∧ q.unitGuid = q'.unitGuid ∧ q.online = q'.online := by
    intro i q hq
    by_cases hi : i = id
    · subst hi
      rw [set_refs_self] at hq
      cases hq
      exact ⟨r, hr, hguid, honline⟩
    · rw [set_refs_ne hi] at hq
      exact ⟨q, hq, rfl, rfl⟩
  have hstatus : ∀ i b, (∃ q, (m.set id r').refs i = some q ∧ q.online = b) ↔
      ∃ q, m.refs i = some q ∧ q.online = b := by
    intro i b
    by_cases hi : i = id
    · subst hi
      simp [hr, honline]
    · rw [set_refs_ne hi]
  refine ⟨fun i => (h.online i).trans (hstatus i true).symm,
    fun i => (h.offline i).trans (hstatus i false).symm, h.nodup_online, h.nodup_offline, ?_, ?_,
    h.victim, ?_⟩
  · intro i j q q' hq hq' he
    obtain ⟨s, hs, hsg, -⟩ := hrefs hq
    obtain ⟨s', hs', hsg', -⟩ := hrefs hq'
    exact h.unitGuid i j s s' hs hs' (by rw [← hsg, ← hsg', he])
  · intro i q hq
    obtain ⟨s, hs, -, -⟩ := hrefs hq
    exact h.fresh i s hs
  · intro i q hq ho
    by_cases hi : i = id
    · subst hi
      rw [set_refs_self] at hq
      cases hq
      exact hvalid ho
    · rw [set_refs_ne hi] at hq
      exact h.valid i q hq ho

/-- A reference has other threat. -/
theorem Consistent.setThreat (hr : m.refs id = some r) (t q : Rat) :
    Consistent (m.set id { r with threat := t, tempThreatModifyer := q }) :=
  h.set hr rfl rfl (h.valid id r hr)

/-- Nothing but `dirty` changes. -/
theorem Consistent.dirty (b : Bool) : Consistent { m with dirty := b } :=
  { h with }

theorem Consistent.threatChanged (id : Nat) (value : Rat) :
    Consistent (m.threatChanged id value) := by
  unfold ThreatManager.threatChanged
  split
  · exact h.dirty true
  · exact h

theorem Consistent.victimGone (id : Nat) : Consistent (m.victimGone id) := by
  unfold ThreatManager.victimGone
  split
  · exact { h with victim := (fun v hv => by cases hv) }
  · exact h

end

/-- What `victimGone` leaves alone, and what it is for. -/
theorem victimGone_spec (m : ThreatManager) (id : Nat) :
    (m.victimGone id).refs = m.refs ∧ (m.victimGone id).online = m.online ∧
      (m.victimGone id).offline = m.offline ∧ (m.victimGone id).nextRef = m.nextRef ∧
      ∀ v, (m.victimGone id).currentVictim = some v → v ≠ id ∧ m.currentVictim = some v := by
  unfold ThreatManager.victimGone
  split
  case isTrue h => exact ⟨rfl, rfl, rfl, rfl, fun v hv => by cases hv⟩
  case isFalse h =>
    refine ⟨rfl, rfl, rfl, rfl, fun v hv => ⟨?_, hv⟩⟩
    rintro rfl
    exact h hv

/-- A reference changes its status, and its list with it. -/
theorem Consistent.move (h : Consistent m) {m' : ThreatManager}
    {r' : HostileReference} (hr : m.refs id = some r) (hguid : r'.unitGuid = r.unitGuid)
    (hvalid : r'.online = true → r'.valid = true) (hrefs : m'.refs = (m.set id r').refs)
    (hnext : m'.nextRef = m.nextRef)
    (honline : ∀ i, i ∈ m'.online ↔ if i = id then r'.online = true else i ∈ m.online)
    (hoffline : ∀ i, i ∈ m'.offline ↔ if i = id then r'.online = false else i ∈ m.offline)
    (hnodup : m'.online.Nodup) (hnodup' : m'.offline.Nodup)
    (hvictim : ∀ v, m'.currentVictim = some v → v ∈ m'.online) : Consistent m' := by
  have hother : ∀ {i}, i ≠ id → m'.refs i = m.refs i := fun hi => by rw [hrefs, set_refs_ne hi]
  have hself : m'.refs id = some r' := by rw [hrefs, set_refs_self]
  have hguids : ∀ {i q}, m'.refs i = some q → ∃ q', m.refs i = some q' ∧ q.unitGuid = q'.unitGuid := by
    intro i q hq
    by_cases hi : i = id
    · subst hi
      rw [hself] at hq
      cases hq
      exact ⟨r, hr, hguid⟩
    · exact ⟨q, by rw [← hother hi]; exact hq, rfl⟩
  refine ⟨fun i => ?_, fun i => ?_, hnodup, hnodup', ?_, ?_, hvictim, ?_⟩
  · rw [honline]
    by_cases hi : i = id
    · subst hi; simp [hself]
    · rw [if_neg hi, hother hi]; exact h.online i
  · rw [hoffline]
    by_cases hi : i = id
    · subst hi; simp [hself]
    · rw [if_neg hi, hother hi]; exact h.offline i
  · intro i j q q' hq hq' he
    obtain ⟨s, hs, hsg⟩ := hguids hq
    obtain ⟨s', hs', hsg'⟩ := hguids hq'
    exact h.unitGuid i j s s' hs hs' (by rw [← hsg, ← hsg', he])
  · intro i q hq
    obtain ⟨s, hs, -⟩ := hguids hq
    rw [hnext]
    exact h.fresh i s hs
  · intro i q hq ho
    by_cases hi : i = id
    · subst hi
      rw [hself] at hq
      cases hq
      exact hvalid ho
    · exact h.valid i q (by rw [← hother hi]; exact hq) ho

theorem nodup_concat {l : List Nat} (h : l.Nodup) (hid : id ∉ l) : (l ++ [id]).Nodup :=
  List.nodup_append.2 ⟨h, by simp, fun x hx y hy => by
    obtain rfl := List.mem_singleton.1 hy
    rintro rfl
    exact hid hx⟩

/-- The event of a reference whose status has changed. -/
theorem Consistent.onlineStatusChanged (h : Consistent m) {r' : HostileReference}
    (hr : m.refs id = some r) (hguid : r'.unitGuid = r.unitGuid)
    (hvalid : r'.online = true → r'.valid = true) (hchanged : r'.online = !r.online) :
    Consistent ((m.set id r').onlineStatusChanged id r') := by
  have hin : ∀ b, r.online = b → (∃ q, m.refs id = some q ∧ q.online = !b) → False := by
    rintro b hb ⟨q, hq, ho⟩
    rw [hr] at hq
    cases hq
    rw [hb] at ho
    cases b <;> cases ho
  unfold ThreatManager.onlineStatusChanged
  cases hb : r.online with
  | false =>
    have hon : r'.online = true := by rw [hchanged, hb]; rfl
    have hnot : id ∉ m.online := fun hid => hin false hb ((h.online id).1 hid)
    rw [if_pos hon]
    refine h.move hr hguid hvalid rfl rfl (fun i => ?_) (fun i => ?_)
      (nodup_concat h.nodup_online hnot) (h.nodup_offline.filter _)
      fun v hv => List.mem_append_left _ (h.victim v hv)
    · by_cases hi : i = id <;> simp [ThreatManager.set, hi, hon]
    · by_cases hi : i = id <;> simp [ThreatManager.set, hi, hon]
  | true =>
    have hoff : r'.online = false := by rw [hchanged, hb]; rfl
    have hnot : id ∉ m.offline := fun hid => hin true hb ((h.offline id).1 hid)
    rw [if_neg (by simp [hoff])]
    obtain ⟨hrefs, hon', hoff', hnext, hvictim⟩ := victimGone_spec (m.set id r') id
    dsimp only
    refine h.move hr hguid hvalid hrefs hnext (fun i => ?_) (fun i => ?_) ?_ ?_ fun v hv => ?_
    · rw [hon']
      by_cases hi : i = id <;> simp [ThreatManager.set, hi, hoff]
    · rw [hoff']
      by_cases hi : i = id <;> simp [ThreatManager.set, hi, hoff]
    · rw [hon']
      exact h.nodup_online.filter _
    · rw [hoff']
      exact nodup_concat h.nodup_offline hnot
    · obtain ⟨hne, hv'⟩ := hvictim v hv
      rw [hon']
      exact List.mem_filter.2 ⟨h.victim v hv', by simpa using hne⟩

theorem Consistent.setOnlineOfflineState (h : Consistent m) (id : Nat) {b : Bool}
    (hvalid : b = true → ∀ r, m.refs id = some r → r.valid = true) :
    Consistent (m.setOnlineOfflineState id b) := by
  unfold ThreatManager.setOnlineOfflineState
  cases hr : m.refs id with
  | none => exact h
  | some r =>
    dsimp only
    split
    case isTrue => exact h
    case isFalse hb =>
      exact h.onlineStatusChanged hr rfl (fun ho => hvalid ho r hr)
        (by cases b <;> cases hon : r.online <;> simp_all)

theorem onlineStatusChanged_refs (m : ThreatManager) (id : Nat) (r : HostileReference) :
    (m.onlineStatusChanged id r).refs = m.refs := by
  unfold ThreatManager.onlineStatusChanged
  split
  · rfl
  · exact (victimGone_spec m id).1

/-- What `setOnlineOfflineState` makes of the reference. -/
theorem setOnlineOfflineState_refs (m : ThreatManager) (id : Nat) (b : Bool) :
    (m.setOnlineOfflineState id b).refs id = (m.refs id).map fun r =>
      if r.online = b then r else { r with online := b, accessible := r.accessible && b } := by
  unfold ThreatManager.setOnlineOfflineState
  cases hr : m.refs id with
  | none => simp [hr]
  | some r =>
    dsimp only [Option.map]
    split
    · exact hr
    · rw [onlineStatusChanged_refs, set_refs_self]

theorem Consistent.updateOnlineStatus (h : Consistent m) (w : ThreatWorld) (id : Nat) :
    Consistent (m.updateOnlineStatus w id) := by
  unfold ThreatManager.updateOnlineStatus
  cases hr : m.refs id with
  | none => exact h
  | some r =>
    dsimp only
    have hset : Consistent (m.set id
        { r with valid := r.valid || w.found r.unitGuid, accessible := false }) :=
      h.set hr rfl rfl fun ho => by
        show (r.valid || w.found r.unitGuid) = true
        rw [h.valid id r hr ho, Bool.true_or]
    refine hset.setOnlineOfflineState id fun hb q hq => ?_
    rw [set_refs_self] at hq
    cases hq
    rw [Bool.and_eq_true] at hb
    exact hb.1

theorem Consistent.invalidate (h : Consistent m) (id : Nat) : Consistent (m.invalidate id) := by
  have h' := h.setOnlineOfflineState id (b := false) (by simp)
  have hrefs := setOnlineOfflineState_refs m id false
  unfold ThreatManager.invalidate
  dsimp only
  cases hr : (m.setOnlineOfflineState id false).refs id with
  | none => exact h'
  | some r =>
    refine h'.set hr rfl rfl fun ho => ?_
    -- The reference has been set offline.
    have hoff : r.online = false := by
      rw [hr] at hrefs
      obtain ⟨q, -, rfl⟩ := Option.map_eq_some_iff.1 hrefs.symm
      split
      case isTrue hq => exact hq
      case isFalse => rfl
    rw [hoff] at ho
    cases ho

/-- A reference is deleted, and taken out of its list. -/
theorem Consistent.delete (h : Consistent m) {m' : ThreatManager}
    (hrefs : ∀ i, m'.refs i = if i = id then none else m.refs i) (hnext : m'.nextRef = m.nextRef)
    (honline : ∀ i, i ∈ m'.online ↔ i ≠ id ∧ i ∈ m.online)
    (hoffline : ∀ i, i ∈ m'.offline ↔ i ≠ id ∧ i ∈ m.offline)
    (hnodup : m'.online.Nodup) (hnodup' : m'.offline.Nodup)
    (hvictim : ∀ v, m'.currentVictim = some v → v ≠ id ∧ m.currentVictim = some v) :
    Consistent m' := by
  have hold : ∀ {i q}, m'.refs i = some q → m.refs i = some q := by
    intro i q hq
    rw [hrefs] at hq
    split at hq
    · cases hq
    · exact hq
  refine ⟨fun i => ?_, fun i => ?_, hnodup, hnodup',
    fun i j q q' hq hq' => h.unitGuid i j q q' (hold hq) (hold hq'),
    fun i q hq => by rw [hnext]; exact h.fresh i q (hold hq),
    fun v hv => (honline v).2 ⟨(hvictim v hv).1, h.victim v (hvictim v hv).2⟩,
    fun i q hq => h.valid i q (hold hq)⟩
  · rw [honline, hrefs]
    by_cases hi : i = id
    · simp [hi]
    · simp [hi, h.online]
  · rw [hoffline, hrefs]
    by_cases hi : i = id
    · simp [hi]
    · simp [hi, h.offline]

theorem Consistent.removeReference (h : Consistent m) (id : Nat) :
    Consistent (m.removeReference id) := by
  have h' := (h.invalidate id).victimGone id
  obtain ⟨hrefs', -, -, -, hvictim'⟩ := victimGone_spec (m.invalidate id) id
  have hvictim : ∀ v, ((m.invalidate id).victimGone id).currentVictim = some v → v ≠ id ∧
      ((m.invalidate id).victimGone id).currentVictim = some v :=
    fun v hv => ⟨(hvictim' v hv).1, hv⟩
  unfold ThreatManager.removeReference
  dsimp only
  generalize (m.invalidate id).victimGone id = m' at h' hvictim
  cases hr : m'.refs id with
  | none => exact h'
  | some r =>
    dsimp only
    have hstatus : ∀ b, (∃ q, m'.refs id = some q ∧ q.online = b) → r.online = b := by
      rintro b ⟨q, hq, ho⟩
      rw [hr] at hq
      cases hq
      exact ho
    cases hb : r.online with
    | true =>
      rw [if_pos rfl]
      refine h'.delete (fun i => rfl) rfl (fun i => ?_) (fun i => ?_) (h'.nodup_online.filter _)
        h'.nodup_offline hvictim
      · simp [and_comm]
      · refine ⟨fun hi => ⟨?_, hi⟩, And.right⟩
        rintro rfl
        rw [hstatus _ ((h'.offline _).1 hi)] at hb
        cases hb
    | false =>
      rw [if_neg (by simp)]
      refine h'.delete (fun i => rfl) rfl (fun i => ?_) (fun i => ?_) h'.nodup_online
        (h'.nodup_offline.filter _) hvictim
      · refine ⟨fun hi => ⟨?_, hi⟩, And.right⟩
        rintro rfl
        rw [hstatus _ ((h'.online _).1 hi)] at hb
        cases hb
      · simp [and_comm]

/-! ## Threat -/

section Again

variable {again : ThreatManager → Nat → Rat → ThreatManager}

/-- A unit gets a reference when it has none in either list. -/
theorem Consistent.addReference (h : Consistent m) {victim : Nat}
    (honline : m.getReferenceByTarget m.online victim = none)
    (hoffline : m.getReferenceByTarget m.offline victim = none) :
    Consistent { m.set m.nextRef { unitGuid := victim } with
      nextRef := m.nextRef + 1, online := m.online ++ [m.nextRef] } := by
  have hnone : m.refs m.nextRef = none := by
    cases hr : m.refs m.nextRef with
    | none => rfl
    | some r => exact absurd (h.fresh _ r hr) (Nat.lt_irrefl _)
  have hguid : ∀ i r, m.refs i = some r → r.unitGuid ≠ victim := by
    intro i r hr hv
    rw [getReferenceByTarget, List.find?_eq_none] at honline hoffline
    cases hb : r.online with
    | true => exact honline i ((h.online i).2 ⟨r, hr, hb⟩) (by simp [hr, hv])
    | false => exact hoffline i ((h.offline i).2 ⟨r, hr, hb⟩) (by simp [hr, hv])
  have hnot : m.nextRef ∉ m.online := by
    intro hid
    obtain ⟨r, hr, -⟩ := (h.online _).1 hid
    rw [hnone] at hr
    cases hr
  have hrefs : ∀ i, (m.set m.nextRef { unitGuid := victim }).refs i =
      if i = m.nextRef then some { unitGuid := victim } else m.refs i := fun _ => rfl
  refine ⟨fun i => ?_, fun i => ?_, nodup_concat h.nodup_online hnot, h.nodup_offline, ?_, ?_,
    fun v hv => List.mem_append_left _ (h.victim v hv), ?_⟩
  · dsimp only
    rw [hrefs]
    by_cases hi : i = m.nextRef
    · simp [hi]
    · simp [hi, h.online]
  · dsimp only
    rw [hrefs]
    by_cases hi : i = m.nextRef
    · subst hi
      have : m.nextRef ∉ m.offline := by
        intro hid
        obtain ⟨r, hr, -⟩ := (h.offline _).1 hid
        rw [hnone] at hr
        cases hr
      simpa [ThreatManager.set] using this
    · rw [if_neg hi]
      exact h.offline i
  · intro i j r r' hr hr' he
    dsimp only at hr hr'
    rw [hrefs] at hr hr'
    split at hr <;> split at hr'
    · simp_all
    · cases hr
      exact absurd he.symm (hguid j r' hr')
    · cases hr'
      exact absurd he (hguid i r hr)
    · exact h.unitGuid i j r r' hr hr' he
  · intro i r hr
    dsimp only at hr ⊢
    rw [hrefs] at hr
    split at hr
    case isTrue hi => rw [hi]; exact Nat.lt_succ_self _
    case isFalse => exact Nat.lt_succ_of_lt (h.fresh i r hr)
  · intro i r hr ho
    dsimp only at hr
    rw [hrefs] at hr
    split at hr
    · cases hr; rfl
    · exact h.valid i r hr ho

section

variable (hagain : ∀ m id mod, Consistent m → Consistent (again m id mod)) (h : Consistent m)
include hagain h

theorem Consistent.addThreatDirectlyWith (w : ThreatWorld) (victim : Nat) (threat : Rat) :
    Consistent (m.addThreatDirectlyWith w again victim threat) := by
  unfold ThreatManager.addThreatDirectlyWith
  split
  · exact h
  split
  · exact hagain _ _ _ h
  split
  · exact hagain _ _ _ h
  case h_2 honline _ hoffline =>
    have hnew := hagain _ m.nextRef threat (h.addReference honline hoffline)
    dsimp only
    split
    · exact hnew.setOnlineOfflineState _ (by simp)
    · exact hnew

theorem Consistent.addThreatWith
    (w : ThreatWorld) (victim : Nat) (threat : Rat) (noThreat suppressed : Bool)
    (calcThreat : Rat → Rat) :
    Consistent (m.addThreatWith w again victim threat noThreat suppressed calcThreat) := by
  unfold ThreatManager.addThreatWith
  split
  · exact h
  split
  · exact h
  split
  · exact h
  split
  · exact h
  dsimp only
  split
  · split
    · exact (h.addThreatDirectlyWith hagain w _ _).addThreatDirectlyWith hagain w _ _
    · exact h.addThreatDirectlyWith hagain w _ _
  · exact h.addThreatDirectlyWith hagain w _ _

end

end Again

/-- A change of threat goes on to the owners; by induction on how many there may be. -/
theorem Consistent.addThreatToReference (w : ThreatWorld) (n : Nat) (m : ThreatManager) (id : Nat)
    (mod : Rat) (h : Consistent m) : Consistent (addThreatToReference w n m id mod) := by
  induction n generalizing m id mod with
  | zero => exact h
  | succ n ih =>
    unfold ThreatManager.addThreatToReference
    cases hr : m.refs id with
    | none => exact h
    | some r =>
      dsimp only
      have hset : Consistent (m.set id { r with threat := r.threat + mod }) :=
        h.setThreat hr _ _
      have honline : Consistent (if r.online then m.set id { r with threat := r.threat + mod }
          else (m.set id { r with threat := r.threat + mod }).updateOnlineStatus w id) := by
        split
        · exact hset
        · exact hset.updateOnlineStatus w id
      generalize (if r.online then m.set id { r with threat := r.threat + mod }
          else (m.set id { r with threat := r.threat + mod }).updateOnlineStatus w id) = m₁
        at honline
      have hchanged : Consistent (if mod = 0 then m₁ else m₁.threatChanged id mod) := by
        split
        · exact honline
        · exact honline.threatChanged id mod
      generalize (if mod = 0 then m₁ else m₁.threatChanged id mod) = m₂ at hchanged
      split
      · exact hchanged
      split
      · split
        · split
          · exact hchanged.addThreatWith (fun m id mod h => ih m id mod h) w _ _ _ _ _
          · exact hchanged
        · exact hchanged
      · exact hchanged

theorem Consistent.addThreatTo (h : Consistent m) (w : ThreatWorld) (id : Nat) (mod : Rat) :
    Consistent (m.addThreatTo w id mod) := by
  unfold ThreatManager.addThreatTo
  split
  · exact h
  · exact h.addThreatToReference w _ m id mod

theorem Consistent.addThreatDirectly (h : Consistent m) (w : ThreatWorld) (victim : Nat)
    (threat : Rat) : Consistent (m.addThreatDirectly w victim threat) :=
  h.addThreatDirectlyWith (fun _ id mod h => h.addThreatTo w id mod) w victim threat

theorem Consistent.addThreat (h : Consistent m) (w : ThreatWorld) (victim : Nat) (threat : Rat)
    (noThreat suppressed : Bool) (calcThreat : Rat → Rat) :
    Consistent (m.addThreat w victim threat noThreat suppressed calcThreat) :=
  h.addThreatWith (fun _ id mod h => h.addThreatTo w id mod) w victim threat noThreat suppressed
    calcThreat

theorem Consistent.modifyThreatPercent (h : Consistent m) (w : ThreatWorld) (victim : Nat)
    (percent : Int) : Consistent (m.modifyThreatPercent w victim percent) := by
  unfold ThreatManager.modifyThreatPercent
  split
  · exact h
  split
  · exact h.removeReference _
  · exact h.addThreatTo w _ _

/-! ## Taunts -/

theorem Consistent.resetTempThreat (h : Consistent m) (w : ThreatWorld) (id : Nat) :
    Consistent (m.resetTempThreat w id) := by
  unfold ThreatManager.resetTempThreat
  split
  · exact h
  split
  · exact h
  case isFalse =>
    have h' := h.addThreatTo w id
    dsimp only
    split
    · exact h' _
    case h_2 hr => exact (h' _).setThreat hr _ 0

theorem Consistent.addTempThreat (h : Consistent m) (w : ThreatWorld) (id : Nat) (threat : Rat)
    (apply : Bool) : Consistent (m.addTempThreat w id threat apply) := by
  unfold ThreatManager.addTempThreat
  split
  · split
    · unfold setTempThreatModifier
      split
      · exact h
      case h_2 r hr => exact (h.setThreat hr r.threat threat).addThreatTo w id threat
    · exact h
  · exact h.resetTempThreat w id

theorem Consistent.tauntApply (h : Consistent m) (w : ThreatWorld) (taunter : Nat) :
    Consistent (m.tauntApply w taunter) := by
  unfold ThreatManager.tauntApply
  split
  case h_1 id v _ _ =>
    split
    · unfold setTempThreat
      split
      · exact h
      case h_2 r hr =>
        have hset := h.setThreat hr r.threat (m.threat v - r.threat)
        dsimp only
        split
        · exact hset
        · exact hset.addThreatTo w _ _
    · exact h
  case h_2 => exact h

theorem Consistent.tauntFadeOut (h : Consistent m) (w : ThreatWorld) (taunter : Nat) :
    Consistent (m.tauntFadeOut w taunter) := by
  unfold ThreatManager.tauntFadeOut
  split
  · exact h
  · exact h.resetTempThreat w _

/-! ## The victim -/

/-- The choice is among the references of the list and the current victim. -/
theorem scan_mem {t : Nat → Target} {allow : Bool} {l : List Nat} {currentVictim : Option Nat} :
    (∀ v, scan t allow l currentVictim = .chosen (some v) → v ∈ l ∨ currentVictim = some v) ∧
      ∀ v, scan t allow l currentVictim = .nobody (some v) → currentVictim = some v := by
  induction l generalizing currentVictim with
  | nil => simp [scan]
  | cons id rest ih =>
    unfold scan
    split
    · simp
    split
    · have hstep : ∀ {v}, (if currentVictim = some id then none else currentVictim) = some v →
          currentVictim = some v := by
        intro v hv
        split at hv
        · cases hv
        · exact hv
      refine ⟨fun v hv => ?_, fun v hv => hstep (ih.2 v hv)⟩
      rcases ih.1 v hv with h | h
      · exact Or.inl (List.mem_cons_of_mem _ h)
      · exact Or.inr (hstep h)
    split
    · simp
    split
    · simp
    split
    · simp
    · exact ⟨fun v hv => (ih.1 v hv).imp (List.mem_cons_of_mem _) fun h => h, ih.2⟩

theorem selectNextVictim_mem {t : Nat → Target} {l : List Nat} {currentVictim : Option Nat} {v : Nat}
    (h : selectNextVictim t l currentVictim = some v) : v ∈ l ∨ currentVictim = some v := by
  unfold selectNextVictim at h
  split at h
  case h_1 hs =>
    subst h
    exact scan_mem.1 v hs
  case h_2 c hs =>
    split at h
    case h_1 hs' =>
      subst h
      rcases scan_mem.1 v hs' with h | rfl
      · exact Or.inl h
      · exact Or.inr (scan_mem.2 v hs)
    case h_2 => cases h

theorem sorted_perm (m : ThreatManager) (l : List Nat) : (m.sorted l).Perm l :=
  List.perm_insertionSort _ l

theorem update_perm (m : ThreatManager) : m.update.online.Perm m.online := by
  unfold update
  dsimp only
  split
  · exact m.sorted_perm _
  · exact .refl _

theorem Consistent.getHostileTarget (h : Consistent m) (w : ThreatWorld) :
    Consistent (m.getHostileTarget w).1 := by
  have hperm := update_perm m
  refine { h with
    online := fun id => hperm.mem_iff.trans (h.online id)
    nodup_online := hperm.nodup_iff.2 h.nodup_online
    victim := fun v hv => ?_ }
  rcases selectNextVictim_mem hv with hmem | hcur
  · exact hmem
  · exact hperm.mem_iff.2 (h.victim v hcur)

theorem getReferenceByTarget_mem {l : List Nat} {guid : Nat}
    (h : m.getReferenceByTarget l guid = some id) : id ∈ l :=
  List.mem_of_find?_eq_some h

theorem Consistent.setCurrentVictimIfCan (h : Consistent m) (victim : Nat) :
    Consistent (m.setCurrentVictimIfCan victim) := by
  unfold ThreatManager.setCurrentVictimIfCan
  split
  · exact h
  case h_2 id hid =>
    refine { h with victim := fun v hv => ?_ }
    cases hv
    exact getReferenceByTarget_mem hid

theorem Consistent.step (h : Consistent m) (op : Op) : Consistent (m.step op) := by
  cases op with
  | addThreat w victim threat noThreat suppressed calcThreat =>
    exact h.addThreat w victim threat noThreat suppressed calcThreat
  | addThreatDirectly w victim threat => exact h.addThreatDirectly w victim threat
  | addThreatTo w id mod => exact h.addThreatTo w id mod
  | addThreatPercent w id percent => exact h.addThreatTo w id _
  | modifyThreatPercent w victim percent => exact h.modifyThreatPercent w victim percent
  | addTempThreat w id threat apply => exact h.addTempThreat w id threat apply
  | tauntApply w taunter => exact h.tauntApply w taunter
  | tauntFadeOut w taunter => exact h.tauntFadeOut w taunter
  | setOnlineOfflineState id isOnline =>
    unfold ThreatManager.step
    dsimp only
    split
    case isTrue hv =>
      refine h.setOnlineOfflineState id fun _ r hr => ?_
      rw [hr] at hv
      exact hv
    case isFalse => exact h
  | updateOnlineStatus w id => exact h.updateOnlineStatus w id
  | invalidate id => exact h.invalidate id
  | removeReference id => exact h.removeReference id
  | setCurrentVictimIfCan victim => exact h.setCurrentVictimIfCan victim
  | getHostileTarget w => exact h.getHostileTarget w
  | clearReferences =>
    refine ⟨?_, ?_, ?_, ?_, ?_, ?_, ?_, ?_⟩ <;> simp [ThreatManager.step, ThreatManager.clearReferences]

/-- In every state that the operations reach, whatever the world says at each, a reference is in the
list of its status, once, and not in the other; what is in a list is a reference; no two are of the
same unit; and the victim is a reference in the online list. -/
theorem run_consistent (ops : List Op) :
    let m := run step {} ops
    (∀ id r, m.refs id = some r →
      if r.online then m.online.count id = 1 ∧ id ∉ m.offline
      else m.offline.count id = 1 ∧ id ∉ m.online) ∧
    (∀ id, id ∈ m.online ∨ id ∈ m.offline → m.refs id ≠ none) ∧
    (∀ i j r r', m.refs i = some r → m.refs j = some r' → r.unitGuid = r'.unitGuid → i = j) ∧
    (∀ v, m.currentVictim = some v →
      v ∈ m.online ∧ ∃ r, m.refs v = some r ∧ r.online = true ∧ r.valid = true) := by
  intro m
  have h : Consistent m := run_invariant (fun _ op h => h.step op) consistent_empty ops
  refine ⟨fun id r hr => ?_, fun id hid => ?_, h.unitGuid, fun v hv => ⟨h.victim v hv, ?_⟩⟩
  · cases hb : r.online with
    | true =>
      rw [if_pos rfl]
      refine ⟨List.count_eq_one_of_mem h.nodup_online ((h.online id).2 ⟨r, hr, hb⟩), fun hid => ?_⟩
      obtain ⟨q, hq, ho⟩ := (h.offline id).1 hid
      rw [hr] at hq
      cases hq
      rw [hb] at ho
      cases ho
    | false =>
      rw [if_neg (by simp)]
      refine ⟨List.count_eq_one_of_mem h.nodup_offline ((h.offline id).2 ⟨r, hr, hb⟩),
        fun hid => ?_⟩
      obtain ⟨q, hq, ho⟩ := (h.online id).1 hid
      rw [hr] at hq
      cases hq
      rw [hb] at ho
      cases ho
  · rcases hid with hid | hid
    · obtain ⟨r, hr, -⟩ := (h.online id).1 hid
      simp [hr]
    · obtain ⟨r, hr, -⟩ := (h.offline id).1 hid
      simp [hr]
  · obtain ⟨r, hr, ho⟩ := (h.online v).1 (h.victim v hv)
    exact ⟨r, hr, ho, h.valid v r hr ho⟩

end ThreatManager

end Windrunner
