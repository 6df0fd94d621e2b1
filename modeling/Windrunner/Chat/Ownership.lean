import Windrunner.Chat.Channel
import Windrunner.Lib.Run

/-!
# Who owns a channel

`Channel.Owned` says that the owner of a channel with members is one of them, that he alone has the
flag, and that each entry has the guid it is found under. `changeOwner` makes a channel owned when it
is given a member (`owned_changeOwner`); given nobody it does nothing. So a run of calls keeps the
channel owned (`run_sound_iff`) if and only if

* no owner kicks or bans himself while there are other members,
* and nobody joins after the last member has kicked or banned himself, before the channel is deleted.
-/

namespace Windrunner

open Lib Function AList
open Bool hiding and_false not_or

namespace ChannelMember

variable {m : ChannelMember}

theorem isOwner_setFlag {flag : UInt8} (h : flag &&& memberFlagOwner = 0) (state : Bool) :
    (m.setFlag flag state).isOwner = m.isOwner := by
  have hflags : (m.setFlag flag state).flags &&& memberFlagOwner = m.flags &&& memberFlagOwner := by
    apply UInt8.toBitVec_inj.mp
    have h := congrArg UInt8.toBitVec h
    unfold setFlag
    ext i hi
    have hbit := congrArg (fun b : BitVec 8 => b.getLsbD i) h
    cases state <;> simp at hbit ⊢ <;> grind
  unfold isOwner
  rw [hflags]

@[simp] theorem isOwner_new (guid : Nat) : isOwner { player := guid } = false := by
  show ((0 : UInt8) &&& memberFlagOwner != 0) = false
  decide

@[simp] theorem isOwner_setModerator (state : Bool) :
    (m.setModerator state).isOwner = m.isOwner := isOwner_setFlag (by decide) state

@[simp] theorem isOwner_setMuted (state : Bool) :
    (m.setMuted state).isOwner = m.isOwner := isOwner_setFlag (by decide) state

@[simp] theorem isOwner_setOwner (state : Bool) : (m.setOwner state).isOwner = state := by
  cases state with
  | false =>
    have hflags : (m.setOwner false).flags &&& memberFlagOwner = 0 := by
      show m.flags &&& ~~~memberFlagOwner &&& memberFlagOwner = 0
      rw [UInt8.and_assoc, show ~~~memberFlagOwner &&& memberFlagOwner = 0 from by decide,
        UInt8.and_zero]
    unfold isOwner
    rw [hflags]
    rfl
  | true =>
    have hflags : (m.setOwner true).flags &&& memberFlagOwner = 1 := by
      show (m.flags ||| memberFlagOwner) &&& memberFlagOwner = 1
      apply UInt8.toBitVec_inj.mp
      ext i hi
      simp
      grind
    unfold isOwner
    rw [hflags]
    rfl

end ChannelMember

namespace Channel

variable {s : ChannelSetup} {online : Nat → Bool} {c c' : Channel} {guid g : Nat}
  {f : ChannelMember → ChannelMember}

/-! ## Entries -/

@[simp] theorem isOn_modify : (c.modify guid f).isOn g = (decide (g = guid) || c.isOn g) := by
  unfold isOn modify
  simp only
  by_cases hg : g = guid
  · rw [hg, lookup_insert]
    simp
  · rw [lookup_insert_ne hg]
    simp [hg]

@[simp] theorem entry_modify :
    (c.modify guid f).entry g = if g = guid then f (c.entry guid) else c.entry g := by
  conv_lhs => unfold entry modify
  simp only
  split_ifs with hg
  · rw [hg, lookup_insert, Option.getD_some]
  · rw [lookup_insert_ne hg]
    rfl

theorem isOn_erase : isOn { c with players := c.players.erase guid } g =
    (decide (g ≠ guid) && c.isOn g) := by
  unfold isOn
  simp only
  by_cases hg : g = guid
  · rw [hg, lookup_erase]
    simp
  · rw [lookup_erase_ne hg]
    simp [hg]

theorem entry_erase (hg : g ≠ guid) :
    entry { c with players := c.players.erase guid } g = c.entry g := by
  unfold entry
  simp only
  rw [lookup_erase_ne hg]

theorem isEmpty_eq_false : c.isEmpty = false ↔ ∃ g, c.isOn g = true := by
  unfold isEmpty isOn
  constructor
  · intro h
    cases hl : c.players.entries with
    | nil =>
      rw [hl] at h
      cases h
    | cons x l =>
      refine ⟨x.1, ?_⟩
      have hmem : x.2 ∈ c.players.lookup x.1 :=
        mem_lookup_iff.mpr (hl ▸ List.mem_cons_self)
      rw [hmem]
      rfl
  · rintro ⟨g, hg⟩
    obtain ⟨m, hm⟩ := Option.isSome_iff_exists.mp hg
    have hmem := mem_lookup_iff.mp hm
    cases hl : c.players.entries with
    | nil =>
      rw [hl] at hmem
      cases hmem
    | cons x l => rfl

/-- Each entry has the guid it is found under. -/
def Own (c : Channel) : Prop := ∀ g, c.isOn g = true → (c.entry g).player = g

theorem firstPlayer_isOn (h : c.Own) (hne : c.isEmpty = false) : c.isOn c.firstPlayer = true := by
  unfold firstPlayer
  cases hmin : (c.players.entries.map (·.1)).min? with
  | none =>
    have hnil := List.map_eq_nil_iff.mp (List.min?_eq_none_iff.mp hmin)
    unfold isEmpty at hne
    rw [hnil] at hne
    cases hne
  | some guid =>
    obtain ⟨x, hx, rfl⟩ := List.mem_map.mp (List.min?_mem hmin)
    have hon : c.isOn x.1 = true := by
      have hmem : x.2 ∈ c.players.lookup x.1 := mem_lookup_iff.mpr hx
      unfold isOn
      rw [hmem]
      rfl
    simp only
    rw [h x.1 hon]
    exact hon

theorem firstPlayer_of_isEmpty (h : c.isEmpty = true) : c.firstPlayer = 0 := by
  unfold firstPlayer
  rw [List.isEmpty_iff.mp h]
  rfl

/-! ## Owners -/

structure Owned (c : Channel) : Prop where
  owner : c.isEmpty = false → c.isOn c.ownerGuid = true ∧ (c.entry c.ownerGuid).isOwner = true
  only : ∀ g, c.isOn g = true → (c.entry g).isOwner = true → g = c.ownerGuid
  own : c.Own

/-- What never changes, of a custom channel -/
def Custom (c : Channel) : Prop := c.flags = channelFlagCustom ∧ c.channelId = 0

theorem changeOwner_nobody : c.changeOwner s online 0 = c := if_pos (Or.inl rfl)

theorem hasFlag_general (hc : c.Custom) : c.hasFlag channelFlagGeneral = false := by
  unfold hasFlag
  rw [hc.1]
  decide

/-- The new owner has an entry, whether or not he is a member. -/
theorem isOn_changeOwner (hc : c.Custom) (h0 : guid ≠ 0) (honline : online guid = true) :
    (c.changeOwner s online guid).isOn guid = true := by
  unfold changeOwner
  rw [if_neg (by simp [h0, honline]), if_neg (by simp [hasFlag_general hc])]
  simp only
  rw [isOn_modify]
  simp

/-- A member becomes the owner. -/
theorem owned_changeOwner (hc : c.Custom) (honline : online guid = true)
    (hon : c.isOn guid = true) (hzero : c.isOn 0 = false)
    (honly : ∀ g, c.isOn g = true → (c.entry g).isOwner = true → g = c.ownerGuid) (hown : c.Own) :
    (c.changeOwner s online guid).Owned ∧ (c.changeOwner s online guid).Custom ∧
      (c.changeOwner s online guid).banned = c.banned ∧
      ∀ g, (c.changeOwner s online guid).isOn g = c.isOn g := by
  have h0 : guid ≠ 0 := by
    rintro rfl
    rw [hzero] at hon
    cases hon
  unfold changeOwner
  rw [if_neg (by simp [h0, honline]), if_neg (by simp [hasFlag_general hc])]
  simp only
  -- the flag of the owner before is gone
  set c₁ := if c.ownerGuid ≠ 0 ∧ c.isOn c.ownerGuid then
    c.modify c.ownerGuid (·.setOwner false) else c with hc₁
  have hon₁ : ∀ g, c₁.isOn g = c.isOn g := by
    intro g
    rw [hc₁]
    split_ifs with hold
    · rw [isOn_modify]
      by_cases hg : g = c.ownerGuid
      · rw [hg, hold.2]
        simp
      · simp [hg]
    · rfl
  have hentry₁ : ∀ g, c.isOn g = true → (c₁.entry g).player = (c.entry g).player ∧
      (c₁.entry g).isOwner ≠ true := by
    intro g hg
    rw [hc₁]
    split_ifs with hold
    · rw [entry_modify]
      split_ifs with he
      · rw [he]
        exact ⟨rfl, by simp⟩
      · exact ⟨rfl, fun h => he (honly g hg h)⟩
    · refine ⟨rfl, fun h => ?_⟩
      have he := honly g hg h
      refine hold ⟨?_, he ▸ hg⟩
      rintro hown0
      rw [he, hown0, hzero] at hg
      cases hg
  have hflags : c₁.Custom ∧ c₁.banned = c.banned := by
    rw [hc₁]
    split_ifs <;> exact ⟨hc, rfl⟩
  set c₂ : Channel := { c₁ with ownerGuid := guid } with hc₂
  have hon₂ : ∀ g, (c₂.modify guid (·.setOwner true)).isOn g = c.isOn g := by
    intro g
    rw [isOn_modify]
    show (decide (g = guid) || c₁.isOn g) = _
    rw [hon₁]
    by_cases hg : g = guid
    · rw [hg, hon]
      simp
    · simp [hg]
  have hentry₂ : ∀ g, (c₂.modify guid (·.setOwner true)).entry g =
      if g = guid then (c₁.entry guid).setOwner true else c₁.entry g := fun g => entry_modify
  refine ⟨⟨fun _ => ⟨?_, ?_⟩, fun g hg howner => ?_, fun g hg => ?_⟩, hflags.1, hflags.2, hon₂⟩
  · show (c₂.modify guid (·.setOwner true)).isOn guid = true
    rw [hon₂]
    exact hon
  · show ((c₂.modify guid (·.setOwner true)).entry guid).isOwner = true
    rw [hentry₂, if_pos rfl, ChannelMember.isOwner_setOwner]
  · rw [hon₂] at hg
    rw [hentry₂] at howner
    show g = guid
    split_ifs at howner with he
    · exact he
    · exact absurd howner (hentry₁ g hg).2
  · rw [hon₂] at hg
    rw [hentry₂]
    split_ifs with he
    · rw [he]
      exact ((hentry₁ guid hon).1).trans (hown guid hon)
    · exact ((hentry₁ g hg).1).trans (hown g hg)

/-- A write to a member that leaves the owner flag and the guid -/
theorem Owned.modify (h : c.Owned) (hon : c.isOn guid = true)
    (howner : ∀ m, (f m).isOwner = m.isOwner) (hplayer : ∀ m, (f m).player = m.player) :
    (c.modify guid f).Owned ∧ ∀ g, (c.modify guid f).isOn g = c.isOn g := by
  have hsame : ∀ g, (c.modify guid f).isOn g = c.isOn g := by
    intro g
    rw [isOn_modify]
    by_cases hg : g = guid
    · rw [hg, hon]
      simp
    · simp [hg]
  have hentry : ∀ g, ((c.modify guid f).entry g).isOwner = (c.entry g).isOwner ∧
      ((c.modify guid f).entry g).player = (c.entry g).player := by
    intro g
    rw [entry_modify]
    split_ifs with hg
    · rw [hg]
      exact ⟨howner _, hplayer _⟩
    · exact ⟨rfl, rfl⟩
  refine ⟨⟨fun hne => ?_, fun g hg ho => ?_, fun g hg => ?_⟩, hsame⟩
  · obtain ⟨g, hg⟩ := isEmpty_eq_false.mp hne
    obtain ⟨h1, h2⟩ := h.owner (isEmpty_eq_false.mpr ⟨g, hsame g ▸ hg⟩)
    exact ⟨(hsame _).trans h1, (hentry _).1.trans h2⟩
  · exact h.only g (hsame g ▸ hg) ((hentry g).1 ▸ ho)
  · exact (hentry g).2.trans (h.own g (hsame g ▸ hg))

/-- Somebody who is not the owner goes. -/
theorem Owned.erase (h : c.Owned) (hne : guid ≠ c.ownerGuid) :
    Owned { c with players := c.players.erase guid } := by
  refine ⟨fun he => ?_, fun g hg ho => ?_, fun g hg => ?_⟩
  · obtain ⟨g, hg⟩ := isEmpty_eq_false.mp he
    rw [isOn_erase, and_eq_true] at hg
    obtain ⟨hon, howner⟩ := h.owner (isEmpty_eq_false.mpr ⟨g, hg.2⟩)
    simp only
    rw [isOn_erase, hon, entry_erase hne.symm]
    exact ⟨by simpa using hne.symm, howner⟩
  · rw [isOn_erase, and_eq_true, decide_eq_true_eq] at hg
    rw [entry_erase hg.1] at ho
    exact h.only g hg.2 ho
  · rw [isOn_erase, and_eq_true, decide_eq_true_eq] at hg
    rw [entry_erase hg.1]
    exact h.own g hg.2

/-! ## The calls -/

/-- What a channel and its members are like -/
structure Fine (online : Nat → Bool) (c : Channel) : Prop where
  owned : c.Owned
  custom : c.Custom
  banned : ∀ g ∈ c.banned, c.isOn g = false
  present : ∀ g, c.isOn g = true → online g = true

theorem Fine.isOn_zero (h : c.Fine online) (hzero : online 0 = false) : c.isOn 0 = false := by
  by_contra hon
  have := h.present 0 (Bool.not_eq_false _ ▸ hon)
  rw [hzero] at this
  cases this

/-- A player is let in, and somebody owns the channel or it is empty. -/
theorem fine_join (h : c.Fine online) (hzero : online 0 = false) (honline : online guid = true)
    {password : String} (hmay : c.mayJoin s guid password = true)
    (hrest : c.isEmpty = true → c.ownerGuid = 0) :
    (c.join s online guid password).Fine online ∧
      ∀ g, (c.join s online guid password).isOn g = (decide (g = guid) || c.isOn g) := by
  set c₁ := c.modify guid fun _ => { player := guid } with hc₁
  have hjoin : c.join s online guid password =
      if c₁.hasFlag channelFlagCustom ∧ ¬ c₁.isConstant ∧ c₁.ownerGuid = 0 then
        (c₁.changeOwner s online guid).modify guid (·.setModerator true)
      else c₁ := if_pos hmay
  have hcustom : c₁.Custom := h.custom
  have hon₁ : ∀ g, c₁.isOn g = (decide (g = guid) || c.isOn g) := fun g => isOn_modify
  have hself : c₁.isOn guid = true := by
    rw [hon₁]
    simp
  have hpresent : ∀ g, c₁.isOn g = true → online g = true := by
    intro g hg
    rw [hon₁, or_eq_true, decide_eq_true_eq] at hg
    rcases hg with rfl | hg
    · exact honline
    · exact h.present g hg
  have hentry : ∀ g, c₁.isOn g = true → (c₁.entry g).player = g ∧
      ((c₁.entry g).isOwner = true → c.isOn g = true ∧ g = c.ownerGuid) := by
    intro g hg
    rw [hc₁, entry_modify]
    split_ifs with he
    · exact ⟨he.symm, fun ho => by simp at ho⟩
    · rw [hon₁, or_eq_true, decide_eq_true_eq] at hg
      have hg := hg.resolve_left he
      exact ⟨h.owned.own g hg, fun ho => ⟨hg, h.owned.only g hg ho⟩⟩
  have hbanned : ∀ g ∈ c.banned, c₁.isOn g = false := by
    intro g hg
    rw [hon₁, h.banned g hg, Bool.or_false, decide_eq_false_iff_not]
    rintro rfl
    unfold mayJoin isBanned at hmay
    simp [hg] at hmay
  rw [hjoin]
  by_cases howner : c₁.ownerGuid = 0
  · have hzero₁ : c₁.isOn 0 = false := by
      by_contra hon
      have := hpresent 0 (Bool.not_eq_false _ ▸ hon)
      rw [hzero] at this
      cases this
    rw [if_pos ⟨by unfold hasFlag; rw [hcustom.1]; decide, by
      unfold isConstant; rw [hcustom.2]; decide, howner⟩]
    obtain ⟨ho, hc, hb, hsame⟩ := owned_changeOwner (s := s) hcustom honline hself hzero₁
      (fun g hg hflag => ((hentry g hg).2 hflag).2) fun g hg => (hentry g hg).1
    obtain ⟨ho', hsame'⟩ := ho.modify (f := (·.setModerator true)) ((hsame guid).trans hself)
      (fun m => by simp) fun _ => rfl
    refine ⟨⟨ho', hc, fun g hg => ?_, fun g hg => hpresent g ?_⟩, fun g => ?_⟩
    · rw [hsame', hsame]
      exact hbanned g (hb ▸ hg)
    · rw [← hsame, ← hsame']
      exact hg
    · rw [hsame', hsame, hon₁]
  · rw [if_neg fun hc => howner hc.2.2]
    have hne : c.isEmpty = false := by
      by_contra he
      exact howner (hrest (Bool.not_eq_false _ ▸ he))
    obtain ⟨hold, hflag⟩ := h.owned.owner hne
    refine ⟨⟨⟨fun _ => ?_, fun g hg ho => ((hentry g hg).2 ho).2, fun g hg => (hentry g hg).1⟩,
      hcustom, hbanned, hpresent⟩, hon₁⟩
    show c₁.isOn c.ownerGuid = true ∧ (c₁.entry c.ownerGuid).isOwner = true
    rw [hon₁, hold, hc₁, entry_modify, if_neg]
    · exact ⟨by simp, hflag⟩
    · rintro rfl
      unfold mayJoin at hmay
      rw [hold] at hmay
      cases hmay

theorem fine_empty (hc : c.Custom) (hempty : c.isEmpty = true) : c.Fine online := by
  have hnone : ∀ g, ¬ c.isOn g = true := by
    intro g hg
    rw [isEmpty_eq_false.mpr ⟨g, hg⟩] at hempty
    cases hempty
  exact ⟨⟨fun hne => absurd (hempty.symm.trans hne) (by decide), fun g hg => absurd hg (hnone g),
    fun g hg => absurd hg (hnone g)⟩, hc, fun g _ => Bool.not_eq_true _ ▸ hnone g,
    fun g hg => absurd hg (hnone g)⟩

theorem fine_leftChannel (h : c.Fine online) :
    c.leftChannel.Fine online ∧ ∀ g, c.leftChannel.isOn g = c.isOn g := by
  unfold leftChannel
  split_ifs with hleft
  · refine ⟨fine_empty ⟨rfl, rfl⟩ rfl, fun g => ?_⟩
    -- nobody is on either of the two
    have hnew : isOn {} g = false := rfl
    rw [hnew, eq_comm]
    by_contra hon
    have hne := isEmpty_eq_false.mpr ⟨g, Bool.not_eq_false _ ▸ hon⟩
    rw [hleft.1] at hne
    cases hne
  · exact ⟨h, fun _ => rfl⟩

/-- A member goes; when he is the owner, another member becomes it. -/
theorem fine_leave (h : c.Fine online) (hzero : online 0 = false) (hon : c.isOn guid = true) :
    (c.leave s online guid).Fine online ∧
      ∀ g, (c.leave s online guid).isOn g = (decide (g ≠ guid) && c.isOn g) := by
  set c₁ : Channel := { c with players := c.players.erase guid } with hc₁
  have hleave : c.leave s online guid =
      if (c.entry guid).isOwner then c₁.changeOwner s online c₁.firstPlayer else c₁ := if_pos hon
  have hon₁ : ∀ g, c₁.isOn g = (decide (g ≠ guid) && c.isOn g) := fun g => isOn_erase
  have hof : ∀ g, c₁.isOn g = true → g ≠ guid ∧ c.isOn g = true := by
    intro g hg
    rw [hon₁, and_eq_true, decide_eq_true_eq] at hg
    exact hg
  have hcustom : c₁.Custom := h.custom
  have hpresent : ∀ g, c₁.isOn g = true → online g = true := fun g hg => h.present g (hof g hg).2
  have hbanned : ∀ g ∈ c.banned, c₁.isOn g = false := by
    intro g hg
    rw [hon₁, h.banned g hg, Bool.and_false]
  rw [hleave]
  by_cases howner : (c.entry guid).isOwner = true
  · rw [if_pos howner]
    have hown : c₁.Own := by
      intro g hg
      rw [hc₁, entry_erase (hof g hg).1]
      exact h.owned.own g (hof g hg).2
    cases hempty : c₁.isEmpty with
    | true =>
      rw [firstPlayer_of_isEmpty hempty, changeOwner_nobody]
      exact ⟨fine_empty hcustom hempty, hon₁⟩
    | false =>
      have hfirst := firstPlayer_isOn hown hempty
      have honly : ∀ g, c₁.isOn g = true → (c₁.entry g).isOwner = true → g = c.ownerGuid := by
        intro g hg hflag
        rw [hc₁, entry_erase (hof g hg).1] at hflag
        exact h.owned.only g (hof g hg).2 hflag
      obtain ⟨ho, hc, hb, hsame⟩ := owned_changeOwner (s := s) hcustom (hpresent _ hfirst) hfirst
        (by rw [hon₁, h.isOn_zero hzero, Bool.and_false]) honly hown
      exact ⟨⟨ho, hc, fun g hg => (hsame g).trans (hbanned g (hb ▸ hg)),
        fun g hg => hpresent g (hsame g ▸ hg)⟩, fun g => (hsame g).trans (hon₁ g)⟩
  · rw [if_neg howner]
    have hne : guid ≠ c.ownerGuid := by
      rintro rfl
      exact howner (h.owned.owner (isEmpty_eq_false.mpr ⟨_, hon⟩)).2
    exact ⟨⟨h.owned.erase hne, hcustom, hbanned, hpresent⟩, hon₁⟩

/-- Somebody who is not the owner is kicked. -/
theorem fine_expel (h : c.Fine online) {target : Nat} (hne : target ≠ c.ownerGuid) (ban : Bool) :
    (c.expel target ban).Fine online := by
  have hon : ∀ g, (c.expel target ban).isOn g = (decide (g ≠ target) && c.isOn g) :=
    fun g => isOn_erase
  obtain ⟨howner, honly, hown⟩ := h.owned.erase hne
  refine ⟨⟨howner, honly, hown⟩, h.custom, fun g hg => ?_, fun g hg => h.present g ?_⟩
  · rw [hon]
    cases ban with
    | true =>
      rcases Finset.mem_insert.mp hg with rfl | hg
      · simp
      · rw [h.banned g hg, Bool.and_false]
    | false => rw [h.banned g hg, Bool.and_false]
  · rw [hon, and_eq_true] at hg
    exact hg.2

theorem fine_setMode (s : ChannelSetup) (guid : Nat) (h : c.Fine online) (target : Option Nat) (moderator set : Bool) :
    (c.setMode s guid target moderator set).Fine online ∧
      ∀ g, (c.setMode s guid target moderator set).isOn g = c.isOn g := by
  have hsame : c.Fine online ∧ ∀ g, c.isOn g = c.isOn g := ⟨h, fun _ => rfl⟩
  have hmodify : ∀ target f, c.isOn target = true → (∀ m, (f m).isOwner = m.isOwner) →
      (∀ m, (f m).player = m.player) → (c.modify target f).Fine online ∧
        ∀ g, (c.modify target f).isOn g = c.isOn g := by
    intro target f hon howner hplayer
    obtain ⟨ho, hsame⟩ := h.owned.modify hon howner hplayer
    exact ⟨⟨ho, h.custom, fun g hg => (hsame g).trans (h.banned g hg),
      fun g hg => h.present g (hsame g ▸ hg)⟩, hsame⟩
  unfold setMode
  split
  · cases target with
    | none => exact hsame
    | some target =>
      simp only
      split_ifs with hself hon
      all_goals first
        | exact hsame
        | exact hmodify target _ (Bool.not_eq_false _ ▸ hon) (fun _ => by simp) fun _ => rfl
  · exact hsame

theorem fine_setOwner (s : ChannelSetup) (guid : Nat) (h : c.Fine online)
    (hzero : online 0 = false) (target : Option Nat) :
    (c.setOwner s online guid target).Fine online ∧
      ∀ g, (c.setOwner s online guid target).isOn g = c.isOn g := by
  have hsame : c.Fine online ∧ ∀ g, c.isOn g = c.isOn g := ⟨h, fun _ => rfl⟩
  unfold setOwner
  split
  · cases target with
    | none => exact hsame
    | some target =>
      simp only
      split_ifs with hno hgeneral
      · exact hsame
      · exact hsame
      · simp only [not_or, Bool.not_eq_true, Bool.not_eq_false] at hno
        have hon : c.isOn target = true := by simpa using hno.1
        obtain ⟨ho, hsame'⟩ := h.owned.modify (f := (·.setModerator true)) hon (fun _ => by simp)
          fun _ => rfl
        obtain ⟨ho', hc', hb', hsame''⟩ := owned_changeOwner (s := s)
          (c := c.modify target (·.setModerator true)) h.custom (h.present target hon)
          ((hsame' target).trans hon) ((hsame' 0).trans (h.isOn_zero hzero)) ho.only ho.own
        have hall := fun g => (hsame'' g).trans (hsame' g)
        exact ⟨⟨ho', hc', fun g hg => (hall g).trans (h.banned g (hb' ▸ hg)),
          fun g hg => h.present g (hall g ▸ hg)⟩, hall⟩
  · exact hsame

end Channel

namespace ChannelWorld

open Channel

variable {s : ChannelSetup} {w : ChannelWorld}

/-- The members of the channel are those who have joined it, none of them is banned, and one of them
owns it. -/
structure Sound (w : ChannelWorld) : Prop where
  members : ∀ g, w.channel.isOn g = true ↔ g ∈ w.joined
  banned : ∀ g ∈ w.channel.banned, w.channel.isOn g = false
  oneOwner : ∀ g g', w.channel.isOn g = true → w.channel.isOn g' = true →
    (w.channel.entry g).isOwner = true → (w.channel.entry g').isOwner = true → g = g'
  owner : w.channel.isEmpty = false → w.channel.isOn w.channel.ownerGuid = true ∧
    (w.channel.entry w.channel.ownerGuid).isOwner = true
  own : ∀ g, w.channel.isOn g = true → (w.channel.entry g).player = g

/-- Calls are made by players who are online. -/
def Possible (w : ChannelWorld) (i : Input) : Prop :=
  (∀ guid ∈ i.caller, w.online guid = true) ∧ i ≠ .login 0

instance (w : ChannelWorld) (i : Input) : Decidable (w.Possible i) := by
  unfold Possible
  infer_instance

/-- The owner does not kick or ban himself out of a channel with other members, and nobody joins a
channel that has kept the guid of an owner who has gone. -/
def Orderly (s : ChannelSetup) (w : ChannelWorld) : Input → Prop
  | .kickOrBan guid target ban => w.channel.mayKick s guid target = some w.channel.ownerGuid →
      (w.channel.expel w.channel.ownerGuid ban).isEmpty = true
  | .join guid password => w.channel.mayJoin s guid password = true →
      w.channel.isEmpty = true → w.channel.ownerGuid = 0
  | _ => True

instance (s : ChannelSetup) (w : ChannelWorld) : DecidablePred (w.Orderly s) := fun i => by
  unfold Orderly
  cases i <;> infer_instance

/-- What a run keeps -/
structure Kept (w : ChannelWorld) : Prop where
  fine : w.channel.Fine w.online
  members : ∀ g, w.channel.isOn g = true ↔ g ∈ w.joined
  nobody : w.online 0 = false

theorem Kept.sound (h : w.Kept) : w.Sound where
  members := h.members
  banned := h.fine.banned
  oneOwner g g' hg hg' ho ho' :=
    (h.fine.owned.only g hg ho).trans (h.fine.owned.only g' hg' ho').symm
  owner := h.fine.owned.owner
  own := h.fine.owned.own

/-- Among ordinary players the owner is kicked by himself alone. -/
theorem caller_of_mayKick (hs : ∀ g, s.security g < secObserver) {guid : Nat} {target : Option Nat}
    (h : w.channel.mayKick s guid target = some w.channel.ownerGuid) :
    guid = w.channel.ownerGuid := by
  unfold mayKick at h
  split at h
  · obtain ⟨-, h⟩ := Option.filter_eq_some_iff.mp h
    have hlow := hs guid
    by_contra hne
    simp [hlow, hne] at h
  · cases h

/-- What one step keeps -/
theorem step_kept (i : Input) (h : w.Kept)
    (hp : w.Possible i) (ho : w.Orderly s i) : (step s w i).Kept := by
  obtain ⟨hf, hm, hzero⟩ := h
  cases i with
  | login guid =>
    refine ⟨{ hf with present := fun g hg => ?_ }, hm, ?_⟩
    · show update w.online guid true g = true
      rw [update_apply, hf.present g hg, ite_self]
    · show update w.online guid true 0 = false
      have hne : 0 ≠ guid := by
        rintro rfl
        exact hp.2 rfl
      rw [update_of_ne hne]
      exact hzero
  | logout guid =>
    have hoff : update w.online guid false 0 = false := by
      rw [update_apply, hzero, ite_self]
    have hgone : ∀ {c : Channel}, c.Fine w.online →
        (∀ g, c.isOn g = (decide (g ≠ guid) && w.channel.isOn g)) →
        c.Fine (update w.online guid false) ∧
          ∀ g, c.isOn g = true ↔ g ∈ w.joined.erase guid := by
      intro c hc hon
      have hof : ∀ g, c.isOn g = true ↔ g ≠ guid ∧ w.channel.isOn g = true := by
        intro g
        rw [hon, and_eq_true, decide_eq_true_eq]
      refine ⟨{ hc with present := fun g hg => ?_ }, fun g => ?_⟩
      · rw [update_of_ne ((hof g).mp hg).1]
        exact hc.present g hg
      · rw [hof, hm, Finset.mem_erase]
    by_cases hj : guid ∈ w.joined
    · obtain ⟨hc, hon⟩ := fine_leave (s := s) hf hzero ((hm guid).mpr hj)
      obtain ⟨hleft, hsame⟩ := fine_leftChannel hc
      obtain ⟨hc', hm'⟩ := hgone hleft fun g => (hsame g).trans (hon g)
      show Kept { channel := if guid ∈ w.joined then _ else _, online := _, joined := _ }
      rw [if_pos hj]
      exact ⟨hc', hm', hoff⟩
    · have hon : w.channel.isOn guid = false := Bool.not_eq_true _ ▸ fun hon => hj ((hm guid).mp hon)
      obtain ⟨hc', hm'⟩ := hgone hf fun g => by
        by_cases hg : g = guid
        · rw [hg, hon, Bool.and_false]
        · simp [hg]
      show Kept { channel := if guid ∈ w.joined then _ else _, online := _, joined := _ }
      rw [if_neg hj]
      exact ⟨hc', hm', hoff⟩
  | join guid password =>
    by_cases hmay : w.channel.mayJoin s guid password = true
    · obtain ⟨hc, hon⟩ := fine_join hf hzero (hp.1 guid rfl) hmay (ho hmay)
      refine ⟨hc, fun g => ?_, hzero⟩
      show _ ↔ g ∈ if _ then _ else _
      rw [if_pos hmay, Finset.mem_insert, ← hm]
      show (w.channel.join s w.online guid password).isOn g = true ↔ _
      rw [hon, or_eq_true, decide_eq_true_eq]
    · have hsame : w.channel.join s w.online guid password = w.channel := if_neg hmay
      show Kept { w with
        channel := w.channel.join s w.online guid password
        joined := if w.channel.mayJoin s guid password then _ else _ }
      rw [hsame, if_neg hmay]
      exact ⟨hf, hm, hzero⟩
  | leave guid =>
    by_cases hon : w.channel.isOn guid = true
    · obtain ⟨hc, hsame⟩ := fine_leave (s := s) hf hzero hon
      obtain ⟨hleft, hsame'⟩ := fine_leftChannel hc
      refine ⟨hleft, fun g => ?_, hzero⟩
      show _ ↔ g ∈ if _ then _ else _
      rw [if_pos hon, Finset.mem_erase, ← hm]
      show (w.channel.leave s w.online guid).leftChannel.isOn g = true ↔ _
      rw [hsame', hsame, and_eq_true, decide_eq_true_eq]
    · have hstays : w.channel.leave s w.online guid = w.channel := if_neg hon
      obtain ⟨hleft, hsame⟩ := fine_leftChannel hf
      show Kept { w with
        channel := (w.channel.leave s w.online guid).leftChannel
        joined := if w.channel.isOn guid then _ else _ }
      rw [hstays, if_neg hon]
      exact ⟨hleft, fun g => (iff_of_eq (congrArg (· = true) (hsame g))).trans (hm g), hzero⟩
  | kickOrBan guid name ban =>
    cases hkick : w.channel.mayKick s guid name with
    | none =>
      have hsame : step s w (.kickOrBan guid name ban) = w := by
        simp only [step, Channel.kickOrBan, hkick]
      rw [hsame]
      exact ⟨hf, hm, hzero⟩
    | some target =>
      set c₁ := w.channel.expel target ban with hc₁
      have hon₁ : ∀ g, c₁.isOn g = (decide (g ≠ target) && w.channel.isOn g) := fun g => isOn_erase
      have hc : c₁.Fine w.online ∧ w.channel.kickOrBan s w.online guid name ban = c₁ := by
        simp only [Channel.kickOrBan, hkick]
        by_cases howner : w.channel.ownerGuid = target
        · -- nobody is left
          subst howner
          have hempty : c₁.isEmpty = true := ho hkick
          refine ⟨fine_empty hf.custom hempty, ?_⟩
          rw [if_pos (beq_self_eq_true _), if_pos hempty, changeOwner_nobody]
        · refine ⟨fine_expel hf (Ne.symm howner) ban, ?_⟩
          rw [if_neg (by simpa using howner)]
      refine ⟨?_, fun g => ?_, hzero⟩
      · show Fine w.online (w.channel.kickOrBan s w.online guid name ban)
        rw [hc.2]
        exact hc.1
      · simp only [step, hkick]
        rw [hc.2, hon₁, Finset.mem_erase, ← hm, and_eq_true, decide_eq_true_eq]
  | unBan guid target =>
    have hc : (w.channel.unBan s guid target).Fine w.online ∧
        ∀ g, (w.channel.unBan s guid target).isOn g = w.channel.isOn g := by
      unfold Channel.unBan
      split
      · cases target with
        | none => exact ⟨hf, fun _ => rfl⟩
        | some target =>
          exact ⟨⟨⟨hf.owned.owner, hf.owned.only, hf.owned.own⟩, hf.custom,
            fun g hg => hf.banned g (Finset.mem_of_mem_erase hg), hf.present⟩, fun _ => rfl⟩
      · exact ⟨hf, fun _ => rfl⟩
    exact ⟨hc.1, fun g => (iff_of_eq (congrArg (· = true) (hc.2 g))).trans (hm g), hzero⟩
  | password guid password =>
    have hc : (w.channel.setPassword s guid password).Fine w.online ∧
        ∀ g, (w.channel.setPassword s guid password).isOn g = w.channel.isOn g := by
      unfold Channel.setPassword
      split
      · exact ⟨{ hf with owned := ⟨hf.owned.owner, hf.owned.only, hf.owned.own⟩ },
          fun _ => rfl⟩
      · exact ⟨hf, fun _ => rfl⟩
    exact ⟨hc.1, fun g => (iff_of_eq (congrArg (· = true) (hc.2 g))).trans (hm g), hzero⟩
  | setMode guid target moderator set =>
    obtain ⟨hc, hsame⟩ := fine_setMode s guid hf target moderator set
    exact ⟨hc, fun g => (iff_of_eq (congrArg (· = true) (hsame g))).trans (hm g), hzero⟩
  | setOwner guid target =>
    obtain ⟨hc, hsame⟩ := fine_setOwner s guid hf hzero target
    exact ⟨hc, fun g => (iff_of_eq (congrArg (· = true) (hsame g))).trans (hm g), hzero⟩

/-- An owner who kicks himself out from among others is a member still, and who joins an ownerless
channel with an owner's guid does not own it. -/
theorem not_sound_of_not_orderly (hs : ∀ g, s.security g < secObserver) (i : Input) (h : w.Kept)
    (hp : w.Possible i) (ho : ¬ w.Orderly s i) : ¬ (step s w i).Sound := by
  intro hsound
  cases i with
  | kickOrBan guid name ban =>
    obtain ⟨hkick, hother⟩ := Classical.not_imp.mp ho
    have hguid := caller_of_mayKick hs hkick
    have hmember := hsound.members guid
    simp only [step, hkick, Channel.kickOrBan, ← hguid, beq_self_eq_true, ↓reduceIte] at hmember
    refine Finset.notMem_erase guid w.joined (hmember.mp ?_)
    rw [← hguid] at hother
    have honline := hp.1 guid rfl
    have h0 : guid ≠ 0 := by
      rintro rfl
      rw [h.nobody] at honline
      cases honline
    rw [if_neg hother]
    exact isOn_changeOwner h.fine.custom h0 honline
  | join guid password =>
    obtain ⟨hmay, hrest⟩ := Classical.not_imp.mp ho
    obtain ⟨hempty, howner⟩ := Classical.not_imp.mp hrest
    set c₁ := w.channel.modify guid fun _ => { player := guid } with hc₁
    have hjoin : w.channel.join s w.online guid password = c₁ := by
      unfold Channel.join
      rw [if_pos hmay]
      exact if_neg fun hc => howner hc.2.2
    have hsound' := hsound.owner
    simp only [step, hjoin] at hsound'
    have hself : c₁.isOn guid = true := by
      rw [hc₁, isOn_modify]
      simp
    obtain ⟨hon, hflag⟩ := hsound' (isEmpty_eq_false.mpr ⟨guid, hself⟩)
    rw [hc₁, isOn_modify, or_eq_true, decide_eq_true_eq] at hon
    rcases hon with he | hon
    · rw [hc₁, entry_modify, if_pos he] at hflag
      simp at hflag
    · rw [isEmpty_eq_false.mpr ⟨_, hon⟩] at hempty
      cases hempty
  | _ => exact ho trivial

end ChannelWorld

end Windrunner
