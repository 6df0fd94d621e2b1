import Windrunner.Battleground.World
import Windrunner.Lib.Run

/-!
# Is the queue consistent?

- **A consistent queue** (`BgQueue.Consistent`): `m_QueuedPlayers` and the players of the group
  infos in the lists are one record.
- **The invariant** (`WiredBut`). A group info stands in a list of its team, and in one list only. A
  join is not over until the new group info is in a list: `o` is the one that is not.
- **One lemma for each operation** of the queue, and from these one for a step of the world
  (`BgWorld.step_wired`).
- **What goes wrong.** `addGroup` replaces the entry of a player who is in `m_QueuedPlayers` still,
  and the group info from before keeps him. His queue ids do not tell: two of the queues do not give
  them back at login.
-/

namespace Windrunner

open Lib List Option

namespace BgQueue

structure Consistent (q : BgQueue) : Prop where
  mem_iff : ∀ guid i, q.groupOf guid = some i ↔
    guid ∈ q.playersOf i ∧ ∃! x : Nat × Nat, i ∈ q.queuedGroups x.1 x.2
  nodup : ∀ bracket type, (q.queuedGroups bracket type).Nodup
  occupied : ∀ bracket type, ∀ i ∈ q.queuedGroups bracket type, q.playersOf i ≠ []
  atMostOne : ∀ guid i j, guid ∈ q.playersOf i → guid ∈ q.playersOf j → i = j

/-- The queue while the group info `o` is not in a list yet. -/
structure WiredBut (o : Option Nat) (q : BgQueue) : Prop where
  member : ∀ guid i, q.groupOf guid = some i ↔ guid ∈ q.playersOf i
  distinct : ∀ i, (q.playersOf i).Nodup
  home : ∀ i, q.playersOf i ≠ [] → o = some i ∨ ∃ b t, i ∈ q.queuedGroups b t
  live : ∀ i b t, i ∈ q.queuedGroups b t → (q.infos i).isSome ∧ o ≠ some i
  occupied : ∀ i b t, i ∈ q.queuedGroups b t → q.playersOf i ≠ []
  kind : ∀ i b t, i ∈ q.queuedGroups b t →
    b < maxBattlegroundBrackets ∧ ∃ premade, t = typeIndex premade (q.info i).groupTeam
  place : ∀ i b t b' t', i ∈ q.queuedGroups b t → i ∈ q.queuedGroups b' t' → b = b' ∧ t = t'
  nodup : ∀ b t, (q.queuedGroups b t).Nodup
  fresh : ∀ i, q.nextInfo ≤ i → q.infos i = none

abbrev Wired (q : BgQueue) : Prop := q.WiredBut none

theorem wired_empty : Wired {} where
  member _ _ := by simp [groupOf, playersOf, info]
  distinct _ := nodup_nil
  home i h := absurd rfl h
  live i b t h := absurd h not_mem_nil
  occupied i b t h := absurd h not_mem_nil
  kind i b t h := absurd h not_mem_nil
  place i b t b' t' h := absurd h not_mem_nil
  nodup _ _ := nodup_nil
  fresh _ _ := rfl

theorem Wired.consistent {q : BgQueue} (h : q.Wired) : q.Consistent where
  mem_iff guid i := by
    rw [h.member]
    refine ⟨fun hg => ⟨hg, ?_⟩, And.left⟩
    obtain ho | ⟨b, t, hbt⟩ := h.home i (ne_nil_of_mem hg)
    · cases ho
    · refine ⟨(b, t), hbt, ?_⟩
      rintro ⟨b', t'⟩ hbt'
      obtain ⟨rfl, rfl⟩ := h.place i _ _ _ _ hbt hbt'
      rfl
  nodup := h.nodup
  occupied b t i hi := h.occupied i b t hi
  atMostOne guid i j hi hj := by
    rw [← h.member] at hi hj
    exact some_inj.mp (hi.symm.trans hj)

/-! ## Reading a queue after a write -/

section Read

variable (q : BgQueue)

@[simp] theorem infos_setInfo (i : Nat) (gi : Option GroupQueueInfo) (j : Nat) :
    (q.setInfo i gi).infos j = if j = i then gi else q.infos j := rfl

@[simp] theorem info_setInfo (i : Nat) (gi : Option GroupQueueInfo) (j : Nat) :
    (q.setInfo i gi).info j = if j = i then gi.getD {} else q.info j := by
  unfold info
  rw [infos_setInfo]
  split_ifs <;> rfl

@[simp] theorem playersOf_setInfo (i : Nat) (gi : Option GroupQueueInfo) (j : Nat) :
    (q.setInfo i gi).playersOf j = if j = i then (gi.getD {}).players else q.playersOf j := by
  unfold playersOf
  rw [info_setInfo]
  split_ifs <;> rfl

@[simp] theorem queuedGroups_setGroups (b t : Nat) (l : List Nat) (b' t' : Nat) :
    (q.setGroups b t l).queuedGroups b' t' =
      if b' = b ∧ t' = t then l else q.queuedGroups b' t' := rfl

@[simp] theorem infos_setGroups (b t : Nat) (l : List Nat) :
    (q.setGroups b t l).infos = q.infos := rfl

@[simp] theorem playersOf_setGroups (b t : Nat) (l : List Nat) :
    (q.setGroups b t l).playersOf = q.playersOf := rfl

theorem groupOf_insert (guid : Nat) (pl : PlayerQueueInfo) (g : Nat) :
    groupOf { q with queuedPlayers := q.queuedPlayers.insert guid pl } g =
      if g = guid then some pl.groupInfo else q.groupOf g := by
  unfold groupOf
  split_ifs with h
  · subst h
    rw [AList.lookup_insert]
    rfl
  · rw [AList.lookup_insert_ne h]

theorem groupOf_erase (guid g : Nat) :
    groupOf { q with queuedPlayers := q.queuedPlayers.erase guid } g =
      if g = guid then none else q.groupOf g := by
  unfold groupOf
  split_ifs with h
  · subst h
    rw [AList.lookup_erase]
    rfl
  · rw [AList.lookup_erase_ne h]

end Read

theorem typeIndex_injective {p p' : Bool} {t t' : BgTeam} (h : typeIndex p t = typeIndex p' t') :
    p = p' ∧ t = t' := by
  revert h
  cases p <;> cases p' <;> cases t <;> cases t' <;> decide

/-! ## The same groups -/

/-- `q'` has the groups of `q`, with the same players, in the same lists up to order. -/
structure Reshaped (q q' : BgQueue) : Prop where
  groupOf : q'.groupOf = q.groupOf
  nextInfo : q'.nextInfo = q.nextInfo
  info : ∀ i, (q'.infos i).map (fun gi => (gi.players, gi.groupTeam)) =
    (q.infos i).map fun gi => (gi.players, gi.groupTeam)
  lists : ∀ b t, (q'.queuedGroups b t).Perm (q.queuedGroups b t)

namespace Reshaped

variable {q q' q'' : BgQueue}

theorem refl (q : BgQueue) : Reshaped q q := ⟨rfl, rfl, fun _ => rfl, fun _ _ => .refl _⟩

theorem trans (h : Reshaped q q') (h' : Reshaped q' q'') : Reshaped q q'' :=
  ⟨h'.groupOf.trans h.groupOf, h'.nextInfo.trans h.nextInfo, fun i => (h'.info i).trans (h.info i),
    fun b t => (h'.lists b t).trans (h.lists b t)⟩

theorem isSome (h : Reshaped q q') (i : Nat) : (q'.infos i).isSome = (q.infos i).isSome := by
  have := congrArg Option.isSome (h.info i)
  rwa [isSome_map, isSome_map] at this

theorem playersOf (h : Reshaped q q') (i : Nat) : q'.playersOf i = q.playersOf i := by
  have := h.info i
  unfold BgQueue.playersOf BgQueue.info
  cases hi : q.infos i <;> cases hi' : q'.infos i <;> simp_all

theorem groupTeam (h : Reshaped q q') (i : Nat) : (q'.info i).groupTeam = (q.info i).groupTeam := by
  have := h.info i
  unfold BgQueue.info
  cases hi : q.infos i <;> cases hi' : q'.infos i <;> simp_all

theorem foldl {α : Type} {f : BgQueue → α → BgQueue} (h : ∀ q a, Reshaped q (f q a)) (q : BgQueue)
    (l : List α) : Reshaped q (l.foldl f q) := by
  induction l generalizing q with
  | nil => exact refl q
  | cons a l ih => exact (h q a).trans (ih (f q a))

theorem wired {o : Option Nat} (h : Reshaped q q') (hw : q.WiredBut o) : q'.WiredBut o where
  member guid i := by rw [h.groupOf, h.playersOf]; exact hw.member guid i
  distinct i := by rw [h.playersOf]; exact hw.distinct i
  home i hi := by
    rw [h.playersOf] at hi
    refine (hw.home i hi).imp_right ?_
    rintro ⟨b, t, hbt⟩
    exact ⟨b, t, (h.lists b t).mem_iff.mpr hbt⟩
  live i b t hi := by
    rw [h.isSome]
    exact hw.live i b t ((h.lists b t).mem_iff.mp hi)
  occupied i b t hi := by
    rw [h.playersOf]
    exact hw.occupied i b t ((h.lists b t).mem_iff.mp hi)
  kind i b t hi := by
    rw [h.groupTeam]
    exact hw.kind i b t ((h.lists b t).mem_iff.mp hi)
  place i b t b' t' hi hi' :=
    hw.place i b t b' t' ((h.lists b t).mem_iff.mp hi) ((h.lists b' t').mem_iff.mp hi')
  nodup b t := (h.lists b t).nodup_iff.mpr (hw.nodup b t)
  fresh i hi := by
    rw [h.nextInfo] at hi
    have := h.isSome i
    rw [hw.fresh i hi] at this
    exact not_isSome_iff_eq_none.mp (by simp [this])

/-- The entry of a player is written, with the same group info. -/
theorem of_insert {guid : Nat} {pl pl' : PlayerQueueInfo} (h : q.queuedPlayers.lookup guid = some pl)
    (hi : pl'.groupInfo = pl.groupInfo) :
    Reshaped q { q with queuedPlayers := q.queuedPlayers.insert guid pl' } := by
  refine ⟨?_, rfl, fun _ => rfl, fun _ _ => .refl _⟩
  funext g
  rw [groupOf_insert]
  split_ifs with hg
  · rw [hg, hi, BgQueue.groupOf, h]
    rfl
  · rfl

/-- A group info is written, with the same players and the same team. -/
theorem of_setInfo {i : Nat} {gi gi' : GroupQueueInfo} (h : q.infos i = some gi)
    (hp : gi'.players = gi.players) (ht : gi'.groupTeam = gi.groupTeam) :
    Reshaped q (q.setInfo i (some gi')) := by
  refine ⟨rfl, rfl, fun j => ?_, fun _ _ => .refl _⟩
  rw [infos_setInfo]
  split_ifs with hj
  · rw [hj, h, map_some, map_some, hp, ht]
  · rfl

theorem of_setGroups {b t : Nat} {l : List Nat} (h : l.Perm (q.queuedGroups b t)) :
    Reshaped q (q.setGroups b t l) := by
  refine ⟨rfl, rfl, fun _ => rfl, fun b' t' => ?_⟩
  rw [queuedGroups_setGroups]
  split_ifs with hbt
  · rw [hbt.1, hbt.2]
    exact h
  · exact .refl _

end Reshaped

theorem reshaped_playerLoggedOut (q : BgQueue) (guid : Nat) (now : UInt32) :
    Reshaped q (q.playerLoggedOut guid now) := by
  unfold playerLoggedOut
  cases h : q.queuedPlayers.lookup guid with
  | none => exact .refl q
  | some pl => exact .of_insert h rfl

theorem reshaped_playerLoggedIn (q : BgQueue) (guid : Nat) : Reshaped q (q.playerLoggedIn guid) := by
  unfold playerLoggedIn
  cases h : q.queuedPlayers.lookup guid with
  | none => exact .refl q
  | some pl => exact .of_insert h rfl

/-! ## Joining -/

section Join

variable {q : BgQueue} {i : Nat}

theorem wired_newInfo (h : q.Wired) (team : BgTeam) (j : BgJoin) : (q.newInfo team j).Wired := by
  have hnew : ∀ i b t, i ∈ q.queuedGroups b t → i ≠ q.nextInfo := by
    rintro i b t hi rfl
    have := (h.live _ b t hi).1
    rw [h.fresh _ (Nat.le_refl _)] at this
    cases this
  have hp : ∀ i, (q.newInfo team j).playersOf i = q.playersOf i := by
    intro i
    show (q.setInfo q.nextInfo _).playersOf i = _
    rw [playersOf_setInfo]
    split_ifs with hi
    · rw [hi, playersOf, info, h.fresh _ (Nat.le_refl _)]
      rfl
    · rfl
  have hinfo : ∀ i, i ≠ q.nextInfo → (q.newInfo team j).info i = q.info i := by
    intro i hi
    show (q.setInfo q.nextInfo _).info i = _
    rw [info_setInfo, if_neg hi]
  exact
    { member := fun guid i => by rw [hp]; exact h.member guid i
      distinct := fun i => by rw [hp]; exact h.distinct i
      home := fun i hi => by rw [hp] at hi; exact h.home i hi
      live := fun i b t hi => by
        refine ⟨?_, nofun⟩
        show ((q.setInfo q.nextInfo _).infos i).isSome
        rw [infos_setInfo, if_neg (hnew i b t hi)]
        exact (h.live i b t hi).1
      occupied := fun i b t hi => by rw [hp]; exact h.occupied i b t hi
      kind := fun i b t hi => by rw [hinfo i (hnew i b t hi)]; exact h.kind i b t hi
      place := h.place
      nodup := h.nodup
      fresh := fun i hi => by
        have hi : q.nextInfo + 1 ≤ i := hi
        show (q.setInfo q.nextInfo _).infos i = none
        rw [infos_setInfo, if_neg (by omega)]
        exact h.fresh i (by omega) }

/-- A group info without players need not be in a list. -/
theorem WiredBut.of_unlisted (h : q.Wired) (hi : ∀ b t, i ∉ q.queuedGroups b t) :
    q.WiredBut (some i) :=
  { h with
    home := fun j hj => .inr ((h.home j hj).resolve_left nofun)
    live := fun j b t hj => by
      refine ⟨(h.live j b t hj).1, ?_⟩
      rintro ⟨⟩
      exact hi b t hj }

theorem WiredBut.wired (h : q.WiredBut (some i)) (hi : q.playersOf i = []) : q.Wired :=
  { h with
    home := fun j hj => by
      obtain ho | hl := h.home j hj
      · obtain rfl := some_inj.mp ho
        exact absurd hi hj
      · exact .inr hl
    live := fun j b t hj => ⟨(h.live j b t hj).1, nofun⟩ }

theorem groupOf_queuePlayer (guid g : Nat) :
    (queuePlayer i q guid).groupOf g = if g = guid then some i else q.groupOf g := by
  unfold queuePlayer
  exact groupOf_insert (q.setInfo i _) guid _ g

theorem playersOf_queuePlayer (guid j : Nat) (hg : guid ∉ q.playersOf i) :
    (queuePlayer i q guid).playersOf j =
      if j = i then q.playersOf i ++ [guid] else q.playersOf j := by
  show (q.setInfo i _).playersOf j = _
  rw [playersOf_setInfo]
  have hnew : (if guid ∈ q.playersOf i then q.playersOf i else q.playersOf i ++ [guid])
      = q.playersOf i ++ [guid] := if_neg hg
  rw [← hnew]
  rfl

theorem wired_queuePlayer {guid : Nat} (h : q.WiredBut (some i)) (hi : (q.infos i).isSome)
    (hg : q.groupOf guid = none) : (queuePlayer i q guid).WiredBut (some i) := by
  have hnot : ∀ j, guid ∉ q.playersOf j := by
    intro j hj
    rw [← h.member, hg] at hj
    cases hj
  have hp := fun j => playersOf_queuePlayer guid j (hnot i)
  have hlist : ∀ j b t, j ∈ q.queuedGroups b t → j ≠ i := by
    rintro j b t hj rfl
    exact (h.live j b t hj).2 rfl
  have hinfo : ∀ j, j ≠ i → (queuePlayer i q guid).info j = q.info j := by
    intro j hj
    show (q.setInfo i _).info j = _
    rw [info_setInfo, if_neg hj]
  exact
    { member := fun g j => by
        rw [groupOf_queuePlayer, hp]
        by_cases hgg : g = guid
        · subst hgg
          rw [if_pos rfl]
          split_ifs with hj
          · simp [hj]
          · simp [Ne.symm hj, hnot j]
        · rw [if_neg hgg, h.member]
          split_ifs with hj
          · rw [hj]
            simp [hgg]
          · exact Iff.rfl
      distinct := fun j => by
        rw [hp]
        split_ifs
        · rw [nodup_append]
          refine ⟨h.distinct i, nodup_singleton _, fun a ha b hb => ?_⟩
          rintro rfl
          rw [mem_singleton.mp hb] at ha
          exact hnot i ha
        · exact h.distinct j
      home := fun j hj => by
        rw [hp] at hj
        split_ifs at hj with hji
        · exact .inl (congrArg some hji.symm)
        · exact h.home j hj
      live := fun j b t hj => by
        refine ⟨?_, (h.live j b t hj).2⟩
        show ((q.setInfo i _).infos j).isSome
        rw [infos_setInfo, if_neg (hlist j b t hj)]
        exact (h.live j b t hj).1
      occupied := fun j b t hj => by
        rw [hp, if_neg (hlist j b t hj)]
        exact h.occupied j b t hj
      kind := fun j b t hj => by rw [hinfo j (hlist j b t hj)]; exact h.kind j b t hj
      place := h.place
      nodup := h.nodup
      fresh := fun j hj => by
        show (q.setInfo i _).infos j = none
        have hnone : q.infos j = none := h.fresh j hj
        rw [infos_setInfo, if_neg]
        · exact hnone
        · rintro rfl
          rw [hnone] at hi
          cases hi }

theorem wired_pushGroup {b : Nat} (premade : Bool) {team : BgTeam} (h : q.WiredBut (some i))
    (hi : (q.infos i).isSome) (hb : b < maxBattlegroundBrackets)
    (ht : (q.info i).groupTeam = team) : (q.pushGroup b (typeIndex premade team) i).Wired := by
  unfold pushGroup
  split_ifs with he
  · exact h.wired he
  · have hfree : ∀ b t, i ∉ q.queuedGroups b t := fun b t hi => (h.live i b t hi).2 rfl
    have hlist : ∀ j b' t',
        j ∈ (q.setGroups b (typeIndex premade team)
          (q.queuedGroups b (typeIndex premade team) ++ [i])).queuedGroups b' t' ↔
        j ∈ q.queuedGroups b' t' ∨ (j = i ∧ b' = b ∧ t' = typeIndex premade team) := by
      intro j b' t'
      rw [queuedGroups_setGroups]
      split_ifs with hbt
      · rw [hbt.1, hbt.2, mem_append, mem_singleton]
        simp
      · simp [hbt]
    exact
      { member := h.member
        distinct := h.distinct
        home := fun j hj => by
          refine .inr ?_
          obtain ho | ⟨b', t', hl⟩ := h.home j hj
          · exact ⟨b, _, (hlist j _ _).mpr (.inr ⟨(some_inj.mp ho).symm, rfl, rfl⟩)⟩
          · exact ⟨b', t', (hlist j _ _).mpr (.inl hl)⟩
        live := fun j b' t' hj => by
          refine ⟨?_, nofun⟩
          obtain hj | ⟨rfl, -, -⟩ := (hlist j b' t').mp hj
          · exact (h.live j b' t' hj).1
          · exact hi
        occupied := fun j b' t' hj => by
          obtain hj | ⟨rfl, -, -⟩ := (hlist j b' t').mp hj
          · exact h.occupied j b' t' hj
          · exact he
        kind := fun j b' t' hj => by
          obtain hj | ⟨rfl, rfl, rfl⟩ := (hlist j b' t').mp hj
          · exact h.kind j b' t' hj
          · exact ⟨hb, premade, by rw [← ht]; rfl⟩
        place := fun j b₁ t₁ b₂ t₂ h₁ h₂ => by
          obtain h₁ | ⟨rfl, rfl, rfl⟩ := (hlist j b₁ t₁).mp h₁ <;>
            obtain h₂ | ⟨he₂, hb₂, ht₂⟩ := (hlist _ b₂ t₂).mp h₂
          · exact h.place j b₁ t₁ b₂ t₂ h₁ h₂
          · exact absurd h₁ (he₂ ▸ hfree b₁ t₁)
          · exact absurd h₂ (hfree b₂ t₂)
          · exact ⟨hb₂.symm, ht₂.symm⟩
        nodup := fun b' t' => by
          rw [queuedGroups_setGroups]
          split_ifs
          · rw [nodup_append]
            refine ⟨h.nodup _ _, nodup_singleton _, fun a ha c hc => ?_⟩
            rintro rfl
            exact hfree _ _ (mem_singleton.mp hc ▸ ha)
          · exact h.nodup b' t'
        fresh := h.fresh }

theorem infos_queuePlayer (guid : Nat) :
    ((queuePlayer i q guid).infos i).isSome ∧
      ((queuePlayer i q guid).info i).groupTeam = (q.info i).groupTeam := by
  constructor
  · show ((q.setInfo i _).infos i).isSome
    rw [infos_setInfo, if_pos rfl]
    rfl
  · show ((q.setInfo i _).info i).groupTeam = _
    rw [info_setInfo, if_pos rfl]
    rfl

theorem infos_newInfo (team : BgTeam) (j : BgJoin) :
    ((q.newInfo team j).infos q.nextInfo).isSome ∧
      ((q.newInfo team j).info q.nextInfo).groupTeam = team := by
  constructor
  · show ((q.setInfo q.nextInfo _).infos q.nextInfo).isSome
    rw [infos_setInfo, if_pos rfl]
    rfl
  · show ((q.setInfo q.nextInfo _).info q.nextInfo).groupTeam = _
    rw [info_setInfo, if_pos rfl]
    rfl

theorem unlisted_newInfo (h : q.Wired) (team : BgTeam) (j : BgJoin) (b t : Nat) :
    q.nextInfo ∉ (q.newInfo team j).queuedGroups b t := by
  intro hi
  have := (h.live _ b t hi).1
  rw [h.fresh _ (Nat.le_refl _)] at this
  cases this

variable {team : Nat → BgTeam} {j : BgJoin}

theorem wired_addSolo {guid : Nat} (h : q.Wired) (hb : j.bracketId < maxBattlegroundBrackets)
    (hg : q.groupOf guid = none) : (q.addSolo team j guid).Wired := by
  have hnew := WiredBut.of_unlisted (wired_newInfo h (team guid) j)
    (unlisted_newInfo h (team guid) j)
  obtain ⟨hsome, hteam⟩ := infos_newInfo (q := q) (team guid) j
  obtain ⟨hsome', hteam'⟩ := infos_queuePlayer (q := q.newInfo (team guid) j) (i := q.nextInfo) guid
  exact wired_pushGroup _ (wired_queuePlayer hnew hsome hg) hsome' hb (hteam'.trans hteam)

theorem groupOf_pushGroup (b t i : Nat) : (q.pushGroup b t i).groupOf = q.groupOf := by
  unfold pushGroup
  split_ifs <;> rfl

theorem groupOf_addSolo (guid g : Nat) :
    (q.addSolo team j guid).groupOf g = if g = guid then some q.nextInfo else q.groupOf g := by
  unfold addSolo
  simp only
  rw [groupOf_pushGroup, groupOf_queuePlayer]
  rfl

/-- The members enter one after the other; none of them is in the queue. -/
theorem foldl_enter {I : BgQueue → Prop} {f : BgQueue → Nat → BgQueue} (excluded : List Nat)
    {l : List Nat} (hf : ∀ q guid, I q → q.groupOf guid = none →
      I (f q guid) ∧ ∀ g, g ≠ guid → (f q guid).groupOf g = q.groupOf g)
    (hl : l.Nodup) (hI : I q) (hg : ∀ guid ∈ l, guid ∉ excluded → q.groupOf guid = none) :
    I (l.foldl (fun q guid => if guid ∈ excluded then q else f q guid) q) := by
  induction l generalizing q with
  | nil => exact hI
  | cons a l ih =>
    obtain ⟨ha, hl⟩ := nodup_cons.mp hl
    rw [foldl_cons]
    split_ifs with hex
    · exact ih hl hI fun guid hm => hg guid (mem_cons_of_mem _ hm)
    · obtain ⟨hI', hother⟩ := hf q a hI (hg a mem_cons_self hex)
      refine ih hl hI' fun guid hm hne => ?_
      rw [hother guid (fun he => ha (he ▸ hm))]
      exact hg guid (mem_cons_of_mem _ hm) hne

theorem wired_addGroup {groupLimit leader : Nat} {grp : BgGroup} {excluded : List Nat} (h : q.Wired)
    (hb : j.bracketId < maxBattlegroundBrackets)
    (hg : ∀ guid ∈ grp.members, guid ∉ excluded → q.groupOf guid = none) :
    (q.addGroup team groupLimit j leader grp excluded).Wired := by
  have hnew := wired_newInfo h (team leader) j
  unfold addGroup
  simp only
  by_cases hlimit : grp.membersCount > groupLimit
  · -- the new group info stays empty
    simp only [if_pos hlimit]
    have hfold := foldl_enter excluded
      (I := fun q' => q'.Wired ∧ q.nextInfo < q'.nextInfo ∧ ∀ g, q'.groupOf g ≠ some q.nextInfo)
      (f := fun q guid => q.addSolo team { j with isPremade := false } guid) ?_ grp.nodup
      ⟨hnew, Nat.lt_succ_self _, ?_⟩ hg
    · obtain ⟨hw, -, hempty⟩ := hfold
      unfold pushGroup
      rw [if_pos]
      · exact hw
      · refine eq_nil_iff_forall_not_mem.mpr fun g hgm => ?_
        exact hempty g ((hw.member g _).mpr hgm)
    · rintro q' guid ⟨hw, hlt, hempty⟩ hguid
      refine ⟨⟨wired_addSolo hw hb hguid, ?_, fun g => ?_⟩, fun g hne => ?_⟩
      · show q.nextInfo < (pushGroup _ _ _ _).nextInfo
        unfold pushGroup
        split_ifs <;> exact Nat.lt_succ_of_lt hlt
      · rw [groupOf_addSolo]
        split_ifs
        · exact fun he => Nat.ne_of_gt hlt (some_inj.mp he)
        · exact hempty g
      · rw [groupOf_addSolo, if_neg hne]
    · intro g he
      have he : q.groupOf g = some q.nextInfo := he
      rw [h.member, playersOf, info, h.fresh _ (Nat.le_refl _)] at he
      cases he
  · simp only [if_neg hlimit]
    obtain ⟨hsome, hteam⟩ := infos_newInfo (q := q) (team leader) j
    have hfold := foldl_enter excluded
      (I := fun q' => q'.WiredBut (some q.nextInfo) ∧ (q'.infos q.nextInfo).isSome ∧
        (q'.info q.nextInfo).groupTeam = team leader)
      (f := queuePlayer q.nextInfo) ?_ grp.nodup
      ⟨.of_unlisted hnew (unlisted_newInfo h (team leader) j), hsome, hteam⟩ hg
    · obtain ⟨hw, hs, ht⟩ := hfold
      exact wired_pushGroup _ hw hs hb ht
    · rintro q' guid ⟨hw, hs, ht⟩ hguid
      obtain ⟨hs', ht'⟩ := infos_queuePlayer (q := q') (i := q.nextInfo) guid
      refine ⟨⟨wired_queuePlayer hw hs hguid, hs', ht'.trans ht⟩, fun g hne => ?_⟩
      rw [groupOf_queuePlayer, if_neg hne]

end Join

/-! ## A join that goes wrong -/

section Rejoin

variable {q : BgQueue} {i : Nat} {team : Nat → BgTeam} {j : BgJoin}

/-- A group info that is not in use has no players. -/
def Fresh (q : BgQueue) : Prop := ∀ i, q.nextInfo ≤ i → q.infos i = none

/-- Nobody leaves a group info. -/
def Later (q q' : BgQueue) : Prop :=
  q'.Fresh ∧ q.nextInfo ≤ q'.nextInfo ∧ ∀ g i, g ∈ q.playersOf i → g ∈ q'.playersOf i

theorem Later.trans {q' q'' : BgQueue} (h : Later q q') (h' : Later q' q'') : Later q q'' :=
  ⟨h'.1, h.2.1.trans h'.2.1, fun g i hg => h'.2.2 g i (h.2.2 g i hg)⟩

theorem later_newInfo (h : q.Fresh) (t : BgTeam) : Later q (q.newInfo t j) := by
  refine ⟨fun k hk => ?_, Nat.le_succ _, fun g k hg => ?_⟩
  · have hk : q.nextInfo + 1 ≤ k := hk
    show (q.setInfo q.nextInfo _).infos k = none
    rw [infos_setInfo, if_neg (by omega)]
    exact h k (by omega)
  · show g ∈ (q.setInfo q.nextInfo _).playersOf k
    rw [playersOf_setInfo, if_neg]
    · exact hg
    · rintro rfl
      rw [playersOf, info, h _ (Nat.le_refl _)] at hg
      cases hg

theorem later_queuePlayer (h : q.Fresh) (hi : i < q.nextInfo) (guid : Nat) :
    Later q (queuePlayer i q guid) ∧ guid ∈ (queuePlayer i q guid).playersOf i := by
  have hp : ∀ k, (queuePlayer i q guid).playersOf k = if k = i then
      (if guid ∈ q.playersOf i then q.playersOf i else q.playersOf i ++ [guid])
      else q.playersOf k := fun k => playersOf_setInfo q i _ k
  refine ⟨⟨fun k hk => ?_, Nat.le_refl _, fun g k hg => ?_⟩, ?_⟩
  · have hk : q.nextInfo ≤ k := hk
    show (q.setInfo i _).infos k = none
    rw [infos_setInfo, if_neg (by omega)]
    exact h k hk
  · rw [hp]
    split_ifs with hk hin
    · exact hk ▸ hg
    · exact mem_append_left _ (hk ▸ hg)
    · exact hg
  · rw [hp, if_pos rfl]
    split_ifs with hin
    · exact hin
    · simp

theorem later_pushGroup (h : q.Fresh) (b t i : Nat) : Later q (q.pushGroup b t i) := by
  unfold pushGroup
  split_ifs <;> exact ⟨h, Nat.le_refl _, fun _ _ hg => hg⟩

variable (team j) in
theorem later_addSolo (h : q.Fresh) (guid : Nat) :
    Later q (q.addSolo team j guid) ∧ guid ∈ (q.addSolo team j guid).playersOf q.nextInfo := by
  have hnew := later_newInfo (j := j) h (team guid)
  obtain ⟨hq, hmem⟩ := later_queuePlayer (i := q.nextInfo) hnew.1 (Nat.lt_succ_self _) guid
  have hpush := later_pushGroup hq.1 j.bracketId (typeIndex j.isPremade (team guid)) q.nextInfo
  exact ⟨(hnew.trans hq).trans hpush, hpush.2.2 _ _ hmem⟩

theorem foldl_later {f : BgQueue → Nat → BgQueue} (excluded : List Nat) {l : List Nat} {n : Nat}
    (hf : ∀ q guid, q.Fresh → n ≤ q.nextInfo →
      Later q (f q guid) ∧ ∃ k, n ≤ k + 1 ∧ guid ∈ (f q guid).playersOf k)
    (h : q.Fresh) (hn : n ≤ q.nextInfo) :
    Later q (l.foldl (fun q guid => if guid ∈ excluded then q else f q guid) q) ∧
      ∀ guid ∈ l, guid ∉ excluded → ∃ k, n ≤ k + 1 ∧
        guid ∈ (l.foldl (fun q guid => if guid ∈ excluded then q else f q guid) q).playersOf k := by
  induction l generalizing q with
  | nil => exact ⟨⟨h, Nat.le_refl _, fun _ _ hg => hg⟩, nofun⟩
  | cons a l ih =>
    rw [foldl_cons]
    split_ifs with hex
    · obtain ⟨hlater, hmem⟩ := ih h hn
      refine ⟨hlater, fun guid hm hne => ?_⟩
      obtain rfl | hm := mem_cons.mp hm
      · exact absurd hex hne
      · exact hmem guid hm hne
    · obtain ⟨ha, k, hk, hak⟩ := hf q a h hn
      obtain ⟨hlater, hmem⟩ := ih ha.1 (hn.trans ha.2.1)
      refine ⟨ha.trans hlater, fun guid hm hne => ?_⟩
      obtain rfl | hm := mem_cons.mp hm
      · exact ⟨k, hk, hlater.2.2 _ _ hak⟩
      · exact hmem guid hm hne

variable (team j) in
theorem later_addGroup (groupLimit leader : Nat) (grp : BgGroup) (excluded : List Nat)
    (h : q.Fresh) :
    Later q (q.addGroup team groupLimit j leader grp excluded) ∧
      ∀ guid ∈ grp.members, guid ∉ excluded → ∃ k, q.nextInfo ≤ k ∧
        guid ∈ (q.addGroup team groupLimit j leader grp excluded).playersOf k := by
  have hnew := later_newInfo (j := j) h (team leader)
  unfold addGroup
  simp only
  by_cases hlimit : grp.membersCount > groupLimit
  · simp only [if_pos hlimit]
    obtain ⟨hfold, hmem⟩ := foldl_later (n := q.nextInfo + 1) excluded
      (l := grp.members) (f := fun q guid => q.addSolo team { j with isPremade := false } guid)
      (fun q' guid hq' hn => by
        obtain ⟨hs, hg⟩ := later_addSolo team { j with isPremade := false } hq' guid
        exact ⟨hs, q'.nextInfo, by omega, hg⟩) hnew.1 (Nat.le_refl _)
    have hpush := later_pushGroup hfold.1 j.bracketId (typeIndex j.isPremade (team leader)) q.nextInfo
    refine ⟨(hnew.trans hfold).trans hpush, fun guid hm hne => ?_⟩
    obtain ⟨k, hk, hg⟩ := hmem guid hm hne
    exact ⟨k, by omega, hpush.2.2 _ _ hg⟩
  · simp only [if_neg hlimit]
    obtain ⟨hfold, hmem⟩ := foldl_later (n := q.nextInfo + 1) excluded
      (l := grp.members) (f := queuePlayer q.nextInfo)
      (fun q' guid hq' hn => by
        obtain ⟨hs, hg⟩ := later_queuePlayer (i := q.nextInfo) hq' hn guid
        exact ⟨hs, q.nextInfo, Nat.le_refl _, hg⟩) hnew.1 (Nat.le_refl _)
    have hpush := later_pushGroup hfold.1 j.bracketId (typeIndex j.isPremade (team leader)) q.nextInfo
    refine ⟨(hnew.trans hfold).trans hpush, fun guid hm hne => ?_⟩
    obtain ⟨k, hk, hg⟩ := hmem guid hm hne
    exact ⟨k, by omega, hpush.2.2 _ _ hg⟩

/-- A player who is in the queue and in a group info that is new is in two. -/
theorem not_consistent_of_later {q' : BgQueue} {guid k : Nat} (h : q.Wired) (hl : Later q q')
    (hg : q.groupOf guid ≠ none) (hk : q.nextInfo ≤ k) (hmem : guid ∈ q'.playersOf k) :
    ¬ q'.Consistent := by
  intro hc
  obtain ⟨i, hi⟩ := ne_none_iff_exists'.mp hg
  have hold : guid ∈ q.playersOf i := (h.member guid i).mp hi
  obtain rfl := hc.atMostOne guid i k (hl.2.2 _ _ hold) hmem
  rw [playersOf, info, h.fresh i hk] at hold
  cases hold

end Rejoin

/-! ## Leaving -/

section Leave

variable {q : BgQueue}

/-- The search finds the one place of a group info. -/
theorem findGroup_eq {i b t : Nat} (h : q.Wired) (hi : i ∈ q.queuedGroups b t) :
    q.findGroup i (q.info i).groupTeam = some (b, t) := by
  obtain ⟨hb, premade, ht⟩ := h.kind i b t hi
  have hsome : (q.findGroup i (q.info i).groupTeam).isSome := by
    unfold findGroup
    rw [findSome?_isSome_iff]
    refine ⟨b, by simpa using hb, ?_⟩
    rw [isSome_map, find?_isSome]
    refine ⟨t, ?_, by simpa using hi⟩
    rw [ht]
    cases premade <;> simp [typeIndex, Nat.add_comm]
  obtain ⟨x, hx⟩ := isSome_iff_exists.mp hsome
  obtain ⟨b', hb', hx'⟩ := exists_of_findSome?_eq_some hx
  obtain ⟨t', ht', rfl⟩ := map_eq_some_iff.mp hx'
  have hmem : i ∈ q.queuedGroups b' t' := by simpa using find?_some ht'
  obtain ⟨rfl, rfl⟩ := h.place i _ _ _ _ hi hmem
  exact hx

theorem playersOf_takeOut {o : Option Nat} {guid i : Nat} (h : q.WiredBut o)
    (hg : q.groupOf guid = some i) (j : Nat) :
    (q.takeOut guid i).playersOf j = (q.playersOf j).filter (· != guid) := by
  show (q.setInfo _ _).playersOf j = _
  rw [playersOf_setInfo]
  split_ifs with hj
  · rw [hj]
    rfl
  · refine (filter_eq_self.mpr fun g hgm => ?_).symm
    simp only [bne_iff_ne, ne_eq]
    rintro rfl
    rw [← h.member, hg] at hgm
    exact hj (some_inj.mp hgm).symm

theorem groupOf_takeOut (guid i g : Nat) :
    (q.takeOut guid i).groupOf g = if g = guid then none else q.groupOf g :=
  groupOf_erase (q.setInfo i _) guid g

theorem wired_takeOut {o : Option Nat} {guid i : Nat} (h : q.WiredBut o)
    (hsome : (q.infos i).isSome) (hg : q.groupOf guid = some i)
    (hi : o = some i ∨ (q.takeOut guid i).playersOf i ≠ []) : (q.takeOut guid i).WiredBut o := by
  have hp := playersOf_takeOut h hg
  have hinfos : ∀ j, j ≠ i → (q.takeOut guid i).infos j = q.infos j := fun j hj => if_neg hj
  have hteam : ∀ j, ((q.takeOut guid i).info j).groupTeam = (q.info j).groupTeam := by
    intro j
    show ((q.setInfo i _).info j).groupTeam = _
    rw [info_setInfo]
    split_ifs with hj
    · rw [hj]
      rfl
    · rfl
  exact
    { member := fun g j => by
        rw [groupOf_takeOut, hp, mem_filter, bne_iff_ne, ← h.member]
        split_ifs with hgg <;> simp [hgg]
      distinct := fun j => by rw [hp]; exact (h.distinct j).filter _
      home := fun j hj => by
        rw [hp] at hj
        refine h.home j fun he => hj ?_
        rw [he]
        rfl
      live := fun j b t hj => by
        refine ⟨?_, (h.live j b t hj).2⟩
        show ((q.setInfo i _).infos j).isSome
        rw [infos_setInfo]
        split_ifs
        · rfl
        · exact (h.live j b t hj).1
      occupied := fun j b t hj => by
        by_cases hji : j = i
        · subst hji
          exact hi.resolve_left (h.live j b t hj).2
        · rw [hp, filter_eq_self.mpr]
          · exact h.occupied j b t hj
          · intro g hgm
            rw [← h.member] at hgm
            simp only [bne_iff_ne, ne_eq]
            rintro rfl
            exact hji (some_inj.mp (hgm.symm.trans hg))
      kind := fun j b t hj => by rw [hteam]; exact h.kind j b t hj
      place := h.place
      nodup := h.nodup
      fresh := fun j hj => by
        have hnone : q.infos j = none := h.fresh j hj
        rw [hinfos, hnone]
        rintro rfl
        rw [hnone] at hsome
        cases hsome }

theorem wired_unlist {i b t : Nat} (h : q.Wired) (hi : i ∈ q.queuedGroups b t) :
    (q.setGroups b t ((q.queuedGroups b t).erase i)).WiredBut (some i) := by
  have hlist : ∀ j b' t', j ∈ (q.setGroups b t ((q.queuedGroups b t).erase i)).queuedGroups b' t' ↔
      j ∈ q.queuedGroups b' t' ∧ j ≠ i := by
    intro j b' t'
    rw [queuedGroups_setGroups]
    split_ifs with hbt
    · rw [hbt.1, hbt.2, (h.nodup b t).mem_erase_iff]
      exact and_comm
    · refine ⟨fun hj => ⟨hj, ?_⟩, And.left⟩
      rintro rfl
      exact hbt (h.place j _ _ _ _ hj hi)
  exact
    { member := h.member
      distinct := h.distinct
      home := fun j hj => by
        by_cases hji : j = i
        · exact .inl (congrArg some hji.symm)
        · obtain ⟨b', t', hl⟩ := (h.home j hj).resolve_left nofun
          exact .inr ⟨b', t', (hlist j b' t').mpr ⟨hl, hji⟩⟩
      live := fun j b' t' hj => by
        obtain ⟨hj, hne⟩ := (hlist j b' t').mp hj
        exact ⟨(h.live j b' t' hj).1, fun he => hne (some_inj.mp he).symm⟩
      occupied := fun j b' t' hj => h.occupied j b' t' ((hlist j b' t').mp hj).1
      kind := fun j b' t' hj => h.kind j b' t' ((hlist j b' t').mp hj).1
      place := fun j b₁ t₁ b₂ t₂ h₁ h₂ =>
        h.place j b₁ t₁ b₂ t₂ ((hlist j b₁ t₁).mp h₁).1 ((hlist j b₂ t₂).mp h₂).1
      nodup := fun b' t' => by
        rw [queuedGroups_setGroups]
        split_ifs
        · exact (h.nodup b t).erase i
        · exact h.nodup b' t'
      fresh := h.fresh }

/-- A group info that is in no list and has no players is deleted. -/
theorem wired_delete {i : Nat} (h : q.WiredBut (some i)) (hi : q.playersOf i = []) :
    (q.setInfo i none).Wired := by
  have hp : ∀ j, (q.setInfo i none).playersOf j = q.playersOf j := by
    intro j
    rw [playersOf_setInfo]
    split_ifs with hj
    · rw [hj, hi]
      rfl
    · rfl
  have hne : ∀ j b t, j ∈ q.queuedGroups b t → j ≠ i := by
    rintro j b t hj rfl
    exact (h.live j b t hj).2 rfl
  have hw := h.wired hi
  exact
    { hw with
      member := fun g j => by rw [hp]; exact hw.member g j
      distinct := fun j => by rw [hp]; exact hw.distinct j
      home := fun j hj => by rw [hp] at hj; exact hw.home j hj
      live := fun j b t hj => by
        rw [infos_setInfo, if_neg (hne j b t hj)]
        exact hw.live j b t hj
      occupied := fun j b t hj => by rw [hp]; exact hw.occupied j b t hj
      kind := fun j b t hj => by
        rw [info_setInfo, if_neg (hne j b t hj)]
        exact hw.kind j b t hj
      fresh := fun j hj => by
        rw [infos_setInfo]
        split_ifs
        · rfl
        · exact hw.fresh j hj }

/-- A player goes from the map and from his group, which goes with the last one. -/
theorem wired_removePlayer (h : q.Wired) (guid : Nat) : (q.removePlayer guid).Wired := by
  unfold removePlayer
  cases hg : q.groupOf guid with
  | none => exact h
  | some i =>
    have hmem : guid ∈ q.playersOf i := (h.member _ _).mp hg
    obtain ⟨b, t, hbt⟩ := (h.home _ (ne_nil_of_mem hmem)).resolve_left nofun
    have hsome := (h.live i b t hbt).1
    simp only [findGroup_eq h hbt]
    split_ifs with he
    · exact wired_delete (wired_takeOut (wired_unlist h hbt) hsome hg (.inl rfl)) he
    · exact wired_takeOut h hsome hg (.inr he)

end Leave

/-! ## An update -/

/-- A premade group goes to the normal groups of its team. -/
theorem wired_moveToNormal {q : BgQueue} (cfg : BgConfig) (m : BgMoment) (b minPlayers : Nat)
    (h : q.Wired) (t : BgTeam) : (moveToNormal cfg m b minPlayers q t).Wired := by
  unfold moveToNormal
  cases hl : q.premadeGroups b t with
  | nil => exact h
  | cons i rest =>
    simp only
    split_ifs with hripe
    · have hi : i ∈ q.queuedGroups b (typeIndex true t) := by
        show i ∈ q.premadeGroups b t
        rw [hl]
        exact mem_cons_self
      obtain ⟨hb, premade, hkind⟩ := h.kind i _ _ hi
      have hunlist := wired_unlist h hi
      have herase : (q.queuedGroups b (typeIndex true t)).erase i = rest := by
        show (q.premadeGroups b t).erase i = rest
        rw [hl, erase_cons_head]
      rw [herase] at hunlist
      have hpush := wired_pushGroup false hunlist (h.live i _ _ hi).1 hb
        (typeIndex_injective hkind).2.symm
      have hne : typeIndex false t ≠ typeIndex true t := fun he => nomatch (typeIndex_injective he).1
      rw [pushGroup, playersOf_setGroups, if_neg (h.occupied i _ _ hi)] at hpush
      have heq : (q.setGroups b (typeIndex false t) (q.normalGroups b t ++ [i])).setGroups b
          (typeIndex true t) rest = (q.setGroups b (typeIndex true t) rest).setGroups b
          (typeIndex false t) ((q.setGroups b (typeIndex true t) rest).queuedGroups b
          (typeIndex false t) ++ [i]) := by
        rw [queuedGroups_setGroups, if_neg (fun he => hne he.2)]
        unfold setGroups normalGroups
        congr 1
        funext b' t'
        by_cases h₁ : t' = typeIndex true t
        · subst h₁
          simp [hne.symm]
        · simp [h₁]
      rw [heq]
      exact hpush
    · exact h

theorem wired_checkPremadeMatch {q : BgQueue} (cfg : BgConfig) (m : BgMoment)
    (b minPlayers maxPlayers : Nat) (pools : SelectionPools) (h : q.Wired) :
    (q.checkPremadeMatch cfg m b minPlayers maxPlayers pools).2.2.Wired := by
  unfold checkPremadeMatch
  simp only
  split_ifs
  · exact h
  · exact wired_moveToNormal cfg m b minPlayers (wired_moveToNormal cfg m b minPlayers h _) _

end BgQueue

namespace BgOutcome

open BgQueue

theorem foldl_reshaped {α : Type} {f : BgOutcome → α → BgOutcome}
    (h : ∀ o a, Reshaped o.queue (f o a).queue) (o : BgOutcome) (l : List α) :
    Reshaped o.queue (l.foldl f o).queue := by
  induction l generalizing o with
  | nil => exact .refl _
  | cons a l ih => exact (h o a).trans (ih (f o a))

theorem reshaped_inviteGroupToBG (m : BgMoment) (instanceId : Nat) (o : BgOutcome) (i : Nat) :
    Reshaped o.queue (o.inviteGroupToBG m instanceId i).queue := by
  unfold inviteGroupToBG
  cases h : o.queue.infos i with
  | none => exact .refl _
  | some gi =>
    simp only
    split_ifs
    · exact .refl _
    · exact .of_setInfo h rfl rfl

theorem reshaped_inviteAllGroups (m : BgMoment) (pools : SelectionPools) (instanceId : Nat)
    (o : BgOutcome) : Reshaped o.queue (o.inviteAllGroups m pools instanceId).queue :=
  foldl_reshaped (fun o i => reshaped_inviteGroupToBG m instanceId o i) o _

theorem reshaped_start (m : BgMoment) (mt : BgMatch) (instanceId : Nat) (o : BgOutcome) :
    Reshaped o.queue (o.start m mt instanceId).queue :=
  reshaped_inviteAllGroups m mt.pools instanceId { o with started := o.started ++ [mt] }

theorem reshaped_shuffleNormal (m : BgMoment) (call b : Nat) (upTo : Option Nat) (q : BgQueue) :
    Reshaped q (shuffleNormal m call b upTo q) := by
  refine Reshaped.foldl (fun q t => .of_setGroups ?_) q _
  refine ((m.shuffle_perm _ _).append_right _).trans ?_
  rw [take_append_drop]
  exact .refl _

theorem reshaped_refill (cfg : BgConfig) (m : BgMoment) (type : BgType) (b : Nat) (o : BgOutcome) :
    Reshaped o.queue (refill cfg m type b o).queue := by
  unfold refill fillRunning
  refine Reshaped.trans ?_
    (foldl_reshaped (fun o (bg : BgRunning) => reshaped_inviteAllGroups m _ bg.instanceId o) _ _)
  split_ifs
  · exact reshaped_shuffleNormal m 0 b none o.queue
  · exact .refl _

theorem reshaped_avShuffle (cfg : BgConfig) (m : BgMoment) (type : BgType) (b : Nat) (q : BgQueue) :
    Reshaped q (avShuffle cfg m type b q) := by
  unfold avShuffle
  split_ifs
  · exact reshaped_shuffleNormal m 2 b _ q
  · exact .refl q

theorem reshaped_normalMatches (cfg : BgConfig) (m : BgMoment) (b minPlayers maxPlayers : Nat)
    (tries : List Nat) (pools : SelectionPools) (o : BgOutcome) :
    Reshaped o.queue (normalMatches cfg m b minPlayers maxPlayers tries pools o).queue := by
  induction tries generalizing pools o with
  | nil => exact .refl _
  | cons a rest ih =>
    unfold normalMatches
    split
    · exact ih _ o
    · cases m.newInstance a with
      | none => exact .refl _
      | some instanceId => exact (reshaped_start m _ instanceId o).trans (ih _ _)

theorem wired_removeExpired (m : BgMoment) (fuel : Nat) {o : BgOutcome} (h : o.queue.Wired) :
    (removeExpired m fuel o).queue.Wired := by
  induction fuel generalizing o with
  | zero => exact h
  | succ fuel ih =>
    unfold removeExpired
    split
    · exact h
    · exact ih (wired_removePlayer h _)

/-- So do the matches it starts. -/
theorem wired_makeMatches (cfg : BgConfig) (m : BgMoment) (b minPlayers maxPlayers tries : Nat)
    {o : BgOutcome} (h : o.queue.Wired) :
    (o.makeMatches cfg m b minPlayers maxPlayers tries).queue.Wired := by
  unfold makeMatches
  have hcheck := wired_checkPremadeMatch cfg m b minPlayers maxPlayers (fun _ => {}) h
  split
  · next heq =>
    rw [heq] at hcheck
    exact (reshaped_normalMatches cfg m b _ _ _ _ _).wired hcheck
  · cases m.newInstance 0 with
    | none => exact h
    | some instanceId =>
      exact ((reshaped_start m _ instanceId o).trans
        (reshaped_normalMatches cfg m b _ _ _ _ _)).wired h

end BgOutcome

open BgOutcome in
/-- An update keeps map and groups wired. -/
theorem BgQueue.wired_update (cfg : BgConfig) (tmpl : Option BgTemplate) (m : BgMoment)
    {q : BgQueue} (type : BgType) (b : Nat) (h : q.Wired) :
    (q.update cfg tmpl m type b).queue.Wired := by
  have hexp := wired_removeExpired m q.queuedPlayers.entries.length (o := { queue := q }) h
  unfold BgQueue.update
  simp only
  split_ifs
  · exact hexp
  · have hrefill := (reshaped_refill cfg m type b _).wired hexp
    cases tmpl with
    | none => exact hrefill
    | some tmpl =>
      exact wired_makeMatches cfg m b _ _ _ ((reshaped_avShuffle cfg m type b _).wired hrefill)

/-! ## The world -/

namespace BgWorld

open BgQueue

/-- Nobody whom a join lets in is in the queue already. -/
def Kept (s : BgSetup) (w : BgWorld) (i : Input) : Prop :=
  ∀ e, w.entry s i = some e → ∀ guid ∈ e.guids, (w.queues e.join.bgTypeId).groupOf guid = none

instance (s : BgSetup) (w : BgWorld) (i : Input) : Decidable (w.Kept s i) := by
  unfold Kept
  infer_instance

def AllWired (w : BgWorld) : Prop := ∀ type, (w.queues type).Wired

variable {s : BgSetup} {w : BgWorld}

theorem AllWired.setQueue (h : w.AllWired) {type : BgType} {q : BgQueue}
    (hq : q.Wired) : (w.setQueue type q).AllWired := by
  intro type'
  show (Function.update w.queues type q type').Wired
  by_cases ht : type' = type
  · rw [ht, Function.update_self]
    exact hq
  · rw [Function.update_of_ne ht]
    exact h type'

/-- A write to players does not change a queue. -/
theorem queues_foldl_mapPlayer {α : Type} (guid : α → Nat) (f : α → BgPlayer → BgPlayer)
    (l : List α) (w : BgWorld) :
    (l.foldl (fun w a => w.mapPlayer (guid a) (f a)) w).queues = w.queues := by
  induction l generalizing w with
  | nil => rfl
  | cons a l ih => exact ih _

theorem bracketFromLevel_lt {type : BgType} {level bracket : Nat}
    (h : s.bracketFromLevel type level = some bracket) : bracket < maxBattlegroundBrackets := by
  unfold BgSetup.bracketFromLevel at h
  obtain ⟨bg, -, h⟩ := bind_eq_some_iff.mp h
  split_ifs at h <;> simp only [some.injEq] at h <;> subst h <;> simp [maxBattlegroundBrackets]

/-- Who enters was in no group of the queue. -/
theorem AllWired.enter {e : Entry} (h : w.AllWired)
    (hb : e.join.bracketId < maxBattlegroundBrackets)
    (hg : ∀ guid ∈ e.guids, (w.queues e.join.bgTypeId).groupOf guid = none) :
    (w.enter s e).AllWired := by
  intro type
  unfold BgWorld.enter
  simp only
  rw [queues_foldl_mapPlayer (fun guid => guid)]
  refine h.setQueue ?_ type
  unfold Entry.guids at hg
  cases hgrp : e.grp with
  | none =>
    rw [hgrp] at hg
    exact wired_addSolo (h _) hb (hg _ (mem_singleton_self _))
  | some grp =>
    rw [hgrp] at hg
    exact wired_addGroup (h _) hb fun guid hm hex => hg guid (mem_filter.mpr ⟨hm, by simpa using hex⟩)

theorem bracketId_battlemasterEntry {m : BgMoment} {guid : Nat}
    {p : BgJoinPacket} {e : Entry} (h : w.battlemasterEntry s m guid p = some e) :
    e.join.bracketId < maxBattlegroundBrackets := by
  unfold battlemasterEntry at h
  obtain ⟨me, -, h⟩ := bind_eq_some_iff.mp h
  obtain ⟨pl, -, h⟩ := bind_eq_some_iff.mp h
  simp only at h
  split at h
  · exact absurd h.symm (some_ne_none e)
  · obtain ⟨bg, -, h⟩ := bind_eq_some_iff.mp h
    obtain ⟨bracket, hb, h⟩ := bind_eq_some_iff.mp h
    have hlt := bracketFromLevel_lt hb
    split at h
    · obtain ⟨grp, -, h⟩ := bind_eq_some_iff.mp h
      obtain ⟨excluded, -, h⟩ := bind_eq_some_iff.mp h
      obtain rfl := some_inj.mp h
      exact hlt
    · split_ifs at h
      obtain rfl := some_inj.mp h
      exact hlt

theorem bracketId_arenaEntry {m : BgMoment} {guid : Nat}
    {asGroup : Bool} {e : Entry} (h : w.arenaEntry s m guid asGroup = some e) :
    e.join.bracketId < maxBattlegroundBrackets := by
  unfold arenaEntry at h
  obtain ⟨me, -, h⟩ := bind_eq_some_iff.mp h
  obtain ⟨pl, -, h⟩ := bind_eq_some_iff.mp h
  split at h
  · exact absurd h.symm (some_ne_none e)
  · obtain ⟨bracket, hb, h⟩ := bind_eq_some_iff.mp h
    simp only at h
    split at h
    · obtain rfl := some_inj.mp h
      exact bracketFromLevel_lt hb
    · obtain ⟨excluded, -, h⟩ := bind_eq_some_iff.mp h
      obtain rfl := some_inj.mp h
      exact bracketFromLevel_lt hb

section Step

variable {w : BgWorld} (h : w.AllWired)

include h

theorem AllWired.removeFromQueue (type : BgType) (guid : Nat) :
    (w.removeFromQueue type guid).AllWired :=
  h.setQueue (wired_removePlayer (h type) guid)

theorem AllWired.port (s : BgSetup) (m : BgMoment) (guid : Nat) (p : BgPortPacket) :
    (w.handleBattleFieldPort s m guid p).AllWired := by
  unfold handleBattleFieldPort
  split
  · simp only
    split
    · exact h
    · split
      · split_ifs
        · cases p.currentBg with
          | none => exact h.removeFromQueue p.bgType guid
          | some type => exact h.removeFromQueue p.bgType guid
        · exact h
      · exact AllWired.removeFromQueue (w := w.mapPlayer guid _) h p.bgType guid
      · exact h
  · exact h

theorem AllWired.playerLoggedIn (guid level : Nat) : (w.playerLoggedIn guid level).AllWired := by
  unfold BgWorld.playerLoggedIn
  generalize hw' : ({ w with players := _ } : BgWorld) = w'
  have h' : w'.AllWired := hw' ▸ h
  clear hw'
  induction loginQueues generalizing w' with
  | nil => exact h'
  | cons type rest ih =>
    rw [foldl_cons]
    refine ih _ ?_
    simp only
    split
    · exact h'
    · exact h'.setQueue ((reshaped_playerLoggedIn _ guid).wired (h' type))

/-- A request removes one player. -/
theorem AllWired.processRequest {s : BgSetup} {m : BgMoment}
    (hk : w.Kept s (.processRequest m)) : (w.processRequest s m).AllWired := by
  have hrest : ({ w with requests := w.requests.tail } : BgWorld).AllWired := h
  unfold BgWorld.processRequest
  simp only
  split
  · -- an invitation has run out
    unfold processQueueInviteRemoval
    split_ifs
    · exact AllWired.removeFromQueue
        (w := ({ w with requests := w.requests.tail } : BgWorld).mapPlayer _ _) h _ _
    · exact hrest
  · exact hrest.setQueue ((reshaped_playerLoggedOut _ _ m.now).wired (h _))
  · unfold processQueueBracketCleanup
    split
    · exact hrest
    · split_ifs
      · exact hrest.removeFromQueue _ _
      · exact hrest
  · next hreq =>
    cases he : w.requestEntry s m with
    | none => exact hrest
    | some e =>
      refine AllWired.enter (w := { w with requests := w.requests.tail }) hrest ?_ (hk e he)
      unfold requestEntry at he
      rw [hreq] at he
      exact bracketId_arenaEntry he
  · exact h

end Step

/-- What one step keeps. -/
theorem step_wired (w : BgWorld) (i : Input) (h : w.AllWired) (hk : w.Kept s i) :
    (step s w i).AllWired := by
  cases i with
  | join m guid p =>
    simp only [step]
    cases he : w.battlemasterEntry s m guid p with
    | none => exact h
    | some e => exact h.enter (bracketId_battlemasterEntry he) (hk e he)
  | addToArenaQueue guid asGroup =>
    show (w.addToArenaQueue guid asGroup).AllWired
    unfold addToArenaQueue
    split_ifs <;> exact h
  | port m guid p => exact h.port s m guid p
  | inviteTimeout guid instanceId type removeTime => exact h
  | logout guid =>
    show (w.playerLoggedOut guid).AllWired
    unfold playerLoggedOut
    split <;> exact h
  | login guid level => exact h.playerLoggedIn guid level
  | giveLevel guid level =>
    show (w.giveLevel s guid level).AllWired
    unfold giveLevel
    split <;> exact h
  | leaveBattleground guid type => exact h
  | processRequest m => exact h.processRequest hk
  | update m type bracket =>
    have hq : (w.setQueue type ((w.queues type).update s.cfg (s.template type) m type bracket).queue
        ).AllWired := h.setQueue (wired_update s.cfg _ m type bracket (h type))
    intro type'
    show ((BgWorld.updateQueue s m w type bracket).queues type').Wired
    unfold updateQueue
    simp only
    rw [queues_foldl_mapPlayer (fun x : Nat × Nat => x.1),
      queues_foldl_mapPlayer (fun guid : Nat => guid)]
    exact hq type'

/-- A join that lets in somebody who is in the queue still leaves it inconsistent. -/
theorem enter_not_consistent {e : Entry} (h : w.AllWired)
    (hk : ¬ ∀ guid ∈ e.guids, (w.queues e.join.bgTypeId).groupOf guid = none) :
    ¬ ((w.enter s e).queues e.join.bgTypeId).Consistent := by
  push Not at hk
  obtain ⟨guid, hm, hg⟩ := hk
  unfold BgWorld.enter
  simp only
  rw [queues_foldl_mapPlayer (fun guid => guid)]
  show ¬ (Function.update w.queues e.join.bgTypeId _ e.join.bgTypeId).Consistent
  rw [Function.update_self]
  unfold Entry.guids at hm
  cases hgrp : e.grp with
  | none =>
    rw [hgrp] at hm
    obtain rfl := mem_singleton.mp hm
    obtain ⟨hl, hmem⟩ := later_addSolo s.team e.join (h e.join.bgTypeId).fresh e.leader
    exact not_consistent_of_later (h _) hl hg (Nat.le_refl _) hmem
  | some grp =>
    rw [hgrp] at hm
    obtain ⟨hm, hne⟩ := mem_filter.mp hm
    obtain ⟨hl, hmem⟩ := later_addGroup s.team e.join s.cfg.groupLimit e.leader grp e.excluded

      (h e.join.bgTypeId).fresh
    obtain ⟨k, hk, hmem⟩ := hmem guid hm (by simpa using hne)
    exact not_consistent_of_later (h _) hl hg hk hmem

/-- Nothing else does. -/
theorem step_consistent_iff (i : Input) (h : w.AllWired) :
    (∀ type, ((step s w i).queues type).Consistent) ↔ w.Kept s i := by
  constructor
  · intro hc e he
    by_contra hk
    cases i with
    | join m guid p =>
      have he' : w.battlemasterEntry s m guid p = some e := he
      have hc := hc e.join.bgTypeId
      simp only [step, he'] at hc
      exact enter_not_consistent h hk hc
    | processRequest m =>
      have he' : w.requestEntry s m = some e := he
      obtain ⟨guid, asGroup, rest, hreq⟩ : ∃ guid asGroup rest,
          w.requests = .arenaJoin guid asGroup :: rest := by
        unfold requestEntry at he'
        split at he'
        · next hreq => exact ⟨_, _, _, hreq⟩
        · cases he'
      have hc := hc e.join.bgTypeId
      simp only [step, BgWorld.processRequest, hreq, he'] at hc
      exact enter_not_consistent (w := { w with requests := rest }) h hk hc
    | _ => cases he
  · intro hk type
    exact (step_wired w i h hk type).consistent

/-- The queues of every state of a run are consistent when no join of the run lets in somebody who is
in the queue still, and only then. -/
theorem run_consistent_iff (s : BgSetup) (is : List Input) :
    AlongRun (step s) (fun w i => ∀ type, ((step s w i).queues type).Consistent) {} is ↔
      AlongRun (step s) (fun w i => w.Kept s i) {} is := by
  have hempty : ({} : BgWorld).AllWired := fun _ => wired_empty
  constructor
  · refine AlongRun.imp (I := AllWired) (fun w i hw hc => ?_) hempty
    have hk := (step_consistent_iff i hw).mp hc
    exact ⟨hk, step_wired w i hw hk⟩
  · refine AlongRun.imp (I := AllWired) (fun w i hw hk => ?_) hempty
    exact ⟨(step_consistent_iff i hw).mpr hk, step_wired w i hw hk⟩

/-- Groups are queued, one player leaves the queue, one comes back after a logout. -/
example :
    let s : BgSetup := { template := fun _ => some ⟨4, 10, 10⟩, team := fun _ => .horde }
    let m : BgMoment :=
      { player := fun _ => some {}, group := fun _ => some ⟨1, [1, 2], by decide, 2⟩ }
    let is : List Input := [.login 1 20, .login 2 20, .login 3 20,
      .join m 1 { bgType := .ws, joinAsGroup := true }, .join m 3 { bgType := .ws }, .logout 2,
      .processRequest m, .login 2 20, .port m 1 ⟨.ws, 0, false, false, false, none⟩,
      .update m .ws 1]
    AlongRun (step s) (fun w i => w.Kept s i) {} is ∧
      ((run (step s) {} is).queues .ws).queuedGroups 1 3 = [0, 1] := by decide +kernel

/-- A player in the queue of a battleground logs in again and joins again: two group infos have
him. -/
theorem rejoin_not_consistent : ¬ ∀ (s : BgSetup) (is : List Input),
    AlongRun (step s) (fun w i => ∀ type, ((step s w i).queues type).Consistent) {} is := by
  intro h
  have h := h { template := fun _ => some ⟨4, 10, 10⟩, team := fun _ => .horde }
    [.login 1 60, .join { player := fun _ => some {} } 1 { bgType := .sv }, .logout 1, .login 1 60,
      .join { player := fun _ => some {} } 1 { bgType := .sv }]
  have hc := h.2.2.2.2.1 .sv
  exact absurd (hc.atMostOne 1 0 1 (by decide +kernel) (by decide +kernel)) (by decide)

end BgWorld

end Windrunner
