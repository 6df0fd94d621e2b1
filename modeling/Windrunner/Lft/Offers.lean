import Windrunner.Lft.State

/-!
# Offers and the players they bind

`m_playerOffers` is an index of the offers: it should name, for a player, the offer he is in.

* `Selected`: what the search for five players keeps true of its selection; `selectPlayers_spec` is
  what an offer starts with.
* `Moves`: what a call does before it searches. `step_cases` says that each call is such a move and
  maybe a search.
* `IdsFresh`: no id that the call could hand out is in use. `tryMakeOffers_keeps` is the rule for
  the search.
* `Booked`: the index and the offers agree, and every offer is for a full party. `booked_of_run`: so
  it stays as long as no id is handed out that is in use.
-/

namespace Windrunner.LftManager

open Lib List Option
open SortedMap hiding contains

variable {w : LftWorld} {s s' : LftManager} {instanceName : Text} {seed : QueuedPlayer}
  {guid g id : Nat} {offer : Offer}

/-! ## The search -/

/-- The number of players with a role. -/
def roleCount (roles : SortedMap Nat UInt8) (role : UInt8) : Nat :=
  roles.entries.countP (·.2 == role)

/-- A new player counts for the role he gets. -/
theorem roleCount_insert {roles : SortedMap Nat UInt8} (h : roles.find guid = none)
    (role role' : UInt8) :
    roleCount (roles.insert guid role) role' =
      roleCount roles role' + if role = role' then 1 else 0 := by
  unfold roleCount
  rw [(entries_insert h role).countP_eq, countP_cons]
  simp only [beq_iff_eq]

/-- The three roles. -/
def IsRole (role : UInt8) : Prop := role = roleTank ∨ role = roleHealer ∨ role = roleDamage

/-- A role that is picked is in the mask. -/
theorem pickRole_spec {mask : UInt8} {t h d : Nat} (hr : pickRole mask t h d ≠ 0) :
    IsRole (pickRole mask t h d) ∧ mask &&& pickRole mask t h d ≠ 0 := by
  unfold pickRole at hr ⊢
  unfold IsRole
  -- a tank is picked before a healer, a healer before damage
  split_ifs at hr ⊢ with h1 h2 h3
  · exact ⟨Or.inl rfl, h1.1⟩
  · exact ⟨Or.inr (Or.inl rfl), h2.1⟩
  · exact ⟨Or.inr (Or.inr rfl), h3.1⟩
  · exact absurd rfl hr

/-- The player waits for the instance, is in no offer, and can take the role. -/
def Available (s : LftManager) (instanceName : Text) (guid : Nat) (role : UInt8) : Prop :=
  IsRole role ∧ s.playerOffers.find guid = none ∧
    ∃ q, s.queue.find guid = some q ∧ instanceName ∈ q.instances ∧ q.roleMask &&& role ≠ 0

/-- The selected players are available, and the counts are those of their roles. -/
structure Selected (s : LftManager) (instanceName : Text) (c : Selection) : Prop where
  available : ∀ guid role, c.roles.find guid = some role → Available s instanceName guid role
  tanks : roleCount c.roles roleTank = c.tanks
  healers : roleCount c.roles roleHealer = c.healers
  damage : roleCount c.roles roleDamage = c.damage

theorem Selected.empty : Selected s instanceName {} :=
  ⟨fun _ _ h => (nomatch h), rfl, rfl, rfl⟩

/-- An available player may join the selection. -/
theorem Selected.add {c : Selection} (h : Selected s instanceName c) {role : UInt8}
    (hnew : c.roles.find guid = none) (ha : Available s instanceName guid role) :
    Selected s instanceName (c.add guid role) := by
  refine ⟨fun g r hg => ?_, ?_, ?_, ?_⟩
  · rw [Selection.add, find_insert] at hg
    split at hg
    case isTrue he =>
      obtain rfl := some.inj hg
      rw [he]
      exact ha
    case isFalse => exact h.available g r hg
  · show roleCount (c.roles.insert guid role) roleTank = if role = roleTank then _ else _
    rw [roleCount_insert hnew, h.tanks]
    split <;> rfl
  · show roleCount (c.roles.insert guid role) roleHealer = if role = roleHealer then _ else _
    rw [roleCount_insert hnew, h.healers]
    split <;> rfl
  · show roleCount (c.roles.insert guid role) roleDamage = if role = roleDamage then _ else _
    rw [roleCount_insert hnew, h.damage]
    split <;> rfl

/-- The four tests of the search, each by itself. -/
theorem fits_iff {selected : Selection} {q : QueuedPlayer} :
    fits w s instanceName seed selected guid q = true ↔
      selected.roles.find guid = none ∧ s.playerOffers.find guid = none ∧
        instanceName ∈ q.instances ∧ canQueuedPlayersGroup w seed q = true := by
  simp only [fits, SortedMap.contains, Bool.and_eq_true, Bool.not_eq_true',
    isSome_eq_false_iff, isNone_iff_eq_none, contains_iff_mem, and_assoc]

/-- A member of the party who is placed: he is available for the role he gets. -/
theorem placeMember_some {selected c c' : Selection}
    (h : placeMember w s instanceName seed selected c guid = some c') :
    selected.roles.find guid = none ∧
      ∃ role, Available s instanceName guid role ∧ c' = c.add guid role := by
  unfold placeMember at h
  split at h
  case h_1 => cases h
  case h_2 q hq =>
    split at h
    case isFalse => cases h
    case isTrue hfits =>
      obtain ⟨hsel, hfree, hinst, -⟩ := fits_iff.mp hfits
      dsimp only at h
      split at h
      case isTrue => cases h
      case isFalse hrole =>
        obtain ⟨hr, hmask⟩ := pickRole_spec hrole
        exact ⟨hsel, _, ⟨hr, hfree, q, hq, hinst, hmask⟩, (some.inj h).symm⟩

/-- A party that fits is added to the selection as a whole. -/
theorem Selected.party {selected : Selection} {block : List Nat} (hnd : block.Nodup) :
    ∀ {c c' : Selection}, Selected s instanceName c →
      (∀ g ∈ block, c.roles.find g = selected.roles.find g) →
      block.foldlM (placeMember w s instanceName seed selected) c = some c' →
      Selected s instanceName c' := by
  induction block with
  | nil =>
    intro c c' hc _ h
    obtain rfl := some.inj h
    exact hc
  | cons guid block ih =>
    intro c c' hc hsame h
    obtain ⟨hnot, hnd⟩ := nodup_cons.mp hnd
    rw [foldlM_cons] at h
    obtain ⟨c1, h1, h2⟩ := bind_eq_some_iff.mp h
    obtain ⟨hsel, role, ha, rfl⟩ := placeMember_some h1
    have hnew : c.roles.find guid = none := (hsame guid mem_cons_self).trans hsel
    -- the others of the party are still where the selection had them
    refine ih hnd (hc.add hnew ha) (fun g hg => ?_) h2
    have hne : g ≠ guid := fun he => hnot (he ▸ hg)
    rw [Selection.add, find_insert, if_neg hne]
    exact hsame g (mem_cons_of_mem _ hg)

/-- Nobody is twice in the order of the queue. -/
theorem getQueueOrder_nodup (s : LftManager) : (getQueueOrder s).Nodup := by
  unfold getQueueOrder
  refine ((perm_insertionSort _ _).map _).nodup_iff.mpr ?_
  exact s.queue.keys_nodup

/-- A candidate is taken with his whole party, or the selection stays. -/
theorem Selected.candidate {selected : Selection} {order : List Nat} (hnd : order.Nodup)
    (h : Selected s instanceName selected) (candidate : Nat) :
    Selected s instanceName (addCandidate w s instanceName seed order selected candidate) := by
  unfold addCandidate
  split
  -- five are selected already
  case isTrue => exact h
  split
  case h_1 => exact h
  split
  case isFalse => exact h
  dsimp only
  split
  case h_1 => exact h
  case h_2 q _ _ all hall =>
    split
    case isTrue => exact h
    case isFalse => exact h.party (hnd.sublist filter_sublist) (fun _ _ => rfl) hall

/-- Five players, a tank, a healer and three for damage. -/
structure FullParty (roles : SortedMap Nat UInt8) : Prop where
  size : roles.entries.length = 5
  tank : roleCount roles roleTank = 1
  healer : roleCount roles roleHealer = 1
  damage : roleCount roles roleDamage = 3

/-- Five players are found only as a full party of available ones. -/
theorem selectPlayers_spec {roles : SortedMap Nat UInt8}
    (h : selectPlayers w s instanceName = some roles) :
    FullParty roles ∧
      ∀ guid role, roles.find guid = some role → Available s instanceName guid role := by
  unfold selectPlayers at h
  obtain ⟨seedGuid, -, h⟩ := exists_of_findSome?_eq_some h
  split at h
  case h_1 => cases h
  case h_2 seed _ =>
    split at h
    case isTrue => cases h
    case isFalse =>
      dsimp only at h
      split at h
      case isFalse => cases h
      case isTrue hfull =>
        obtain rfl := some.inj h
        -- every selection on the way is one of available players
        have hsel : ∀ (l : List Nat) (c : Selection), Selected s instanceName c →
            Selected s instanceName
              (l.foldl (addCandidate w s instanceName seed (getQueueOrder s)) c) := by
          intro l
          induction l with
          | nil => exact fun _ hc => hc
          | cons a l ih => exact fun c hc => ih _ (hc.candidate (getQueueOrder_nodup s) a)
        have hc := hsel (getQueueOrder s) {} Selected.empty
        obtain ⟨h1, h2, h3, h4⟩ := hfull
        exact ⟨⟨h4, hc.tanks.trans h1, hc.healers.trans h2, hc.damage.trans h3⟩, hc.available⟩

/-! ## What the loops leave -/

section Loops

variable {requeue : Bool} {remove : Nat} {others : Bool}

/-- The loop of `CancelOffer` as one update of the index and one of the queue. -/
theorem foldl_release (offer : Offer) (l : List Nat) (s : LftManager) :
    l.foldl (releaseMember requeue remove others offer) s =
      { s with
        playerOffers := l.foldl erase s.playerOffers
        queue := l.foldl (fun queue guid =>
          if requeue && guid != remove && (others || offer.accepted.contains guid) then
            queue.modify guid fun q => { q with assignedRole := pickRole q.roleMask 0 0 0 }
          else queue.erase guid) s.queue } := by
  induction l generalizing s with
  | nil => rfl
  | cons guid l ih => exact ih _

/-- The loop of a new offer likewise. -/
theorem foldl_bind (offerId : Nat) (l : List (Nat × UInt8)) (s : LftManager) :
    l.foldl (bindPlayer offerId) s =
      { s with
        queue := l.foldl (fun queue x =>
          queue.insert x.1 { (queue.find x.1).getD {} with assignedRole := x.2 }) s.queue
        playerOffers := l.foldl (fun m x => m.insert x.1 offerId) s.playerOffers } := by
  induction l generalizing s with
  | nil => rfl
  | cons x l ih => exact ih _

theorem find_erase_some {β : Type} {m : SortedMap Nat β} {a g : Nat} {b : β}
    (h : (m.erase a).find g = some b) : m.find g = some b := by
  rw [find_erase] at h
  split at h
  case isTrue => cases h
  case isFalse => exact h

/-- What is erased one after the other is gone, and nothing else. -/
theorem find_foldl_erase {β : Type} (l : List Nat) (m : SortedMap Nat β) (g : Nat) :
    (l.foldl erase m).find g = if g ∈ l then none else m.find g := by
  induction l generalizing m with
  | nil => rw [if_neg not_mem_nil, foldl_nil]
  | cons a l ih =>
    rw [foldl_cons, ih, find_erase]
    by_cases hg : g = a
    · simp only [hg, mem_cons, true_or, if_true, ite_self]
    · simp only [hg, mem_cons, false_or, if_false]

/-- The entry of a player who is let go of: his own, with another assigned role, or none. -/
def Keeps (old new : Option QueuedPlayer) : Prop :=
  ∀ q, new = some q → ∃ q0, old = some q0 ∧ q0.instances = q.instances

theorem Keeps.refl (o : Option QueuedPlayer) : Keeps o o := fun q hq => ⟨q, hq, rfl⟩

theorem Keeps.trans {o o' o'' : Option QueuedPlayer} (h : Keeps o o') (h' : Keeps o' o'') :
    Keeps o o'' := by
  intro q hq
  obtain ⟨q1, h1, he1⟩ := h' q hq
  obtain ⟨q0, h0, he0⟩ := h q1 h1
  exact ⟨q0, h0, he0.trans he1⟩

theorem Keeps.none {o o' : Option QueuedPlayer} (h : Keeps o o') (ho : o = none) : o' = none := by
  cases o' with
  | none => rfl
  | some q =>
    obtain ⟨q0, h0, -⟩ := h q rfl
    rw [ho] at h0
    cases h0

/-- The loop of `CancelOffer`, on the queue. -/
theorem foldl_requeue (keep : Nat → Bool) (l : List Nat) (m : SortedMap Nat QueuedPlayer)
    (g : Nat) :
    let f := fun (queue : SortedMap Nat QueuedPlayer) guid =>
      if keep guid then
        queue.modify guid fun q => { q with assignedRole := pickRole q.roleMask 0 0 0 }
      else queue.erase guid
    Keeps (m.find g) ((l.foldl f m).find g) ∧ (g ∉ l → (l.foldl f m).find g = m.find g) := by
  intro f
  -- one turn touches the entry of its own player only
  have hstep : ∀ m a, Keeps (m.find g) ((f m a).find g) ∧ (g ≠ a → (f m a).find g = m.find g) := by
    intro m a
    by_cases ha : g = a
    · refine ⟨?_, fun hne => absurd ha hne⟩
      intro q hq
      dsimp only [f] at hq
      split at hq
      case isTrue =>
        rw [find_modify, if_pos ha] at hq
        obtain ⟨q0, h0, rfl⟩ := map_eq_some_iff.mp hq
        exact ⟨q0, h0, rfl⟩
      case isFalse =>
        rw [find_erase, if_pos ha] at hq
        cases hq
    · have he : (f m a).find g = m.find g := by
        dsimp only [f]
        split
        case isTrue => rw [find_modify, if_neg ha]
        case isFalse => rw [find_erase, if_neg ha]
      rw [he]
      exact ⟨Keeps.refl _, fun _ => rfl⟩
  induction l generalizing m with
  | nil => exact ⟨Keeps.refl _, fun _ => rfl⟩
  | cons a l ih =>
    obtain ⟨h1, h2⟩ := hstep m a
    obtain ⟨ih1, ih2⟩ := ih (f m a)
    refine ⟨h1.trans ih1, fun hg => ?_⟩
    obtain ⟨hne, hl⟩ := not_or.mp fun h => hg (mem_cons.mpr h)
    exact (ih2 hl).trans (h2 hne)

/-- What an offer that ends leaves: its players are free, and nobody else's entry has changed. -/
structure Released (offer : Offer) (s s' : LftManager) : Prop where
  playerOffers : ∀ g, s'.playerOffers.find g =
    if offer.roles.contains g then none else s.playerOffers.find g
  others : ∀ g, offer.roles.contains g = false → s'.queue.find g = s.queue.find g
  keeps : ∀ g, Keeps (s.queue.find g) (s'.queue.find g)
  rolechecks : s'.rolechecks = s.rolechecks
  nextOfferId : s'.nextOfferId = s.nextOfferId

/-- An offer that is there ends, and frees its players. -/
theorem cancelOffer_some (requeue : Bool) (remove : Nat) (others : Bool)
    (h : s.offers.find id = some offer) :
    Released offer s (s.cancelOffer requeue remove others id) ∧
      (s.cancelOffer requeue remove others id).offers = s.offers.erase id := by
  unfold cancelOffer
  rw [h]
  dsimp only
  rw [foldl_release]
  refine ⟨⟨fun g => ?_, fun g hg => ?_, fun g => ?_, rfl, rfl⟩, rfl⟩
  · rw [find_foldl_erase]
    simp only [mem_keys_iff]
  · refine (foldl_requeue _ offer.roles.keys s.queue g).2 fun hmem => ?_
    rw [mem_keys_iff.mp hmem] at hg
    cases hg
  · exact (foldl_requeue _ offer.roles.keys s.queue g).1

variable {roles : SortedMap Nat UInt8}

/-- What a new offer leaves. -/
structure Made (instanceName : Text) (roles : SortedMap Nat UInt8) (s s' : LftManager) : Prop where
  offers : s'.offers = s.offers.insert s.nextOfferId.toNat
    { instanceName, roles, timer := offerTimeout }
  playerOffers : ∀ g, s'.playerOffers.find g =
    if roles.contains g then some s.nextOfferId.toNat else s.playerOffers.find g
  others : ∀ g, roles.contains g = false → s'.queue.find g = s.queue.find g
  players : ∀ g q, roles.contains g → s.queue.find g = some q →
    ∃ role, s'.queue.find g = some { q with assignedRole := role }
  rolechecks : s'.rolechecks = s.rolechecks
  nextOfferId : s'.nextOfferId = s.nextOfferId + 1

/-- The players are distinct, so each is bound once, to the role he was found for. -/
theorem makeOffer_made (s : LftManager) (instanceName : Text) (roles : SortedMap Nat UInt8) :
    Made instanceName roles s (makeOffer s instanceName roles) := by
  have hkeys : roles.entries.Pairwise fun x y => ∀ c, some x.1 = some c → some y.1 ≠ some c :=
    roles.keys_pairwise.imp fun hne c hx hy => hne (some.inj (hx.trans hy.symm))
  have hmem : ∀ {g role}, roles.find g = some role → (g, role) ∈ roles.entries :=
    fun h => mem_entries_iff.mpr h
  have hnot : ∀ {g}, roles.contains g = false → ∀ x ∈ roles.entries, some x.1 ≠ some g := by
    intro g hg x hx he
    have hfind : roles.find x.1 = some x.2 := mem_entries_iff.mp hx
    rw [some.inj he] at hfind
    simp [SortedMap.contains, hfind] at hg
  -- the two loops insert at different keys, so that each entry is written once
  have hqueue := fun g => find_foldl (k := fun x : Nat × UInt8 => some x.1)
    (f := fun (queue : SortedMap Nat QueuedPlayer) (x : Nat × UInt8) =>
      queue.insert x.1 { (queue.find x.1).getD {} with assignedRole := x.2 })
    (g := fun x old => some { old.getD {} with assignedRole := x.2 })
    (fun m x c => by
      rw [find_insert]
      by_cases hc : c = x.1
      · rw [if_pos hc, if_pos (congrArg some hc.symm), hc]
      · rw [if_neg hc, if_neg fun he => hc (some.inj he).symm])
    hkeys s.queue g
  have hplayers := fun g => find_foldl (k := fun x : Nat × UInt8 => some x.1)
    (f := fun (m : SortedMap Nat Nat) (x : Nat × UInt8) => m.insert x.1 s.nextOfferId.toNat)
    (g := fun _ _ => some s.nextOfferId.toNat)
    (fun m x c => by
      rw [find_insert]
      by_cases hc : c = x.1
      · rw [if_pos hc, if_pos (congrArg some hc.symm)]
      · rw [if_neg hc, if_neg fun he => hc (some.inj he).symm])
    hkeys s.playerOffers g
  unfold makeOffer
  rw [foldl_bind]
  refine ⟨rfl, fun g => ?_, fun g hg => (hqueue g).2 (hnot hg), fun g q hg hq => ?_, rfl, rfl⟩
  · split
    case isTrue hg =>
      obtain ⟨role, hrole⟩ := isSome_iff_exists.mp hg
      exact (hplayers g).1 _ (hmem hrole) rfl
    case isFalse hg => exact (hplayers g).2 (hnot (Bool.eq_false_iff.mpr hg))
  · obtain ⟨role, hrole⟩ := isSome_iff_exists.mp hg
    refine ⟨role, ((hqueue g).1 _ (hmem hrole) rfl).trans ?_⟩
    rw [hq]
    rfl

end Loops

/-! ## The index -/

/-- The index and the offers agree, and every offer is for a full party. -/
structure Booked (s : LftManager) : Prop where
  linked : ∀ g id, s.playerOffers.find g = some id ↔
    ∃ offer, s.offers.find id = some offer ∧ offer.roles.contains g = true
  accepted : ∀ id offer, s.offers.find id = some offer → ∀ g ∈ offer.accepted,
    offer.roles.contains g = true
  full : ∀ id offer, s.offers.find id = some offer → FullParty offer.roles

namespace Booked

theorem empty : Booked {} :=
  ⟨fun _ _ => ⟨fun h => (nomatch h), fun ⟨_, h, _⟩ => (nomatch h)⟩, fun _ _ h => (nomatch h),
    fun _ _ h => (nomatch h)⟩

section

variable (h : Booked s)
include h

/-- The index does not look at the queue. -/
theorem congr (hoffers : s'.offers = s.offers)
    (hplayers : s'.playerOffers = s.playerOffers) : Booked s' := by
  refine ⟨fun g id => ?_, fun id offer => ?_, fun id offer => ?_⟩
  · rw [hoffers, hplayers]
    exact h.linked g id
  · rw [hoffers]
    exact h.accepted id offer
  · rw [hoffers]
    exact h.full id offer

section

variable (ho : s.offers.find id = some offer)
include ho

/-- Two offers of one player are one. -/
theorem unique {id' : Nat} {offer' : Offer}
    (ho' : s.offers.find id' = some offer') (hg : offer.roles.contains g)
    (hg' : offer'.roles.contains g) : id = id' :=
  some.inj (((h.linked g id).mpr ⟨offer, ho, hg⟩).symm.trans
    ((h.linked g id').mpr ⟨offer', ho', hg'⟩))

/-- An offer is removed, and its players are set free. -/
theorem release (hoffers : s'.offers = s.offers.erase id) (hplayers : ∀ g, s'.playerOffers.find g =
      if offer.roles.contains g then none else s.playerOffers.find g) : Booked s' := by
  have hfind : ∀ id' offer', s'.offers.find id' = some offer' ↔
      id' ≠ id ∧ s.offers.find id' = some offer' := by
    intro id' offer'
    rw [hoffers, find_erase]
    split
    case isTrue he => exact ⟨fun h => (nomatch h), fun h => absurd he h.1⟩
    case isFalse hne => exact ⟨fun h => ⟨hne, h⟩, fun h => h.2⟩
  refine ⟨fun g id' => ?_, fun id' offer' ho' => ?_, fun id' offer' ho' => ?_⟩
  · rw [hplayers]
    split
    case isTrue hg =>
      -- a player of the offer is in no other one
      refine ⟨fun he => (nomatch he), fun ⟨offer', ho', hg'⟩ => ?_⟩
      obtain ⟨hne, ho'⟩ := (hfind id' offer').mp ho'
      exact absurd (h.unique ho' ho hg' hg) hne
    case isFalse hg =>
      rw [h.linked]
      constructor
      · rintro ⟨offer', ho', hg'⟩
        refine ⟨offer', (hfind id' offer').mpr ⟨?_, ho'⟩, hg'⟩
        rintro rfl
        obtain rfl := some.inj (ho.symm.trans ho')
        exact hg hg'
      · rintro ⟨offer', ho', hg'⟩
        exact ⟨offer', ((hfind id' offer').mp ho').2, hg'⟩
  · exact h.accepted id' offer' ((hfind id' offer').mp ho').2
  · exact h.full id' offer' ((hfind id' offer').mp ho').2

/-- An offer is rewritten, with the same players. -/
theorem rewrite {offer' : Offer} (hroles : offer'.roles = offer.roles)
    (haccepted : ∀ g ∈ offer'.accepted, offer.roles.contains g = true)
    (hoffers : s'.offers = s.offers.insert id offer')
    (hplayers : s'.playerOffers = s.playerOffers) : Booked s' := by
  refine ⟨fun g id' => ?_, fun id' o ho' => ?_, fun id' o ho' => ?_⟩
  · rw [hplayers, hoffers, h.linked, find_insert]
    split
    case isTrue he =>
      constructor
      · rintro ⟨o, hfind, hg⟩
        rw [he, ho] at hfind
        obtain rfl := some.inj hfind
        exact ⟨offer', rfl, hroles ▸ hg⟩
      · rintro ⟨o, hfind, hg⟩
        obtain rfl := some.inj hfind
        exact ⟨offer, he ▸ ho, hroles ▸ hg⟩
    case isFalse => rfl
  · rw [hoffers, find_insert] at ho'
    split at ho'
    case isTrue =>
      obtain rfl := some.inj ho'
      rw [hroles]
      exact haccepted
    case isFalse => exact h.accepted id' o ho'
  · rw [hoffers, find_insert] at ho'
    split at ho'
    case isTrue =>
      obtain rfl := some.inj ho'
      rw [hroles]
      exact h.full id offer ho
    case isFalse => exact h.full id' o ho'

end

/-- A new offer, under an id that is not in use. -/
theorem make {roles : SortedMap Nat UInt8} (hfree : s.offers.find s.nextOfferId.toNat = none)
    (hsel : selectPlayers w s instanceName = some roles) :
    Booked (makeOffer s instanceName roles) := by
  obtain ⟨hfull, havail⟩ := selectPlayers_spec hsel
  have hm := makeOffer_made s instanceName roles
  refine ⟨fun g id => ?_, fun id o ho => ?_, fun id o ho => ?_⟩
  · rw [hm.playerOffers, hm.offers]
    simp only [find_insert]
    by_cases hid : id = s.nextOfferId.toNat
    · simp only [hid, if_true]
      constructor
      · -- the id was free, so whoever is bound to it is a player of the new offer
        intro hg
        refine ⟨_, rfl, ?_⟩
        split at hg
        case isTrue hc => exact hc
        case isFalse =>
          obtain ⟨o, ho, -⟩ := (h.linked g _).mp hg
          rw [hfree] at ho
          cases ho
      · rintro ⟨o, ho, hg⟩
        obtain rfl := some.inj ho
        rw [if_pos hg]
    · simp only [if_neg hid]
      rw [← h.linked]
      split
      case isTrue hc =>
        obtain ⟨role, hrole⟩ := isSome_iff_exists.mp hc
        -- and those were in no offer before
        rw [(havail g role hrole).2.1]
        exact ⟨fun he => absurd (some.inj he).symm hid, fun he => (nomatch he)⟩
      case isFalse => rfl
  · rw [hm.offers, find_insert] at ho
    split at ho
    case isTrue =>
      obtain rfl := some.inj ho
      exact fun g hg => (nomatch hg)
    case isFalse => exact h.accepted id o ho
  · rw [hm.offers, find_insert] at ho
    split at ho
    case isTrue =>
      obtain rfl := some.inj ho
      exact hfull
    case isFalse => exact h.full id o ho

/-- A cancelled offer leaves no player behind in the index. -/
theorem cancel {requeue : Bool} {remove : Nat} {others : Bool} :
    Booked (s.cancelOffer requeue remove others id) := by
  cases ho : s.offers.find id with
  | none =>
    unfold cancelOffer
    rw [ho]
    exact h
  | some offer =>
    obtain ⟨hr, hoffers⟩ := cancelOffer_some requeue remove others ho
    exact h.release ho hoffers hr.playerOffers

end

end Booked

/-! ## What a call does -/

/-- A role check is kept, or the members who have answered are queued. -/
def Checked (w : LftWorld) (s : LftManager) (leader : Nat) (rolecheck : PendingRolecheck)
    (s' : LftManager) : Prop :=
  s' = { s with rolechecks := s.rolechecks.insert leader rolecheck } ∨
    s' = rolecheck.members.foldl (enqueueMember w rolecheck)
      { s with rolechecks := s.rolechecks.erase leader }

/-- The call is a request that passes its checks: the player and the instances. -/
inductive Asks (w : LftWorld) : Input → Nat → List Text → Prop
  | join {player : Nat} {fields instances : List Text} :
    requestedInstances w player fields = some instances →
      Asks w (.queueJoin player fields) player instances
  | module {player : Nat} {requested instances : List Text} {roleMask effective : UInt8} :
    validRequest w player requested roleMask = some (instances, effective) →
      Asks w (.queuePlayer player requested roleMask) player instances

/-- What the calls do before they search for five players. -/
inductive Moves (w : LftWorld) (s : LftManager) : Input → LftManager → Prop
  | idle {i : Input} : Moves w s i s
  | party {i : Input} {player : Nat} {rolecheck : PendingRolecheck} {s' : LftManager} :
    Asks w i player rolecheck.instances → rolecheck.members = getPartyMembers w player →
      Checked w (s.cleanupPlayer player) player rolecheck s' → Moves w s i s'
  | solo {i : Input} {player : Nat} {instances : List Text} {roleMask : UInt8} :
    Asks w i player instances →
      Moves w s i (enqueuePlayer w (s.cleanupPlayer player) player player instances roleMask)
  | answer {i : Input} {leader : Nat} {rolecheck rolecheck' : PendingRolecheck} {s' : LftManager} :
    s.rolechecks.find leader = some rolecheck → Checked w s leader rolecheck' s' →
      rolecheck'.members = rolecheck.members → rolecheck'.instances = rolecheck.instances →
      Moves w s i s'
  | accept {i : Input} {player id : Nat} {offer : Offer} :
    s.playerOffers.find player = some id → s.offers.find id = some offer →
      Moves w s i { s with offers := s.offers.insert id (offer.accept player) }
  | refuse {i : Input} {player id : Nat} {offer : Offer} :
    s.playerOffers.find player = some id → s.offers.find id = some offer →
      Moves w s i (cancelOffer false 0 false
        { s with offers := s.offers.insert id (offer.accept player) } id)
  | complete {i : Input} {player id : Nat} {offer : Offer} :
    s.playerOffers.find player = some id → s.offers.find id = some offer →
      Moves w s i
        { s with
          queue := (offer.accept player).roles.keys.foldl erase s.queue
          playerOffers := (offer.accept player).roles.keys.foldl erase s.playerOffers
          offers := (s.offers.insert id (offer.accept player)).erase id }
  | leaveRolecheck {i : Input} {leader : Nat} :
    Moves w s i { s with rolechecks := s.rolechecks.erase leader }
  | leaveOffer {i : Input} {player id : Nat} : s.playerOffers.find player = some id →
      Moves w s i (s.cancelOffer true player true id)
  | leaveParty {player : Nat} {q : QueuedPlayer} :
    (∀ leader rolecheck, s.rolechecks.find leader = some rolecheck →
      player ∉ rolecheck.members) → s.playerOffers.find player = none →
      s.queue.find player = some q →
      Moves w s (.leaveQueue player)
        { s with queue := s.queue.filter fun key other => other.block key ≠ q.block player }
  | logout {i : Input} {player : Nat} : Moves w s i (s.cleanupPlayer player)
  | tick {diff : Nat} :
    Moves w s (.update diff) (s.offers.keys.foldl (tickOffer diff)
      { s with
        queue := s.queue.filter fun guid _ => w.isInWorld guid
        rolechecks := (s.rolechecks.filter fun _ (c : PendingRolecheck) => diff < c.timer).mapVal
          fun _ (c : PendingRolecheck) => { c with timer := c.timer - diff } })

/-- A role check that everybody has answered ends in a search. -/
theorem finishRolecheck_cases (w : LftWorld) (s : LftManager) (leader : Nat)
    (rolecheck : PendingRolecheck) :
    ∃ s', Checked w s leader rolecheck s' ∧
      (finishRolecheck w s leader rolecheck = s' ∨
        finishRolecheck w s leader rolecheck = tryMakeOffers w s') := by
  unfold finishRolecheck
  split
  case isTrue => exact ⟨_, Or.inr rfl, Or.inr rfl⟩
  case isFalse => exact ⟨_, Or.inl rfl, Or.inl rfl⟩

/-- The last answer completes the offer, if the players can still be grouped. -/
theorem handleOfferAccept_cases (w : LftWorld) (s : LftManager) (player : Nat) (i : Input) :
    Moves w s i (handleOfferAccept w s player) := by
  unfold handleOfferAccept
  split
  case h_1 => exact .idle
  case h_2 id hplayer =>
    split
    case h_1 => exact .idle
    case h_2 offer hoffer =>
      dsimp only
      split
      case isFalse => exact .accept hplayer hoffer
      case isTrue =>
        unfold completeOffer
        rw [find_insert, if_pos rfl]
        dsimp only
        split
        case h_1 => exact .refuse hplayer hoffer
        case h_2 => exact .complete hplayer hoffer

/-- A call is one of the moves, and maybe a search. -/
theorem step_cases (s : LftManager) (w : LftWorld) (i : Input) :
    ∃ s', Moves w s i s' ∧ (s.step (w, i) = s' ∨ s.step (w, i) = tryMakeOffers w s') := by
  cases i with
  | queueJoin player fields =>
    show ∃ s', _ ∧ (handleQueueJoin w s player fields = s' ∨ handleQueueJoin w s player fields = _)
    unfold handleQueueJoin
    split
    case h_1 => exact ⟨s, .idle, Or.inl rfl⟩
    case h_2 instances hask =>
      obtain ⟨s', hs', he⟩ := finishRolecheck_cases w (s.cleanupPlayer player) player
        { leaderGuid := player, members := getPartyMembers w player, instances,
          responses := botResponses w (getPartyMembers w player), timer := rolecheckTimeout }
      exact ⟨s', .party (.join hask) rfl hs', he⟩
  | rolecheckResponse player fields =>
    show ∃ s', _ ∧ (handleRolecheckResponse w s player fields = s' ∨
      handleRolecheckResponse w s player fields = _)
    unfold handleRolecheckResponse
    split
    case h_2 => exact ⟨s, .idle, Or.inl rfl⟩
    case h_1 roles _ =>
      dsimp only
      split
      case isTrue => exact ⟨s, .idle, Or.inl rfl⟩
      case isFalse =>
        split
        case h_1 => exact ⟨s, .idle, Or.inl rfl⟩
        case h_2 leader rolecheck hfind =>
          have hrolecheck := mem_entries_iff.mp (mem_of_find?_eq_some hfind)
          obtain ⟨s', hs', he⟩ := finishRolecheck_cases w s leader { rolecheck with
            responses := rolecheck.responses.insert player
              (parseRoleMask roles &&& allowedRoleMask (w.playerClass player)) }
          exact ⟨s', .answer hrolecheck hs' rfl rfl, he⟩
  | offerAccept player => exact ⟨_, handleOfferAccept_cases w s player _, Or.inl rfl⟩
  | queuePlayer player requested roleMask =>
    show ∃ s', _ ∧ (queuePlayer w s player requested roleMask = s' ∨
      queuePlayer w s player requested roleMask = _)
    unfold queuePlayer
    split
    case h_1 => exact ⟨s, .idle, Or.inl rfl⟩
    case h_2 instances effective hask =>
      dsimp only
      split
      case isTrue =>
        obtain ⟨s', hs', he⟩ := finishRolecheck_cases w (s.cleanupPlayer player) player
          { leaderGuid := player, members := getPartyMembers w player, instances,
            responses := botResponses w (getPartyMembers w player), timer := rolecheckTimeout }
        exact ⟨s', .party (.module hask) rfl hs', he⟩
      case isFalse => exact ⟨_, .solo (.module hask), Or.inr rfl⟩
  | acceptOffer guid =>
    show ∃ s', _ ∧ (acceptOffer w s guid = s' ∨ acceptOffer w s guid = _)
    unfold acceptOffer
    split_ifs
    · exact ⟨s, .idle, Or.inl rfl⟩
    · exact ⟨s, .idle, Or.inl rfl⟩
    · exact ⟨s, .idle, Or.inl rfl⟩
    · exact ⟨_, handleOfferAccept_cases w s guid _, Or.inl rfl⟩
  | leaveQueue guid =>
    show ∃ s', _ ∧ (leaveQueue w s guid = s' ∨ leaveQueue w s guid = _)
    unfold leaveQueue
    split
    case h_1 => exact ⟨_, .leaveRolecheck, Or.inl rfl⟩
    case h_2 hno =>
      split
      case h_1 id hplayer => exact ⟨_, .leaveOffer hplayer, Or.inr rfl⟩
      case h_2 hfree =>
        split
        case h_1 => exact ⟨s, .idle, Or.inl rfl⟩
        case h_2 q hq =>
          refine ⟨_, .leaveParty (fun leader rolecheck hfind hmem => ?_) hfree hq, Or.inl rfl⟩
          have := find?_eq_none.mp hno _ (mem_entries_iff.mpr hfind)
          exact this (contains_iff_mem.mpr hmem)
  | logout guid => exact ⟨_, .logout, Or.inl rfl⟩
  | update diff => exact ⟨_, .tick, Or.inr rfl⟩

/-! ## The index, move by move -/

/-- A player is cleaned up in three steps: queue, offer, role checks. -/
theorem cleanupPlayer_cases (s : LftManager) (player : Nat) :
    ∃ s', (s.playerOffers.find player = none ∧ s' = { s with queue := s.queue.erase player } ∨
        ∃ id, s.playerOffers.find player = some id ∧
          s' = cancelOffer true player true { s with queue := s.queue.erase player } id) ∧
      s.cleanupPlayer player =
        { s' with rolechecks := s'.rolechecks.filter fun _ c => !c.members.contains player } := by
  unfold cleanupPlayer
  dsimp only
  split
  case h_1 hno => exact ⟨_, Or.inl ⟨hno, rfl⟩, rfl⟩
  case h_2 id hid => exact ⟨_, Or.inr ⟨id, hid, rfl⟩, rfl⟩

/-- What the loop of `EnqueueRolecheck` leaves alone: everything but the queue, and the entries of
all but the members. -/
theorem foldl_enqueue (rolecheck : PendingRolecheck) (l : List Nat) (s : LftManager) :
    ∃ queue order, l.foldl (enqueueMember w rolecheck) s =
        { s with queue, nextQueueOrder := order } ∧
      (∀ g, g ∉ l → queue.find g = s.queue.find g) ∧
      ∀ g q, queue.find g = some q →
        s.queue.find g = some q ∨ q.instances = rolecheck.instances := by
  induction l generalizing s with
  | nil => exact ⟨s.queue, s.nextQueueOrder, rfl, fun _ _ => rfl, fun _ _ hq => Or.inl hq⟩
  | cons a l ih =>
    rw [foldl_cons]
    obtain ⟨queue, order, he, hsame, hinst⟩ := ih (enqueueMember w rolecheck s a)
    unfold enqueueMember at he hsame hinst ⊢
    split at he
    case isFalse hw =>
      simp only [if_neg hw] at hsame hinst ⊢
      exact ⟨queue, order, he, fun g hg => hsame g fun h => hg (mem_cons_of_mem a h), hinst⟩
    case isTrue hw =>
      simp only [if_pos hw] at hsame hinst ⊢
      split at he
      case h_1 hr =>
        simp only [hr] at hsame hinst ⊢
        exact ⟨queue, order, he, fun g hg => hsame g fun h => hg (mem_cons_of_mem a h), hinst⟩
      case h_2 roles hr =>
        simp only [hr] at hsame hinst ⊢
        refine ⟨queue, order, he, fun g hg => ?_, fun g q hq => ?_⟩
        · obtain ⟨hne, hl⟩ := not_or.mp fun h => hg (mem_cons.mpr h)
          refine (hsame g hl).trans ?_
          show (insert _ _ _).find g = _
          rw [find_insert, if_neg hne]
        · rcases hinst g q hq with h | h
          · unfold enqueuePlayer at h
            dsimp only at h
            rw [find_insert] at h
            split at h
            case isTrue =>
              obtain rfl := some.inj h
              exact Or.inr rfl
            case isFalse => exact Or.inl h
          · exact Or.inr h

namespace Booked

section

variable (h : Booked s)
include h

theorem cleanup (player : Nat) : Booked (s.cleanupPlayer player) := by
  obtain ⟨s', hs', he⟩ := cleanupPlayer_cases s player
  rw [he]
  -- the index says nothing of the queue or the role checks
  have hdrop : Booked { s with queue := s.queue.erase player } := h.congr rfl rfl
  have hs : Booked s' := by
    rcases hs' with ⟨-, rfl⟩ | ⟨id, -, rfl⟩
    · exact hdrop
    · exact hdrop.cancel
  exact hs.congr rfl rfl

/-- A role check binds nobody to an offer. -/
theorem checked {leader : Nat} {rolecheck : PendingRolecheck}
    (hc : Checked w s leader rolecheck s') : Booked s' := by
  rcases hc with rfl | rfl
  · exact h.congr rfl rfl
  · obtain ⟨queue, order, he, -, -⟩ := foldl_enqueue (w := w) rolecheck rolecheck.members
      { s with rolechecks := s.rolechecks.erase leader }
    rw [he]
    exact h.congr rfl rfl

/-- Everybody who has accepted is in the offer, so the lookups make no entry. -/
theorem accept_roles {player : Nat} (hp : s.playerOffers.find player = some id)
    (ho : s.offers.find id = some offer) :
    (offer.accept player).roles = offer.roles ∧
      ∀ g ∈ (offer.accept player).accepted, offer.roles.contains g = true := by
  have hmem : ∀ g ∈ offer.accepted.insert player, offer.roles.contains g = true := by
    intro g hg
    rcases mem_insert_iff.mp hg with rfl | hg
    · obtain ⟨o, ho', hc⟩ := (h.linked _ id).mp hp
      obtain rfl := some.inj (ho.symm.trans ho')
      exact hc
    · exact h.accepted id offer ho g hg
  refine ⟨?_, hmem⟩
  unfold Offer.accept
  dsimp only
  generalize offer.accepted.insert player = accepted at hmem
  induction accepted with
  | nil => rfl
  | cons a l ih =>
    rw [foldl_cons, if_pos (hmem a mem_cons_self)]
    exact ih fun g hg => hmem g (mem_cons_of_mem a hg)

/-- An answer leaves the players of the offer. -/
theorem accept {player : Nat} (hp : s.playerOffers.find player = some id)
    (ho : s.offers.find id = some offer) :
    Booked { s with offers := s.offers.insert id (offer.accept player) } := by
  obtain ⟨hroles, haccepted⟩ := h.accept_roles hp ho
  exact h.rewrite ho hroles haccepted rfl rfl

/-- Time takes an offer away as a whole, or leaves it. -/
theorem tick (diff id : Nat) : Booked (tickOffer diff s id) := by
  unfold tickOffer
  split
  case h_1 => exact h
  case h_2 offer ho =>
    split
    case isTrue => exact h.cancel
    case isFalse =>
      refine h.rewrite ho ?_ ?_ rfl rfl
      · rfl
      · exact h.accepted id offer ho

/-- Every move keeps the index right. -/
theorem moves {i : Input} (hm : Moves w s i s') : Booked s' := by
  cases hm with
  | idle => exact h
  | party _ _ hc => exact (h.cleanup _).checked hc
  | solo => exact (h.cleanup _).congr rfl rfl
  | answer _ hc => exact h.checked hc
  | accept hp ho => exact h.accept hp ho
  | refuse hp ho => exact (h.accept hp ho).cancel
  | complete hp ho =>
    have ha := h.accept hp ho
    refine ha.release (find_insert .. |>.trans (if_pos rfl)) rfl fun g => ?_
    rw [find_foldl_erase]
    simp only [mem_keys_iff]
  | leaveRolecheck => exact h.congr rfl rfl
  | leaveOffer => exact h.cancel
  | leaveParty => exact h.congr rfl rfl
  | logout => exact h.cleanup _
  | @tick diff =>
    have hfold : ∀ (l : List Nat) (s : LftManager), Booked s →
        Booked (l.foldl (tickOffer diff) s) := by
      intro l
      induction l with
      | nil => exact fun _ h => h
      | cons a l ih => exact fun s h => ih _ (h.tick diff a)
    exact hfold _ _ (h.congr rfl rfl)

end

end Booked

/-! ## Ids -/

/-- None of the next `n` offer ids is in use. -/
def IdsFree (s : LftManager) (n : Nat) : Prop :=
  n ≤ 2 ^ 32 ∧ ∀ i < n, s.offers.find ((s.nextOfferId.toNat + i) % 2 ^ 32) = none

instance (s : LftManager) (n : Nat) : Decidable (s.IdsFree n) :=
  inferInstanceAs (Decidable (_ ∧ ∀ i < n, _))

/-- The instances that somebody is queued for or that a role check is about -/
def instanceNames (s : LftManager) : List Text :=
  s.queue.entries.flatMap (·.2.instances) ++ s.rolechecks.entries.flatMap (·.2.instances)

/-- The instances of a request that passes its checks. -/
def requestNames (i : LftWorld × Input) : List Text :=
  match i.2 with
  | .queueJoin player fields => (requestedInstances i.1 player fields).getD []
  | .queuePlayer player requested roleMask =>
    ((validRequest i.1 player requested roleMask).map (·.1)).getD []
  | _ => []

/-- There are as many free offer ids as instances that the call could make an offer for. -/
def IdsFresh (s : LftManager) (i : LftWorld × Input) : Prop :=
  s.IdsFree (s.instanceNames ++ requestNames i).dedup.length

instance (s : LftManager) (i : LftWorld × Input) : Decidable (s.IdsFresh i) :=
  inferInstanceAs (Decidable (s.IdsFree _))

/-- Before the search no id is handed out, and no instance is new. -/
structure Lets (names : List Text) (s s' : LftManager) : Prop where
  nextOfferId : s'.nextOfferId = s.nextOfferId
  offers : ∀ id, s.offers.find id = none → s'.offers.find id = none
  queue : ∀ g q, s'.queue.find g = some q → q.instances ⊆ names
  rolechecks : ∀ l c, s'.rolechecks.find l = some c → c.instances ⊆ names

namespace Lets

variable {names : List Text} {s0 : LftManager}

/-- Nothing has been done yet. -/
theorem refl (hnames : s.instanceNames ⊆ names) : Lets names s s := by
  refine ⟨rfl, fun _ h => h, fun g q hq n hn => hnames ?_, fun l c hc n hn => hnames ?_⟩
  · refine mem_append_left _ (mem_flatMap.mpr ⟨(g, q), ?_, hn⟩)
    exact mem_entries_iff.mpr hq
  · refine mem_append_right _ (mem_flatMap.mpr ⟨(l, c), ?_, hn⟩)
    exact mem_entries_iff.mpr hc

section

variable (h : Lets names s0 s)
include h

/-- What goes from the queue or the role checks adds no instance. -/
theorem less (hid : s'.nextOfferId = s.nextOfferId)
    (hoffers : ∀ id, s.offers.find id = none → s'.offers.find id = none)
    (hqueue : ∀ g q, s'.queue.find g = some q → s.queue.find g = some q)
    (hrolechecks : ∀ l c, s'.rolechecks.find l = some c →
      ∃ c0, s.rolechecks.find l = some c0 ∧ c0.instances = c.instances) : Lets names s0 s' := by
  refine ⟨hid.trans h.nextOfferId, fun id hnone => hoffers id (h.offers id hnone),
    fun g q hq => h.queue g q (hqueue g q hq), fun l c hc => ?_⟩
  obtain ⟨c0, h0, he⟩ := hrolechecks l c hc
  rw [← he]
  exact h.rolechecks l c0 h0

theorem cancel {requeue : Bool} {remove : Nat} {others : Bool} :
    Lets names s0 (s.cancelOffer requeue remove others id) := by
  cases ho : s.offers.find id with
  | none =>
    unfold cancelOffer
    rw [ho]
    exact h
  | some offer =>
    obtain ⟨hr, hoffers⟩ := cancelOffer_some requeue remove others ho
    refine ⟨hr.nextOfferId.trans h.nextOfferId, fun id' hnone => ?_, fun g q hq => ?_, ?_⟩
    · rw [hoffers, find_erase, h.offers id' hnone, ite_self]
    · obtain ⟨q0, h0, he⟩ := hr.keeps g q hq
      rw [← he]
      exact h.queue g q0 h0
    · rw [hr.rolechecks]
      exact h.rolechecks

theorem cleanup (player : Nat) : Lets names s0 (s.cleanupPlayer player) := by
  obtain ⟨s', hs', he⟩ := cleanupPlayer_cases s player
  rw [he]
  have hdrop : Lets names s0 { s with queue := s.queue.erase player } :=
    h.less rfl (fun _ hnone => hnone) (fun _ _ hq => find_erase_some hq) fun _ c hc => ⟨c, hc, rfl⟩
  have hs : Lets names s0 s' := by
    rcases hs' with ⟨-, rfl⟩ | ⟨id, -, rfl⟩
    · exact hdrop
    · exact hdrop.cancel
  refine hs.less rfl (fun _ hnone => hnone) (fun _ _ hq => hq) fun l c hc => ⟨c, ?_, rfl⟩
  rw [find_filter] at hc
  exact (filter_eq_some_iff.mp hc).1

theorem checked {leader : Nat} {rolecheck : PendingRolecheck}
    (hnames : rolecheck.instances ⊆ names) (hc : Checked w s leader rolecheck s') :
    Lets names s0 s' := by
  rcases hc with rfl | rfl
  · refine { h with rolechecks := fun l c hc => ?_ }
    dsimp only at hc
    rw [find_insert] at hc
    split at hc
    case isTrue =>
      obtain rfl := some.inj hc
      exact hnames
    case isFalse => exact h.rolechecks l c hc
  · obtain ⟨queue, order, he, -, hqueue⟩ := foldl_enqueue (w := w) rolecheck rolecheck.members
      { s with rolechecks := s.rolechecks.erase leader }
    rw [he]
    refine ⟨h.nextOfferId, h.offers, fun g q hq => ?_, fun l c hc => ?_⟩
    · rcases hqueue g q hq with h0 | h0
      · exact h.queue g q h0
      · rw [h0]
        exact hnames
    · exact h.rolechecks l c (find_erase_some hc)

theorem rewrite (ho : s.offers.find id = some offer) (offer' : Offer) :
    Lets names s0 { s with offers := s.offers.insert id offer' } := by
  refine { h with offers := fun id' hnone => ?_ }
  have hid' := h.offers id' hnone
  dsimp only
  rw [find_insert]
  split
  case isTrue he =>
    rw [he, ho] at hid'
    cases hid'
  case isFalse => exact hid'

theorem tick (diff id : Nat) : Lets names s0 (tickOffer diff s id) := by
  unfold tickOffer
  split
  case h_1 => exact h
  case h_2 offer ho =>
    split
    case isTrue => exact h.cancel
    case isFalse => exact h.rewrite ho _

end

/-- The instances of the queue and of the role checks are a part of the names. -/
theorem idsFree (h : Lets names s s') (hfree : s.IdsFree names.dedup.length) :
    s'.IdsFree (wantedInstances s').length := by
  -- each instance that is searched for is one of the names, and is searched for once
  have hle : (wantedInstances s').length ≤ names.dedup.length := by
    unfold wantedInstances
    rw [length_insertionSort]
    refine (nodup_dedup _).subperm (fun n hn => ?_) |>.length_le
    obtain ⟨x, hx, hn⟩ := mem_flatMap.mp (mem_dedup.mp hn)
    have hq := mem_entries_iff.mp (mem_filter.mp hx).1
    exact mem_dedup.mpr (h.queue x.1 x.2 hq hn)
  refine ⟨hle.trans hfree.1, fun i hi => h.offers _ ?_⟩
  rw [h.nextOfferId]
  exact hfree.2 i (lt_of_lt_of_le hi hle)

end Lets

/-- A request is for the instances that are counted for it. -/
theorem Asks.names {i : Input} {player : Nat} {instances : List Text}
    (h : Asks w i player instances) : instances = requestNames (w, i) := by
  cases h with
  | join h =>
    show instances = (requestedInstances w player _).getD []
    rw [h]
    rfl
  | module h =>
    show instances = ((validRequest w player _ _).map (·.1)).getD []
    rw [h]
    rfl

/-- No move hands out an id, and only a request brings instances. -/
theorem Moves.lets {i : Input} (hm : Moves w s i s') :
    Lets (s.instanceNames ++ requestNames (w, i)) s s' := by
  have h0 : Lets (s.instanceNames ++ requestNames (w, i)) s s :=
    Lets.refl (subset_append_left _ _)
  cases hm with
  | idle => exact h0
  | party ha _ hc =>
    refine (h0.cleanup _).checked ?_ hc
    rw [ha.names]
    exact subset_append_right _ _
  | @solo _ player instances roleMask ha =>
    have hclean := h0.cleanup player
    refine { hclean with queue := fun g q hq => ?_ }
    unfold enqueuePlayer at hq
    dsimp only at hq
    rw [find_insert] at hq
    split at hq
    case isTrue =>
      obtain rfl := some.inj hq
      show instances ⊆ _
      rw [ha.names]
      exact subset_append_right _ _
    case isFalse => exact hclean.queue g q hq
  | @answer _ leader rolecheck rolecheck' _ hfind hc _ hinst =>
    refine h0.checked ?_ hc
    rw [hinst]
    exact h0.rolechecks leader rolecheck hfind
  | accept _ ho => exact h0.rewrite ho _
  | refuse _ ho => exact (h0.rewrite ho _).cancel
  | @complete _ player id offer _ ho =>
    refine (h0.rewrite ho (offer.accept player)).less rfl (fun id hnone => ?_) (fun g q hq => ?_)
      fun _ c hc => ⟨c, hc, rfl⟩
    · dsimp only at hnone ⊢
      rw [find_erase, hnone, ite_self]
    · dsimp only at hq
      rw [find_foldl_erase] at hq
      split at hq
      case isTrue => cases hq
      case isFalse => exact hq
  | leaveRolecheck =>
    exact h0.less rfl (fun _ hnone => hnone) (fun _ _ hq => hq)
      fun _ c hc => ⟨c, find_erase_some hc, rfl⟩
  | leaveOffer => exact h0.cancel
  | leaveParty =>
    refine h0.less rfl (fun _ hnone => hnone) (fun g q hq => ?_) fun _ c hc => ⟨c, hc, rfl⟩
    rw [find_filter] at hq
    exact (filter_eq_some_iff.mp hq).1
  | logout => exact h0.cleanup _
  | @tick diff =>
    have hfold : ∀ (l : List Nat) (s' : LftManager),
        Lets (s.instanceNames ++ requestNames (w, .update diff)) s s' →
        Lets (s.instanceNames ++ requestNames (w, .update diff)) s
          (l.foldl (tickOffer diff) s') := by
      intro l
      induction l with
      | nil => exact fun _ h => h
      | cons a l ih => exact fun s' h => ih _ (h.tick diff a)
    refine hfold _ _ (h0.less rfl (fun _ hnone => hnone) (fun g q hq => ?_) fun l c hc => ?_)
    · rw [find_filter] at hq
      exact (filter_eq_some_iff.mp hq).1
    · rw [find_mapVal, find_filter] at hc
      obtain ⟨c0, h0, rfl⟩ := map_eq_some_iff.mp hc
      exact ⟨c0, (filter_eq_some_iff.mp h0).1, rfl⟩

/-! ## Runs -/

/-- What a new offer under a free id keeps, a search keeps that has enough of them. -/
theorem tryMakeOffers_keeps {I : LftManager → Prop}
    (hmake : ∀ {s instanceName roles}, I s → s.offers.find s.nextOfferId.toNat = none →
      selectPlayers w s instanceName = some roles → I (makeOffer s instanceName roles))
    (hs : I s) (hfree : s.IdsFree (wantedInstances s).length) : I (tryMakeOffers w s) := by
  unfold tryMakeOffers
  generalize wantedInstances s = names at hfree
  induction names generalizing s with
  | nil => exact hs
  | cons n names ih =>
    rw [foldl_cons, tryBuildOfferForInstance]
    obtain ⟨hle, hids⟩ := hfree
    rw [length_cons] at hle hids
    have hlt := s.nextOfferId.toNat_lt
    split
    -- an instance without an offer uses no id up
    case h_1 => exact ih hs ⟨by omega, fun i hi => hids i (by omega)⟩
    case h_2 roles hsel =>
      have hnow : s.offers.find s.nextOfferId.toNat = none := by
        have h0 := hids 0 (by omega)
        rwa [Nat.add_zero, Nat.mod_eq_of_lt hlt] at h0
      refine ih (hmake hs hnow hsel) ⟨by omega, fun i hi => ?_⟩
      have hm := makeOffer_made s n roles
      have hnext : (s.nextOfferId + 1).toNat = (s.nextOfferId.toNat + 1) % 2 ^ 32 :=
        UInt32.toNat_add ..
      -- the ids that are left are the next ones, taken modulo 2 ^ 32
      rw [hm.offers, hm.nextOfferId, find_insert, hnext, Nat.mod_add_mod, Nat.add_assoc,
        Nat.add_comm 1 i, if_neg (by omega)]
      exact hids (i + 1) (by omega)

/-- The index stays right over a call, if the ids it could hand out are free. -/
theorem Booked.step (h : Booked s) {i : LftWorld × Input} (hfresh : s.IdsFresh i) :
    Booked (s.step i) := by
  obtain ⟨w, i⟩ := i
  obtain ⟨s', hm, he | he⟩ := step_cases s w i
  · rw [he]
    exact h.moves hm
  · rw [he]
    exact tryMakeOffers_keeps (fun hs hfree hsel => hs.make hfree hsel) (h.moves hm)
      (hm.lets.idsFree hfresh)

/-- In every run in which no call could hand out an id that is in use, the index and the offers
agree, and every offer is for a full party. -/
theorem booked_of_run {is : List (LftWorld × Input)}
    (h : AlongRun LftManager.step (fun s i => s.IdsFresh i) {} is) :
    Booked (run LftManager.step {} is) :=
  run_keeps (fun _ _ hs hi => hs.step hi) Booked.empty h

end Windrunner.LftManager
