import Windrunner.Headless.Manager
import Windrunner.Lib.Run

/-!
# Every session in one entry

`LoginWorld.Sound` says that the objects are sound, that no character is in both maps of the
manager, that the entries have a live headless session each and no two the same, that every live
headless session is in an entry, and that a session of `start` is alive and has not been deleted, or
is gone and has been deleted once. A call either leaves the entries and their sessions as they are
(`Sound.keep`), or files a new session (`Sound.created`), or takes an entry away and deletes its
session (`Sound.remove`).
-/

namespace Windrunner

open Lib SortedMap

namespace SessionHeap

variable {h : SessionHeap} {sid x pid : Nat} {guid : PlayerGuid}

/-- `DestroySession` on the objects. -/
def destroy (h : SessionHeap) (sid : Nat) (guid : PlayerGuid) (save clear : Bool) : SessionHeap :=
  ((h.logoutPlayer sid save).clearOnline guid clear).deleteSession sid

variable {save clear : Bool}

theorem sameSessions_endPlayer :
    SameSessions h ((h.logoutPlayer sid save).clearOnline guid clear) :=
  sameSessions_logoutPlayer.trans sameSessions_clearOnline

/-- Deleting a session that was made leaves the objects whole. -/
theorem Whole.destroy (hh : h.Whole) (hsid : sid < h.fresh) :
    (h.destroy sid guid save clear).Whole :=
  ((hh.logoutPlayer save).clearOnline clear).deleteSession
    (lt_of_lt_of_le hsid sameSessions_endPlayer.fresh)

/-- Only the session itself is gone. -/
theorem transportOf_destroy :
    (h.destroy sid guid save clear).transportOf x = if x = sid then none else h.transportOf x := by
  unfold SessionHeap.destroy
  rw [transportOf_deleteSession, sameSessions_endPlayer.transportOf]

theorem deleted_destroy : (h.destroy sid guid save clear).deleted = sid :: h.deleted := by
  unfold SessionHeap.destroy
  rw [deleted_deleteSession, sameSessions_endPlayer.deleted]

theorem fresh_destroy : h.fresh ≤ (h.destroy sid guid save clear).fresh :=
  sameSessions_endPlayer.fresh.trans fresh_deleteSession

end SessionHeap

namespace LoginWorld

variable {w w' : LoginWorld} {guid g : PlayerGuid} {entry : SessionEntry} {sid accountId : Nat}

/-- The entry of a character, in whichever map it is. -/
def entryOf (w : LoginWorld) (guid : PlayerGuid) : Option SessionEntry :=
  (w.sessions.find guid).or (w.pendingSessions.find guid)

def Apart (w : LoginWorld) : Prop :=
  ∀ guid entry entry', w.sessions.find guid = some entry →
    w.pendingSessions.find guid = some entry' → False

/-- A network session the world knows of is none of `start`. -/
def Foreign (w : LoginWorld) (sid : Nat) : Prop := sid < w.heap.fresh ∧ sid ∉ w.started

structure Sound (w : LoginWorld) : Prop where
  heap : w.heap.Whole
  apart : w.Apart
  held : ∀ guid entry, w.entryOf guid = some entry →
    w.heap.transportOf entry.session = some .headless
  unique : ∀ guid guid' entry entry', w.entryOf guid = some entry → w.entryOf guid' = some entry' →
    entry.session = entry'.session → guid = guid'
  filed : ∀ sid, w.heap.transportOf sid = some .headless →
    sid ∈ w.started ∧ ∃ guid entry, w.entryOf guid = some entry ∧ entry.session = sid
  ended : ∀ sid ∈ w.started,
    w.heap.transportOf sid = some .headless ∧ w.heap.deleted.count sid = 0 ∨
      w.heap.transportOf sid = none ∧ w.heap.deleted.count sid = 1
  started_lt : ∀ sid ∈ w.started, sid < w.heap.fresh
  network : ∀ accountId sid, w.networkSessions.find accountId = some sid → w.Foreign sid
  disconnected : ∀ sid ∈ w.disconnectedSessions, w.Foreign sid

/-! ## The three things a call does -/

namespace Sound

section

variable (hw : w.Sound)
include hw

/-- The session of an entry was made by `start`. -/
theorem started_of_entry (he : w.entryOf guid = some entry) :
    entry.session ∈ w.started := (hw.filed entry.session (hw.held guid entry he)).1

/-- The entries stay, and so do the headless sessions. -/
theorem keep (hheap : w'.heap.Whole)
    (hsame : ∀ sid ∈ w.started, w'.heap.transportOf sid = w.heap.transportOf sid ∧
      w'.heap.deleted.count sid = w.heap.deleted.count sid)
    (hold : ∀ sid, w'.heap.transportOf sid = some .headless → sid ∈ w.started)
    (hfresh : w.heap.fresh ≤ w'.heap.fresh) (hentry : ∀ guid, w'.entryOf guid = w.entryOf guid)
    (hapart : w'.Apart) (hstarted : w'.started = w.started)
    (hnetwork : ∀ accountId sid, w'.networkSessions.find accountId = some sid → w'.Foreign sid)
    (hdisconnected : ∀ sid ∈ w'.disconnectedSessions, w'.Foreign sid) : w'.Sound where
  heap := hheap
  apart := hapart
  held := by
    intro guid entry he
    rw [hentry] at he
    rw [(hsame _ (hw.started_of_entry he)).1]
    exact hw.held guid entry he
  unique := by
    intro guid guid' entry entry' he he'
    rw [hentry] at he he'
    exact hw.unique guid guid' entry entry' he he'
  filed := by
    intro sid hsid
    have hmem := hold sid hsid
    rw [(hsame sid hmem).1] at hsid
    obtain ⟨-, guid, entry, he, hes⟩ := hw.filed sid hsid
    rw [hstarted]
    exact ⟨hmem, guid, entry, by rw [hentry]; exact he, hes⟩
  ended := by
    intro sid hsid
    rw [hstarted] at hsid
    rw [(hsame sid hsid).1, (hsame sid hsid).2]
    exact hw.ended sid hsid
  started_lt := by
    intro sid hsid
    rw [hstarted] at hsid
    exact lt_of_lt_of_le (hw.started_lt sid hsid) hfresh
  network := hnetwork
  disconnected := hdisconnected

/-- Only the objects change, and no session comes or goes. -/
theorem onHeap {f : SessionHeap → SessionHeap} (hheap : (f w.heap).Whole)
    (hsame : SessionHeap.SameSessions w.heap (f w.heap)) : (w.onHeap f).Sound := by
  have hforeign : ∀ {sid}, w.Foreign sid → (w.onHeap f).Foreign sid :=
    fun h => ⟨lt_of_lt_of_le h.1 hsame.fresh, h.2⟩
  refine hw.keep hheap (fun sid _ => ⟨hsame.transportOf sid, congrArg _ hsame.deleted⟩) ?_
    hsame.fresh (fun _ => rfl) hw.apart rfl
    (fun accountId sid h => hforeign (hw.network accountId sid h))
    (fun sid h => hforeign (hw.disconnected sid h))
  intro sid hsid
  rw [show (w.onHeap f).heap = f w.heap from rfl, hsame.transportOf] at hsid
  exact (hw.filed sid hsid).1

/-- An entry goes, and its session is deleted. -/
theorem remove (he : w.entryOf guid = some entry) (hheap : w'.heap.Whole)
    (htransport : ∀ sid, w'.heap.transportOf sid =
      if sid = entry.session then none else w.heap.transportOf sid)
    (hdeleted : w'.heap.deleted = entry.session :: w.heap.deleted)
    (hfresh : w.heap.fresh ≤ w'.heap.fresh)
    (hentry : ∀ g, w'.entryOf g = if g = guid then none else w.entryOf g) (hapart : w'.Apart)
    (hstarted : w'.started = w.started) (hnetwork : w'.networkSessions = w.networkSessions)
    (hdisconnected : w'.disconnectedSessions = w.disconnectedSessions) : w'.Sound := by
  have hold : ∀ {g e}, w'.entryOf g = some e → w.entryOf g = some e ∧ g ≠ guid := by
    intro g e hg
    rw [hentry] at hg
    split_ifs at hg with hne
    exact ⟨hg, hne⟩
  -- no other entry has the same session, by `unique`
  have hne : ∀ {g e}, w.entryOf g = some e → g ≠ guid → e.session ≠ entry.session :=
    fun hg hgne heq => hgne (hw.unique _ guid _ entry hg he heq)
  have hforeign : ∀ {sid}, w.Foreign sid → w'.Foreign sid :=
    fun h => ⟨lt_of_lt_of_le h.1 hfresh, by rw [hstarted]; exact h.2⟩
  constructor
  · exact hheap
  · exact hapart
  · intro g e hg
    obtain ⟨hg, hgne⟩ := hold hg
    rw [htransport, if_neg (hne hg hgne)]
    exact hw.held g e hg
  · intro g g' e e' hg hg'
    exact hw.unique g g' e e' (hold hg).1 (hold hg').1
  · intro sid hsid
    rw [htransport] at hsid
    split_ifs at hsid with hs
    obtain ⟨hmem, g, e, hg, rfl⟩ := hw.filed sid hsid
    refine ⟨by rw [hstarted]; exact hmem, g, e, ?_, rfl⟩
    rw [hentry, if_neg]
    · exact hg
    · -- the entry that went had this session, which is gone
      rintro rfl
      rw [he] at hg
      cases hg
      exact hs rfl
  · intro sid hsid
    rw [hstarted] at hsid
    rw [htransport, hdeleted, List.count_cons]
    by_cases hs : sid = entry.session
    · -- it was alive, so that this is its first deletion
      rcases hw.ended sid hsid with ⟨-, hcount⟩ | ⟨hnone, -⟩
      · refine .inr ⟨if_pos hs, ?_⟩
        rw [hcount, hs]
        simp
      · rw [hs, hw.held guid entry he] at hnone
        cases hnone
    · rw [if_neg hs, if_neg (by simpa using Ne.symm hs), Nat.add_zero]
      exact hw.ended sid hsid
  · intro sid hsid
    rw [hstarted] at hsid
    exact lt_of_lt_of_le (hw.started_lt sid hsid) hfresh
  · intro accountId sid h
    rw [hnetwork] at h
    exact hforeign (hw.network accountId sid h)
  · intro sid h
    rw [hdisconnected] at h
    exact hforeign (hw.disconnected sid h)

/-- The entries move between the maps. -/
theorem sameHeap (hheap : w'.heap = w.heap)
    (hentry : ∀ guid, w'.entryOf guid = w.entryOf guid) (hapart : w'.Apart)
    (hstarted : w'.started = w.started) (hnetwork : w'.networkSessions = w.networkSessions)
    (hdisconnected : w'.disconnectedSessions = w.disconnectedSessions) : w'.Sound := by
  have hforeign : ∀ {sid}, w.Foreign sid → w'.Foreign sid :=
    fun h => ⟨by rw [hheap]; exact h.1, by rw [hstarted]; exact h.2⟩
  refine hw.keep (by rw [hheap]; exact hw.heap) (fun sid _ => by rw [hheap]; exact ⟨rfl, rfl⟩)
    (fun sid hsid => (hw.filed sid (by rw [← hheap]; exact hsid)).1) (by rw [hheap]) hentry hapart
    hstarted ?_ ?_
  · intro accountId sid h
    rw [hnetwork] at h
    exact hforeign (hw.network accountId sid h)
  · intro sid h
    rw [hdisconnected] at h
    exact hforeign (hw.disconnected sid h)

/-- A new headless session, in an entry of its own. -/
theorem created (accountId : Nat) (hnew : w.entryOf guid = none) :
    (w.created accountId guid).Sound := by
  have hactive : w.sessions.find guid = none := (Option.or_eq_none_iff.mp hnew).1
  have hentry : ∀ g, (w.created accountId guid).entryOf g = if g = guid then
      some ⟨w.heap.fresh, accountId, guid, nextToken w.nextRequestToken⟩ else w.entryOf g := by
    intro g
    unfold LoginWorld.created entryOf
    simp only
    rw [find_insert]
    split_ifs with hg
    · rw [hg, hactive]
      rfl
    · rfl
  have htransport : ∀ x, (w.created accountId guid).heap.transportOf x =
      if x = w.heap.fresh then some .headless else w.heap.transportOf x :=
    fun x => SessionHeap.transportOf_newSession ..
  have hstarted : ∀ {x}, x ∈ w.started → x ≠ w.heap.fresh :=
    fun hx => ne_of_lt (hw.started_lt _ hx)
  have hforeign : ∀ {x}, w.Foreign x → (w.created accountId guid).Foreign x := by
    intro x hx
    refine ⟨Nat.lt_succ_of_lt hx.1, fun hmem => ?_⟩
    rcases List.mem_cons.mp hmem with rfl | hmem
    · exact lt_irrefl _ hx.1
    · exact hx.2 hmem
  constructor
  · exact hw.heap.newSession _ _
  · intro g e e' he he'
    have he'' : (w.pendingSessions.insert guid _).find g = some e' := he'
    rw [find_insert] at he''
    split_ifs at he'' with hg
    · rw [hg] at he
      -- `emplace` has found the key free in both maps
      cases (show w.sessions.find guid = some e from he).symm.trans hactive
    · exact hw.apart g e e' he he''
  · intro g e he
    rw [hentry] at he
    rw [htransport]
    split_ifs at he with hg
    · cases he
      rw [if_pos rfl]
    · rw [if_neg (hstarted (hw.started_of_entry he))]
      exact hw.held g e he
  · intro g g' e e' he he' hs
    rw [hentry] at he he'
    split_ifs at he he' with hg hg'
    · -- two entries of the new session, two old ones, or one of each, which never agree
      exact hg.trans hg'.symm
    · cases he
      exact absurd hs.symm (hstarted (hw.started_of_entry he'))
    · cases he'
      exact absurd hs (hstarted (hw.started_of_entry he))
    · exact hw.unique g g' e e' he he' hs
  · intro x hx
    rw [htransport] at hx
    split_ifs at hx with hxf
    · exact ⟨by rw [hxf]; exact List.mem_cons_self, guid, _, by rw [hentry, if_pos rfl], hxf.symm⟩
    · obtain ⟨hmem, g, e, he, hes⟩ := hw.filed x hx
      refine ⟨List.mem_cons_of_mem _ hmem, g, e, ?_, hes⟩
      rw [hentry, if_neg]
      · exact he
      · rintro rfl
        rw [hnew] at he
        cases he
  · intro x hx
    rw [htransport]
    rcases List.mem_cons.mp hx with rfl | hx
    · refine .inl ⟨if_pos rfl, List.count_eq_zero.mpr fun hmem => ?_⟩
      -- the address is new, so nothing of that address has been deleted
      exact lt_irrefl _ (hw.heap.deleted_lt _ hmem)
    · rw [if_neg (hstarted hx)]
      exact hw.ended x hx
  · intro x hx
    rcases List.mem_cons.mp hx with rfl | hx
    · exact Nat.lt_succ_self _
    · exact Nat.lt_succ_of_lt (hw.started_lt x hx)
  · exact fun account x h => hforeign (hw.network account x h)
  · exact fun x h => hforeign (hw.disconnected x h)

end

end Sound

/-! ## Entries -/

/-- An active character has no other entry. -/
theorem entryOf_eraseActive (hapart : w.Apart) (he : w.sessions.find guid = some entry) :
    (w.eraseActive guid).entryOf g = if g = guid then none else w.entryOf g := by
  have hpending : w.pendingSessions.find guid = none :=
    Option.eq_none_iff_forall_ne_some.mpr fun entry' h => hapart guid entry entry' he h
  unfold entryOf eraseActive
  simp only
  rw [find_erase]
  split_ifs with hg
  · rw [hg, hpending]
    rfl
  · rfl

/-- Nor has a pending one. -/
theorem entryOf_erasePending (hapart : w.Apart) (he : w.pendingSessions.find guid = some entry) :
    (w.erasePending guid).entryOf g = if g = guid then none else w.entryOf g := by
  have hactive : w.sessions.find guid = none :=
    Option.eq_none_iff_forall_ne_some.mpr fun entry' h => hapart guid entry' entry h he
  unfold entryOf erasePending
  simp only
  rw [find_erase]
  split_ifs with hg
  · rw [hg, hactive]
    rfl
  · rfl

/-- An active entry is the character's. -/
theorem entryOf_of_active (he : w.sessions.find guid = some entry) :
    w.entryOf guid = some entry := by
  unfold entryOf
  rw [he]
  rfl

/-- So is a pending one, as the maps are apart. -/
theorem entryOf_of_pending (hapart : w.Apart) (he : w.pendingSessions.find guid = some entry) :
    w.entryOf guid = some entry := by
  have hactive : w.sessions.find guid = none :=
    Option.eq_none_iff_forall_ne_some.mpr fun entry' h => hapart guid entry' entry h he
  unfold entryOf
  rw [hactive, he]
  rfl

theorem Apart.eraseActive (hapart : w.Apart) : (w.eraseActive guid).Apart := by
  intro g e e' he he'
  unfold LoginWorld.eraseActive at he
  simp only at he
  rw [find_erase] at he
  split_ifs at he
  exact hapart g e e' he he'

theorem Apart.erasePending (hapart : w.Apart) : (w.erasePending guid).Apart := by
  intro g e e' he he'
  unfold LoginWorld.erasePending at he'
  simp only at he'
  rw [find_erase] at he'
  split_ifs at he'
  exact hapart g e e' he he'

namespace Sound

/-! ## Stopping -/

/-- An active session is destroyed with its entry. -/
theorem destroyActive (hw : w.Sound) (save : Bool) : (w.destroyActive guid save).Sound := by
  unfold LoginWorld.destroyActive
  split
  case h_1 => exact hw
  case h_2 entry he =>
    have hentry := entryOf_of_active he
    have hlt := hw.started_lt _ (hw.started_of_entry hentry)
    exact hw.remove hentry (hw.heap.destroy hlt) (fun _ => SessionHeap.transportOf_destroy)
      SessionHeap.deleted_destroy SessionHeap.fresh_destroy
      (fun _ => entryOf_eraseActive hw.apart he) hw.apart.eraseActive rfl rfl rfl

/-- A pending one likewise. -/
theorem destroyPending (hw : w.Sound) : (w.destroyPending guid).Sound := by
  unfold LoginWorld.destroyPending
  split
  case h_1 => exact hw
  case h_2 entry he =>
    have hentry := entryOf_of_pending hw.apart he
    have hlt := hw.started_lt _ (hw.started_of_entry hentry)
    exact hw.remove hentry (hw.heap.destroy hlt) (fun _ => SessionHeap.transportOf_destroy)
      SessionHeap.deleted_destroy SessionHeap.fresh_destroy
      (fun _ => entryOf_erasePending hw.apart he) hw.apart.erasePending rfl rfl rfl

/-- A loop of calls each of which is sound. -/
theorem foldl {ξ : Type} {f : LoginWorld → ξ → LoginWorld} (hf : ∀ w x, w.Sound → (f w x).Sound)
    (hw : w.Sound) (l : List ξ) : (l.foldl f w).Sound :=
  show (run f w l).Sound from run_invariant (I := LoginWorld.Sound) hf hw l

theorem stop (hw : w.Sound) (save : Bool) : (w.stop guid save).1.Sound := by
  unfold LoginWorld.stop
  split_ifs
  · exact hw.destroyActive save
  · exact hw.destroyPending
  · exact hw

/-- Every session of the account is stopped, the pending ones first. -/
theorem stopForAccount (hw : w.Sound) (save : Bool) : (w.stopForAccount accountId save).Sound :=
  (hw.foldl (fun _ _ h => h.destroyPending) _).foldl (fun _ _ h => h.destroyActive save) _

theorem shutdown (hw : w.Sound) : w.shutdown.Sound :=
  (hw.foldl (fun _ _ h => h.destroyPending) _).foldl (fun _ _ h => h.destroyActive true) _

end Sound

end LoginWorld

end Windrunner
