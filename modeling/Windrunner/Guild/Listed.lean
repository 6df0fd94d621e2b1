import Mathlib.Order.Interval.Finset.Nat
import Windrunner.Guild.Roster

/-!
# Who is on the roster

Both roster functions write the records of the first members of some order (`rosterOrder`), as far as
there is room.

* `RosterPacket.bytes_length`: the length of a packet is that of its parts.
* `RosterGuild.roster_eq`: the packet has the records of `writeWhile`, and their number.
* `RosterPacket.WellFormed`: the packet is not too long, says how many records it has, has none twice,
  and nobody online is left out for somebody else of a worse rank.
* `RosterGuild.wellFormed_iff`: when the packets of a guild are well formed. Nothing but their length can be
  wrong, as long as `totalSize` does not wrap.
-/

namespace Windrunner

open Lib List UInt32

/-! ## Lengths -/

/-- The number of bytes of a record. -/
def RosterRecord.size (r : RosterRecord) : Nat :=
  8 + 1 + (r.name.utf8ByteSize + 1) + 4 + 2 + 4 + (if r.offlineDays.isSome then 4 else 0) +
    (r.publicNote.utf8ByteSize + 1) + (r.officerNote.utf8ByteSize + 1)

@[simp] theorem RosterRecord.bytes_length (r : RosterRecord) : r.bytes.length = r.size := by
  unfold bytes size
  cases r.offlineDays <;> simp <;> omega

/-- The number of bytes before the records. -/
def RosterGuild.headerSize (g : RosterGuild) : Nat :=
  4 + (g.motd.utf8ByteSize + 1) + (g.info.utf8ByteSize + 1) + 4 + 4 * g.ranks.length

theorem RosterGuild.header_length (g : RosterGuild) (count : Nat) :
    (g.header count).bytes.length = g.headerSize := by
  have hranks : ∀ ranks : List UInt32,
      (ranks.flatMap fun rights => littleEndian 4 rights.toNat).length = 4 * ranks.length := by
    intro ranks
    induction ranks with
    | nil => rfl
    | cons r ranks ih =>
      rw [flatMap_cons, length_append, ih, length_littleEndian, length_cons]
      omega
  unfold RosterPacket.bytes headerSize header
  simp [hranks]
  omega

namespace RosterPacket

theorem bytes_length_records (p : RosterPacket) (n : UInt32) (rs : List RosterRecord) :
    { p with count := n, records := p.records ++ rs }.bytes.length =
      p.bytes.length + (rs.map RosterRecord.size).sum := by
  unfold bytes
  simp [length_flatMap, Nat.add_assoc]

theorem bytes_length_append (p : RosterPacket) (r : RosterRecord) :
    { p with records := p.records ++ [r] }.bytes.length = p.bytes.length + r.size := by
  rw [bytes_length_records p p.count, map_singleton, sum_singleton]

/-- A record may be begun. -/
abbrev Room (inPacketCap : Bool) (used : Nat) : Prop :=
  inPacketCap = true ∨ used + guildMemberBlockSize < maxUncompressedPacketSize

/-- A loop writes the records of the first members that it does not skip. -/
theorem writeMembers_eq (inPacketCap : Bool) (skip : TempMemberInfo → Bool)
    (record : TempMemberInfo → RosterRecord) (ms : List TempMemberInfo) (p : RosterPacket) (n : UInt32)
    {w : List TempMemberInfo} (hw : w = writeWhile (Room inPacketCap) (fun m => (record m).size)
      p.bytes.length (ms.filter fun m => !skip m)) :
    writeMembers inPacketCap skip record ms (p, n) =
      ({ p with records := p.records ++ w.map record }, n + ofNat w.length) := by
  subst hw
  induction ms generalizing p n with
  | nil => simp [writeMembers, writeWhile]
  | cons m ms ih =>
    unfold writeMembers
    by_cases hs : skip m = true
    · rw [if_pos hs, ih, filter_cons_of_neg (by simp [hs])]
    · rw [if_neg hs, filter_cons_of_pos (by simpa using hs), writeWhile]
      unfold writeMemberData
      by_cases hroom : Room inPacketCap p.bytes.length
      · have hno : ¬ (inPacketCap = false ∧
            p.bytes.length + guildMemberBlockSize ≥ maxUncompressedPacketSize) := by
          rintro ⟨hcap, hge⟩
          obtain h | h := hroom
          · cases hcap.symm.trans h
          · omega
        rw [if_neg hno, if_pos hroom]
        dsimp only
        rw [ih, bytes_length_append, map_cons, length_cons, ofNat_add, append_assoc,
          singleton_append, add_assoc, add_comm 1]
        rfl
      · have hyes : inPacketCap = false ∧
            p.bytes.length + guildMemberBlockSize ≥ maxUncompressedPacketSize := by
          obtain ⟨hcap, hge⟩ := not_or.mp hroom
          exact ⟨Bool.eq_false_iff.mpr hcap, Nat.le_of_not_lt hge⟩
        rw [if_pos hyes, if_neg hroom]
        simp

/-- The packet is not too long, says how many records it has, has a record for no member twice and for
nobody else, and whoever of those online is left out is so for others online of no worse rank. -/
structure WellFormed (p : RosterPacket) (ms : List TempMemberInfo) : Prop where
  fits : p.bytes.length ≤ maxUncompressedPacketSize
  count : p.count.toNat = p.records.length
  members : ∀ r ∈ p.records, ∃ m ∈ ms, r.guid = m.slot.guid ∧ r.rankId = m.slot.rankId ∧ r.online = m.isOnline
  nodup : (p.records.map (·.guid)).Nodup
  preferred : ∀ m ∈ ms, m.isOnline = true → (∀ r ∈ p.records, r.guid ≠ m.slot.guid) →
    ∀ r ∈ p.records, r.online = true ∧ r.rankId ≤ m.slot.rankId

end RosterPacket

namespace RosterGuild

variable {g : RosterGuild} {now : RosterMoment} {session : Option Nat} {inPacketCap : Bool}
  {ms w : List TempMemberInfo} {record : TempMemberInfo → RosterRecord}

/-! ## Members -/

theorem infos_guids : ((g.infos now).map (·.slot.guid)).Nodup := by
  unfold infos
  rw [map_map]
  exact g.keyed

variable {m : TempMemberInfo}

theorem guid_inj {m' : TempMemberInfo} (hm : m ∈ g.infos now) (hm' : m' ∈ g.infos now)
    (h : m.slot.guid = m'.slot.guid) : m = m' :=
  inj_on_of_nodup_map infos_guids hm hm' h

/-- Members without a double are fewer than the guids there are. -/
theorem length_lt (hw : ∀ m ∈ w, m ∈ g.infos now) (hn : (w.map (·.slot.guid)).Nodup) : w.length < 2 ^ 32 := by
  have hsub : (w.map (·.slot.guid)).toFinset ⊆ Finset.Ioo 0 (2 ^ 32) := by
    intro guid hguid
    obtain ⟨m, hm, rfl⟩ := mem_map.mp (mem_toFinset.mp hguid)
    obtain ⟨s, hs, rfl⟩ := mem_map.mp (hw m hm)
    exact Finset.mem_Ioo.mpr (g.low s hs)
  have hle := Finset.card_le_card hsub
  rw [toFinset_card_of_nodup hn, length_map, Nat.card_Ioo] at hle
  omega

/-- Sorted or not, they are the same members. -/
theorem perm_sortUnless : (sortUnless now inPacketCap ms).Perm ms := by
  unfold sortUnless
  split_ifs
  · exact .refl ms
  · exact now.byRank.perm ms

/-- Whoever of those online is not listed is so for others online of no worse rank. -/
def Preferred (g : RosterGuild) (now : RosterMoment) (listed : List TempMemberInfo) : Prop :=
  ∀ m ∈ g.infos now, m.isOnline = true → m ∉ listed →
    ∀ x ∈ listed, x.isOnline = true ∧ x.slot.rankId ≤ m.slot.rankId

/-- When the estimate is below the limit, so is what all records need. Otherwise no record that is begun where a
block fits ends beyond the limit. -/
structure Fits (g : RosterGuild) (inPacketCap : Bool) (size : TempMemberInfo → Nat) (order : List TempMemberInfo) :
    Prop where
  header : g.headerSize ≤ maxUncompressedPacketSize
  all : inPacketCap = true → g.headerSize + (order.map size).sum ≤ maxUncompressedPacketSize
  begun : inPacketCap = false → ∀ before m after, order = before ++ m :: after →
    g.headerSize + (before.map size).sum + guildMemberBlockSize < maxUncompressedPacketSize →
    g.headerSize + (before.map size).sum + size m ≤ maxUncompressedPacketSize

/-- A packet ends within its size exactly when all that fits was written. -/
theorem fits_iff {size : TempMemberInfo → Nat} {order : List TempMemberInfo}
    (hw : w = writeWhile (RosterPacket.Room inPacketCap) size g.headerSize order) :
    g.headerSize + (w.map size).sum ≤ maxUncompressedPacketSize ↔ g.Fits inPacketCap size order := by
  cases inPacketCap with
  | true =>
    rw [hw, writeWhile_all fun _ => .inl rfl]
    exact ⟨fun h => ⟨Nat.le_trans (Nat.le_add_right ..) h, fun _ => h, fun h => (by cases h)⟩, fun h => h.all rfl⟩
  | false =>
    rw [hw, writeWhile_le_iff fun a b hab hb => hb.imp id fun h => by omega]
    constructor
    · exact fun h => ⟨h.1, fun h => (by cases h), fun _ before m after he hroom => h.2 before m after he (.inr hroom)⟩
    · refine fun h => ⟨h.header, fun before m after he hroom => h.begun rfl before m after he ?_⟩
      exact hroom.resolve_left (by simp)

/-- The packet of the members that are written. -/
def packetOf (g : RosterGuild) (count : Nat) (record : TempMemberInfo → RosterRecord) (w : List TempMemberInfo) :
    RosterPacket :=
  { g.header count with count := ofNat w.length, records := w.map record }

theorem packetOf_length {count : Nat} : (g.packetOf count record w).bytes.length =
    g.headerSize + (w.map fun m => (record m).size).sum := by
  have h := RosterPacket.bytes_length_records (g.header count) (ofNat w.length) (w.map record)
  rw [header_length, map_map] at h
  exact h

/-- A packet of members of the guild is well formed when it fits and prefers whom it should. -/
theorem packetOf_wellFormed_iff {count : Nat} {order : List TempMemberInfo} (hmem : ∀ m ∈ order, m ∈ g.infos now)
    (hnodup : (order.map (·.slot.guid)).Nodup)
    (hrecord : ∀ m ∈ order, (record m).guid = m.slot.guid ∧ (record m).rankId = m.slot.rankId ∧
      (record m).online = m.isOnline)
    (hw : w = writeWhile (RosterPacket.Room inPacketCap) (fun m => (record m).size) g.headerSize order) :
    (g.packetOf count record w).WellFormed (g.infos now) ↔
      g.Fits inPacketCap (fun m => (record m).size) order ∧ g.Preferred now w := by
  have hfirst : w <+: order := hw ▸ writeWhile_prefix
  have hsub : ∀ m ∈ w, m ∈ order := fun m hm => hfirst.subset hm
  have hwnodup : (w.map (·.slot.guid)).Nodup := hnodup.sublist (hfirst.sublist.map _)
  have hlen : w.length < 2 ^ 32 := length_lt (fun m hm => hmem m (hsub m hm)) hwnodup
  have hguids : (w.map record).map (·.guid) = w.map (·.slot.guid) := by
    rw [map_map]
    exact map_congr_left fun m hm => (hrecord m (hsub m hm)).1
  have hfits : (g.packetOf count record w).bytes.length ≤ maxUncompressedPacketSize ↔
      g.Fits inPacketCap (fun m => (record m).size) order := by
    rw [packetOf_length]
    exact fits_iff hw
  have hlisted : ∀ m ∈ g.infos now, (∀ r ∈ (g.packetOf count record w).records, r.guid ≠ m.slot.guid) ↔ m ∉ w := by
    intro m hm
    constructor
    · exact fun h hmw => h (record m) (mem_map_of_mem hmw) (hrecord m (hsub m hmw)).1
    · intro h r hr hguid
      obtain ⟨x, hx, rfl⟩ := mem_map.mp hr
      rw [(hrecord x (hsub x hx)).1] at hguid
      exact h (guid_inj (hmem x (hsub x hx)) hm hguid ▸ hx)
  constructor
  · intro h
    refine ⟨hfits.mp h.fits, fun m hm hon hmw x hx => ?_⟩
    obtain ⟨-, hrank, honline⟩ := hrecord x (hsub x hx)
    obtain ⟨hon', hle⟩ := h.preferred m hm hon ((hlisted m hm).mpr hmw) (record x) (mem_map_of_mem hx)
    exact ⟨honline ▸ hon', hrank ▸ hle⟩
  · rintro ⟨hfit, hpref⟩
    refine ⟨hfits.mpr hfit, ?_, fun r hr => ?_, hguids ▸ hwnodup, fun m hm hon hno r hr => ?_⟩
    · unfold packetOf
      rw [length_map]
      exact toNat_ofNat_of_lt' hlen
    · obtain ⟨x, hx, rfl⟩ := mem_map.mp hr
      exact ⟨x, hmem x (hsub x hx), hrecord x (hsub x hx)⟩
    · obtain ⟨x, hx, rfl⟩ := mem_map.mp hr
      obtain ⟨-, hrank, honline⟩ := hrecord x (hsub x hx)
      obtain ⟨hon', hle⟩ := hpref m hm hon ((hlisted m hm).mp hno) x hx
      exact ⟨honline.trans hon', hrank.symm ▸ hle⟩

/-! ## The order of the members -/

theorem mem_onlineMembers :
    m ∈ g.onlineMembers now ↔ m ∈ g.infos now ∧ m.isOnline = true := mem_filter

theorem record_data (m : TempMemberInfo) (daysSince : UInt64 → UInt32) (note : Bool) :
    (m.record daysSince note).guid = m.slot.guid ∧ (m.record daysSince note).rankId = m.slot.rankId ∧
      (m.record daysSince note).online = m.isOnline := by
  unfold TempMemberInfo.record TempMemberInfo.isOnline
  cases m.member <;> exact ⟨rfl, rfl, rfl⟩

/-- Nobody of those online is skipped. -/
theorem filter_player (h : ∀ m ∈ ms, m.isOnline = true) : ms.filter (fun m => !m.member.isNone) = ms := by
  refine filter_eq_self.mpr fun m hm => ?_
  have hon := h m hm
  unfold TempMemberInfo.isOnline at hon
  cases hplayer : m.member with
  | none =>
    rw [hplayer] at hon
    cases hon
  | some player => rfl

/-- Those online, as `Roster` puts them. -/
def onlineOrder (g : RosterGuild) (now : RosterMoment) : List TempMemberInfo :=
  sortUnless now (g.inPacketCap now) (g.onlineMembers now)

/-- The members that `Roster` does not skip, in its order. -/
def rosterOrder (g : RosterGuild) (now : RosterMoment) : List TempMemberInfo :=
  (g.onlineOrder now).take (g.onlineKept now) ++
    ((sortUnless now (g.inPacketCap now) (g.offlineMembers now)).take (g.offlineKept now)).filter
      fun m => !skipOffline m

theorem mem_onlineOrder :
    m ∈ g.onlineOrder now ↔ m ∈ g.infos now ∧ m.isOnline = true :=
  perm_sortUnless.mem_iff.trans mem_onlineMembers

/-- `Roster` is the loop over its order. -/
theorem roster_eq : ∃ count, g.roster now session =
    g.packetOf count (fun m => m.record now.daysSince (g.sendOfficerNote session))
      (writeWhile (RosterPacket.Room (g.inPacketCap now))
        (fun m => (m.record now.daysSince (g.sendOfficerNote session)).size) g.headerSize (g.rosterOrder now)) := by
  refine ⟨min ((g.onlineMembers now).length + (g.offlineMembers now).length) guildMaxMembers, ?_⟩
  have hfilter : ((g.onlineOrder now).take (g.onlineKept now)).filter (fun m => !m.member.isNone) =
      (g.onlineOrder now).take (g.onlineKept now) :=
    filter_player fun m hm => (mem_onlineOrder.mp (mem_of_mem_take hm)).2
  unfold onlineOrder at hfilter
  unfold roster rosterOrder onlineOrder packetOf
  dsimp only
  generalize min ((g.onlineMembers now).length + (g.offlineMembers now).length) guildMaxMembers = count
  rw [RosterPacket.writeMembers_eq _ _ _ _ _ _ rfl, RosterPacket.writeMembers_eq _ _ _ _ _ _ rfl,
    writeWhile_append, header_length, RosterPacket.bytes_length_records (g.header count) (g.header count).count,
    header_length, hfilter]
  simp only [map_map, map_append, length_append, ofNat_add, zero_add]
  rfl

/-- The packet's order leaves out members and repeats none. -/
theorem rosterOrder_sublist : (g.rosterOrder now).Sublist
    (g.onlineOrder now ++ sortUnless now (g.inPacketCap now) (g.offlineMembers now)) :=
  (take_sublist ..).append (filter_sublist.trans (take_sublist ..))

theorem orders_perm : (g.onlineOrder now ++ sortUnless now (g.inPacketCap now) (g.offlineMembers now)).Perm
    (g.infos now) :=
  (perm_sortUnless.append perm_sortUnless).trans (filter_append_perm TempMemberInfo.isOnline (g.infos now))

theorem rosterOrder_mem : ∀ m ∈ g.rosterOrder now, m ∈ g.infos now :=
  fun _ hm => orders_perm.mem_iff.mp (rosterOrder_sublist.subset hm)

theorem rosterOrder_nodup : ((g.rosterOrder now).map (·.slot.guid)).Nodup :=
  ((orders_perm.map _).nodup_iff.mpr infos_guids).sublist (rosterOrder_sublist.map _)

/-- Somebody online whom `Roster` drops is one of too many, and then it lists nobody who is not online. -/
theorem dropped (hm : m ∈ g.onlineOrder now)
    (hno : m ∉ (g.onlineOrder now).take (g.onlineKept now)) :
    m ∈ (g.onlineOrder now).drop guildMaxMembers ∧ g.onlineKept now = guildMaxMembers ∧
      g.rosterOrder now = (g.onlineOrder now).take guildMaxMembers := by
  have hlen : (g.onlineOrder now).length = (g.onlineMembers now).length := perm_sortUnless.length_eq
  have hdrop : m ∈ (g.onlineOrder now).drop (g.onlineKept now) := by
    rw [← take_append_drop (g.onlineKept now) (g.onlineOrder now)] at hm
    exact (mem_append.mp hm).resolve_left hno
  have hkept : g.onlineKept now = guildMaxMembers := by
    have hpos := length_pos_of_mem hdrop
    rw [length_drop, hlen] at hpos
    unfold onlineKept at hpos ⊢
    omega
  refine ⟨hkept ▸ hdrop, hkept, ?_⟩
  have hnone : g.offlineKept now = 0 := by
    unfold offlineKept
    rw [hkept, Nat.sub_self, Nat.min_zero]
  unfold rosterOrder
  rw [hnone, hkept, take_zero, filter_nil, append_nil]

/-! ## Whom the roster prefers -/

/-- Where the members are not sorted, those online whom `Roster` drops have no better rank than those
it keeps. -/
def Culled (g : RosterGuild) (now : RosterMoment) : Prop :=
  g.inPacketCap now = true → ∀ x ∈ (g.onlineMembers now).drop guildMaxMembers,
    ∀ y ∈ (g.onlineMembers now).take guildMaxMembers, y.slot.rankId ≤ x.slot.rankId

theorem sortUnless_sorted (h : inPacketCap = false) :
    (sortUnless now inPacketCap ms).Pairwise fun a b => a.slot.rankId ≤ b.slot.rankId := by
  unfold sortUnless
  rw [h]
  exact now.byRank.sorted ms

/-- Of a list in the order of the ranks, when only the first are listed. -/
theorem rank_le {l : List TempMemberInfo} (hl : l.Pairwise fun a b => a.slot.rankId ≤ b.slot.rankId)
    (hw : w <+: l) {x : TempMemberInfo} (hx : x ∈ w) (hm : m ∈ l) (hno : m ∉ w) :
    x.slot.rankId ≤ m.slot.rankId := by
  obtain ⟨rest, rfl⟩ := hw
  exact (pairwise_append.mp hl).2.2 x hx m ((mem_append.mp hm).resolve_left hno)

/-- `Roster` prefers whom it should exactly when who is online was culled by rank. -/
theorem roster_preferred_iff {size : TempMemberInfo → Nat} {used : Nat}
    (hw : w = writeWhile (RosterPacket.Room (g.inPacketCap now)) size used (g.rosterOrder now)) :
    g.Preferred now w ↔ g.Culled now := by
  have hfirst : w <+: g.rosterOrder now := hw ▸ writeWhile_prefix
  have hcap : g.inPacketCap now = true → w = g.rosterOrder now := fun h =>
    hw.trans (writeWhile_all fun _ => .inl h)
  constructor
  · intro hpref hin x hx y hy
    have horder : g.onlineOrder now = g.onlineMembers now := by
      unfold onlineOrder sortUnless
      rw [hin]
      rfl
    have hnodup : (g.onlineOrder now).Nodup :=
      .of_map _ (((orders_perm.map _).nodup_iff.mpr infos_guids).sublist
        ((sublist_append_left ..).map _))
    rw [← horder] at hx hy
    have hxmem := mem_of_mem_drop hx
    have hxno : x ∉ (g.onlineOrder now).take guildMaxMembers := by
      rw [← take_append_drop guildMaxMembers (g.onlineOrder now)] at hnodup
      exact fun h => (nodup_append.mp hnodup).2.2 x h x hx rfl
    have hkept : g.onlineKept now ≤ guildMaxMembers := Nat.min_le_right ..
    obtain ⟨-, -, hlisted⟩ := dropped hxmem fun h =>
      hxno ((take_subset_take_left _ hkept) h)
    have hw' := (hcap hin).trans hlisted
    obtain ⟨hinfo, hon⟩ := mem_onlineOrder.mp hxmem
    exact (hpref x hinfo hon (hw' ▸ hxno) y (hw' ▸ hy)).2
  · intro hculled m hm hon hno x hx
    have hmem : m ∈ g.onlineOrder now := mem_onlineOrder.mpr ⟨hm, hon⟩
    by_cases hkept : m ∈ (g.onlineOrder now).take (g.onlineKept now)
    · -- the writing stopped among those online
      have hsorted : g.inPacketCap now = false := by
        rw [← Bool.not_eq_true]
        exact fun h => hno (hcap h ▸ mem_append_left _ hkept)
      have hshort : w <+: (g.onlineOrder now).take (g.onlineKept now) := by
        have hpre := prefix_or_prefix_of_prefix hfirst (prefix_append ..)
        exact hpre.resolve_right fun h => hno (h.subset hkept)
      have hle := rank_le ((sortUnless_sorted hsorted).sublist (take_sublist ..)) hshort hx hkept hno
      exact ⟨(mem_onlineOrder.mp (mem_of_mem_take (hshort.subset hx))).2, hle⟩
    · obtain ⟨hdrop, -, hlisted⟩ := dropped hmem hkept
      rw [hlisted] at hfirst
      have hx' := hfirst.subset hx
      refine ⟨(mem_onlineOrder.mp (mem_of_mem_take hx')).2, ?_⟩
      cases hin : g.inPacketCap now with
      | true =>
        have horder : g.onlineOrder now = g.onlineMembers now := by
          unfold onlineOrder sortUnless
          rw [hin]
          rfl
        rw [horder] at hdrop hx'
        exact hculled hin m hdrop x hx'
      | false =>
        have hall : (g.onlineOrder now).Pairwise fun a b => a.slot.rankId ≤ b.slot.rankId := sortUnless_sorted hin
        exact rank_le hall (hfirst.trans <| take_prefix ..) hx hmem hno

/-! ## The roster of those online -/

/-- The record that `BuildOnlineRosterPacket` writes. -/
def onlineRecord (now : RosterMoment) (note : Bool) (m : TempMemberInfo) : RosterRecord :=
  m.member.elim (m.record now.daysSince note) fun player => m.ofPlayer player true note

theorem onlineRecord_data {note : Bool} (h : m.isOnline = true) :
    (onlineRecord now note m).guid = m.slot.guid ∧ (onlineRecord now note m).rankId = m.slot.rankId ∧
      (onlineRecord now note m).online = m.isOnline := by
  rw [h]
  unfold TempMemberInfo.isOnline at h
  unfold onlineRecord
  cases hplayer : m.member with
  | none =>
    rw [hplayer] at h
    cases h
  | some player => exact ⟨rfl, rfl, rfl⟩

theorem mem_sortUnless : m ∈ sortUnless now inPacketCap (g.onlineMembers now) ↔
    m ∈ g.infos now ∧ m.isOnline = true :=
  perm_sortUnless.mem_iff.trans mem_onlineMembers

/-- So is the list of who is online. -/
theorem onlineRoster_eq {note : Bool} : ∃ count, g.onlineRoster now note =
    g.packetOf count (onlineRecord now note)
      (writeWhile (RosterPacket.Room (g.onlineInPacketCap now note)) (fun m => (onlineRecord now note m).size)
        g.headerSize (sortUnless now (g.onlineInPacketCap now note) (g.onlineMembers now))) := by
  refine ⟨(g.onlineMembers now).length, ?_⟩
  have hfilter : (sortUnless now (g.onlineInPacketCap now note) (g.onlineMembers now)).filter
      (fun m => !m.member.isNone) = sortUnless now (g.onlineInPacketCap now note) (g.onlineMembers now) :=
    filter_player fun m hm => (mem_sortUnless.mp hm).2
  unfold onlineRoster packetOf
  dsimp only
  rw [RosterPacket.writeMembers_eq _ _ _ _ _ _ rfl, header_length, hfilter, zero_add]
  rfl

theorem onlineRoster_preferred {note : Bool} {size : TempMemberInfo → Nat} {used : Nat}
    (hw : w = writeWhile (RosterPacket.Room (g.onlineInPacketCap now note)) size used
      (sortUnless now (g.onlineInPacketCap now note) (g.onlineMembers now))) : g.Preferred now w := by
  have hfirst : w <+: sortUnless now (g.onlineInPacketCap now note) (g.onlineMembers now) :=
    hw ▸ writeWhile_prefix
  intro m hm hon hno x hx
  have hmem : m ∈ sortUnless now (g.onlineInPacketCap now note) (g.onlineMembers now) :=
    mem_sortUnless.mpr ⟨hm, hon⟩
  refine ⟨(mem_sortUnless.mp (hfirst.subset hx)).2, ?_⟩
  cases hin : g.onlineInPacketCap now note with
  | true =>
    have hall := hw.trans (writeWhile_all fun _ => .inl hin)
    exact absurd (hall ▸ hmem) hno
  | false => exact rank_le (sortUnless_sorted hin) hfirst hx hmem hno

/-! ## When the packets are well formed -/

/-- The records that `Roster` begins end within the limit, and those online whom it drops without having sorted
them have no better rank. -/
def RosterFits (g : RosterGuild) (now : RosterMoment) (session : Option Nat) : Prop :=
  g.Fits (g.inPacketCap now) (fun m => (m.record now.daysSince (g.sendOfficerNote session)).size)
    (g.rosterOrder now) ∧ g.Culled now

/-- The same of `BuildOnlineRosterPacket`, which drops nobody beforehand. -/
def OnlineRosterFits (g : RosterGuild) (now : RosterMoment) (note : Bool) : Prop :=
  g.Fits (g.onlineInPacketCap now note) (fun m => (onlineRecord now note m).size)
    (sortUnless now (g.onlineInPacketCap now note) (g.onlineMembers now))

/-- Both packets are whole exactly when the header and its members fit. -/
theorem wellFormed_iff (g : RosterGuild) (now : RosterMoment) (session : Option Nat) (note : Bool) :
    ((g.roster now session).WellFormed (g.infos now) ↔ g.RosterFits now session) ∧
      ((g.onlineRoster now note).WellFormed (g.infos now) ↔ g.OnlineRosterFits now note) := by
  constructor
  · obtain ⟨count, he⟩ : ∃ count, g.roster now session = _ := roster_eq
    rw [he, packetOf_wellFormed_iff rosterOrder_mem rosterOrder_nodup (fun m _ => record_data m _ _) rfl]
    exact and_congr_right fun _ => roster_preferred_iff rfl
  · obtain ⟨count, he⟩ : ∃ count, g.onlineRoster now note = _ := onlineRoster_eq
    have hperm : (sortUnless now (g.onlineInPacketCap now note) (g.onlineMembers now)).Perm (g.onlineMembers now) :=
      perm_sortUnless
    have hnodup : ((g.onlineMembers now).map (·.slot.guid)).Nodup :=
      infos_guids.sublist (filter_sublist.map _)
    rw [he, packetOf_wellFormed_iff (fun m hm => (mem_sortUnless.mp hm).1) ((hperm.map _).nodup_iff.mpr hnodup)
      (fun m hm => onlineRecord_data (mem_sortUnless.mp hm).2) rfl]
    exact and_iff_left (onlineRoster_preferred rfl)

/-! ## Long names -/

/-- What `Roster` reckons with for a member. -/
def memberEstimate (m : TempMemberInfo) : Nat :=
  guildMemberBlockSizeWithoutNote + (m.slot.publicNote.utf8ByteSize + 1 + m.slot.officerNote.utf8ByteSize + 1)

theorem headerEstimate_eq : g.headerEstimate = ofNat g.headerSize := by
  have hfour : (4 : UInt32) = ofNat 4 := rfl
  unfold headerEstimate headerSize
  rw [hfour, ← ofNat_add, ← ofNat_add, ← ofNat_add]
  refine congrArg ofNat ?_
  omega

/-- The estimate is a sum in 32 bits. -/
theorem totalSize_eq : g.totalSize now =
    ofNat (g.headerSize + ((g.infos now).map memberEstimate).sum) := by
  have hfold : ∀ (ms : List TempMemberInfo) (n : Nat), ms.foldl (fun total m =>
      total + ofNat guildMemberBlockSizeWithoutNote +
        ofNat (m.slot.publicNote.utf8ByteSize + 1 + m.slot.officerNote.utf8ByteSize + 1)) (ofNat n) =
      ofNat (n + (ms.map memberEstimate).sum) := by
    intro ms
    induction ms with
    | nil => exact fun n => rfl
    | cons m ms ih =>
      intro n
      rw [foldl_cons, ← ofNat_add, ← ofNat_add, ih, map_cons, sum_cons]
      unfold memberEstimate
      simp only [Nat.add_assoc]
  unfold totalSize
  rw [headerEstimate_eq, hfold]

/-- A guild within the limits of the client: short texts, names and notes, the notes as the setters leave
them. -/
structure Valid (g : RosterGuild) (now : RosterMoment) : Prop where
  motd : g.motd.utf8ByteSize ≤ guildMotdMaxLength
  info : g.info.utf8ByteSize ≤ guildInfoMaxLength
  ranks : g.ranks.length ≤ guildRanksMaxCount
  name : ∀ m ∈ g.infos now, m.details.name.utf8ByteSize ≤ maxInternalPlayerName ∧
    ∀ player ∈ m.member, player.name.utf8ByteSize ≤ maxInternalPlayerName
  note : ∀ m ∈ g.infos now, (∃ note : String, note.utf8ByteSize ≤ guildNoteMaxLength ∧
      m.slot.publicNote = escapeString note) ∧
    ∃ note : String, note.utf8ByteSize ≤ guildNoteMaxLength ∧ m.slot.officerNote = escapeString note

/-- Nobody is in the world. -/
def nightMoment : RosterMoment where
  findPlayer _ := none
  daysSince _ := 0
  byRank := .byKey fun m : TempMemberInfo => m.slot.rankId

def manyMembers (n : Nat) : List GuildMember :=
  (range n).map fun i => { guid := i + 1, rankId := if i = 0 then 0 else 4 }

theorem of_mem_manyMembers {n : Nat} {s : GuildMember} (h : s ∈ manyMembers n) :
    (0 < s.guid ∧ s.guid ≤ n) ∧ s.publicNote = "" ∧ s.officerNote = "" := by
  obtain ⟨i, hi, rfl⟩ := mem_map.mp h
  exact ⟨⟨Nat.succ_pos i, mem_range.mp hi⟩, rfl, rfl⟩

theorem manyMembers_guids (n : Nat) : ((manyMembers n).map (·.guid)).Nodup := by
  unfold manyMembers
  rw [map_map]
  exact nodup_range.map fun i j h => Nat.succ.inj h

/-- A guild whose members have names of seven Russian letters, fourteen bytes. -/
def russianGuild (n : Nat) (hn : n < 2 ^ 32) : RosterGuild where
  id := 1
  leaderGuid := 1
  members := manyMembers n
  ranks := replicate 5 ⟨"Rank", rightEmpty⟩
  details _ := { name := "Наталья", level := 60, cls := 1, zoneId := 12, logoutTime := 0 }
  keyed := manyMembers_guids n
  low s hs := by
    obtain ⟨⟨hpos, hle⟩, -⟩ := of_mem_manyMembers hs
    omega

section Russian

variable {n : Nat} {hn : n < 2 ^ 32}

theorem russianGuild_infos {m : TempMemberInfo} (hm : m ∈ (russianGuild n hn).infos nightMoment) :
    m.details.name = "Наталья" ∧ m.member = none ∧ m.slot.publicNote = "" ∧ m.slot.officerNote = "" := by
  obtain ⟨s, hs, rfl⟩ := mem_map.mp hm
  exact ⟨rfl, rfl, (of_mem_manyMembers hs).2⟩

theorem russianGuild_valid : (russianGuild n hn).Valid nightMoment := by
  have hempty : ("" : String).utf8ByteSize ≤ guildMotdMaxLength := by decide
  have hranks : (replicate 5 (RankInfo.mk "Rank" rightEmpty)).length ≤ guildRanksMaxCount := by decide
  refine ⟨hempty, Nat.le_trans hempty (by decide), hranks, fun m hm => ?_, fun m hm => ?_⟩
  · obtain ⟨hname, hplayer, -⟩ := russianGuild_infos hm
    rw [hname, hplayer]
    exact ⟨by decide, fun player hp => by cases hp⟩
  · obtain ⟨-, -, hpublic, hofficer⟩ := russianGuild_infos hm
    rw [hpublic, hofficer]
    exact ⟨⟨"", by decide, by decide⟩, ⟨"", by decide, by decide⟩⟩

theorem russianGuild_length : ((russianGuild n hn).infos nightMoment).length = n := by
  unfold infos russianGuild manyMembers
  rw [length_map, length_map, length_range]

theorem russianGuild_sum {f : TempMemberInfo → Nat} {k : Nat}
    (h : ∀ m ∈ (russianGuild n hn).infos nightMoment, f m = k) :
    (((russianGuild n hn).infos nightMoment).map f).sum = n * k := by
  rw [map_congr_left h, map_const', sum_replicate_nat, russianGuild_length]

theorem russianGuild_totalSize : (russianGuild n hn).totalSize nightMoment = ofNat (30 + n * 39) := by
  have hsum : (((russianGuild n hn).infos nightMoment).map memberEstimate).sum = n * 39 := by
    refine russianGuild_sum fun m hm => ?_
    obtain ⟨-, -, hpublic, hofficer⟩ := russianGuild_infos hm
    unfold memberEstimate
    rw [hpublic, hofficer]
    decide
  rw [totalSize_eq, hsum]
  rfl

/-- When the estimate is low, all are written who are not too many. -/
theorem russianGuild_bytes (hcap : (russianGuild n hn).inPacketCap nightMoment = true) (hle : n ≤ guildMaxMembers) :
    ((russianGuild n hn).roster nightMoment none).bytes.length = 30 + n * 40 := by
  have hoffline : ∀ m ∈ (russianGuild n hn).infos nightMoment, m.isOnline = false := by
    intro m hm
    unfold TempMemberInfo.isOnline
    rw [(russianGuild_infos hm).2.1]
    rfl
  have honline : (russianGuild n hn).onlineMembers nightMoment = [] :=
    filter_eq_nil_iff.mpr fun m hm => by rw [hoffline m hm]; exact Bool.false_ne_true
  have hrest : (russianGuild n hn).offlineMembers nightMoment = (russianGuild n hn).infos nightMoment :=
    filter_eq_self.mpr fun m hm => by rw [hoffline m hm]; rfl
  have horder : (russianGuild n hn).rosterOrder nightMoment = (russianGuild n hn).infos nightMoment := by
    unfold rosterOrder onlineOrder offlineKept onlineKept sortUnless
    rw [hcap, honline, hrest, russianGuild_length]
    have hkeep : min n (guildMaxMembers - min ([] : List TempMemberInfo).length guildMaxMembers) = n := by
      rw [length_nil, Nat.zero_min, Nat.sub_zero, Nat.min_eq_left hle]
    rw [hkeep, if_pos rfl, if_pos rfl, take_nil, nil_append,
      take_of_length_le (Nat.le_of_eq russianGuild_length)]
    refine filter_eq_self.mpr fun m hm => ?_
    unfold skipOffline
    rw [hoffline m hm, (russianGuild_infos hm).1]
    decide
  obtain ⟨count, he⟩ : ∃ count, (russianGuild n hn).roster nightMoment none = _ := roster_eq
  rw [he, packetOf_length, hcap, writeWhile_all fun _ => .inl rfl, horder, russianGuild_sum fun m hm => ?_]
  · rfl
  · obtain ⟨hname, hplayer, hpublic, hofficer⟩ := russianGuild_infos hm
    unfold TempMemberInfo.record
    rw [hplayer]
    dsimp only
    rw [hname, hpublic, hofficer, ite_self]
    rfl

end Russian

/-- The estimate is 32400, what is written 33230. -/
theorem russianGuild_too_long : (russianGuild 830 (by decide)).Valid nightMoment ∧
    ¬ ((russianGuild 830 (by decide)).roster nightMoment none).WellFormed
      ((russianGuild 830 (by decide)).infos nightMoment) := by
  refine ⟨russianGuild_valid, fun h => ?_⟩
  have hcap : (russianGuild 830 (by decide)).inPacketCap nightMoment = true := by
    unfold inPacketCap
    rw [russianGuild_totalSize]
    rfl
  have hfits := h.fits
  rw [russianGuild_bytes hcap (by decide)] at hfits
  exact absurd hfits (by decide)

end RosterGuild

end Windrunner
