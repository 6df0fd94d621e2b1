import Windrunner.Auction.State

/-!
# The containers of the auction house agree

The auctions of a house are in three containers, their items in `mAitems` and their rows in the
table `auction`.

* `AuctionWorld.Agrees`: all of them hold the same auctions.
* `Agrees.set`, `Agrees.close`, `Agrees.list`: an auction changes, leaves or is added.
* `AuctionWorld.agrees_of_run`: this holds in every run in which no owner of an auction gets
  his auctions removed by `RemoveAllAuctions`; that call leaves the item and the row behind
  (`saleWorld_not_agrees`).
-/

namespace Windrunner

open Lib List AList

variable {db : ItemDb}

namespace AuctionHouse

/-- The three containers of a house hold the same auctions. -/
structure Agrees (h : AuctionHouse) : Prop where
  keyed : ∀ id a, h.getAuction id = some a → a.id = id
  ordered : h.orderedAuctionMap.Perm (h.live.map fun a => (a.buyout, a.id))
  account : h.accountAuctionMap.Perm (h.live.map fun a => (a.ownerAccount, a.id))

variable {h : AuctionHouse} {a a' : AuctionEntry} {id : Nat}

theorem live_perm (hg : h.getAuction id = some a) :
    h.live.Perm (a :: (h.auctionsMap.erase id).entries.map (·.2)) := by
  have hp := (perm_erase hg).map fun x => x.2
  exact hp

theorem live_setAuction (h : AuctionHouse) (a : AuctionEntry) :
    (h.setAuction a).live.Perm (a :: (h.auctionsMap.erase a.id).entries.map (·.2)) := by
  have hp := (perm_insert h.auctionsMap a.id a).map fun x => x.2
  exact hp

theorem live_addAuction (hg : h.getAuction a.id = none) :
    (h.addAuction a).live.Perm (a :: h.live) := by
  have hp := (perm_insert_new hg a).map fun x => x.2
  exact hp

theorem mem_live_iff : a ∈ h.live ↔ ∃ id, h.getAuction id = some a := by
  unfold live getAuction
  rw [mem_map]
  constructor
  · rintro ⟨⟨id, a⟩, hx, rfl⟩
    exact ⟨id, mem_lookup_iff.mpr hx⟩
  · rintro ⟨id, hg⟩
    exact ⟨⟨id, a⟩, mem_lookup_iff.mp hg, rfl⟩

namespace Agrees

theorem set (hh : h.Agrees) (hg : h.getAuction a.id = some a) (hid : a'.id = a.id)
    (hbuyout : a'.buyout = a.buyout) (hacc : a'.ownerAccount = a.ownerAccount) :
    (h.setAuction a').Agrees := by
  have hset := live_setAuction h a'
  rw [hid] at hset
  refine ⟨fun id b hb => ?_, ?_, ?_⟩
  · by_cases he : id = a'.id
    · subst he
      have : b = a' := by simpa [getAuction, setAuction] using hb.symm
      rw [this]
    · exact hh.keyed id b (by simpa [getAuction, setAuction, lookup_insert_ne he] using hb)
  · refine hh.ordered.trans (((live_perm hg).map _).trans ?_)
    refine .trans (.of_eq ?_) (hset.map _).symm
    rw [map_cons, map_cons, hid, hbuyout]
  · refine hh.account.trans (((live_perm hg).map _).trans ?_)
    refine .trans (.of_eq ?_) (hset.map _).symm
    rw [map_cons, map_cons, hid, hacc]

theorem remove (hh : h.Agrees) (hg : h.getAuction a.id = some a) : (h.removeAuction a).Agrees := by
  refine ⟨fun id b hb => ?_, ?_, ?_⟩
  · by_cases he : id = a.id
    · subst he
      simp [getAuction, removeAuction] at hb
    · exact hh.keyed id b (by simpa [getAuction, removeAuction, lookup_erase_ne he] using hb)
  · have hp := (hh.ordered.trans ((live_perm hg).map _)).erase (a.buyout, a.id)
    rwa [map_cons, erase_cons_head] at hp
  · have hp := (hh.account.trans ((live_perm hg).map _)).erase (a.ownerAccount, a.id)
    rwa [map_cons, erase_cons_head] at hp

theorem add (hh : h.Agrees) (hg : h.getAuction a.id = none) : (h.addAuction a).Agrees := by
  have hadd := live_addAuction hg
  refine ⟨fun id b hb => ?_, ?_, ?_⟩
  · by_cases he : id = a.id
    · subst he
      have : b = a := by simpa [getAuction, addAuction] using hb.symm
      rw [this]
    · exact hh.keyed id b (by simpa [getAuction, addAuction, lookup_insert_ne he] using hb)
  · have hmap := hadd.map fun b => (b.buyout, b.id)
    exact (emplace_perm _ _ _).trans ((hh.ordered.cons _).trans hmap.symm)
  · have hmap := hadd.map fun b => (b.ownerAccount, b.id)
    exact (emplace_perm _ _ _).trans ((hh.account.cons _).trans hmap.symm)

end Agrees

/-- What was written to an auction does not matter once it is removed. -/
theorem removeAuction_setAuction (hid : a'.id = a.id) (hbuyout : a'.buyout = a.buyout)
    (hacc : a'.ownerAccount = a.ownerAccount) :
    (h.setAuction a').removeAuction a' = h.removeAuction a := by
  unfold removeAuction setAuction
  rw [erase_insert_self, hid, hbuyout, hacc]

end AuctionHouse

theorem Inventory.guid_of_getItemByGuid {inv : Inventory db} {g : Nat} {x : Pos × Item db}
    (h : inv.getItemByGuid g = some x) : x.2.guid = g := by
  unfold getItemByGuid at h
  obtain ⟨y, hy, rfl⟩ := Option.map_eq_some_iff.mp h
  have hs := find?_some hy
  rw [Bool.and_eq_true, beq_iff_eq] at hs
  exact hs.1

/-- The number of ids from `n` on bounds how far `GenerateAuctionID` has to look. -/
theorem firstFree_spec (ids : List Nat) (fuel n : Nat) (hf : (ids.filter (n ≤ ·)).length ≤ fuel) :
    firstFree ids fuel n ∉ ids ∧ n ≤ firstFree ids fuel n := by
  induction fuel generalizing n with
  | zero =>
    refine ⟨fun hn => ?_, le_rfl⟩
    have : n ∈ ids.filter (n ≤ ·) := mem_filter.mpr ⟨hn, by simp⟩
    rw [eq_nil_of_length_eq_zero (Nat.le_zero.mp hf)] at this
    cases this
  | succ fuel ih =>
    unfold firstFree
    by_cases hn : n ∈ ids
    · rw [if_pos hn]
      have hsub : ids.filter (n + 1 ≤ ·) = (ids.filter (n ≤ ·)).filter (n + 1 ≤ ·) := by
        rw [filter_filter]
        refine filter_congr fun x _ => ?_
        rw [Bool.eq_iff_iff]
        simp only [Bool.and_eq_true, decide_eq_true_eq]
        omega
      have hlt : (ids.filter (n + 1 ≤ ·)).length < (ids.filter (n ≤ ·)).length := by
        rw [hsub, length_filter_lt_length_iff_exists]
        exact ⟨n, mem_filter.mpr ⟨hn, by simp⟩, by simp⟩
      obtain ⟨h1, h2⟩ := ih (n + 1) (by omega)
      exact ⟨h1, by omega⟩
    · rw [if_neg hn]
      exact ⟨hn, le_rfl⟩

namespace AuctionWorld

/-- The containers, the items and the table hold the same auctions. -/
structure Agrees (w : AuctionWorld db) : Prop where
  houses : ∀ h ∈ w.houses, h.Agrees
  ids : (w.live.map (·.id)).Nodup
  used : ∀ a ∈ w.live, a.id ∈ w.auctionIds
  items : w.aitems.keys.Perm (w.live.map (·.itemGuid))
  guids : ∀ g it, w.aitems.lookup g = some it → it.guid = g
  rows : w.rows.Perm (w.live.map AuctionEntry.row)

/-- Two worlds with the same auctions, items and rows. -/
structure SameStock (w w' : AuctionWorld db) : Prop where
  houses : w'.houses = w.houses
  auctionIds : w'.auctionIds = w.auctionIds
  aitems : w'.aitems = w.aitems
  rows : w'.rows = w.rows

variable {w w' : AuctionWorld db} {k : Nat} {h : AuctionHouse} {a a' : AuctionEntry}

theorem SameStock.refl (w : AuctionWorld db) : SameStock w w := ⟨rfl, rfl, rfl, rfl⟩

theorem SameStock.trans {w'' : AuctionWorld db} (h1 : SameStock w w') (h2 : SameStock w' w'') :
    SameStock w w'' :=
  ⟨h2.houses.trans h1.houses, h2.auctionIds.trans h1.auctionIds, h2.aitems.trans h1.aitems,
    h2.rows.trans h1.rows⟩

theorem SameStock.setHouse (hs : SameStock w w') (k : Nat) (h : AuctionHouse) :
    SameStock (w.setHouse k h) (w'.setHouse k h) := by
  refine { hs with houses := ?_ }
  show w'.houses.set k h = w.houses.set k h
  rw [hs.houses]

theorem SameStock.removeAItem (hs : SameStock w w') (g : Nat) :
    SameStock (w.removeAItem g) (w'.removeAItem g) := by
  refine { hs with aitems := ?_ }
  show w'.aitems.erase g = w.aitems.erase g
  rw [hs.aitems]

/-- The auctions of the world are those of a house and a rest that no write to the house changes. -/
theorem live_setHouse (hk : w.houses[k]? = some h) :
    ∃ rest, w.live.Perm (h.live ++ rest) ∧ ∀ h', (w.setHouse k h').live.Perm (h'.live ++ rest) :=
  flatMap_set_perm AuctionHouse.live hk

/-- The auctions besides `a`. -/
theorem live_split (hk : w.houses[k]? = some h) (hg : h.getAuction a.id = some a) :
    ∃ rest, w.live.Perm (a :: rest) ∧ (w.setHouse k (h.removeAuction a)).live.Perm rest ∧
      ∀ a', a'.id = a.id → (w.setHouse k (h.setAuction a')).live.Perm (a' :: rest) := by
  obtain ⟨others, hl, hset⟩ := live_setHouse hk
  refine ⟨(h.removeAuction a).live ++ others, ?_, hset _, fun a' hid => ?_⟩
  · exact hl.trans ((AuctionHouse.live_perm hg).append_right _)
  · have hp := AuctionHouse.live_setAuction h a'
    rw [hid] at hp
    exact (hset _).trans (hp.append_right _)

theorem mem_set_houses {P : AuctionHouse → Prop} (hP : ∀ x ∈ w.houses, P x) (hh : P h) :
    ∀ x ∈ w.houses.set k h, P x := by
  intro x hx
  rcases mem_or_eq_of_mem_set hx with hx | rfl
  · exact hP x hx
  · exact hh

namespace Agrees

theorem same (hw : w.Agrees) (hs : SameStock w w') : w'.Agrees := by
  obtain ⟨hh, hi, ha, hr⟩ := hs
  have hl : w'.live = w.live := by unfold live; rw [hh]
  exact ⟨by rw [hh]; exact hw.houses, by rw [hl]; exact hw.ids, by rw [hl, hi]; exact hw.used,
    by rw [hl, ha]; exact hw.items, by rw [ha]; exact hw.guids, by rw [hl, hr]; exact hw.rows⟩

/-- An auction is written to, and its row too. -/
theorem set (a' : AuctionEntry) (hw : w.Agrees) (hk : w.houses[k]? = some h) (hg : h.getAuction a.id = some a)
    (hid : a'.id = a.id) (hbuyout : a'.buyout = a.buyout) (hacc : a'.ownerAccount = a.ownerAccount)
    (hguid : a'.itemGuid = a.itemGuid) {f : AuctionRow → AuctionRow} (hf : f a.row = a'.row)
    (hother : ∀ r, r.id ≠ a.id → f r = r) (hs : SameStock
      { w.setHouse k (h.setAuction a') with rows := w.rows.map f } w') : w'.Agrees := by
  obtain ⟨rest, hl, -, hset⟩ := live_split hk hg
  have hl' := hset a' hid
  have hids := (hl.map (·.id)).nodup_iff.mp hw.ids
  refine same ?_ hs
  refine ⟨mem_set_houses hw.houses ((hw.houses h (mem_of_getElem? hk)).set hg hid hbuyout hacc),
    ?_, fun b hb => ?_, ?_, hw.guids, ?_⟩
  · refine (hl'.map (·.id)).nodup_iff.mpr ?_
    rw [map_cons, hid]
    exact hids
  · rcases mem_cons.mp (hl'.mem_iff.mp hb) with rfl | hb
    · rw [hid]
      exact hw.used a (hl.mem_iff.mpr mem_cons_self)
    · exact hw.used b (hl.mem_iff.mpr (mem_cons_of_mem _ hb))
  · refine hw.items.trans ((hl.map _).trans (.trans (.of_eq ?_) (hl'.map _).symm))
    rw [map_cons, map_cons, hguid]
  · refine ((hw.rows.trans (hl.map _)).map f).trans (.trans (.of_eq ?_) (hl'.map _).symm)
    rw [map_cons, map_cons, map_cons, hf, map_map]
    refine congrArg _ (map_congr_left fun b hb => hother b.row fun he => ?_)
    rw [map_cons] at hids
    exact (nodup_cons.mp hids).1 (mem_map.mpr ⟨b, hb, he⟩)

section

variable (hw : w.Agrees) (hk : w.houses[k]? = some h)
include hw hk

/-- An auction leaves its house, with its item and its row. -/
theorem close (hg : h.getAuction a.id = some a) (hs : SameStock
      { w.setHouse k (h.removeAuction a) with
        auctionIds := w.auctionIds.erase a.id
        aitems := w.aitems.erase a.itemGuid
        rows := w.rows.filter (·.id ≠ a.id) } w') : w'.Agrees := by
  obtain ⟨rest, hl, hl', -⟩ := live_split hk hg
  have hids := (hl.map (·.id)).nodup_iff.mp hw.ids
  rw [map_cons, nodup_cons] at hids
  -- the id of the auction that goes is no other's
  have hne : ∀ b ∈ rest, b.id ≠ a.id := fun b hb he => hids.1 (mem_map.mpr ⟨b, hb, he⟩)
  refine same ?_ hs
  refine ⟨mem_set_houses hw.houses ((hw.houses h (mem_of_getElem? hk)).remove hg),
    (hl'.map (·.id)).nodup_iff.mpr hids.2, fun b hb => ?_, ?_, fun g it hg => ?_, ?_⟩
  · have hb := hl'.mem_iff.mp hb
    rw [mem_erase_of_ne (hne b hb)]
    exact hw.used b (hl.mem_iff.mpr (mem_cons_of_mem _ hb))
  · have hp := (hw.items.trans (hl.map _)).erase a.itemGuid
    rw [map_cons, erase_cons_head] at hp
    show (w.aitems.erase a.itemGuid).keys.Perm _
    rw [keys_erase]
    exact hp.trans (hl'.map _).symm
  · by_cases he : g = a.itemGuid
    · subst he
      simp at hg
    · rw [lookup_erase_ne he] at hg
      exact hw.guids g it hg
  · have hp := (hw.rows.trans (hl.map _)).filter fun r => decide (r.id ≠ a.id)
    rw [map_cons, filter_cons_of_neg (by simp [AuctionEntry.row])] at hp
    refine hp.trans (.trans (.of_eq (filter_eq_self.mpr fun r hr => ?_)) (hl'.map _).symm)
    obtain ⟨b, hb, rfl⟩ := mem_map.mp hr
    exact decide_eq_true (hne b hb)

/-- An auction with a new id. -/
theorem live_add (hnew : a.id ∉ w.auctionIds) :
    (∀ b ∈ w.live, b.id ≠ a.id) ∧ h.getAuction a.id = none ∧
      (w.setHouse k (h.addAuction a)).live.Perm (a :: w.live) := by
  obtain ⟨others, hl, hset⟩ := live_setHouse hk
  have hfree : ∀ b ∈ w.live, b.id ≠ a.id := fun b hb he => hnew (he ▸ hw.used b hb)
  have hg : h.getAuction a.id = none := by
    refine Option.eq_none_iff_forall_ne_some.mpr fun b hb => ?_
    have hin : b ∈ w.live :=
      hl.mem_iff.mpr (mem_append_left _ (AuctionHouse.mem_live_iff.mpr ⟨_, hb⟩))
    exact hfree b hin ((hw.houses h (mem_of_getElem? hk)).keyed _ b hb)
  refine ⟨hfree, hg, ?_⟩
  exact (hset _).trans (((AuctionHouse.live_addAuction hg).append_right _).trans (hl.symm.cons a))

/-- An auction is added, with its item and its row. -/
theorem add (hnew : a.id ∉ w.auctionIds) {it : Item db}
    (hguid : a.itemGuid = it.guid) (hitem : w.aitems.lookup it.guid = none) (hs : SameStock
      { w.setHouse k (h.addAuction a) with
        auctionIds := a.id :: w.auctionIds
        aitems := w.aitems.insert it.guid it
        rows := w.rows ++ [a.row] } w') : w'.Agrees := by
  obtain ⟨hfree, hg, hl'⟩ := hw.live_add hk hnew
  refine same ?_ hs
  refine ⟨mem_set_houses hw.houses ((hw.houses h (mem_of_getElem? hk)).add hg),
    (hl'.map (·.id)).nodup_iff.mpr ?_, fun b hb => ?_, ?_, fun g x hx => ?_, ?_⟩
  · rw [map_cons, nodup_cons]
    refine ⟨fun hm => ?_, hw.ids⟩
    obtain ⟨b, hb, he⟩ := mem_map.mp hm
    exact hfree b hb he
  · rcases mem_cons.mp (hl'.mem_iff.mp hb) with rfl | hb
    · exact mem_cons_self
    · exact mem_cons_of_mem _ (hw.used b hb)
  · have hp := (perm_insert_new hitem it).map Sigma.fst
    have hmap := hl'.map (·.itemGuid)
    rw [map_cons, hguid] at hmap
    exact hp.trans ((hw.items.cons _).trans hmap.symm)
  · -- the item's guid is new in `mAitems`
    by_cases he : g = it.guid
    · subst he
      have : x = it := by simpa using hx.symm
      rw [this]
    · rw [lookup_insert_ne he] at hx
      exact hw.guids g x hx
  · have hmap := hl'.map AuctionEntry.row
    exact (perm_append_singleton _ _).trans ((hw.rows.cons _).trans hmap.symm)

end

end Agrees

/-! ## The packets -/

section Packets

variable {P : AuctionWorld db → Prop} {guid id itemGuid : Nat} {startbid buyout etime price : UInt32}
  {m : AuctionMoment}

theorem house_of_bind {x : Nat × AuctionHouse}
    (h : (m.house.bind fun k => w.houses[k]?.map (k, ·)) = some x) : w.houses[x.1]? = some x.2 := by
  obtain ⟨k, -, hk⟩ := Option.bind_eq_some_iff.mp h
  obtain ⟨h, hh, rfl⟩ := Option.map_eq_some_iff.mp hk
  exact hh

/-- What a packet to sell leads to: nothing, or an auction. -/
theorem handleAuctionSellItem_cases (hrefused : P w)
    (hlist : ∀ k h c p it, w.houses[k]? = some h → w.char guid = some c →
      maySell m itemGuid startbid buyout etime = true → w.aitems.lookup itemGuid = none →
      c.inv.getItemByGuid itemGuid = some (p, it) → m.deposit ≤ c.money →
      P (w.list k h guid c p it startbid buyout m)) :
    P (w.handleAuctionSellItem guid itemGuid startbid buyout etime m) := by
  unfold handleAuctionSellItem
  split
  · exact hrefused
  rename_i hsell
  split
  · rename_i k h c hh hc
    split
    · exact hrefused
    split
    · exact hrefused
    rename_i hnone
    split
    · exact hrefused
    rename_i p it hit
    split
    · exact hrefused
    split
    · exact hrefused
    rename_i hd
    exact hlist k h c p it (house_of_bind hh) hc (by simpa using hsell) (by simpa using hnone) hit
      (UInt32.not_lt.mp hd)
  · exact hrefused

/-- What a bid leads to: nothing, a higher bid, or the end of the auction. -/
theorem handleAuctionPlaceBid_cases (hrefused : P w)
    (hbid : ∀ k h c a, w.houses[k]? = some h → w.char guid = some c →
      h.getAuction id = some a → w.mayBid m guid c a price = true →
      (price < a.buyout ∨ a.buyout = 0) → P (w.bid k h guid c a price m.now))
    (hbuy : ∀ k h c a, w.houses[k]? = some h → w.char guid = some c →
      h.getAuction id = some a → w.mayBid m guid c a price = true →
      a.buyout ≤ price → a.buyout ≠ 0 → P (w.buyOut k h guid c a m)) :
    P (w.handleAuctionPlaceBid guid id price m) := by
  unfold handleAuctionPlaceBid
  split
  · exact hrefused
  split
  · rename_i k h c hh hc
    split
    · exact hrefused
    rename_i a ha
    split
    · exact hrefused
    rename_i hmay
    have hmay : w.mayBid m guid c a price = true := by simpa using hmay
    split
    · rename_i hlow
      exact hbid k h c a (house_of_bind hh) hc ha hmay (by simpa using hlow)
    · rename_i hhigh
      have hhigh : a.buyout ≤ price ∧ a.buyout ≠ 0 := by simpa using hhigh
      exact hbuy k h c a (house_of_bind hh) hc ha hmay hhigh.1 hhigh.2
  · exact hrefused

/-- What a cancellation leads to. -/
theorem handleAuctionRemoveItem_cases (hrefused : P w)
    (hcancel : ∀ k h c a it, w.houses[k]? = some h → w.char guid = some c →
      h.getAuction id = some a → a.owner = guid → w.aitems.lookup a.itemGuid = some it →
      (a.bidder > 0 → m.cut a ≤ c.money) → P (w.cancel k h guid c a it m)) :
    P (w.handleAuctionRemoveItem guid id m) := by
  unfold handleAuctionRemoveItem
  split
  · rename_i k h c hh hc
    split
    · exact hrefused
    rename_i a ha
    split
    · exact hrefused
    rename_i hown
    split
    · exact hrefused
    rename_i it hit
    split
    · exact hrefused
    rename_i hcut
    exact hcancel k h c a it (house_of_bind hh) hc ha (not_not.mp hown) hit
      fun hb => UInt32.not_lt.mp fun hlt => hcut ⟨hb, hlt⟩
  · exact hrefused

/-- What the update does to one auction. -/
theorem updateOne_cases (hrefused : P w)
    (hstays : ∀ h a, w.houses[k]? = some h → h.getAuction id = some a →
      P (w.setHouse k (h.setAuction (unlocked a m.now))))
    (hexpires : ∀ h a, w.houses[k]? = some h → h.getAuction id = some a → a.expireTime < m.now →
      P ((w.setHouse k (h.setAuction (unlocked a m.now))).expire k
        (h.setAuction (unlocked a m.now)) (unlocked a m.now) m)) :
    P (updateOne m k w id) := by
  unfold updateOne
  split
  · exact hrefused
  rename_i h hh
  split
  · exact hrefused
  rename_i a ha
  dsimp only
  split
  · exact hstays h a hh ha
  · rename_i hlt
    refine hexpires h a hh ha ?_
    have : (unlocked a m.now).expireTime = a.expireTime := by unfold unlocked; split_ifs <;> rfl
    omega

end Packets

/-! ## What does not touch the auctions -/

theorem sameStock_post (w : AuctionWorld db) (a : AuctionEntry) (answer : AuctionAnswer)
    (receiver : Nat) (money : UInt32) (items : List (Item db)) (now : Nat) :
    SameStock w (w.post a answer receiver money items now) := ⟨rfl, rfl, rfl, rfl⟩

theorem sameStock_payBid (w : AuctionWorld db) (guid : Nat) (c : Char db) (a : AuctionEntry)
    (price : UInt32) (now : Nat) : SameStock w (w.payBid guid c a price now) := by
  unfold payBid sendAuctionOutbiddedMail
  dsimp only
  split_ifs <;> exact ⟨rfl, rfl, rfl, rfl⟩

theorem sameStock_sendAuctionSuccessfulMail (w : AuctionWorld db) (a : AuctionEntry)
    (m : AuctionMoment) : SameStock w (w.sendAuctionSuccessfulMail a m) := by
  unfold sendAuctionSuccessfulMail
  split_ifs
  · exact sameStock_post ..
  · exact .refl w

theorem sameStock_refundBidder (w : AuctionWorld db) (guid : Nat) (c : Char db) (a : AuctionEntry)
    (m : AuctionMoment) : SameStock w (w.refundBidder guid c a m) := by
  unfold refundBidder sendAuctionCancelledToBidderMail
  split_ifs <;> exact ⟨rfl, rfl, rfl, rfl⟩

/-- Whatever happens to the item, it is not in `mAitems` afterwards. -/
theorem sameStock_sendItem (w : AuctionWorld db) (a : AuctionEntry) (answer : AuctionAnswer)
    (receiver : Nat) (m : AuctionMoment) :
    SameStock (w.removeAItem a.itemGuid) ((w.sendItem a answer receiver m).removeAItem a.itemGuid) := by
  unfold sendItem
  split
  · exact .refl _
  split_ifs
  · exact ⟨rfl, rfl, rfl, rfl⟩
  · exact ⟨rfl, rfl, erase_erase_self w.aitems a.itemGuid, rfl⟩
  · exact ⟨rfl, rfl, erase_erase_self w.aitems a.itemGuid, rfl⟩

theorem SameStock.sendItem (hs : SameStock w w') (a : AuctionEntry) (answer : AuctionAnswer)
    (receiver : Nat) (m : AuctionMoment) :
    SameStock (w.removeAItem a.itemGuid) ((w'.sendItem a answer receiver m).removeAItem a.itemGuid) :=
  (hs.removeAItem a.itemGuid).trans (sameStock_sendItem w' a answer receiver m)

/-! ## Steps and runs -/

section Step

variable {guid id : Nat} {c : Char db} {m : AuctionMoment}

section

variable (hw : w.Agrees) (hk : w.houses[k]? = some h)
include hw hk

theorem getAuction_self (hg : h.getAuction id = some a) : h.getAuction a.id = some a := by
  rw [(hw.houses h (mem_of_getElem? hk)).keyed id a hg]
  exact hg

theorem agrees_list {p : Pos} {it : Item db}
    (hitem : w.aitems.lookup it.guid = none) (startbid buyout : UInt32) :
    (w.list k h guid c p it startbid buyout m).Agrees := by
  have hnew := (firstFree_spec w.auctionIds w.auctionIds.length w.nextAuctionId
    (length_filter_le ..)).1
  exact hw.add (a := newAuction m _ guid c it startbid buyout) hk hnew rfl hitem ⟨rfl, rfl, rfl, rfl⟩

theorem agrees_bid (hg : h.getAuction a.id = some a) (price : UInt32) (now : Nat) :
    (w.bid k h guid c a price now).Agrees := by
  obtain ⟨hh, hi, ha, hr⟩ := sameStock_payBid w guid c a price now
  refine hw.set (a.bidBy guid price)
    (f := fun r => if r.id = a.id then { r with buyguid := guid, lastbid := price } else r)
    hk hg rfl rfl rfl rfl (if_pos rfl) (fun r hr => if_neg hr) ⟨?_, hi, ha, ?_⟩
  · show (w.payBid guid c a price now).houses.set k _ = w.houses.set k _
    rw [hh]
  · show (w.payBid guid c a price now).rows.map _ = w.rows.map _
    rw [hr]

end

/-- An auction is written to for the last time, and then removed with its row and its item. -/
theorem agrees_closed (a' : AuctionEntry) (hw : w.Agrees) (hk : w.houses[k]? = some h)
    (hg : h.getAuction a.id = some a) (hid : a'.id = a.id) (hbuyout : a'.buyout = a.buyout)
    (hacc : a'.ownerAccount = a.ownerAccount) {w₁ w₂ : AuctionWorld db}
    (hs : SameStock ((w.setHouse k (h.setAuction a')).removeAItem a.itemGuid) w₁)
    (hhouses : w₂.houses = w₁.houses.set k ((h.setAuction a').removeAuction a'))
    (hids : w₂.auctionIds = w₁.auctionIds.erase a'.id) (hitems : w₂.aitems = w₁.aitems)
    (hrows : w₂.rows = w₁.rows.filter (·.id ≠ a'.id)) : w₂.Agrees := by
  refine hw.close hk hg ⟨?_, ?_, hitems.trans hs.aitems, ?_⟩
  · have hset : w₁.houses = w.houses.set k (h.setAuction a') := hs.houses
    rw [hhouses, hset, set_set, AuctionHouse.removeAuction_setAuction hid hbuyout hacc]
    rfl
  · rw [hids, hs.auctionIds, hid]
    rfl
  · rw [hrows, hs.rows, hid]
    rfl

theorem agrees_buyOut (hw : w.Agrees) (hk : w.houses[k]? = some h)
    (hg : h.getAuction a.id = some a) : (w.buyOut k h guid c a m).Agrees := by
  have hpay := (sameStock_payBid w guid c a a.buyout m.now).setHouse k
    (h.setAuction (a.bidBy guid a.buyout))
  have hmail := hpay.trans
    (sameStock_sendAuctionSuccessfulMail _ (a.bidBy guid a.buyout) m)
  exact agrees_closed (a.bidBy guid a.buyout) hw hk hg rfl rfl rfl
    (hmail.sendItem (a.bidBy guid a.buyout) .won guid m) rfl rfl rfl rfl

theorem agrees_cancel (hw : w.Agrees) (hk : w.houses[k]? = some h)
    (hg : h.getAuction a.id = some a) (it : Item db) : (w.cancel k h guid c a it m).Agrees := by
  obtain ⟨hh, hi, ha, hr⟩ := sameStock_refundBidder w guid c a m
  refine hw.close hk hg ⟨?_, ?_, ?_, ?_⟩
  · show (w.refundBidder guid c a m).houses.set k _ = w.houses.set k _
    rw [hh]
  · show (w.refundBidder guid c a m).auctionIds.erase _ = w.auctionIds.erase _
    rw [hi]
  · show (w.refundBidder guid c a m).aitems.erase _ = w.aitems.erase _
    rw [ha]
  · show (w.refundBidder guid c a m).rows.filter _ = w.rows.filter _
    rw [hr]

theorem unlocked_frame (a : AuctionEntry) (now : Nat) :
    ∃ ip, unlocked a now = a.lockedTo ip := by
  unfold unlocked
  split_ifs
  · exact ⟨"", rfl⟩
  · exact ⟨a.lockedIpAddress, rfl⟩

theorem agrees_updateOne (hw : w.Agrees) : (updateOne m k w id).Agrees := by
  apply updateOne_cases (P := Agrees) hw
  · intro h a hk hg
    have hg := getAuction_self hw hk hg
    obtain ⟨ip, ha⟩ := unlocked_frame a m.now
    rw [ha]
    exact hw.set (a.lockedTo ip) (f := fun r => r) hk hg rfl rfl rfl rfl rfl (fun _ _ => rfl)
      ⟨rfl, rfl, rfl, (map_id' w.rows).symm⟩
  · intro h a hk hg _
    have hg := getAuction_self hw hk hg
    obtain ⟨ip, ha⟩ := unlocked_frame a m.now
    rw [ha]
    unfold expire
    split_ifs
    · exact agrees_closed (a.lockedTo ip) hw hk hg rfl rfl rfl
        (sameStock_sendItem _ (a.lockedTo ip) .expired a.owner m) rfl rfl rfl rfl
    · have hmail := sameStock_sendAuctionSuccessfulMail
        (w.setHouse k (h.setAuction (a.lockedTo ip)))
        (a.lockedTo ip) m
      exact agrees_closed (a.lockedTo ip) hw hk hg rfl rfl rfl
        (hmail.sendItem (a.lockedTo ip) .won a.bidder m) rfl rfl rfl rfl

theorem agrees_update (hw : w.Agrees) : (w.update k m).Agrees := by
  unfold update
  split
  · exact hw
  · rename_i h hk
    exact foldlRecOn (motive := Agrees) _ _ hw fun _ hw _ _ => agrees_updateOne hw

/-- No auction of the house is owned by the character whose auctions are removed. -/
def OwnsNone (w : AuctionWorld db) : AuctionInput db → Prop
  | .removeAllAuctions k guid =>
    ∀ h ∈ w.houses[k]?, ∀ c ∈ w.char guid, ∀ a ∈ h.live,
      ¬ (a.owner = guid ∧ a.ownerAccount = c.account)
  | _ => True

instance (w : AuctionWorld db) (i : AuctionInput db) : Decidable (w.OwnsNone i) := by
  unfold OwnsNone
  cases i <;> infer_instance

/-- The call has nothing to do then. -/
theorem removeAllAuctions_eq_self (hw : w.Agrees) (ho : w.OwnsNone (.removeAllAuctions k guid)) :
    w.removeAllAuctions k guid = w := by
  unfold removeAllAuctions
  split
  · rename_i h c hk hc
    have hnone : h.ownedBy guid c.account = [] := by
      unfold AuctionHouse.ownedBy
      refine filterMap_eq_nil_iff.mpr fun x hx => ?_
      have hh := hw.houses h (mem_of_getElem? hk)
      obtain ⟨a, ha, rfl⟩ := mem_map.mp (hh.account.mem_iff.mp hx)
      obtain ⟨id, hg⟩ := AuctionHouse.mem_live_iff.mp ha
      have hid := hh.keyed id a hg
      subst hid
      split_ifs with he
      · rw [hg, Option.filter_some, if_neg]
        intro hown
        exact ho h hk c hc a ha ⟨by simpa using hown, he⟩
      · rfl
    rw [hnone]
    rfl
  · rfl

end Step

theorem step_agrees (hw : w.Agrees) {i : AuctionInput db} (ho : w.OwnsNone i) : (w.step i).Agrees := by
  cases i with
  | sellItem guid itemGuid startbid buyout etime m =>
    apply handleAuctionSellItem_cases (P := Agrees) hw
    intro k h c p it hk _ _ hnone hit _
    rw [← Inventory.guid_of_getItemByGuid hit] at hnone
    exact agrees_list hw hk hnone startbid buyout
  | placeBid guid id price m =>
    apply handleAuctionPlaceBid_cases (P := Agrees) hw
    · intro k h c a hk _ hg _ _
      exact agrees_bid hw hk (getAuction_self hw hk hg) price m.now
    · intro k h c a hk _ hg _ _ _
      exact agrees_buyOut hw hk (getAuction_self hw hk hg)
  | removeItem guid id m =>
    apply handleAuctionRemoveItem_cases (P := Agrees) hw
    intro k h c a it hk _ hg _ _ _
    exact agrees_cancel hw hk (getAuction_self hw hk hg) it
  | update k m => exact agrees_update hw
  | removeAllAuctions k guid =>
    show (w.removeAllAuctions k guid).Agrees
    rw [removeAllAuctions_eq_self hw ho]
    exact hw
  | outside mail => exact hw.same ⟨rfl, rfl, rfl, rfl⟩

/-- In every run in which nobody loses his auctions to `RemoveAllAuctions`, the containers, the
items and the table hold the same auctions. -/
theorem agrees_of_run (hw : w.Agrees) {is : List (AuctionInput db)}
    (h : AlongRun step OwnsNone w is) : (run step w is).Agrees :=
  run_keeps (I := Agrees) (fun _ _ hw ho => step_agrees hw ho) hw h

/-- A seller with five pieces of cloth, a bidder, and a house without auctions. -/
def saleWorld : AuctionWorld sampleDb :=
  { mail :=
      { chars := ((∅ : FinMap Nat (Char sampleDb)).insert 1
          { money := 1000
            inv := (Inventory.empty 1).place (inventorySlotBag0, 23) (cloth 10 5) }).insert 2
          { money := 5000, inv := .empty 2, account := 2 }
        online := [1, 2]
        fresh := 11 }
    houses := [{}] }

theorem saleWorld_agrees : saleWorld.Agrees := by
  refine ⟨fun h hh => ?_, nodup_nil, forall_mem_nil _, .refl _, ?_, .refl _⟩
  · obtain rfl : h = {} := mem_singleton.mp hh
    exact ⟨fun id a ha => (by cases ha), .refl _, .refl _⟩
  · intro g it hg
    cases hg

/-- The cloth is put up for two hours, and there is a bid. -/
def saleAndBid : List (AuctionInput sampleDb) :=
  [.sellItem 1 10 100 1000 120 {}, .placeBid 2 1 200 {}]

/-- The seller turns hardcore: the auction is gone, and its row and its item are still there. -/
theorem saleWorld_not_agrees :
    saleWorld.Agrees ∧
      (run step saleWorld (saleAndBid ++ [.removeAllAuctions 0 1])).live = [] ∧
      (run step saleWorld (saleAndBid ++ [.removeAllAuctions 0 1])).rows.map (·.id) = [1] ∧
      (run step saleWorld (saleAndBid ++ [.removeAllAuctions 0 1])).aitems.keys = [10] ∧
      ¬ (run step saleWorld (saleAndBid ++ [.removeAllAuctions 0 1])).Agrees := by
  have hlive : (run step saleWorld (saleAndBid ++ [.removeAllAuctions 0 1])).live = [] := by
    decide +kernel
  have hrows : (run step saleWorld (saleAndBid ++ [.removeAllAuctions 0 1])).rows.map (·.id) = [1] := by
    decide +kernel
  refine ⟨saleWorld_agrees, hlive, hrows, by decide +kernel, fun hw => ?_⟩
  have hperm := hw.rows.map (·.id)
  rw [hlive, hrows] at hperm
  cases hperm.eq_nil

/-- The bidder turns hardcore instead, and then the auction runs out. -/
theorem saleWorld_agrees_of_run :
    (run step saleWorld (saleAndBid ++ [.removeAllAuctions 0 2, .update 0 { now := 1 }])).Agrees :=
  agrees_of_run saleWorld_agrees (by decide +kernel)

end AuctionWorld

end Windrunner
