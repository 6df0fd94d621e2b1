import Windrunner.Auction.Agree

/-!
# Browsing the auction house

`BuildListAuctionItems` answers a query with a page: up to 50 records from `listfrom` on, their
number, and the number of auctions in all. A query without filters is answered by a branch of its
own.

* `AuctionPage`: what the answer to one query holds.
* `browseAll`, `browse`: the early branch, and the loop with the filters.
* `Paged`: the pages, one after the other, show what matches the query.
* `paged_iff`: this is so but for a query without filters in a house with an auction that is not
  available to the player.
-/

namespace Windrunner

open Lib List Option

variable {db : ItemDb}

/-- The value of a filter that is not set. -/
abbrev anyValue : UInt32 := 0xffffffff
abbrev invtypeChest : UInt32 := 5
abbrev invtypeRobe : Nat := 20
abbrev itemClassRecipe : Nat := 9

/-- `AuctionHouseClientQuery`, without `listfrom`. -/
structure AuctionQuery where
  /-- In lower case. -/
  wsearchedname : String := ""
  levelmin : UInt8 := 0
  levelmax : UInt8 := 0
  usable : UInt8 := 0
  auctionSlotID : UInt32 := anyValue
  auctionMainCategory : UInt32 := anyValue
  auctionSubCategory : UInt32 := anyValue
  quality : UInt32 := anyValue

/-- What a query reads of the player and of the tables. -/
structure AuctionViewer (db : ItemDb) where
  remoteAddress : String := ""
  now : Nat := 0
  requiredLevel : ItemPrototype → Nat := fun _ => 0
  /-- `CanUseItem(item) == EQUIP_ERR_OK`. -/
  canUseItem : Item db → Bool := fun _ => true
  /-- The recipe teaches a spell that the player has. -/
  hasRecipe : ItemPrototype → Bool := fun _ => false
  /-- `GetLocalizedNameWithSuffix`, in lower case; none for a name that is not UTF-8. -/
  localizedName : Item db → Option String := fun it => some it.proto.name1

/-- The record of an auction in a page. -/
structure AuctionInfo where
  id : Nat
  entry : Nat
  enchantmentId : UInt32
  randomPropertyId : Int
  count : UInt32
  spellCharges : Int
  owner : Nat
  startbid : UInt32
  outbid : UInt32
  buyout : UInt32
  timeLeft : UInt32
  bidder : Nat
  bid : UInt32
  deriving DecidableEq

/-- The packet `SMSG_AUCTION_LIST_RESULT`. -/
structure AuctionPage where
  records : List AuctionInfo := []
  count : Nat := 0
  totalcount : Nat := 0
  deriving DecidableEq

namespace AuctionQuery

/-- No filter is set. -/
def isEmpty (q : AuctionQuery) : Bool :=
  q.auctionMainCategory == anyValue && q.auctionSubCategory == anyValue &&
    q.auctionSlotID == anyValue && q.quality == anyValue && q.levelmin == 0 && q.levelmax == 0 &&
    q.usable == 0 && q.wsearchedname == ""

/-- The filters of the loop, each as the condition to go on. -/
def accepts (q : AuctionQuery) (v : AuctionViewer db) (a : AuctionEntry) (it : Item db) : Bool :=
  !(q.auctionMainCategory != anyValue && it.proto.itemClass != q.auctionMainCategory.toNat) &&
    !(q.auctionSubCategory != anyValue && it.proto.subClass != q.auctionSubCategory.toNat) &&
    !(q.auctionSlotID != anyValue && it.proto.inventoryType != q.auctionSlotID.toNat &&
      (q.auctionSlotID != invtypeChest ||
        (q.auctionSlotID == invtypeChest && it.proto.inventoryType != invtypeRobe))) &&
    !(q.quality != anyValue && decide (it.proto.quality < q.quality.toNat)) &&
    !(q.levelmin != 0 && (decide (v.requiredLevel it.proto < q.levelmin.toNat) ||
      (q.levelmax != 0 && decide (v.requiredLevel it.proto > q.levelmax.toNat)))) &&
    !(q.usable != 0 && !v.canUseItem it) &&
    !(q.usable != 0 && it.proto.itemClass == itemClassRecipe && v.hasRecipe it.proto) &&
    a.isAvailableFor v.remoteAddress &&
    !(q.wsearchedname != "" && (it.proto.name1 == "" ||
      !(v.localizedName it).any fun name => q.wsearchedname.toList <:+: name.toList))

end AuctionQuery

/-- `BuildAuctionInfo` of an auction with its item. -/
def AuctionEntry.info (a : AuctionEntry) (now : Nat) (it : Item db) : AuctionInfo :=
  { id := a.id, entry := it.entry, enchantmentId := it.fields.enchantments.headD 0
    randomPropertyId := it.fields.randomPropertyId, count := it.count
    spellCharges := it.fields.spellCharges.headD 0, owner := a.owner, startbid := a.startbid
    outbid := if a.bid = 0 then 0 else a.getAuctionOutBid, buyout := a.buyout
    timeLeft := .ofInt (((a.expireTime : Int) - now) * 1000), bidder := a.bidder, bid := a.bid }

section Browse

variable (aitems : FinMap Nat (Item db)) (v : AuctionViewer db)

/-- `BuildAuctionInfo`: nothing is written for an auction without its item. -/
def buildAuctionInfo (a : AuctionEntry) : List AuctionInfo :=
  ((aitems.lookup a.itemGuid).map (a.info v.now)).toList

/-- The loop of the early branch. -/
def browseAllFrom : List AuctionEntry → AuctionPage → AuctionPage
  | [], p => p
  | a :: l, p =>
    if !a.isAvailableFor v.remoteAddress then browseAllFrom l p
    else
      let p := { p with records := p.records ++ buildAuctionInfo aitems v a, count := p.count + 1 }
      if p.count ≥ 50 then p else browseAllFrom l p

variable (q : AuctionQuery) (auctions : List AuctionEntry)

/-- The early branch, for a query without filters. -/
def browseAll (listfrom : Nat) : AuctionPage :=
  if listfrom < auctions.length then
    browseAllFrom aitems v (auctions.drop listfrom) { totalcount := auctions.length }
  else { totalcount := auctions.length }

/-- One auction in the loop with the filters. -/
def browseOne (listfrom : Nat) (p : AuctionPage) (a : AuctionEntry) :
    AuctionPage :=
  match aitems.lookup a.itemGuid with
  | none => p
  | some it =>
    if !q.accepts v a it then p
    else
      let p := if p.count < 50 ∧ p.totalcount ≥ listfrom then
          { p with records := p.records ++ buildAuctionInfo aitems v a, count := p.count + 1 }
        else p
      { p with totalcount := p.totalcount + 1 }

/-- The loop with the filters. -/
def browse (listfrom : Nat) : AuctionPage :=
  auctions.foldl (browseOne aitems v q listfrom) {}

/-- `BuildListAuctionItems` over the auctions of `OrderedAuctionMap`. -/
def buildListAuctionItems (listfrom : Nat) :
    AuctionPage :=
  if q.isEmpty then browseAll aitems v auctions listfrom else browse aitems v q auctions listfrom

/-- The record of an auction that has its item, matches the query and is available to the player. -/
def record (a : AuctionEntry) : Option AuctionInfo :=
  ((aitems.lookup a.itemGuid).filter (q.accepts v a)).map (a.info v.now)

/-- The records that a query is about. -/
def matching : List AuctionInfo :=
  auctions.filterMap (record aitems v q)

end Browse

/-- The auctions of `OrderedAuctionMap`, in its order. -/
def AuctionHouse.ordered (h : AuctionHouse) : List AuctionEntry :=
  h.orderedAuctionMap.filterMap fun x => h.getAuction x.2

/-- The pages from `0`, `50`, ... on announce what they hold, at most 50 records, and the number of
records in all; one after the other, they are `all`. -/
structure Paged (page : Nat → AuctionPage) (all : List AuctionInfo) : Prop where
  count : ∀ n, (page (50 * n)).count = (page (50 * n)).records.length
  small : ∀ n, (page (50 * n)).count ≤ 50
  total : ∀ n, (page (50 * n)).totalcount = all.length
  complete : (range (all.length / 50 + 1)).flatMap (fun n => (page (50 * n)).records) = all

/-- The page from `listfrom` on of a list of records. -/
def AuctionPage.of (all : List AuctionInfo) (listfrom : Nat) : AuctionPage where
  records := (all.drop listfrom).take 50
  count := ((all.drop listfrom).take 50).length
  totalcount := all.length

theorem paged_of (all : List AuctionInfo) : Paged (AuctionPage.of all) all :=
  ⟨fun _ => rfl, fun _ => length_take_le .., fun _ => rfl, flatMap_pages (by decide) all⟩

section Browse

variable {aitems : FinMap Nat (Item db)} {v : AuctionViewer db} {q : AuctionQuery} {a : AuctionEntry}
  {r : AuctionInfo} {listfrom : Nat} {p : AuctionPage}

theorem browseOne_none (h : record aitems v q a = none) : browseOne aitems v q listfrom p a = p := by
  unfold record at h
  unfold browseOne
  split
  · rfl
  · rename_i it hit
    rw [hit, map_eq_none_iff, filter_some] at h
    split_ifs at h with hacc
    rw [if_pos (by simpa using hacc)]

theorem browseOne_some (h : record aitems v q a = some r) : browseOne aitems v q listfrom p a =
    if p.count < 50 ∧ p.totalcount ≥ listfrom then
      ⟨p.records ++ [r], p.count + 1, p.totalcount + 1⟩
    else { p with totalcount := p.totalcount + 1 } := by
  unfold record at h
  obtain ⟨it, hit, rfl⟩ := map_eq_some_iff.mp h
  obtain ⟨hit, hacc⟩ := filter_eq_some_iff.mp hit
  unfold browseOne buildAuctionInfo
  rw [hit]
  dsimp only
  rw [if_neg (by simpa using hacc)]
  split_ifs <;> rfl

/-- What the loop adds to a page: the records from the `listfrom`-th on, while there is room. -/
theorem foldl_browseOne (l : List AuctionEntry) (p : AuctionPage) :
    l.foldl (browseOne aitems v q listfrom) p =
      { records := p.records ++
          ((matching aitems v q l).drop (listfrom - p.totalcount)).take (50 - p.count)
        count := p.count +
          (((matching aitems v q l).drop (listfrom - p.totalcount)).take (50 - p.count)).length
        totalcount := p.totalcount + (matching aitems v q l).length } := by
  induction l generalizing p with
  | nil => simp [matching]
  | cons a l ih =>
    rw [foldl_cons]
    cases h : record aitems v q a with
    | none =>
      have hm : matching aitems v q (a :: l) = matching aitems v q l := filterMap_cons_none h
      rw [browseOne_none h, ih, hm]
    | some r =>
      have hm : matching aitems v q (a :: l) = r :: matching aitems v q l :=
        filterMap_cons_some h
      rw [browseOne_some h, ih, hm]
      by_cases hfrom : p.totalcount ≥ listfrom
      · have hd : listfrom - p.totalcount = 0 := by omega
        by_cases hc : p.count < 50
        · have ht : 50 - p.count = (50 - (p.count + 1)) + 1 := by omega
          have hd' : listfrom - (p.totalcount + 1) = 0 := by omega
          rw [if_pos ⟨hc, hfrom⟩, hd, ht]
          rw [hd', drop_zero, drop_zero, take_succ_cons, append_assoc]
          simp only [length_cons, AuctionPage.mk.injEq, singleton_append]
          exact ⟨trivial, by omega, by omega⟩
        · have ht : 50 - p.count = 0 := by omega
          rw [if_neg fun h => hc h.1, ht]
          simp only [take_zero, length_cons, AuctionPage.mk.injEq]
          exact ⟨trivial, trivial, by omega⟩
      · have hd : listfrom - p.totalcount = (listfrom - (p.totalcount + 1)) + 1 := by omega
        rw [if_neg fun h => hfrom h.2, hd, drop_succ_cons]
        simp only [length_cons, AuctionPage.mk.injEq]
        exact ⟨trivial, trivial, by omega⟩

/-- The loop with the filters shows what matches. -/
theorem browse_eq (auctions : List AuctionEntry) (listfrom : Nat) :
    browse aitems v q auctions listfrom = .of (matching aitems v q auctions) listfrom := by
  unfold browse AuctionPage.of
  rw [foldl_browseOne]
  simp

/-- Without filters, all that is available matches. -/
theorem accepts_of_isEmpty (hq : q.isEmpty = true) (it : Item db) :
    q.accepts v a it = a.isAvailableFor v.remoteAddress := by
  unfold AuctionQuery.isEmpty at hq
  simp only [Bool.and_eq_true, beq_iff_eq] at hq
  obtain ⟨⟨⟨⟨⟨⟨⟨h1, h2⟩, h3⟩, h4⟩, h5⟩, h6⟩, h7⟩, h8⟩ := hq
  unfold AuctionQuery.accepts
  simp [h1, h2, h3, h4, h5, h7, h8]

/-- The auction can be shown by a query without filters. -/
def Showable (aitems : FinMap Nat (Item db)) (v : AuctionViewer db) (a : AuctionEntry) : Prop :=
  a.isAvailableFor v.remoteAddress = true ∧ (aitems.lookup a.itemGuid).isSome = true

section

variable (hq : q.isEmpty = true)
include hq

theorem Showable.record (h : Showable aitems v a) :
    ∃ r, record aitems v q a = some r ∧ buildAuctionInfo aitems v a = [r] := by
  obtain ⟨it, hit⟩ := isSome_iff_exists.mp h.2
  have hacc : q.accepts v a it = true := (accepts_of_isEmpty hq it).trans h.1
  unfold Windrunner.record buildAuctionInfo
  rw [hit, filter_some, if_pos hacc]
  exact ⟨_, rfl, rfl⟩

theorem showable_of_record (h : (record aitems v q a).isSome = true) :
    Showable aitems v a := by
  obtain ⟨r, hr⟩ := isSome_iff_exists.mp h
  obtain ⟨it, hit, -⟩ := map_eq_some_iff.mp hr
  obtain ⟨hit, hacc⟩ := filter_eq_some_iff.mp hit
  exact ⟨(accepts_of_isEmpty hq it).symm.trans hacc, by rw [hit]; rfl⟩

/-- The early branch shows everything when everything can be shown. -/
theorem browseAllFrom_eq (l : List AuctionEntry)
    (hl : ∀ a ∈ l, Showable aitems v a) (p : AuctionPage) (hp : p.count < 50) :
    browseAllFrom aitems v l p =
      { records := p.records ++ (matching aitems v q l).take (50 - p.count)
        count := p.count + ((matching aitems v q l).take (50 - p.count)).length
        totalcount := p.totalcount } := by
  induction l generalizing p with
  | nil => simp [browseAllFrom, matching]
  | cons a l ih =>
    have ha := hl a mem_cons_self
    obtain ⟨r, hr, hb⟩ := ha.record hq
    have hm : matching aitems v q (a :: l) = r :: matching aitems v q l :=
      filterMap_cons_some hr
    have ht : 50 - p.count = (50 - (p.count + 1)) + 1 := by omega
    unfold browseAllFrom
    rw [if_neg (by simp [ha.1]), hb, hm, ht, take_succ_cons]
    by_cases hc : p.count + 1 ≥ 50
    · have h0 : 50 - (p.count + 1) = 0 := by omega
      rw [if_pos hc, h0, take_zero]
      rfl
    · rw [if_neg hc, ih (fun b hb => hl b (mem_cons_of_mem _ hb)) _ (Nat.lt_of_not_le hc)]
      simp only [append_assoc, singleton_append, length_cons, AuctionPage.mk.injEq]
      exact ⟨trivial, by omega, trivial⟩

theorem matching_drop (l : List AuctionEntry) (hl : ∀ a ∈ l, Showable aitems v a) (n : Nat) :
    matching aitems v q (l.drop n) = (matching aitems v q l).drop n ∧
      (matching aitems v q l).length = l.length := by
  induction l generalizing n with
  | nil => simp [matching]
  | cons a l ih =>
    obtain ⟨r, hr, -⟩ := (hl a mem_cons_self).record hq
    have hm : matching aitems v q (a :: l) = r :: matching aitems v q l :=
      filterMap_cons_some hr
    have ih := ih fun b hb => hl b (mem_cons_of_mem _ hb)
    rw [hm, length_cons, length_cons, (ih 0).2]
    cases n with
    | zero => exact ⟨hm, rfl⟩
    | succ n => exact ⟨(ih n).1, rfl⟩

theorem browseAll_eq {auctions : List AuctionEntry}
    (hl : ∀ a ∈ auctions, Showable aitems v a) (listfrom : Nat) :
    browseAll aitems v auctions listfrom = .of (matching aitems v q auctions) listfrom := by
  obtain ⟨hdrop, hlen⟩ := matching_drop hq auctions hl listfrom
  unfold browseAll AuctionPage.of
  split_ifs with hlt
  · rw [browseAllFrom_eq hq _ (fun a ha => hl a (mem_of_mem_drop ha)) _ (Nat.zero_lt_succ _),
      hdrop, hlen]
    simp
  · rw [drop_eq_nil_of_le (by omega), hlen]
    rfl

end

/-- The early branch counts all auctions. -/
theorem totalcount_browseAll (auctions : List AuctionEntry) (listfrom : Nat) :
    (browseAll aitems v auctions listfrom).totalcount = auctions.length := by
  have hfrom : ∀ (l : List AuctionEntry) (p : AuctionPage),
      (browseAllFrom aitems v l p).totalcount = p.totalcount := by
    intro l p
    induction l generalizing p with
    | nil => rfl
    | cons a l ih =>
      unfold browseAllFrom
      dsimp only
      split_ifs
      · exact ih p
      · rfl
      · exact ih _
  unfold browseAll
  split_ifs
  · exact hfrom _ _
  · rfl

/-- The auctions of `OrderedAuctionMap` are the auctions of the house. -/
theorem AuctionHouse.Agrees.ordered_perm {h : AuctionHouse} (hh : h.Agrees) :
    h.ordered.Perm h.live := by
  have hself : h.live.filterMap (fun a => h.getAuction a.id) = h.live := by
    refine (List.filterMap_congr fun a ha => ?_).trans List.filterMap_some
    obtain ⟨id, hg⟩ := mem_live_iff.mp ha
    rw [hh.keyed id a hg, hg]
  unfold AuctionHouse.ordered
  refine (hh.ordered.filterMap _).trans (.of_eq ?_)
  rw [List.filterMap_map]
  exact hself

end Browse

/-- The pages are complete, and the early branch agrees with the loop, exactly when the query has a
filter or every auction can be shown. -/
theorem AuctionWorld.paged_iff (w : AuctionWorld db) (h : AuctionHouse) (v : AuctionViewer db)
    (q : AuctionQuery) :
    (Paged (buildListAuctionItems w.aitems v q h.ordered) (matching w.aitems v q h.ordered) ∧
      (q.isEmpty = true → ∀ n, browseAll w.aitems v h.ordered (50 * n) =
        browse w.aitems v q h.ordered (50 * n))) ↔
    (q.isEmpty = true → ∀ a ∈ h.ordered, Showable w.aitems v a) := by
  constructor
  · rintro ⟨hpaged, -⟩ hq a ha
    -- all auctions are counted, so all of them must match
    have htotal := hpaged.total 0
    unfold buildListAuctionItems matching at htotal
    rw [if_pos hq, totalcount_browseAll, length_filterMap_eq_countP] at htotal
    exact showable_of_record hq (countP_eq_length.mp htotal.symm a ha)
  · intro hl
    refine ⟨?_, fun hq n => by rw [browseAll_eq hq (hl hq), browse_eq]⟩
    have hpage : buildListAuctionItems w.aitems v q h.ordered =
        .of (matching w.aitems v q h.ordered) := by
      funext n
      unfold buildListAuctionItems
      split_ifs with hq
      · exact browseAll_eq hq (hl hq) n
      · exact browse_eq h.ordered n
    rw [hpage]
    exact paged_of _

/-- A house with 51 auctions, the cheapest one locked to an address. -/
def lockedHouse : AuctionHouse :=
  (range 51).foldl (fun h i => h.addAuction
    { id := i + 1, itemGuid := 100 + i, itemTemplate := 2589, owner := 1, ownerAccount := 1
      startbid := 1, buyout := .ofNat (i + 1)
      lockedIpAddress := if i = 0 then "10.0.0.1" else "" }) {}

/-- The auctions are pieces of cloth. -/
def lockedWorld : AuctionWorld sampleDb :=
  { mail := { chars := ∅ }
    houses := [lockedHouse]
    aitems := (range 51).foldl (fun m i => m.insert (100 + i) (cloth (100 + i) 1)) ∅ }

theorem lockedHouse_agrees : lockedHouse.Agrees := by
  have hkeys : ∀ x ∈ lockedHouse.auctionsMap.entries, x.2.id = x.1 := by decide +kernel
  refine ⟨fun id a ha => hkeys ⟨id, a⟩ (of_mem_dlookup ha), ?_, ?_⟩
  · decide +kernel
  · decide +kernel

/-- Another player is told of 51 auctions, and finds the last one on both pages. -/
theorem lockedWorld_not_paged :
    lockedHouse.Agrees ∧
      (matching lockedWorld.aitems {} {} lockedHouse.ordered).length = 50 ∧
      (buildListAuctionItems lockedWorld.aitems {} {} lockedHouse.ordered 0).totalcount = 51 ∧
      (buildListAuctionItems lockedWorld.aitems {} {} lockedHouse.ordered 0).records.map (·.id) =
        (range 50).map (· + 2) ∧
      (buildListAuctionItems lockedWorld.aitems {} {} lockedHouse.ordered 50).records.map (·.id) =
        [51] ∧
      (browse lockedWorld.aitems {} {} lockedHouse.ordered 50).records = [] ∧
      ¬ Paged (buildListAuctionItems lockedWorld.aitems {} {} lockedHouse.ordered)
        (matching lockedWorld.aitems {} {} lockedHouse.ordered) := by
  have hlen : (matching lockedWorld.aitems {} {} lockedHouse.ordered).length = 50 := by decide +kernel
  have htotal : (buildListAuctionItems lockedWorld.aitems {} {} lockedHouse.ordered 0).totalcount =
      51 := by
    decide +kernel
  refine ⟨lockedHouse_agrees, hlen, htotal, by decide +kernel, by decide +kernel, by decide +kernel,
    fun hp => ?_⟩
  have h0 : (buildListAuctionItems lockedWorld.aitems {} {} lockedHouse.ordered 0).totalcount = _ :=
    hp.total 0
  rw [htotal, hlen] at h0
  cases h0

end Windrunner
