import Windrunner.Lib.Index
import Windrunner.Mail.State

/-!
# The auction house

`AuctionWorld` is the mail system together with the auction houses: each house keeps its auctions in
a map by id (`AuctionsMap`) and in two multimaps, by buyout and by the account of the owner, that
refer to the auctions; the items on sale are in one map (`mAitems`), and the table `auction` has a
row for every auction.

* `AuctionHouse.addAuction`, `removeAuction`: the three containers of a house.
* `handleAuctionSellItem`, `handleAuctionPlaceBid`, `handleAuctionRemoveItem`: the packets.
* `update`: the auctions whose time is over; `removeAllAuctions`: those of a character who turns
  hardcore.
* `AuctionWorld.step`: one packet or one call.
-/

namespace Windrunner

open Lib

variable {db : ItemDb}

structure AuctionEntry where
  id : Nat
  itemGuid : Nat
  itemTemplate : Nat
  owner : Nat
  ownerAccount : Nat
  startbid : UInt32
  bid : UInt32 := 0
  buyout : UInt32 := 0
  lockedIpAddress : String := ""
  depositTime : Nat := 0
  expireTime : Nat := 0
  /-- `0` before the first bid. -/
  bidder : Nat := 0
  deposit : UInt32 := 0
  houseId : Nat := 0
  deriving DecidableEq, Repr

/-- A row of the table `auction`. -/
structure AuctionRow where
  id : Nat
  houseid : Nat
  itemguid : Nat
  itemTemplate : Nat
  itemowner : Nat
  buyoutprice : UInt32
  time : Nat
  buyguid : Nat
  lastbid : UInt32
  startbid : UInt32
  deposit : UInt32
  deriving DecidableEq, Repr

/-- `AuctionHouseObject`. The multimaps hold pointers to the auctions, which are their ids. -/
structure AuctionHouse where
  auctionsMap : FinMap Nat AuctionEntry := ∅
  orderedAuctionMap : List (UInt32 × Nat) := []
  accountAuctionMap : List (Nat × Nat) := []

/-- `MailAuctionAnswers`: what a mail of the auction house is about. -/
inductive AuctionAnswer where
  | outbidded
  | won
  | successful
  | expired
  | cancelledToBidder
  | canceled
  deriving DecidableEq, Repr

/-- A mail that the auction house has sent. -/
structure AuctionMail (db : ItemDb) where
  auction : Nat
  answer : AuctionAnswer
  receiver : Nat
  money : UInt32 := 0
  items : List (Item db) := []

/-- Money that an auction took out of a purse. -/
structure AuctionDebit where
  auction : Nat
  player : Nat
  amount : Nat
  deriving DecidableEq, Repr

/-- An auction that has left its house: how it stood then, whether the owner cancelled it, and the
cut of the house. -/
structure AuctionEnd where
  auction : AuctionEntry
  cancelled : Bool := false
  cut : UInt32 := 0
  deriving DecidableEq, Repr

structure AuctionWorld (db : ItemDb) where
  mail : MailWorld db
  houses : List AuctionHouse := []
  /-- `mAitems`. -/
  aitems : FinMap Nat (Item db) := ∅
  rows : List AuctionRow := []
  /-- `m_AuctionsIds` and `m_NextAuctionId`. -/
  auctionIds : List Nat := []
  nextAuctionId : Nat := 1
  /-- The mails sent, the bids paid, the deposits and cuts that owners have paid, and the auctions
  that have left a house. Nothing reads these. -/
  sent : List (AuctionMail db) := []
  debits : List AuctionDebit := []
  fees : List AuctionDebit := []
  left : List AuctionEnd := []

/-- What the handlers read of the world outside. -/
structure AuctionMoment extends MailMoment where
  /-- The house of the auctioneer, in `m_vRealAuctionHouses`, and its id. -/
  house : Option Nat := some 0
  houseId : Nat := 7
  /-- How many auctions an account may have in a house, `0` for any number. -/
  accountAuctionLimit : Nat := 0
  remoteAddress : String := ""
  online : Nat → Bool := fun _ => true
  /-- `GetAuctionDeposit` and `GetAuctionCut`, which compute in floating point. -/
  deposit : UInt32 := 0
  cut : AuctionEntry → UInt32 := fun _ => 0
  auctionTime : Nat := 0

namespace AuctionEntry

variable (a : AuctionEntry)

/-- `SaveToDB`. -/
def row : AuctionRow :=
  { id := a.id, houseid := a.houseId, itemguid := a.itemGuid, itemTemplate := a.itemTemplate
    itemowner := a.owner, buyoutprice := a.buyout, time := a.expireTime, buyguid := a.bidder
    lastbid := a.bid, startbid := a.startbid, deposit := a.deposit }

def getAuctionOutBid : UInt32 :=
  let outbid := a.bid / 100 * 5
  if outbid = 0 then 1 else outbid

def bidBy (guid : Nat) (price : UInt32) : AuctionEntry :=
  { a with bidder := guid, bid := price }

/-- The auction with another lock. -/
def lockedTo (ip : String) : AuctionEntry := { a with lockedIpAddress := ip }

def isAvailableFor (remoteAddress : String) : Bool :=
  if a.lockedIpAddress ≠ "" then a.lockedIpAddress == remoteAddress else true

end AuctionEntry

namespace AuctionHouse

def live (h : AuctionHouse) : List AuctionEntry := h.auctionsMap.entries.map (·.2)

def getAuction (h : AuctionHouse) (id : Nat) : Option AuctionEntry := h.auctionsMap.lookup id

def addAuction (h : AuctionHouse) (a : AuctionEntry) : AuctionHouse :=
  { auctionsMap := h.auctionsMap.insert a.id a
    orderedAuctionMap := emplace a.buyout a.id h.orderedAuctionMap
    accountAuctionMap := emplace a.ownerAccount a.id h.accountAuctionMap }

def removeAuction (h : AuctionHouse) (a : AuctionEntry) : AuctionHouse :=
  { auctionsMap := h.auctionsMap.erase a.id
    orderedAuctionMap := h.orderedAuctionMap.erase (a.buyout, a.id)
    accountAuctionMap := h.accountAuctionMap.erase (a.ownerAccount, a.id) }

def getAccountAuctionCount (h : AuctionHouse) (account : Nat) : Nat :=
  h.accountAuctionMap.countP (·.1 == account)

/-- A write through the pointer to an auction. -/
def setAuction (h : AuctionHouse) (a : AuctionEntry) : AuctionHouse :=
  { h with auctionsMap := h.auctionsMap.insert a.id a }

/-- The auctions of an owner, as `RemoveAllAuctions` collects them. -/
def ownedBy (h : AuctionHouse) (owner account : Nat) : List AuctionEntry :=
  h.accountAuctionMap.filterMap fun x =>
    if x.1 = account then (h.getAuction x.2).filter (·.owner == owner) else none

end AuctionHouse

/-- `GenerateAuctionID`: the first id from `n` on that is not in use. `fuel` is the number of ids. -/
def firstFree (ids : List Nat) : Nat → Nat → Nat
  | 0, n => n
  | fuel + 1, n => if n ∈ ids then firstFree ids fuel (n + 1) else n

namespace AuctionWorld

variable (w : AuctionWorld db) (a : AuctionEntry) (m : AuctionMoment) (guid : Nat)

def char : Option (Char db) := w.mail.chars.lookup guid

/-- A character who can get mail: there is one, and it is not hardcore. -/
def knows : Bool := (w.char guid).any fun c => !c.hardcore

/-- The auctions of all houses. -/
def live : List AuctionEntry := w.houses.flatMap (·.live)

def setHouse (k : Nat) (h : AuctionHouse) : AuctionWorld db :=
  { w with houses := w.houses.set k h }

/-- `MailDraft::SendMailTo` with the auction as the sender. -/
def post (answer : AuctionAnswer) (receiver : Nat)
    (money : UInt32) (items : List (Item db)) (now : Nat) : AuctionWorld db :=
  { w with
    mail := w.mail.sendMailTo
      { receiver, messageType := .auction, sender := a.houseId, money, items
        checked := mailCheckMaskCopied } now
    sent := ⟨a.id, answer, receiver, money, items⟩ :: w.sent }

/-- What really leaves the purse when `amount` is taken out of it. -/
def debit (id guid : Nat) (c : Char db) (amount : UInt32) : AuctionDebit :=
  ⟨id, guid, c.money.toNat - (modifyMoney c.money (0 - amount)).toNat⟩

/-- `LogModifyMoney` of a bidder. -/
def charge (c : Char db) (amount : UInt32) :
    AuctionWorld db :=
  { w with
    mail := w.mail.setChar guid { c with money := modifyMoney c.money (0 - amount) }
    debits := debit a.id guid c amount :: w.debits }

def removeAItem : AuctionWorld db :=
  { w with aitems := w.aitems.erase guid }

def deleteFromDB : AuctionWorld db :=
  { w with rows := w.rows.filter (·.id ≠ a.id) }

/-- `RemoveAuction` of house `k`, with `FreeAuctionID`. -/
def removeAuction (k : Nat) (h : AuctionHouse) (e : AuctionEnd) :
    AuctionWorld db :=
  { w.setHouse k (h.removeAuction e.auction) with
    auctionIds := w.auctionIds.erase e.auction.id
    left := e :: w.left }

/-! ## The mails -/

def sendAuctionOutbiddedMail (now : Nat) :
    AuctionWorld db :=
  if w.knows a.bidder then w.post a .outbidded a.bidder a.bid [] now else w

def sendAuctionCancelledToBidderMail (now : Nat) :
    AuctionWorld db :=
  if w.knows a.bidder then w.post a .cancelledToBidder a.bidder a.bid [] now else w

/-- `SendAuctionWonMail` and `SendAuctionExpiredMail`: the item goes to the receiver, or is deleted
when there is none. It leaves `mAitems` here already unless the receiver is online. -/
def sendItem (answer : AuctionAnswer) (receiver : Nat) (m : AuctionMoment) : AuctionWorld db :=
  match w.aitems.lookup a.itemGuid with
  | none => w
  | some it =>
    if w.knows receiver then
      let w := if m.online receiver then w else w.removeAItem a.itemGuid
      w.post a answer receiver 0 [it] m.now
    else w.removeAItem a.itemGuid

def sendAuctionWonMail :
    AuctionWorld db := w.sendItem a .won a.bidder m

def sendAuctionExpiredMail :
    AuctionWorld db := w.sendItem a .expired a.owner m

def sendAuctionSuccessfulMail :
    AuctionWorld db :=
  if w.knows a.owner then
    w.post a .successful a.owner (a.bid + a.deposit - m.cut a) [] m.now
  else w

/-! ## The packets -/

/-- The checks on the item: not in the bank, tradable, unbound, not conjured, without a duration. -/
def mayBeSold (inv : Inventory db) (m : AuctionMoment) (p : Pos) (it : Item db) : Bool :=
  !Inventory.isBankPos p && inv.canBeTraded m.toMailMoment p it && !it.isSoulBound &&
    it.proto.flags &&& itemFlagConjured == 0 && it.fields.duration == 0

abbrev minAuctionTime : Nat := 2 * hour

/-- What `HandleAuctionSellItem` checks before it looks at the item. -/
def maySell (itemGuid : Nat) (bid buyout etime : UInt32) : Bool :=
  bid != 0 && etime != 0 && !m.isSuspicious && bid ≤ 2000000000 && buyout ≤ 2000000000 &&
    !(buyout != 0 && buyout < bid) && !m.gmMayNotTrade &&
    [minAuctionTime, 4 * minAuctionTime, 12 * minAuctionTime].contains (etime * 60).toNat &&
    itemGuid != 0

/-- The auction that a packet asks for. -/
def newAuction (id owner : Nat) (c : Char db) (it : Item db) (bid buyout : UInt32) : AuctionEntry :=
  { id, itemGuid := it.guid, itemTemplate := it.entry, owner, ownerAccount := c.account
    startbid := bid, buyout, lockedIpAddress := m.remoteAddress, depositTime := m.now
    expireTime := m.now + m.auctionTime, deposit := m.deposit, houseId := m.houseId }

/-- The auction is added, and its item and the deposit leave the owner. -/
def list (k : Nat) (h : AuctionHouse) (guid : Nat) (c : Char db) (p : Pos)
    (it : Item db) (bid buyout : UInt32) (m : AuctionMoment) : AuctionWorld db :=
  let id := firstFree w.auctionIds w.auctionIds.length w.nextAuctionId
  let a := newAuction m id guid c it bid buyout
  { w.setHouse k (h.addAuction a) with
    mail := w.mail.setChar guid
      { c with money := modifyMoney c.money (0 - m.deposit), inv := c.inv.remove p }
    aitems := w.aitems.insert it.guid it
    rows := w.rows ++ [a.row]
    fees := debit id guid c m.deposit :: w.fees
    auctionIds := id :: w.auctionIds
    nextAuctionId := id + 1 }

def handleAuctionSellItem (guid itemGuid : Nat) (bid buyout etime : UInt32)
    (m : AuctionMoment) : AuctionWorld db :=
  if !maySell m itemGuid bid buyout etime then w
  else
    match m.house.bind fun k => w.houses[k]?.map (k, ·), w.char guid with
    | some (k, h), some c =>
      if m.accountAuctionLimit ≠ 0 ∧ h.getAccountAuctionCount c.account ≥ m.accountAuctionLimit then w
      else if (w.aitems.lookup itemGuid).isSome then w
      else
        match c.inv.getItemByGuid itemGuid with
        | none => w
        | some (p, it) =>
          if !mayBeSold c.inv m p it then w
          else if c.money < m.deposit then w
          else w.list k h guid c p it bid buyout m
    | _, _ => w

/-- The checks of `HandleAuctionPlaceBid`. -/
def mayBid (c : Char db) (a : AuctionEntry) (price : UInt32) : Bool :=
  a.owner != guid &&
    !(!m.online a.owner && (w.char a.owner).any (·.account == c.account)) &&
    a.startbid ≤ price && a.bid < price &&
    !((price < a.buyout || a.buyout == 0) && price < a.bid + a.getAuctionOutBid) &&
    price ≤ c.money

/-- The bidder pays `price`: the difference to the standing bid, or all of it, and then the old
bidder gets the standing bid back. -/
def payBid (c : Char db) (a : AuctionEntry) (price : UInt32) (now : Nat) : AuctionWorld db :=
  if guid = a.bidder then w.charge a guid c (price - a.bid)
  else
    let w := w.charge a guid c price
    if a.bidder ≠ 0 then w.sendAuctionOutbiddedMail a now else w

/-- A bid below the buyout. -/
def bid (k : Nat) (h : AuctionHouse) (guid : Nat) (c : Char db)
    (a : AuctionEntry) (price : UInt32) (now : Nat) : AuctionWorld db :=
  let w := (w.payBid guid c a price now).setHouse k (h.setAuction (a.bidBy guid price))
  { w with rows := w.rows.map fun r =>
      if r.id = a.id then { r with buyguid := guid, lastbid := price } else r }

def buyOut (k : Nat) (h : AuctionHouse) (guid : Nat) (c : Char db)
    (a : AuctionEntry) (m : AuctionMoment) : AuctionWorld db :=
  let a' := a.bidBy guid a.buyout
  let w := (w.payBid guid c a a.buyout m.now).setHouse k (h.setAuction a')
  let w := (w.sendAuctionSuccessfulMail a' m).sendAuctionWonMail a' m
  let w := w.removeAItem a.itemGuid
  (w.removeAuction k (h.setAuction a') { auction := a', cut := m.cut a' }).deleteFromDB a'

def handleAuctionPlaceBid (guid auctionId : Nat) (price : UInt32)
    (m : AuctionMoment) : AuctionWorld db :=
  if m.gmMayNotTrade || auctionId == 0 || price == 0 || m.isSuspicious then w
  else
    match m.house.bind fun k => w.houses[k]?.map (k, ·), w.char guid with
    | some (k, h), some c =>
      match h.getAuction auctionId with
      | none => w
      | some a =>
        if !w.mayBid m guid c a price then w
        else if price < a.buyout || a.buyout == 0 then w.bid k h guid c a price m.now
        else w.buyOut k h guid c a m
    | _, _ => w

/-- `ModifyMoney` of the owner. -/
def payCut (c : Char db) (a : AuctionEntry) (cut : UInt32) :
    AuctionWorld db :=
  { w with
    mail := w.mail.setChar guid { c with money := modifyMoney c.money (0 - cut) }
    fees := debit a.id guid c cut :: w.fees }

/-- The owner pays the cut when there is a bidder to be refunded. -/
def refundBidder (c : Char db) (a : AuctionEntry) (m : AuctionMoment) : AuctionWorld db :=
  if a.bidder > 0 then (w.sendAuctionCancelledToBidderMail a m.now).payCut guid c a (m.cut a) else w

def cancel (k : Nat) (h : AuctionHouse) (guid : Nat) (c : Char db)
    (a : AuctionEntry) (it : Item db) (m : AuctionMoment) : AuctionWorld db :=
  let w := (w.refundBidder guid c a m).post a .canceled guid 0 [it] m.now
  ((w.deleteFromDB a).removeAItem a.itemGuid).removeAuction k h
    { auction := a, cancelled := true, cut := m.cut a }

def handleAuctionRemoveItem (guid auctionId : Nat) (m : AuctionMoment) :
    AuctionWorld db :=
  match m.house.bind fun k => w.houses[k]?.map (k, ·), w.char guid with
  | some (k, h), some c =>
    match h.getAuction auctionId with
    | none => w
    | some a =>
      if a.owner ≠ guid then w
      else
        match w.aitems.lookup a.itemGuid with
        | none => w
        | some it =>
          if a.bidder > 0 ∧ c.money < m.cut a then w
          else w.cancel k h guid c a it m
  | _, _ => w

/-! ## The calls -/

/-- The lock on the address of the owner is dropped after five minutes. -/
def unlocked (now : Nat) : AuctionEntry :=
  if a.depositTime + 5 * 60 < now then a.lockedTo "" else a

/-- The time of the auction is over. -/
def expire (k : Nat) (h : AuctionHouse) (a : AuctionEntry) (m : AuctionMoment) : AuctionWorld db :=
  let w := if a.bidder = 0 then w.sendAuctionExpiredMail a m
    else (w.sendAuctionSuccessfulMail a m).sendAuctionWonMail a m
  ((w.deleteFromDB a).removeAItem a.itemGuid).removeAuction k h { auction := a, cut := m.cut a }

/-- One auction of `AuctionHouseObject::Update`. -/
def updateOne (k : Nat) (w : AuctionWorld db) (id : Nat) : AuctionWorld db :=
  match w.houses[k]? with
  | none => w
  | some h =>
    match h.getAuction id with
    | none => w
    | some a =>
      let a := unlocked a m.now
      let h := h.setAuction a
      let w := w.setHouse k h
      if m.now ≤ a.expireTime then w else w.expire k h a m

/-- `AuctionHouseObject::Update`: the map is gone through in the order of the ids. -/
def update (k : Nat) (m : AuctionMoment) : AuctionWorld db :=
  match w.houses[k]? with
  | none => w
  | some h => (h.auctionsMap.keys.insertionSort (· ≤ ·)).foldl (updateOne m k) w

/-- One auction that `RemoveAllAuctions` takes out: nothing but the maps changes. -/
def dropAuction (k : Nat) (w : AuctionWorld db) (a : AuctionEntry) : AuctionWorld db :=
  match w.houses[k]? with
  | none => w
  | some h => w.removeAuction k h { auction := a }

def removeAllAuctions (k guid : Nat) : AuctionWorld db :=
  match w.houses[k]?, w.char guid with
  | some h, some c => (h.ownedBy guid c.account).foldl (dropAuction k) w
  | _, _ => w

end AuctionWorld

inductive AuctionInput (db : ItemDb) where
  | sellItem (guid itemGuid : Nat) (bid buyout etime : UInt32) (m : AuctionMoment)
  | placeBid (guid auctionId : Nat) (price : UInt32) (m : AuctionMoment)
  | removeItem (guid auctionId : Nat) (m : AuctionMoment)
  | update (k : Nat) (m : AuctionMoment)
  | removeAllAuctions (k guid : Nat)
  /-- What the rest of the game does to purses, inventories and mails. -/
  | outside (mail : MailWorld db)

namespace AuctionWorld

def step (w : AuctionWorld db) : AuctionInput db → AuctionWorld db
  | .sellItem guid itemGuid bid buyout etime m =>
    w.handleAuctionSellItem guid itemGuid bid buyout etime m
  | .placeBid guid auctionId price m => w.handleAuctionPlaceBid guid auctionId price m
  | .removeItem guid auctionId m => w.handleAuctionRemoveItem guid auctionId m
  | .update k m => w.update k m
  | .removeAllAuctions k guid => w.removeAllAuctions k guid
  | .outside mail => { w with mail }

end AuctionWorld

end Windrunner
