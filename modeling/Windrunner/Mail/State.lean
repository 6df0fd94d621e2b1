import Windrunner.GuildBank.Commands
import Windrunner.Trade.Exchange

/-!
# The mailbox handlers

`MailWorld` is every character with purse and inventory, the table of mails, and the requests to
send a mail that wait for their `COUNT(*)`. A mail of the table is in the list `m_mail` of its
receiver (`inBox`) while the receiver is online.

* `sendMailTo`: `MailDraft::SendMailTo`.
* `handleSendMail`, `handleSendMailCallback`: the check of the request, and its execution once the
  mails of the receiver are counted. The count travels as a `uint8`.
* `handleMailMarkAsRead`, `handleMailDelete`, `handleMailReturnToSender`, `handleMailTakeItem`,
  `handleMailTakeMoney`.
* `MailWorld.step`: one packet, one answer of the database, or a save, login or logout.
-/

namespace Windrunner

open Lib

variable {db : ItemDb}

inductive MailMessageType where
  | normal
  | auction
  | creature
  | gameobject
  | item
  deriving DecidableEq, Repr

inductive MailState where
  | unchanged
  | changed
  | deleted
  deriving DecidableEq, Repr

abbrev mailCheckMaskRead : UInt32 := 0x01
abbrev mailCheckMaskReturned : UInt32 := 0x02
abbrev mailCheckMaskCopied : UInt32 := 0x04
abbrev mailCheckMaskCodPayment : UInt32 := 0x08
abbrev mailCheckMaskHasBody : UInt32 := 0x10

abbrev day : Nat := 86400
abbrev hour : Nat := 3600

/-- `MailResponseType`. -/
inductive MailAction where
  | send
  | moneyTaken
  | itemTaken
  | returnedToSender
  | deleted
  deriving DecidableEq, Repr

/-- `MailResponseResult`. -/
inductive MailError where
  | ok
  | equipError (msg : InventoryResult)
  | cannotSendToSelf
  | notEnoughMoney
  | recipientNotFound
  | notYourTeam
  | internalError
  | disabledForTrialAcc
  | recipientCapReached
  deriving DecidableEq, Repr

/-- `SendMailResult`. -/
structure MailReply where
  mailId : Nat
  action : MailAction
  error : MailError
  deriving DecidableEq, Repr

/-- A mail with the items that its list of item guids refers to. -/
structure Mail (db : ItemDb) where
  messageID : Nat
  messageType : MailMessageType := .normal
  sender : Nat
  receiver : Nat
  money : UInt32 := 0
  cod : UInt32 := 0
  items : List (Item db) := []
  state : MailState := .unchanged
  checked : UInt32 := 0
  expireTime : Nat := 0
  deliverTime : Nat := 0
  /-- The mail is in `m_mail` of its receiver. -/
  inBox : Bool := true
  /-- The column `isDeleted` of the row. -/
  isDeleted : Bool := false

/-- A character: what the mailbox handlers read and write of it. -/
structure Char (db : ItemDb) where
  money : UInt32
  inv : Inventory db
  account : Nat := 1
  team : Nat := 0
  hardcore : Bool := false

/-- What the packet to send a mail says. -/
structure MailPacket where
  /-- `GetPlayerGuidByName` of the normalised name, `0` for a name nobody has. -/
  receiver : Nat
  subjectSize : Nat := 2
  bodySize : Nat := 0
  /-- `0` without an item. -/
  itemGuid : Nat := 0
  money : UInt32 := 0
  cod : UInt32 := 0

/-- The packet carries something of value. -/
def MailPacket.attached (pk : MailPacket) : Bool := pk.money != 0 || pk.cod != 0 || pk.itemGuid != 0

/-- A request that waits for the number of mails of its receiver, who was offline. -/
structure MailRequest where
  senderGuid : Nat
  packet : MailPacket
  rcTeam : Nat
  /-- The number that the database has answered. -/
  answer : Option Nat := none
  /-- The undeleted mails of the receiver when they were counted. Nothing reads it. -/
  undeletedThen : Nat := 0

/-- What the handlers read of the world outside the mails. -/
structure MailMoment where
  now : Nat := 0
  checkMailBox : Bool := true
  isSuspicious : Bool := false
  /-- The account has reached the number of mails it may send in an hour. -/
  tooManyMails : Bool := false
  /-- A game master who may not trade. -/
  gmMayNotTrade : Bool := false
  lastMailOpenTime : Nat := 0
  inWorld : Bool := true
  /-- Mails to the other faction are allowed, by the configuration or for a game master. -/
  twoSides : Bool := false
  /-- What `CanBeTraded` and the mail handler ask about the item beyond its own fields: it may be
  unequipped, it is not being looted, and no enchantment binds it. -/
  canUnequipItem : Bool := true
  isLootGuid : Bool := false
  isBoundByEnchant : Bool := false
  /-- The level, money and item rules against spam stop the mail. -/
  isSpam : Bool := false
  /-- `AccountPersistentData::CanMail`. -/
  canMail : Bool := true
  anonMail : Bool := false
  mailDeliveryDelay : Nat := 3600

structure MailWorld (db : ItemDb) where
  chars : FinMap Nat (Char db)
  /-- The characters with a `MasterPlayer`. -/
  online : List Nat := []
  mails : List (Mail db) := []
  pending : List MailRequest := []
  nextMailId : Nat := 1
  /-- The next item guid. -/
  fresh : Nat := 1
  /-- How many mails players have sent. Nothing reads it. -/
  sent : Nat := 0

/-- `MailDraft`, with the receiver and the sender. -/
structure MailDraft (db : ItemDb) where
  receiver : Nat
  messageType : MailMessageType := .normal
  sender : Nat
  money : UInt32 := 0
  cod : UInt32 := 0
  items : List (Item db) := []
  checked : UInt32 := 0
  deliverDelay : Nat := 0

namespace Inventory

/-- The positions that `GetItemByGuid` goes through. -/
def searched (p : Pos) : Bool :=
  visible p && !(p.1 == inventorySlotBag0 && bankSlotBagStart ≤ p.2 && p.2 < bankSlotBagEnd)

/-- `Player::GetItemByGuid`; no two items of a player have one guid. -/
def getItemByGuid (inv : Inventory db) (guid : Nat) : Option (Pos × Item db) :=
  (inv.cells.entries.find? fun x => x.2.guid == guid && searched x.1).map fun x => (x.1, x.2)

def isBankPos (p : Pos) : Bool :=
  (p.1 == inventorySlotBag0 && bankSlotItemStart ≤ p.2 && p.2 < bankSlotItemEnd) ||
    (p.1 == inventorySlotBag0 && bankSlotBagStart ≤ p.2 && p.2 < bankSlotBagEnd) ||
    (bankSlotBagStart ≤ p.1 && p.1 < bankSlotBagEnd)

/-- `Item::CanBeTraded` of the item at `p`. -/
def canBeTraded (inv : Inventory db) (m : MailMoment) (p : Pos) (it : Item db) : Bool :=
  if it.isSoulBound && !it.canBeTradedEvenIfSoulBound then false
  else if it.isBag && (isBagPos p || inv.isNonEmptyBag (.own p)) then false
  else if !m.canUnequipItem || m.isLootGuid then false
  else if it.hasGeneratedLoot then false
  else !m.isBoundByEnchant

end Inventory

/-- An item that the send handler lets through: not in the bank, tradable, unbound, not conjured
and without a duration; an account-bound one only to the same account. -/
def Item.mayBeMailed (it : Item db) (inv : Inventory db) (m : MailMoment) (p : Pos)
    (sameAccount : Bool) : Bool :=
  if Inventory.isBankPos p then false
  else if it.hasFlag itemDynflagBoa && !sameAccount then false
  else if !inv.canBeTraded m p it || it.isSoulBound then false
  else !(it.proto.flags &&& itemFlagConjured != 0 || it.fields.duration != 0)

namespace Mail

/-- The mail can be handled: it is not deleted, and its time has come. -/
def available (mail : Mail db) (m : MailMoment) : Bool :=
  mail.state != .deleted && mail.deliverTime ≤ m.now

/-- The mail counts as one of its receiver's. -/
def undeleted (mail : Mail db) : Bool := mail.state != .deleted

/-- `SaveMails` for one mail of the list. -/
def save (mail : Mail db) : Mail db :=
  match mail.state with
  | .unchanged => mail
  | .changed => { mail with state := .unchanged }
  | .deleted => { mail with isDeleted := true, inBox := false }

end Mail

namespace MailWorld

variable (w : MailWorld db) (guid : Nat)

/-- A purse and an inventory are written back. -/
def setChar (c : Char db) : MailWorld db :=
  { w with chars := w.chars.insert guid c }

/-- `GetMailSize`: the mails in memory. -/
def getMailSize : Nat :=
  w.mails.countP fun m => m.receiver == guid && m.inBox

/-- `SELECT COUNT(*) FROM mail WHERE receiver = .. AND isDeleted = 0`. -/
def countMails : Nat :=
  w.mails.countP fun m => m.receiver == guid && !m.isDeleted

/-- The undeleted mails of a character. -/
def undeletedOf : Nat :=
  w.mails.countP fun m => m.receiver == guid && m.undeleted

/-- `MasterPlayer::GetMail`, with the place of the mail. -/
def getMail (guid id : Nat) : Option (Nat × Mail db) :=
  (w.mails.findIdx? fun m => m.receiver == guid && m.inBox && m.messageID == id).bind fun i =>
    w.mails[i]?.map (i, ·)

/-- `MailDraft::SendMailTo`: a row, and an entry at the front of `m_mail` of a receiver who is
online. -/
def sendMailTo (d : MailDraft db) (now : Nat) : MailWorld db :=
  let deliverTime := now + d.deliverDelay
  let expireDelay :=
    if d.messageType = .auction ∧ d.items = [] ∧ d.money = 0 then hour
    else if d.cod > 0 then 3 * day else 30 * day
  { w with
    mails :=
      { messageID := w.nextMailId, messageType := d.messageType, sender := d.sender
        receiver := d.receiver, money := d.money, cod := d.cod, items := d.items
        checked := d.checked, expireTime := deliverTime + expireDelay, deliverTime
        inBox := w.online.contains d.receiver } :: w.mails
    nextMailId := w.nextMailId + 1 }

def isPlayerHardcore : Bool :=
  (w.chars.lookup guid).any (·.hardcore)

/-! ## Sending -/

def reqmoney (pk : MailPacket) : UInt32 := pk.money + 30

/-- The checks of `HandleSendMailCallback`: an error, or the item to send. -/
def sendCheck (r : MailRequest) (c : Char db) (mailsCount : UInt8)
    (m : MailMoment) : Except MailError (Option (Pos × Item db)) :=
  let pk := r.packet
  if reqmoney pk < pk.money then .error .notEnoughMoney
  else if reqmoney pk ≠ 0 ∧ c.money < reqmoney pk then .error .notEnoughMoney
  else if mailsCount > 100 then .error .recipientCapReached
  else if !m.twoSides && c.team != r.rcTeam then .error .notYourTeam
  else
    let item := if pk.itemGuid ≠ 0 then c.inv.getItemByGuid pk.itemGuid else none
    if pk.itemGuid ≠ 0 ∧ item.all (fun x => !x.2.mayBeMailed c.inv m x.1
        ((w.chars.lookup pk.receiver).any (·.account == c.account))) then .error .internalError
    else if m.isSpam then .error .recipientCapReached
    -- the sender is told that the mail is on its way
    else if !m.canMail then .error .ok
    else .ok item

/-- `HandleSendMailCallback`. Nothing happens when the sender is not in the world any more. -/
def handleSendMailCallback (r : MailRequest) (mailsCount : UInt8)
    (m : MailMoment) : Option MailReply × MailWorld db :=
  if !w.online.contains r.senderGuid || !m.inWorld then (none, w)
  else
    match w.chars.lookup r.senderGuid with
    | none => (none, w)
    | some c =>
      match w.sendCheck r c mailsCount m with
      | .error e => (some ⟨0, .send, e⟩, w)
      | .ok item =>
        let pk := r.packet
        let inv := item.elim c.inv fun x => c.inv.remove x.1
        let w := w.setChar r.senderGuid
          { c with money := modifyMoney c.money (0 - reqmoney pk), inv }
        let w := w.sendMailTo
          { receiver := pk.receiver
            sender := if m.anonMail then 0 else r.senderGuid
            money := pk.money
            cod := if item.isNone then 0 else pk.cod
            items := (item.map (·.2)).toList
            checked := if pk.bodySize = 0 then mailCheckMaskCopied else mailCheckMaskHasBody
            deliverDelay :=
              if pk.itemGuid ≠ 0 ∧ !m.anonMail then m.mailDeliveryDelay else 0 } m.now
        (some ⟨0, .send, .ok⟩, { w with sent := w.sent + 1 })

/-- `HandleSendMail`. For a receiver who is online the mails are counted in memory and the request
is executed at once, otherwise it waits for the database. -/
def handleSendMail (pk : MailPacket) (m : MailMoment) :
    Option MailReply × MailWorld db :=
  if !m.checkMailBox || m.isSuspicious then (none, w)
  else if m.tooManyMails then (some ⟨0, .send, .recipientCapReached⟩, w)
  else if pk.subjectSize > 64 || pk.bodySize > 500 || pk.cod > 100000000 then (none, w)
  else if m.gmMayNotTrade && (pk.itemGuid != 0 || pk.money != 0) then (none, w)
  else
    match w.chars.lookup guid, w.chars.lookup pk.receiver with
    | none, _ => (none, w)
    | some _, none => (some ⟨0, .send, .recipientNotFound⟩, w)
    | some c, some rc =>
      if guid = pk.receiver then (some ⟨0, .send, .cannotSendToSelf⟩, w)
      else if c.hardcore && pk.attached then (some ⟨0, .send, .disabledForTrialAcc⟩, w)
      -- a one-letter subject, or a mail sent right after the mailbox was opened
      else if pk.money != 0 && ((pk.subjectSize == 1 && pk.bodySize == 0) ||
          m.lastMailOpenTime + 1 ≥ m.now) then (some ⟨0, .send, .notEnoughMoney⟩, w)
      else if !c.hardcore && rc.hardcore && pk.attached then
        (some ⟨0, .send, .recipientNotFound⟩, w)
      else
        let r : MailRequest := { senderGuid := guid, packet := pk, rcTeam := rc.team }
        if w.online.contains pk.receiver then
          w.handleSendMailCallback r (UInt8.ofNat (w.getMailSize pk.receiver)) m
        else (none, { w with pending := w.pending ++ [r] })

/-- The database executes the query of a request. -/
def count (i : Nat) : MailWorld db :=
  { w with pending := w.pending.modify i fun r =>
      { r with
        answer := some (w.countMails r.packet.receiver)
        undeletedThen := w.undeletedOf r.packet.receiver } }

/-- `AsyncMailSendRequest::Callback`: without an answer the count keeps its default. -/
def callback (i : Nat) (m : MailMoment) : Option MailReply × MailWorld db :=
  match w.pending[i]? with
  | none => (none, w)
  | some r =>
    let w := { w with pending := w.pending.eraseIdx i }
    w.handleSendMailCallback r (r.answer.elim 0xFF UInt8.ofNat) m

/-! ## Handling a mail -/

/-- The mail at place `i` is changed. -/
def setMail (i : Nat) (mail : Mail db) : MailWorld db :=
  { w with mails := w.mails.set i mail }

/-- `MasterPlayer::SaveMails`. -/
def saveMails : MailWorld db :=
  { w with mails := w.mails.map fun m => if m.receiver = guid ∧ m.inBox then m.save else m }

def handleMailMarkAsRead (guid id : Nat) (m : MailMoment) :
    Option MailReply × MailWorld db :=
  if !m.checkMailBox then (none, w)
  else
    match w.getMail guid id with
    | none => (none, w)
    | some (i, mail) =>
      if mail.state = .deleted then (none, w)
      else
        (none, w.setMail i
          { mail with
            checked := mail.checked ||| mailCheckMaskRead
            state := .changed
            expireTime := if mail.expireTime > m.now + 3 * day then m.now + 3 * day
              else mail.expireTime })

def handleMailDelete (guid id : Nat) (m : MailMoment) :
    Option MailReply × MailWorld db :=
  if !m.checkMailBox then (none, w)
  else
    match w.getMail guid id with
    | none => (some ⟨id, .deleted, .ok⟩, w)
    | some (i, mail) =>
      if mail.cod ≠ 0 then (some ⟨id, .deleted, .internalError⟩, w)
      else (some ⟨id, .deleted, .ok⟩, w.setMail i { mail with state := .deleted })

/-- `SendReturnToSender`: the contents are dropped when the sender does not exist. -/
def sendReturnToSender (mail : Mail db) (now : Nat) : MailWorld db :=
  if (w.chars.lookup mail.sender).isNone then w
  else
    w.sendMailTo
      { receiver := mail.sender, sender := mail.receiver, money := mail.money, items := mail.items
        checked := mailCheckMaskReturned } now

def handleMailReturnToSender (guid id : Nat) (m : MailMoment) :
    Option MailReply × MailWorld db :=
  if !m.checkMailBox then (none, w)
  else
    match w.getMail guid id with
    | none => (some ⟨id, .returnedToSender, .internalError⟩, w)
    | some (i, mail) =>
      if !mail.available m then (some ⟨id, .returnedToSender, .internalError⟩, w)
      else
        let w' := { w with mails := w.mails.eraseIdx i }
        (some ⟨id, .returnedToSender, .ok⟩,
          if mail.messageType = .normal ∧ mail.sender ≠ 0 ∧ !w.isPlayerHardcore mail.sender then
            w'.sendReturnToSender mail m.now
          else w')

/-- The cash on delivery: a mail to the sender, if there is such a character. -/
def payCod (mail : Mail db) (now : Nat) : MailWorld db :=
  if mail.cod > 0 ∧ (w.chars.lookup mail.sender).isSome then
    w.sendMailTo
      { receiver := mail.sender, sender := guid, money := mail.cod
        checked := mailCheckMaskCodPayment } now
  else w

def handleMailTakeItem (guid id : Nat) (m : MailMoment) :
    Option MailReply × MailWorld db :=
  if !m.checkMailBox then (none, w)
  else
    match w.chars.lookup guid, w.getMail guid id with
    | none, _ => (none, w)
    | some _, none => (some ⟨id, .itemTaken, .internalError⟩, w)
    | some c, some (i, mail) =>
      if !mail.available m then (some ⟨id, .itemTaken, .internalError⟩, w)
      else
        match mail.items with
        | [] => (some ⟨id, .itemTaken, .internalError⟩, w)
        | it :: items =>
          if c.money < mail.cod then (some ⟨id, .itemTaken, .notEnoughMoney⟩, w)
          else if m.gmMayNotTrade ∧ mail.cod ≠ 0 then (some ⟨id, .itemTaken, .notEnoughMoney⟩, w)
          else
            let found := c.inv.canStoreLoose [] (some it)
            if found.res ≠ .ok then (some ⟨id, .itemTaken, .equipError found.res⟩, w)
            else
              let stored := c.inv.moveItemToInventory found.dest it w.fresh
              let money := if mail.cod > 0 then modifyMoney c.money (0 - mail.cod) else c.money
              let w := w.setMail i { mail with items, cod := 0, state := .changed }
              let w := w.payCod guid mail m.now
              (some ⟨id, .itemTaken, .ok⟩,
                { w.setChar guid { c with money, inv := stored.inv } with
                  fresh := stored.fresh }.saveMails guid)

def handleMailTakeMoney (guid id : Nat) (m : MailMoment) :
    Option MailReply × MailWorld db :=
  if !m.checkMailBox then (none, w)
  else
    match w.chars.lookup guid, w.getMail guid id with
    | none, _ => (none, w)
    | some _, none => (some ⟨id, .moneyTaken, .internalError⟩, w)
    | some c, some (i, mail) =>
      if !mail.available m then (some ⟨id, .moneyTaken, .internalError⟩, w)
      else
        let w := w.setChar guid { c with money := modifyMoney c.money mail.money }
        let w := w.setMail i { mail with money := 0, state := .changed }
        (some ⟨id, .moneyTaken, .ok⟩, w.saveMails guid)

/-! ## Login and logout -/

/-- `LoadMails`: every row that is not soft-deleted. -/
def login : MailWorld db :=
  if w.online.contains guid then w
  else
    { w with
      online := guid :: w.online
      mails := w.mails.map fun m =>
        if m.receiver = guid ∧ !m.isDeleted then { m with inBox := true, state := .unchanged }
        else m }

def logout : MailWorld db :=
  let w := w.saveMails guid
  { w with
    online := w.online.filter (· ≠ guid)
    mails := w.mails.map fun m => if m.receiver = guid then { m with inBox := false } else m }

end MailWorld

/-- What happens to the mails: a packet of a player, the database at work on a request, or the
server saving, loading and unloading a character. -/
inductive MailInput where
  | sendMail (guid : Nat) (pk : MailPacket) (m : MailMoment)
  | count (i : Nat)
  | answer (i : Nat) (m : MailMoment)
  | markAsRead (guid id : Nat) (m : MailMoment)
  | delete (guid id : Nat) (m : MailMoment)
  | returnToSender (guid id : Nat) (m : MailMoment)
  | takeItem (guid id : Nat) (m : MailMoment)
  | takeMoney (guid id : Nat) (m : MailMoment)
  | saveMails (guid : Nat)
  | login (guid : Nat)
  | logout (guid : Nat)

namespace MailWorld

def step (w : MailWorld db) : MailInput → MailWorld db
  | .sendMail guid pk m => (w.handleSendMail guid pk m).2
  | .count i => w.count i
  | .answer i m => (w.callback i m).2
  | .markAsRead guid id m => (w.handleMailMarkAsRead guid id m).2
  | .delete guid id m => (w.handleMailDelete guid id m).2
  | .returnToSender guid id m => (w.handleMailReturnToSender guid id m).2
  | .takeItem guid id m => (w.handleMailTakeItem guid id m).2
  | .takeMoney guid id m => (w.handleMailTakeMoney guid id m).2
  | .saveMails guid => w.saveMails guid
  | .login guid => w.login guid
  | .logout guid => w.logout guid

end MailWorld

end Windrunner
