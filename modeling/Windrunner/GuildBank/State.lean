import Windrunner.GuildBank.Text
import Windrunner.Inventory.Store

/-!
# The state of a guild bank

* `GuildBank`: what the server keeps in memory: tabs, items, money, logs, and the queue of item
  copies that the next save writes out.
* `Tables`: the rows of the character database that belong to guild banks.
* `World db`: a bank, the database, the player whose message is handled, and what was sent.

`b_items` holds pointers to items and is searched front to back; a pointer is modelled as the index
of the item in the list.
-/

namespace Windrunner

open Lib

inductive ItemUpdateState where
  | unchanged
  | changed
  | new
  | removed
  deriving DecidableEq, Repr

inductive GuildBankAction where
  | withdrawItem
  | depositItem
  | unlockGuildBank
  | unlockTabPersonalMoney
  | withdrawMoney
  | depositMoney
  | unlockTabGuildMoney
  | destroyItem
  | splitItem
  | moveItem
  deriving DecidableEq, Repr

/-- The number of an action in the log tables and messages. -/
def GuildBankAction.toNat : GuildBankAction → Nat
  | withdrawItem => 0
  | depositItem => 1
  | unlockGuildBank => 2
  | unlockTabPersonalMoney => 3
  | withdrawMoney => 4
  | depositMoney => 5
  | unlockTabGuildMoney => 6
  | destroyItem => 7
  | splitItem => 8
  | moveItem => 9

abbrev tabMoney : Nat := 0
abbrev maxTabs : Nat := 5
abbrev maxWeeklyWithdrawals : Nat := 5
abbrev bankTabSize : Nat := 98
abbrev logLinesLimit : Nat := 50
abbrev addonMaxPacketSize : Nat := 2096

def gold : UInt32 := 10000
def guildBankCost : UInt32 := 2000 * gold

def destroyItemAllowed : Bool := false

structure BankItem where
  guildid : Nat := 0
  guid : UInt32
  name : String := ""
  tab : Nat
  slot : Nat
  itemTemplate : Nat
  creatorGuid : Nat := 0
  giftCreatorGuid : Nat := 0
  count : UInt32
  maxStackSize : UInt32
  duration : UInt32 := 0
  charges : Text := []
  flags : UInt8 := 0
  enchantments : Text := []
  enchant : UInt32 := 0
  randomPropertyId : Int := 0
  transmogrifyId : UInt32 := 0
  durability : UInt8 := 0
  text : UInt32 := 0
  generatedLoot : Bool := false
  isInferno : Bool := false
  quality : Nat := 1
  state : ItemUpdateState := .unchanged
  deriving DecidableEq

structure BankLog where
  player : Nat
  action : Nat
  tab : Nat
  item : Nat
  enchant : UInt32
  randomPropertyId : Int
  /-- A `uint8`. -/
  count : UInt32
  stamp : Nat
  playerName : String
  itemName : String
  itemQuality : String
  state : ItemUpdateState
  deriving DecidableEq

structure MoneyLog where
  player : Nat
  action : Nat
  money : UInt32
  stamp : Nat
  playerName : String
  state : ItemUpdateState
  deriving DecidableEq

structure BankTab where
  name : String := ""
  icon : String := ""
  withdrawals : UInt8 := 0
  minrank : UInt8 := 0
  deriving DecidableEq

structure GuildBank where
  guildid : Nat
  infernoBank : Bool := false
  tabs : Nat := 0
  items : List BankItem := []
  tabInfo : FinMap Nat BankTab := ∅
  log : FinMap Nat (List BankLog) := ∅
  moneyLog : List MoneyLog := []
  itemUpdateQueue : List BankItem := []
  saveLock : Bool := false
  tabsChanged : Bool := false
  moneyChanged : Bool := false
  moneyLogChanged : Bool := false
  logChanged : Bool := false
  money : UInt32 := 0

/-! ## The database -/

/-- A row of `guild_bank`. -/
structure ItemRow where
  guildid : Nat
  /-- An `int(11)`: below `2 ^ 31` in every row of the table. -/
  guid : UInt32
  isInferno : Bool
  tab : Nat
  slot : Nat
  itemTemplate : Nat
  creatorGuid : Nat
  giftCreatorGuid : Nat
  count : UInt32
  duration : UInt32
  charges : Text
  flags : UInt8
  enchantments : Text
  randomPropertyId : Int
  transmogrifyId : UInt32
  durability : UInt8
  text : UInt32
  generatedLoot : Bool
  deriving DecidableEq

/-- A row of `guild_bank_money`. -/
structure MoneyRow where
  guildid : Nat
  isInferno : Bool
  money : UInt32
  deriving DecidableEq

/-- A row of `guild_bank_tabs`: the number of unlocked tabs and the five tabs' descriptions. -/
structure TabsRow where
  guildid : Nat
  isInferno : Bool
  tabs : Nat
  info : List BankTab
  deriving DecidableEq

/-- A row of `guild_bank_log`. -/
structure LogRow where
  guildid : Nat
  isInferno : Bool
  player : Nat
  action : Nat
  tab : Nat
  item : Nat
  randomPropertyId : Int
  enchant : UInt32
  count : UInt32
  stamp : Nat
  deriving DecidableEq

/-- The guild bank tables. `guild_bank` has the unique key `(guildid, guid, isInferno)`. -/
structure Tables where
  items : List ItemRow := []
  money : List MoneyRow := []
  tabs : List TabsRow := []
  log : List LogRow := []
  deriving DecidableEq

/-! ## The player and the world -/

/-- What the server sends. -/
inductive Reply where
  | addon (text : String)
  | notification (text : String)
  | guild (text : String)
  | equipError (res : InventoryResult)
  | buyErrorNotEnoughMoney
  | newItem (entry : Nat) (count : UInt32)
  deriving DecidableEq

structure Player (db : ItemDb) where
  guid : Nat
  name : String := ""
  rank : Nat
  money : UInt32 := 0
  inv : Inventory db

structure World (db : ItemDb) where
  bank : GuildBank
  tables : Tables := {}
  player : Player db
  /-- The next free item guid. -/
  fresh : Nat := 0
  sent : List Reply := []

/-- What a command reads of the rest of the server. -/
structure Env where
  /-- The player interacts with a guild banker. -/
  canUseGuildBank : Bool := true
  now : Nat := 0
  /-- The start of the week, which `GetTabWithdrawalsLeft` computes from the local time. -/
  weekstart : Nat := 0
  /-- The draw of `GenerateItemRandomPropertyId`. -/
  randomPropertyId : Int := 0
  ranksSize : Nat := 6
  /-- The name in the player cache, for log entries. -/
  playerName : Nat → Option String := fun _ => none

/-! ## Elementary operations -/

namespace GuildBank

variable (b : GuildBank)

/-- `b_tabInfo[tab]`: a missing entry is value-initialised. -/
def tabInfoAt (tab : Nat) : BankTab := (b.tabInfo.lookup tab).getD {}

def logAt (tab : Nat) : List BankLog := (b.log.lookup tab).getD []

def isAt (tab slot : Nat) (it : BankItem) : Bool := it.tab == tab && it.slot == slot

/-- `GetItem`, as an index into `b_items`. -/
def findItem (tab slot : Nat) : Option Nat := b.items.findIdx? (isAt tab slot)

/-- `GetItem`: the first item of the slot. -/
def getItem (tab slot : Nat) : Option BankItem := b.items.find? (isAt tab slot)

/-- `GetNewGuid`: one more than the largest guid in memory. -/
def getNewGuid : UInt32 := b.items.foldl (fun g it => if it.guid > g then it.guid else g) 0 + 1

/-- Adds a copy to the update queue. -/
def enqueue (it : BankItem) : GuildBank := { b with itemUpdateQueue := b.itemUpdateQueue ++ [it] }

/-- Changes the item behind a pointer. -/
def setItem (i : Nat) (it : BankItem) : GuildBank := { b with items := b.items.set i it }

def addItem (it : BankItem) : GuildBank := { b with items := b.items ++ [it] }

def deleteItem (i : Nat) : GuildBank := { b with items := b.items.eraseIdx i }

/-- The units of entry `e` in the bank. -/
def units (e : Nat) : Nat :=
  (b.items.map fun it => if it.itemTemplate = e then it.count.toNat else 0).sum

end GuildBank

namespace World

variable {db : ItemDb} (w : World db)

def send (r : Reply) : World db := { w with sent := w.sent ++ [r] }

variable (inv : Inventory db) (text : String)

def sendAddonMessage : World db := w.send (.addon text)

def sendNotification : World db := w.send (.notification text)

def sendGuildMessage : World db := w.send (.guild ("TW_GUILDBANK\t" ++ text))

def setBank (b : GuildBank) : World db := { w with bank := b }

def setInv : World db := { w with player := { w.player with inv := inv } }

def setMoney (m : UInt32) : World db := { w with player := { w.player with money := m } }

/-- Units of entry `e` held by the player and the bank together. -/
def units (e : Nat) : Nat := w.player.inv.units e + w.bank.units e

/-- The same bank; the player's belongings and the messages may differ. -/
structure SameBank (w w' : World db) : Prop where
  bank : w'.bank = w.bank
  tables : w'.tables = w.tables
  rank : w'.player.rank = w.player.rank

/-! ### What messages leave alone -/

@[simp] theorem send_bank (r : Reply) : (w.send r).bank = w.bank := rfl
@[simp] theorem send_player (r : Reply) : (w.send r).player = w.player := rfl
@[simp] theorem send_tables (r : Reply) : (w.send r).tables = w.tables := rfl
@[simp] theorem sendAddonMessage_eq : w.sendAddonMessage text = w.send (.addon text) :=
  rfl
@[simp] theorem sendNotification_eq :
    w.sendNotification text = w.send (.notification text) := rfl
@[simp] theorem sendGuildMessage_eq :
    w.sendGuildMessage text = w.send (.guild ("TW_GUILDBANK\t" ++ text)) := rfl
@[simp] theorem setBank_bank (b : GuildBank) : (w.setBank b).bank = b := rfl
@[simp] theorem setBank_player (b : GuildBank) : (w.setBank b).player = w.player := rfl
@[simp] theorem setBank_tables (b : GuildBank) : (w.setBank b).tables = w.tables := rfl
@[simp] theorem setInv_bank : (w.setInv inv).bank = w.bank := rfl
@[simp] theorem setInv_tables : (w.setInv inv).tables = w.tables := rfl
@[simp] theorem setInv_inv : (w.setInv inv).player.inv = inv := rfl
@[simp] theorem setInv_rank : (w.setInv inv).player.rank = w.player.rank := rfl
@[simp] theorem setMoney_bank (m : UInt32) : (w.setMoney m).bank = w.bank := rfl
@[simp] theorem setMoney_tables (m : UInt32) : (w.setMoney m).tables = w.tables := rfl
@[simp] theorem setMoney_inv (m : UInt32) : (w.setMoney m).player.inv = w.player.inv := rfl
@[simp] theorem setMoney_rank (m : UInt32) : (w.setMoney m).player.rank = w.player.rank := rfl

end World

end Windrunner
