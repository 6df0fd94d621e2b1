import Windrunner.GuildBank.Items

/-!
# The addon messages of a guild bank

* `unlockGuildBank`, `unlockTab`, `updateTab`: what the guild master may change.
* `depositMoney`, `withdrawMoney`.
* `sendTabItems`, `sendTabLog`, `sendMoneyLog`: lists cut into packets.
* `handleAddonMessages`: one text is matched against every command in turn, and every command that
  matches is executed.
-/

namespace Windrunner

open Lib

variable {db : ItemDb}

abbrev maxMoneyAmount : UInt32 := 0x7FFFFFFE

/-- `Player::ModifyMoney`: the amount is an `int32`, given by its two's complement. -/
def modifyMoney (money amount : UInt32) : UInt32 :=
  if amount.toNat ≥ 2 ^ 31 then if money > 0 - amount then money + amount else 0
  else if money < maxMoneyAmount - amount then money + amount else maxMoneyAmount

/-- The costs of the tabs, `0` for a tab without a price. -/
def tabCost (tab : Nat) : UInt32 :=
  if tab = 2 then 500 * gold
  else if tab = 3 then 1000 * gold
  else if tab = 4 then 1500 * gold
  else if tab = 5 then 2000 * gold
  else 0

/-- The column defaults of `guild_bank_tabs`. -/
def defaultTabs : List BankTab :=
  [{ name := "Tab1", icon := "inv_misc_bag_08" }, { name := "Tab2", icon := "inv_misc_bag_05" },
    { name := "Tab3", icon := "inv_misc_bag_03" }, { name := "Tab4", icon := "inv_misc_bag_06" },
    { name := "Tab5", icon := "inv_misc_bag_02" }]

/-- The two rows of a new bank. `guild_bank_money` has the key `(guildid, isInferno)`. -/
def Tables.unlock (t : Tables) (guildid : Nat) (isInferno : Bool) : Tables :=
  { t with
    tabs := t.tabs ++ [{ guildid, isInferno, tabs := 1, info := defaultTabs }]
    money := if t.money.any fun r => r.guildid == guildid && r.isInferno == isInferno then t.money
      else t.money ++ [{ guildid, isInferno, money := 0 }] }

def popBack (s : String) : String := String.ofList s.toList.dropLast

/-- A list sent in packets: entries end with a separator that is dropped at the end of a packet. -/
def packets (header : String) (entries : List String) : List String :=
  let step := fun (st : List String × String) (entry : String) =>
    let message := st.2 ++ entry
    if message.utf8ByteSize > addonMaxPacketSize then (st.1 ++ [popBack message], header)
    else (st.1, message)
  let (messages, message) := entries.foldl step ([], header)
  if message = header then messages ++ [header ++ "end"]
  else messages ++ [popBack message, header ++ "end"]

/-- The entries of a log that are shown. -/
def lastLines {α : Type} (l : List α) : List α := l.drop (l.length - logLinesLimit)

def BankLog.line (l : BankLog) : String :=
  toString l.stamp ++ ";" ++ l.playerName ++ ";" ++ toString l.action ++ ";" ++ toString l.item ++
    ";" ++ l.itemName ++ ";" ++ l.itemQuality ++ ";" ++ toStr l.count ++ ";" ++
    toString l.randomPropertyId ++ ";" ++ toStr l.enchant ++ "="

def MoneyLog.line (l : MoneyLog) : String :=
  toString l.stamp ++ ";" ++ l.playerName ++ ";" ++ toString l.action ++ ";" ++ toStr l.money ++ "="

namespace World

variable (env : Env) (w : World db)

/-! ## What is sent -/

def sendBankMoney : World db := w.sendAddonMessage ("BankInfo:money:" ++ toStr w.bank.money)

def sendBankInfo : World db :=
  let tabs := (List.range' 1 maxTabs).map w.bank.tabInfoAt
  w.sendBankMoney.sendAddonMessage ("BankInfo:Tabs:" ++ toString w.bank.tabs ++ ":" ++
    String.intercalate ":" (tabs.map (·.name) ++ tabs.map (·.icon) ++
      tabs.map (fun t => toString t.withdrawals.toNat) ++
      tabs.map fun t => toString t.minrank.toNat))

def sendAll (messages : List String) : World db := messages.foldl sendAddonMessage w

variable (msg : Text)

def sendTabItems : World db :=
  match tokenizer msg ':' with
  | [_, a] =>
    let tab := (atoi a).toUInt8.toNat
    (w.sendTabWithdrawalsLeft env tab).sendAll (packets ("TabItems:" ++ toString tab ++ ":")
      ((List.range' 1 bankTabSize).filterMap fun i =>
        (w.bank.getItem tab i).map fun it => it.describe ++ ";"))
  | _ => w.sendWrongSyntax "TabItems" msg

def sendTabWithdrawalsLeftMsg : World db :=
  match tokenizer msg ':' with
  | [_, a] => w.sendTabWithdrawalsLeft env (atoi a).toUInt8.toNat
  | _ => w.sendWrongSyntax "SendTabWithdrawalsLeft" msg

def sendTabLog : World db :=
  match tokenizer msg ':' with
  | [_, a] =>
    let tab := (atoi a).toUInt8.toNat
    if tab = 0 ∨ tab > maxTabs then w.sendAddonMessage "SendTabLog:Error:ParamsOutOfRange"
    else w.sendAll (packets ("TabLog:" ++ toString tab ++ ":")
      ((lastLines (w.bank.logAt tab)).map (·.line)))
  | _ => w.sendWrongSyntax "SendTabLog" msg

def sendMoneyLog : World db :=
  w.sendAll (packets "MoneyLog:" ((lastLines w.bank.moneyLog).map (·.line)))

/-! ## Bank and tabs -/

/-- `UnlockGuildBank:Ok` after the checks. A bank that is unlocked already is loaded once more. -/
def unlock : World db :=
  let w := { w with tables := w.tables.unlock w.bank.guildid w.bank.infernoBank }
  let w := w.setBank { w.bank with tabs := 1 }
  let w := w.setMoney (modifyMoney w.player.money (0 - guildBankCost))
  let w := w.setBank ((w.bank.loadBank db w.tables).loadLog db env w.tables)
  let w := (w.sendGuildMessage "GUnlock:GuildBank:Ok").sendBankInfo
  w.setBank { w.bank with moneyLog := w.bank.moneyLog ++
    [{ player := w.player.guid, action := GuildBankAction.unlockGuildBank.toNat
       money := guildBankCost, stamp := env.now, playerName := w.player.name, state := .new }] }

def unlockGuildBank : World db :=
  if w.player.rank ≠ 0 then w.sendAddonMessage "UnlockGuildBank:Error:NotGM"
  else
    match tokenizer msg ':' with
    | [_, query] =>
      if query = "Cost".toList then
        w.sendAddonMessage ("UnlockGuildBank:Cost:" ++ toStr (guildBankCost / gold))
      else if query = "Ok".toList then
        if w.player.money < guildBankCost then w.send .buyErrorNotEnoughMoney else w.unlock env
      else w.sendAddonMessage "UnlockGuildBank:Error:UnknownAction"
    | _ => w.sendWrongSyntax "UnlockGuildBank" msg

/-- The end of `UnlockTab`, once it is paid. -/
def finishUnlockTab (tab : Nat) (cost : UInt32) (action : GuildBankAction) : World db :=
  let w := w.setBank { w.bank with tabs := tab }
  let w := w.sendGuildMessage ("GUnlock:Tab:" ++ toString tab ++ ":Ok")
  let w := w.logAction env action tabMoney tab cost none
  (w.setBank { w.bank with tabsChanged := true }).saveToDB

/-- `UnlockTab:tab:moneysource`, where source `0` is the bank. -/
def unlockTab : World db :=
  if w.player.rank ≠ 0 then w.sendAddonMessage "UnlockTab:Error:NotGM"
  else
    match tokenizer msg ':' with
    | [_, a, b] =>
      let tab := (atoi a).toUInt8.toNat
      if tab ≤ 1 ∨ tab > maxTabs then w.sendAddonMessage "UnlockTab:Error:ParamsOutOfRange"
      else if tabCost tab = 0 then w.sendAddonMessage "UnlockTab:Error:CantFindPrice"
      else if (atoi b).toUInt8 = 0 then
        if w.bank.money < tabCost tab then
          (w.sendNotification "Your guild bank does not have enough money.").sendAddonMessage
            "UnlockTab:Error:Player:NotEnoughMoney"
        else
          let bank := { w.bank with money := w.bank.money - tabCost tab, moneyChanged := true }
          (w.setBank bank).finishUnlockTab env tab (tabCost tab) .unlockTabGuildMoney
      else if w.player.money < tabCost tab then
        (w.send .buyErrorNotEnoughMoney).sendAddonMessage "UnlockTab:Error:Bank:NotEnoughMoney"
      else
        (w.setMoney (modifyMoney w.player.money (0 - tabCost tab))).finishUnlockTab env tab
          (tabCost tab) .unlockTabPersonalMoney
    | _ => w.sendWrongSyntax "UnlockTab" msg

def unlockTabCost : World db :=
  if w.player.rank ≠ 0 then w.sendAddonMessage "UnlockTabCost:Error:NotGM"
  else
    match tokenizer msg ':' with
    | [_, a] =>
      let tab := (atoi a).toUInt8.toNat
      if tab ≤ 1 ∨ tab > maxTabs then w.sendAddonMessage "UnlockTabCost:Error:WrongTab"
      else if tabCost tab = 0 then w.sendAddonMessage "UnlockTabCost:Error:Cost0"
      else w.sendAddonMessage ("Unlock:Tab:" ++ toString tab ++ ":Cost:" ++ toStr (tabCost tab / gold))
    | _ => w.sendWrongSyntax "UnlockTabCost" msg

/-- `UpdateTab:tab:name:icon:withdrawals:minrank`. The tab is not checked. -/
def updateTab : World db :=
  if w.player.rank ≠ 0 then w.sendAddonMessage "UpdateTab:Error:NotGM"
  else
    match tokenizer msg ':' with
    | [_, a, name, icon, d, e] =>
      let tab := (atoi a).toUInt8.toNat
      let name := String.ofList name
      let icon := String.ofList icon
      let withdrawals := (atoi d).toUInt8
      let minrank := (atoi e).toUInt8
      if name = "" ∨ name.utf8ByteSize > 30 then w.sendAddonMessage "UpdateTab:Error:WrongName"
      else if icon = "" ∨ icon.utf8ByteSize > 63 then w.sendAddonMessage "UpdateTab:Error:WrongIcon"
      else if withdrawals.toNat > maxWeeklyWithdrawals then
        w.sendAddonMessage "UpdateTab:Error:WrongWithdrawals"
      else if minrank.toNat > env.ranksSize then w.sendAddonMessage "UpdateTab:Error:WrongMinRank"
      else
        let bank := { w.bank with
          tabInfo := w.bank.tabInfo.insert tab { name, icon, withdrawals, minrank } }
        let w := (w.setBank bank).sendGuildMessage ("GUpdateTab:" ++ toString tab ++ ":" ++ name ++
          ":" ++ icon ++ ":" ++ toString withdrawals.toNat ++ ":" ++ toString minrank.toNat)
        (w.setBank { w.bank with tabsChanged := true }).saveToDB
    | _ => w.sendWrongSyntax "UpdateTab" msg

/-! ## Money -/

/-- The end of both money commands. -/
def finishMoney (action : GuildBankAction) (money : UInt32) : World db :=
  let w := w.logAction env action tabMoney 0 money none
  let w := w.sendGuildMessage ("GMoney:" ++ toStr w.bank.money)
  (w.setBank { w.bank with moneyChanged := true }).saveToDB

def depositMoney : World db :=
  match tokenizer msg ':' with
  | [_, a] =>
    let money := atoi a
    if w.player.money < money then
      (w.send .buyErrorNotEnoughMoney).sendAddonMessage "DepositMoney:Error:NotEnoughMoney"
    else
      let w := w.setMoney (modifyMoney w.player.money (0 - money))
      (w.setBank { w.bank with money := w.bank.money + money }).finishMoney env .depositMoney money
  | _ => w.sendWrongSyntax "DepositMoney" msg

def withdrawMoney : World db :=
  match tokenizer msg ':' with
  | [_, a] =>
    let money := atoi a
    if !w.canAccessTab env 0 .withdrawMoney then
      (w.sendNotification "You dont have access to guild money.").sendAddonMessage
        "WithdrawMoney:Error:NoAccess"
    else if money > w.bank.money then
      (w.sendNotification "Your guild bank does not have enough money.").sendAddonMessage
        "WithdrawMoney:Error:NotEnoug"
    else
      let w := w.setBank { w.bank with money := w.bank.money - money }
      (w.setMoney (modifyMoney w.player.money money)).finishMoney env .withdrawMoney money
  | _ => w.sendWrongSyntax "WithdrawMoney" msg

/-! ## The handler -/

/-- The commands of an unlocked bank, in the order in which they are tried. -/
def commands : List (String × (World db → World db)) :=
  [("UnlockTab:", fun w => w.unlockTab env msg),
    ("UnlockTabCost:", fun w => w.unlockTabCost msg),
    ("GetBankInfo:", fun w => w.sendBankInfo),
    ("GetTabItems:", fun w => w.sendTabItems env msg),
    ("GetTabWithdrawalsLeft:", fun w => w.sendTabWithdrawalsLeftMsg env msg),
    ("GetTabLog:", fun w => w.sendTabLog msg),
    ("GetMoneyLog:", fun w => w.sendMoneyLog),
    ("DepositItem:", fun w => w.depositItem env msg),
    ("WithdrawItem:", fun w => w.withdrawItem env msg),
    ("MoveItem:", fun w => w.moveItem env msg),
    ("SplitItem:", fun w => w.splitItem env msg),
    ("DestroyItem:", fun w => if destroyItemAllowed then w.destroyItem env msg else w),
    ("UpdateTab:", fun w => w.updateTab env msg),
    ("DepositMoney:", fun w => w.depositMoney env msg),
    ("WithdrawMoney:", fun w => w.withdrawMoney env msg)]

def handleAddonMessages : World db :=
  if !env.canUseGuildBank then w
  else if w.bank.saveLock then w.sendAddonMessage "ActionBlockedBySaveLock"
  else if strstr msg "UnlockGuildBank:".toList then w.unlockGuildBank env msg
  else if w.bank.tabs = 0 then w.sendAddonMessage "BankInfo:NoGuildBank"
  else (commands env msg).foldl (fun w c => if strstr msg c.1.toList then c.2 w else w) w

end World

end Windrunner
