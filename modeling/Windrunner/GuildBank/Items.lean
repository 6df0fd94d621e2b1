import Windrunner.GuildBank.Save

/-!
# The item commands of a guild bank

Deposits, withdrawals, swaps, moves and splits, in the order and with the branches of the source.
The player's item is named by its position, the bank's by its index in `b_items`.

`depositItemInFreeSlot` and `depositItemInSlot` call each other; the recursion is on a bound that
the count of the item is below (`depositItemInFreeSlot_fuel`).
-/

namespace Windrunner

open Lib

variable {db : ItemDb}

/-! ## Copies between items and bank items -/

/-- Decimal numbers, each followed by a blank. -/
def numbersText (ns : List String) : Text := ns.flatMap fun n => n.toList ++ [' ']

/-- `CloneItem(BankItem*, Item*)`: the properties of a player's item. -/
def BankItem.cloneFrom (bItem : BankItem) (infernoBank : Bool) (it : Item db) : BankItem :=
  { bItem with
    name := if it.fields.randomPropertyId > 0 then
        it.proto.name1 ++ " " ++ db.nameSuffix it.fields.randomPropertyId else it.proto.name1
    itemTemplate := it.proto.itemId
    creatorGuid := it.fields.creator
    giftCreatorGuid := it.fields.giftCreator
    maxStackSize := it.proto.stackable
    duration := it.fields.duration
    isInferno := infernoBank
    charges := numbersText (it.fields.spellCharges.map toString)
    flags := it.flags.toUInt8
    enchantments := numbersText (it.fields.enchantments.map toStr)
    enchant := it.fields.enchantments.headD 0
    randomPropertyId := it.fields.randomPropertyId
    transmogrifyId := it.fields.transmogrifyId
    durability := it.fields.durability.toUInt8
    text := it.fields.itemTextId
    generatedLoot := it.fields.generatedLoot
    quality := it.proto.quality }

/-- `CloneItem(Item*, BankItem*)`: the properties of a withdrawn item. -/
def Item.cloneFrom (it : Item db) (player : Nat) (bItem : BankItem) : Item db :=
  let chr := tokenizer bItem.charges ' '
  let ench := tokenizer bItem.enchantments ' '
  { it with
    owner := player
    flags := bItem.flags.toUInt32
    fields :=
      { it.fields with
        creator := bItem.creatorGuid
        giftCreator := bItem.giftCreatorGuid
        duration := bItem.duration
        spellCharges := if chr.length = 5 then chr.map atoiSigned else it.fields.spellCharges
        enchantments := (List.range 21).map fun i => strtoul (ench.getD i [])
        randomPropertyId := bItem.randomPropertyId
        transmogrifyId := bItem.transmogrifyId
        durability := bItem.durability.toUInt32
        itemTextId := bItem.text
        generatedLoot := bItem.generatedLoot } }

/-- `CloneBankItem`: a second stack; name and quality are not copied. -/
def BankItem.cloneBankItem (sItem : BankItem) (guildid : Nat) (guid : UInt32) : BankItem :=
  { sItem with guildid, guid, name := "", quality := 0, state := .unchanged }

/-- How messages describe an item. -/
def BankItem.describe (it : BankItem) : String :=
  toString it.tab ++ ":" ++ toString it.slot ++ ":" ++ toStr it.guid ++ ":" ++
    toString it.itemTemplate ++ ":" ++ toStr it.count ++ ":" ++
    (if it.randomPropertyId > 0 then it.name else "0") ++ ":" ++
    toString it.randomPropertyId ++ ":" ++ toStr it.enchant

/-- The same without the random property and the enchantment. -/
def BankItem.describePlain (it : BankItem) : String :=
  toString it.tab ++ ":" ++ toString it.slot ++ ":" ++ toStr it.guid ++ ":" ++
    toString it.itemTemplate ++ ":" ++ toStr it.count ++ ":0:0:0"

namespace World

variable (env : Env) (w : World db)

/-! ## Access and log -/

/-- `GetTabWithdrawalsLeft`: the callers have checked the tab. -/
def getTabWithdrawalsLeft (tab : Nat) : UInt8 :=
  if tab = 0 ∨ tab > maxTabs then 0
  else
    let weekWithdrawals := UInt8.ofNat ((w.bank.logAt tab).countP fun l =>
      l.action == GuildBankAction.withdrawItem.toNat && l.player == w.player.guid && l.tab == tab &&
        env.weekstart ≤ l.stamp)
    let limit := (w.bank.tabInfoAt tab).withdrawals
    if weekWithdrawals ≥ limit then 0 else limit - weekWithdrawals

def canAccessTab (tab : Nat) (action : GuildBankAction) : Bool :=
  let info := w.bank.tabInfoAt tab
  if action = .withdrawMoney then w.player.rank ≤ 1
  else if (action = .splitItem ∨ action = .destroyItem) ∧ w.player.rank > info.minrank.toNat then
    false
  else if (action = .withdrawItem ∨ action = .depositItem) ∧ info.withdrawals > 0 ∧
      w.player.rank = info.minrank.toNat ∧ w.getTabWithdrawalsLeft env tab = 0 then false
  else if w.player.rank > info.minrank.toNat then false
  else true

/-- `IsItemBankable`: the notification and the message for an item that is not. -/
def isItemBankable (it : Item db) : Except (String × String) Unit :=
  if it.isSoulBound then .error ("You cannot deposit soulbound items.", "Error:ItemSoulBound")
  else if it.isConjuredConsumable then
    .error ("You cannot deposit conjured items.", "Error:ItemConjured")
  else if it.proto.duration > 0 then
    .error ("You cannot deposit temporary items.", "Error:ItemTemporary")
  else .ok ()

def logAction (action : GuildBankAction) (tab itemID : Nat) (count : UInt32)
    (bItem : Option BankItem) : World db :=
  if tab > maxTabs then w
  else if tab = tabMoney then
    let l : MoneyLog :=
      { player := w.player.guid, action := action.toNat, money := count, stamp := env.now
        playerName := w.player.name, state := .new }
    let index := w.bank.moneyLog.length
    let w := w.setBank
      { w.bank with moneyLog := w.bank.moneyLog ++ [l], moneyLogChanged := true }
    w.sendGuildMessage ("GMoneyLog:0:" ++ toString l.stamp ++ ";" ++ l.playerName ++ ";" ++
      toString l.action ++ ";" ++ toStr l.money ++ ";" ++ toString index)
  else
    let named := action = .withdrawItem ∨ action = .depositItem ∨ action = .destroyItem
    let l : BankLog :=
      { player := w.player.guid, action := action.toNat, tab, item := itemID
        randomPropertyId := (bItem.map (·.randomPropertyId)).getD 0
        enchant := (bItem.map (·.enchant)).getD 0
        count := count.toUInt8.toUInt32
        stamp := env.now
        playerName := w.player.name
        itemName := if named then (bItem.map (·.name)).getD "Unknown" else "Unknown"
        itemQuality := if named then (bItem.map fun b => toString b.quality).getD "1" else "1"
        state := .new }
    let w := w.setBank
      { w.bank with log := w.bank.log.insert tab (w.bank.logAt tab ++ [l]), logChanged := true }
    w.sendGuildMessage ("GTabLog:" ++ toString tab ++ ":" ++ toString l.stamp ++ ";" ++
      l.playerName ++ ";" ++ toString action.toNat ++ ";" ++ toString itemID ++ ";" ++ l.itemName ++
      ";" ++ l.itemQuality ++ ";" ++ toStr count ++ ";" ++ toString l.randomPropertyId ++ ";" ++
      toStr l.enchant)

/-- `SendTabWithdrawalsLeft(uint8)`. -/
def sendTabWithdrawalsLeft (tab : Nat) : World db :=
  let info := w.bank.tabInfoAt tab
  if tab = 0 ∨ tab > maxTabs then
    w.sendAddonMessage "SendTabWithdrawalsLeft:Error:ParamsOutOfRange"
  else if info.withdrawals = 0 ∨ w.player.rank < info.minrank.toNat ∨ w.player.rank = 0 then
    w.sendAddonMessage ("TabWithdrawalsLeft:" ++ toString tab ++ ":Unlimited")
  else
    w.sendAddonMessage ("TabWithdrawalsLeft:" ++ toString tab ++ ":" ++
      toString (w.getTabWithdrawalsLeft env tab).toNat)

/-! ### What logging leaves alone -/

section Log

variable {action : GuildBankAction} {tab itemID : Nat} {count : UInt32} {bItem : Option BankItem}

@[simp] theorem logAction_player :
    (w.logAction env action tab itemID count bItem).player = w.player := by
  unfold logAction; split_ifs <;> rfl

@[simp] theorem logAction_tables :
    (w.logAction env action tab itemID count bItem).tables = w.tables := by
  unfold logAction; split_ifs <;> rfl

@[simp] theorem logAction_items :
    (w.logAction env action tab itemID count bItem).bank.items = w.bank.items := by
  unfold logAction; split_ifs <;> rfl

/-- Of the bank, only the logs change. -/
theorem logAction_bank : ∃ log moneyLog logChanged moneyLogChanged,
    (w.logAction env action tab itemID count bItem).bank =
      { w.bank with log, moneyLog, logChanged, moneyLogChanged } := by
  unfold logAction
  split_ifs
  · exact ⟨_, _, _, _, rfl⟩
  · exact ⟨_, _, _, _, rfl⟩
  · exact ⟨_, _, _, _, rfl⟩

@[simp] theorem sendTabWithdrawalsLeft_player :
    (w.sendTabWithdrawalsLeft env tab).player = w.player := by
  unfold sendTabWithdrawalsLeft; dsimp only; split_ifs <;> rfl

@[simp] theorem sendTabWithdrawalsLeft_bank :
    (w.sendTabWithdrawalsLeft env tab).bank = w.bank := by
  unfold sendTabWithdrawalsLeft; dsimp only; split_ifs <;> rfl

@[simp] theorem sendTabWithdrawalsLeft_tables :
    (w.sendTabWithdrawalsLeft env tab).tables = w.tables := by
  unfold sendTabWithdrawalsLeft; dsimp only; split_ifs <;> rfl

end Log

/-! ## Deposits -/

variable (bankTab bankSlot : Nat) (msg : Text) (b : GuildBank)

/-- The bank item that a deposit to an empty slot creates. -/
def newBankItem (bankTab bankSlot : Nat) (it : Item db) (count : UInt32) : BankItem :=
  let bItem : BankItem :=
    { isInferno := b.infernoBank, guid := b.getNewGuid, guildid := b.guildid, count, tab := bankTab
      slot := bankSlot, itemTemplate := 0, maxStackSize := 0, state := .new }
  bItem.cloneFrom b.infernoBank it

/-- The bank item after a deposit over it. -/
def overBankItem (bItem : BankItem) (it : Item db) (count : UInt32)
    (state : ItemUpdateState) (stack : Bool) : BankItem :=
  let bItem := { bItem with count := if stack then bItem.count + count else count, state }
  bItem.cloneFrom b.infernoBank it

/-- What `DepositItemInSlot` does to the bank: the index of the item that changed, if there is one. -/
def depositToBank (it : Item db) (count : UInt32) (state : ItemUpdateState)
    (stack : Bool) : Option (Nat × GuildBank) :=
  if state = .new then
    let bItem := newBankItem w.bank bankTab bankSlot it count
    some (w.bank.items.length, (w.bank.enqueue bItem).addItem bItem)
  else
    match w.bank.findItem bankTab bankSlot with
    | none => none
    | some i =>
      (w.bank.items[i]?).map fun bItem =>
        let bItem := overBankItem w.bank bItem it count state stack
        (i, (w.bank.setItem i bItem).enqueue bItem)

/-- The player's item after a deposit of `count` of its units: destroyed, or with the rest. -/
def payOut (p : Pos) (it : Item db) (count remainer : UInt32) : World db :=
  if remainer = 0 ∧ count = it.count then w.setInv (w.player.inv.remove p)
  else w.setInv (w.player.inv.setItem p { it with count := it.count - count })

/-- The end of `DepositItemInSlot`: the guild's view, the log, the save. -/
def finishDeposit (i : Nat) (count : UInt32) : World db :=
  match w.bank.items[i]? with
  | none => w
  | some bItem =>
    let w := w.sendGuildMessage ("GDeposit:" ++ bItem.describe)
    (w.logAction env .depositItem bItem.tab bItem.itemTemplate count (some bItem)).saveToDB

/-- `DepositItemInSlot`; `again` is the recursive call for what is left of the player's item. -/
def depositItemInSlot (again : World db → World db) (bankTab bankSlot : Nat) (p : Pos)
    (count remainer : UInt32) (state : ItemUpdateState) (stack : Bool) : World db :=
  match w.player.inv.getItemByPos p with
  | none => w
  | some it =>
    match w.depositToBank bankTab bankSlot it count state stack with
    | none => w.sendAddonMessage ("DepositItem:Error:CantFindStackDestinationItemAt:" ++
        toString bankTab ++ ":" ++ toString bankSlot)
    | some (i, bank) =>
      let w := (w.setBank bank).payOut p it count remainer
      let w := if remainer = 0 then w else again w
      w.finishDeposit env i count

/-- The first slot of the tab with a stack of the entry that is not full. -/
def partialStack (bankTab entry : Nat) : Option (Nat × BankItem) :=
  (List.range' 1 bankTabSize).findSome? fun i =>
    match b.getItem bankTab i with
    | some bItem =>
      if bItem.itemTemplate = entry ∧ bItem.count < bItem.maxStackSize then some (i, bItem) else none
    | none => none

/-- The first empty slot of the tab. -/
def freeSlot (bankTab : Nat) : Option Nat :=
  (List.range' 1 bankTabSize).find? fun slot => (b.getItem bankTab slot).isNone

def depositItemInFreeSlotN (env : Env) (bankTab : Nat) (p : Pos) : Nat → World db → World db
  | 0, w => w
  | n + 1, w =>
    match w.player.inv.getItemByPos p with
    | none => w
    | some it =>
      let again := depositItemInFreeSlotN env bankTab p n
      match (if it.proto.stackable > 1 then partialStack w.bank bankTab it.entry else none) with
      | some (i, bItem) =>
        if it.count + bItem.count ≤ bItem.maxStackSize then
          w.depositItemInSlot env again bankTab i p it.count 0 .changed true
        else
          w.depositItemInSlot env again bankTab i p (bItem.maxStackSize - bItem.count)
            (it.count - (bItem.maxStackSize - bItem.count)) .changed true
      | none =>
        match freeSlot w.bank bankTab with
        | some slot => w.depositItemInSlot env again bankTab slot p it.count 0 .new false
        | none => (w.sendNotification "Your bank tab is full.").sendAddonMessage
            "DepositItem:Error:BankTabFullAdd"

def depositItemInFreeSlot (bankTab : Nat) (p : Pos) : World db :=
  let n := ((w.player.inv.getItemByPos p).map (·.count.toNat)).getD 0
  depositItemInFreeSlotN env bankTab p (n + 1) w

/-! ## Withdrawals -/

/-- Writes through a pointer to a bank item; a local copy is no element of `b_items`. -/
def putRef (ref : Option Nat) (it : BankItem) : GuildBank :=
  match ref with
  | some i => b.setItem i it
  | none => b

def deleteRef (ref : Option Nat) : GuildBank :=
  match ref with
  | some i => b.deleteItem i
  | none => b

/-- What a withdrawal leaves of the bank item: nothing, or `rest` units. -/
def takeFrom (bItem : BankItem) (remainer rest : UInt32) : BankItem :=
  if remainer = 0 then { bItem with state := .removed }
  else { bItem with count := rest, state := .changed }

/-- The update of the guild's view of the slot. -/
def sendWithdraw (bItem : BankItem) (swap : Bool) : World db :=
  if bItem.state = .removed then
    -- at a swap the deposit has updated the view already
    if swap then w
    else w.sendGuildMessage ("GWithdraw:" ++ toString bankTab ++ ":" ++ toString bankSlot)
  else w.sendGuildMessage ("GPartialWithdraw:" ++ bItem.describePlain)

/-- The end of both withdrawals: log, `DeleteItem`, the player's remaining withdrawals. -/
def finishWithdraw (bankTab : Nat) (count : UInt32) (bItem : BankItem) (ref : Option Nat) :
    World db :=
  let w := w.logAction env .withdrawItem bItem.tab bItem.itemTemplate count (some bItem)
  let w := if bItem.state = .removed then w.setBank (deleteRef w.bank ref) else w
  w.sendTabWithdrawalsLeft env bankTab

section Withdraw

variable {bankTab bankSlot : Nat} {count : UInt32} {bItem : BankItem} {ref : Option Nat} {swap : Bool}

@[simp] theorem sendWithdraw_player :
    (w.sendWithdraw bankTab bankSlot bItem swap).player = w.player := by
  unfold sendWithdraw; split_ifs <;> rfl

@[simp] theorem sendWithdraw_bank : (w.sendWithdraw bankTab bankSlot bItem swap).bank = w.bank := by
  unfold sendWithdraw; split_ifs <;> rfl

@[simp] theorem sendWithdraw_tables :
    (w.sendWithdraw bankTab bankSlot bItem swap).tables = w.tables := by
  unfold sendWithdraw; split_ifs <;> rfl

@[simp] theorem finishWithdraw_player :
    (w.finishWithdraw env bankTab count bItem ref).player = w.player := by
  unfold finishWithdraw
  dsimp only
  rw [sendTabWithdrawalsLeft_player]
  split_ifs <;> simp

theorem finishWithdraw_items :
    (w.finishWithdraw env bankTab count bItem ref).bank.items =
      if bItem.state = .removed then (deleteRef w.bank ref).items else w.bank.items := by
  unfold finishWithdraw
  dsimp only
  rw [sendTabWithdrawalsLeft_bank]
  split_ifs
  · cases ref <;> simp [deleteRef, GuildBank.deleteItem]
  · simp

end Withdraw

/-- Units of the bank item are added to the player's stack at `p`. -/
def withdrawOnto (count : UInt32) (bItem : BankItem) (ref : Option Nat)
    (p : Pos) (remainer : UInt32) (swap : Bool) : World db :=
  match w.player.inv.getItemByPos p with
  | none => w
  | some it =>
    let bItem := takeFrom bItem remainer (bItem.count - count)
    let w := w.sendWithdraw bankTab bankSlot bItem swap
    let w := w.setBank ((putRef w.bank ref bItem).enqueue bItem)
    let w := w.setInv (w.player.inv.setItem p { it with count := it.count + count })
    w.finishWithdraw env bankTab count bItem ref

/-- Units of the bank item are stored as a new item. -/
def withdrawNew (count : UInt32) (dest : List ItemPosCount)
    (bItem : BankItem) (ref : Option Nat) (remainer : UInt32) (swap : Bool) : World db :=
  let st := w.player.inv.storeNewItem dest bItem.itemTemplate env.randomPropertyId w.fresh
  let w := { w.setInv st.inv with fresh := st.fresh }
  match st.last with
  | none => w
  | some q =>
    let w := match w.player.inv.cells.lookup q with
      | some it => w.setInv (w.player.inv.setItem q (it.cloneFrom w.player.guid bItem))
      | none => w
    let bItem := takeFrom bItem remainer remainer
    let w := w.sendWithdraw bankTab bankSlot bItem swap
    let w := w.setBank ((putRef w.bank ref bItem).enqueue bItem)
    let w := w.send (.newItem bItem.itemTemplate count)
    w.finishWithdraw env bankTab count bItem ref

/-- `WithdrawItem(tab, slot, count, ...)`: `bItem` is the bank item, at index `ref` or a local copy;
with `pItem` the units are added to the stack there, otherwise a new item is stored. -/
def withdrawBankItem (count : UInt32) (playerBag playerSlot : Nat)
    (bItem : BankItem) (ref : Option Nat) (pItem : Option Pos) (remainer : UInt32) (swap : Bool) :
    World db :=
  let msg := w.player.inv.canStoreItem (playerBag % 256) (playerSlot % 256) [] bItem.itemTemplate
    count .none false
  if msg.res ≠ .ok then w.send (.equipError msg.res)
  else
    let w := match pItem with
      | some p => w.withdrawOnto env bankTab bankSlot count bItem ref p remainer swap
      | none => w.withdrawNew env bankTab bankSlot count msg.dest bItem ref remainer swap
    w.saveToDB

/-- `SwapItems`: a deposit over the bank item, then a withdrawal of the copy made before, to the
position `dest` that is read of the player's item after the deposit. -/
def swapItemsTo (dest : Pos) (p : Pos) (i : Nat) : World db :=
  match w.bank.items[i]?, w.player.inv.getItemByPos p with
  | some bankItem, some bagItem =>
    let msg := w.player.inv.canStoreItem nullBag nullSlot [] bankItem.itemTemplate bankItem.count
      .none false
    if msg.res ≠ .ok ∧ msg.res ≠ .inventoryFull then w.send (.equipError msg.res)
    else
      let w := w.depositItemInSlot env id bankItem.tab bankItem.slot p bagItem.count 0 .changed false
      w.withdrawBankItem env bankItem.tab bankItem.slot bankItem.count dest.1 dest.2 bankItem none
        none 0 true
  | _, _ => w

/-- An item that has been saved is destroyed by the deposit and then reports no position. (One that
has not been is deleted: see `ReadsBack`.) -/
def swapItems (p : Pos) (i : Nat) : World db :=
  w.swapItemsTo env (inventorySlotBag0, nullSlot) p i

/-! ## The commands -/

/-- The texts of a command for bad syntax, for parameters out of range and for missing rights. -/
def sendWrongSyntax (command : String) (msg : Text) : World db :=
  w.sendAddonMessage (command ++ ":Error:WrongSyntax(" ++ String.ofList msg ++ ")")

def sendNoRights (command notification : String) : World db :=
  (w.sendNotification notification).sendAddonMessage (command ++ ":Error:NoRights")

/-- `DepositItem:playerBag:playerSlot:bankTab:bankSlot:count`, all `uint8`. -/
structure DepositParams where
  playerBag : UInt8
  playerSlot : UInt8
  bankTab : UInt8
  bankSlot : UInt8
  count : UInt8
  deriving DecidableEq

def depositParams : Option DepositParams :=
  match tokenizer msg ':' with
  | [_, a, b, c, d, e] =>
    some ⟨(atoi a).toUInt8, (atoi b).toUInt8, (atoi c).toUInt8, (atoi d).toUInt8, (atoi e).toUInt8⟩
  | _ => none

/-- From client slots to server slots, in `uint8` arithmetic. -/
def DepositParams.pos (q : DepositParams) : Pos :=
  if q.playerBag = 0 then (inventorySlotBag0, (q.playerSlot + 23 - 1).toNat)
  else ((q.playerBag + 19 - 1).toNat, (q.playerSlot - 1).toNat)

/-- The part of `DepositItem` after the checks, for an occupied bank slot. -/
def depositOver (p : Pos) (it : Item db) (count : UInt32) (i : Nat) (dItem : BankItem) : World db :=
  if dItem.itemTemplate = it.entry ∧ dItem.count = it.count ∧ dItem.count = dItem.maxStackSize ∧
      dItem.randomPropertyId = it.fields.randomPropertyId then
    w.sendAddonMessage "DepositItem:Swap:Error:SameItemSameCount"
  else if dItem.itemTemplate = it.entry ∧ dItem.maxStackSize > 1 then
    if dItem.count + count ≤ dItem.maxStackSize then
      w.depositItemInSlot env id bankTab bankSlot p count 0 .changed true
    else if count < dItem.count ∧ dItem.count = dItem.maxStackSize then
      -- fewer units over a full stack: the difference is withdrawn
      let withdrawCount := dItem.maxStackSize - count
      w.withdrawBankItem env bankTab bankSlot withdrawCount p.1 p.2 dItem (some i) (some p)
        (dItem.maxStackSize - withdrawCount) false
    else
      w.depositItemInSlot env id bankTab bankSlot p (dItem.maxStackSize - dItem.count) 0 .changed true
  else w.swapItems env p i

def depositItem : World db :=
  match depositParams msg with
  | none => w.sendWrongSyntax "DepositItem" msg
  | some q =>
    let bankTab := q.bankTab.toNat
    let bankSlot := q.bankSlot.toNat
    if bankTab = 0 ∨ bankTab > maxTabs ∨ bankSlot > bankTabSize then
      w.sendAddonMessage "DepositItem:Error:ParamsOutOfRange"
    else if !w.canAccessTab env bankTab .depositItem then
      w.sendNoRights "DepositItem" "You dont have access to this tab."
    else
      match w.player.inv.getItemByPos q.pos with
      | none => w.sendAddonMessage ("DepositItem:Error:CantGetPlayerItem:" ++ toString q.pos.1 ++
          ":" ++ toString q.pos.2)
      | some it =>
        match isItemBankable it with
        | .error (note, text) => (w.sendNotification note).sendAddonMessage text
        | .ok () =>
          if q.count.toUInt32 > it.proto.stackable then
            w.sendAddonMessage "DepositItem:Error:Count>GetMaxStackCount"
          else if bankSlot = 0 then w.depositItemInFreeSlot env bankTab q.pos
          else
            match w.bank.findItem bankTab bankSlot with
            | none =>
              w.depositItemInSlot env id bankTab bankSlot q.pos q.count.toUInt32 0 .new false
            | some i =>
              match w.bank.items[i]? with
              | none => w
              | some dItem =>
                w.depositOver env bankTab bankSlot q.pos it q.count.toUInt32 i dItem

/-- `WithdrawItem:bankTab:bankSlot:playerBag:playerSlot:count`, all `uint32`. -/
structure WithdrawParams where
  bankTab : UInt32
  bankSlot : UInt32
  playerBag : UInt32
  playerSlot : UInt32
  count : UInt32
  deriving DecidableEq

def withdrawParams : Option WithdrawParams :=
  match tokenizer msg ':' with
  | [_, a, b, c, d, e] => some ⟨atoi a, atoi b, atoi c, atoi d, atoi e⟩
  | _ => none

/-- From client slots to server slots: `uint32` arithmetic, and the `uint8` that is used of it. -/
def WithdrawParams.pos (q : WithdrawParams) : Pos :=
  let bag := if q.playerBag = 0 then 255 else q.playerBag + 18
  let slot := if bag = 255 then q.playerSlot + 22 else q.playerSlot - 1
  (bag.toNat % 256, slot.toNat % 256)

/-- `WithdrawItem` with a destination in the bags. -/
def withdrawTo (p : Pos) (withdrawCount : UInt32) (i : Nat) (bItem : BankItem) : World db :=
  match w.player.inv.getItemByPos p with
  | none =>
    w.withdrawBankItem env bankTab bankSlot withdrawCount p.1 p.2 bItem (some i) none
      (bItem.count - withdrawCount) false
  | some it =>
    match isItemBankable it with
    | .error (note, text) => (w.sendNotification note).sendAddonMessage text
    | .ok () =>
      if it.entry = bItem.itemTemplate ∧ bItem.maxStackSize > 1 then
        -- what does not fit on the stack stays in the bank
        let count := if withdrawCount + it.count > it.proto.stackable then
            it.proto.stackable - it.count else withdrawCount
        w.withdrawBankItem env bankTab bankSlot count p.1 p.2 bItem (some i) (some p)
          (bItem.count - count) false
      else w.swapItems env p i

def withdrawItem : World db :=
  match withdrawParams msg with
  | none => w.sendWrongSyntax "WithdrawItem" msg
  | some q =>
    let bankTab := q.bankTab.toNat
    let bankSlot := q.bankSlot.toNat
    if bankTab = 0 ∨ bankTab > maxTabs ∨ bankSlot = 0 ∨ bankSlot > bankTabSize then
      w.sendAddonMessage "WithdrawItem:Error:ParamsOutOfRange"
    else if !w.canAccessTab env bankTab .withdrawItem then
      w.sendNoRights "WithdrawItem" "You dont have access to this tab."
    else
      match w.bank.findItem bankTab bankSlot with
      | none => w.sendAddonMessage "WithdrawItem:Error:CantFindBankItem"
      | some i =>
        match w.bank.items[i]? with
        | none => w
        | some bItem =>
          if q.count > bItem.count then
            w.sendAddonMessage "WithdrawItem:Error:CantWithdrawMoreThanCount"
          else if q.playerBag = 0 ∧ q.playerSlot = 0 then
            if bItem.count = q.count then
              w.withdrawBankItem env bankTab bankSlot bItem.count nullBag nullSlot bItem (some i) none
                0 false
            else w.sendAddonMessage "WithdrawItem:Error:CantAutoWithdrawDifferentCount"
          else w.withdrawTo env bankTab bankSlot q.pos q.count i bItem

/-- `MoveItem:tab:fromSlot:toSlot`, all `uint8`. -/
structure MoveParams where
  bankTab : UInt8
  fromSlot : UInt8
  toSlot : UInt8
  deriving DecidableEq

def moveParams : Option MoveParams :=
  match tokenizer msg ':' with
  | [_, a, b, c] => some ⟨(atoi a).toUInt8, (atoi b).toUInt8, (atoi c).toUInt8⟩
  | _ => none

/-- The message of a move to a slot that takes the whole item. -/
def moveMessage (bankTab fromSlot : Nat) (it : BankItem) : String :=
  "GMoveItem:from:" ++ toString bankTab ++ ":" ++ toString fromSlot ++ ":0:0:0:0:0:0:to:" ++ it.describe

def exchangeMessage (sItem dItem : BankItem) : String :=
  "GMoveItem:from:" ++ sItem.describe ++ ":to:" ++ dItem.describe

/-- `MoveItem` onto an occupied slot. -/
def moveOver (bankTab fromSlot toSlot i j : Nat) (sItem dItem : BankItem) : World db :=
  if sItem.itemTemplate ≠ dItem.itemTemplate ∨ sItem.count = sItem.maxStackSize ∨
      dItem.count = dItem.maxStackSize then
    let sItem := { sItem with slot := toSlot, state := .changed }
    let dItem := { dItem with slot := fromSlot, state := .changed }
    let w := w.setBank (((w.bank.setItem i sItem).enqueue sItem).setItem j dItem |>.enqueue dItem)
    (w.sendGuildMessage (exchangeMessage sItem dItem)).saveToDB
  else if sItem.count + dItem.count ≤ sItem.maxStackSize then
    let dItem := { dItem with count := sItem.count + dItem.count, state := .changed }
    let sItem := { sItem with state := .removed }
    let b := ((w.bank.setItem j dItem).enqueue dItem).setItem i sItem |>.enqueue sItem
    (w.setBank (b.deleteItem i)).sendGuildMessage (moveMessage bankTab fromSlot dItem)
  else
    let sItem' := { sItem with
      count := sItem.count - (sItem.maxStackSize - dItem.count), state := .changed }
    let dItem' := { dItem with count := dItem.maxStackSize, state := .changed }
    let b := ((w.bank.setItem i sItem').enqueue sItem').setItem j dItem' |>.enqueue dItem'
    (w.setBank b).sendGuildMessage (exchangeMessage sItem' dItem')

def moveItem : World db :=
  match moveParams msg with
  | none => w.sendWrongSyntax "MoveItem" msg
  | some q =>
    let bankTab := q.bankTab.toNat
    let fromSlot := q.fromSlot.toNat
    let toSlot := q.toSlot.toNat
    if !w.canAccessTab env bankTab .moveItem then
      w.sendNoRights "MoveItem" "You dont have access in this tab."
    else if fromSlot = toSlot then w.sendAddonMessage "MoveItem:Error:SameSourceDest"
    else if bankTab = 0 ∨ bankTab > maxTabs ∨ fromSlot = 0 ∨ fromSlot > bankTabSize ∨ toSlot = 0 ∨
        toSlot > bankTabSize then
      w.sendAddonMessage "MoveItem:Error:ParamsOutOfRange"
    else
      match w.bank.findItem bankTab fromSlot with
      | none => w.sendAddonMessage "MoveItem:Error:CantGetSource"
      | some i =>
        match w.bank.items[i]?, w.bank.findItem bankTab toSlot with
        | none, _ => w
        | some sItem, none =>
          let sItem := { sItem with slot := toSlot, state := .changed }
          (w.setBank ((w.bank.setItem i sItem).enqueue sItem)).sendGuildMessage
            (moveMessage bankTab fromSlot sItem)
        | some sItem, some j =>
          match w.bank.items[j]? with
          | none => w
          | some dItem => w.moveOver bankTab fromSlot toSlot i j sItem dItem

/-- `SplitItem:tab:fromSlot:toSlot:count`, all `uint8`. -/
structure SplitParams where
  bankTab : UInt8
  fromSlot : UInt8
  toSlot : UInt8
  split : UInt8
  deriving DecidableEq

def splitParams : Option SplitParams :=
  match tokenizer msg ':' with
  | [_, a, b, c, d] =>
    some ⟨(atoi a).toUInt8, (atoi b).toUInt8, (atoi c).toUInt8, (atoi d).toUInt8⟩
  | _ => none

def splitMessage (sItem dItem : BankItem) : String :=
  "GSplitItem:from:" ++ sItem.describePlain ++ ":to:" ++ dItem.describePlain

/-- `SplitItem` to an empty slot. The new count of the source is computed as an `int32`. -/
def splitToEmpty (toSlot : Nat) (split : UInt32) (i : Nat) (sItem : BankItem) : World db :=
  if split ≥ sItem.maxStackSize then w.sendAddonMessage "SplitItem:Error:DestinationCountTooBig"
  else if 2 ^ 31 ≤ sItem.count.toNat ∨ sItem.count ≤ split then
    w.sendAddonMessage "SplitItem:Error:SourceLeftCount0"
  else
    let sItem := { sItem with count := sItem.count - split, state := .changed }
    let b := (w.bank.setItem i sItem).enqueue sItem
    let dItem := { sItem.cloneBankItem b.guildid b.getNewGuid with
      slot := toSlot, count := split, state := .new }
    ((w.setBank ((b.enqueue dItem).addItem dItem)).sendGuildMessage
      (splitMessage sItem dItem)).saveToDB

/-- `SplitItem` onto an occupied slot. -/
def splitOver (split : UInt32) (i j : Nat) (sItem dItem : BankItem) : World db :=
  if sItem.itemTemplate ≠ dItem.itemTemplate then
    w.sendAddonMessage "SplitItem:destinationItemDifferent"
  else if ¬ dItem.count + split ≤ dItem.maxStackSize then
    w.sendAddonMessage "SplitItem:cantStackOnTarget"
  else if sItem.count - split = 0 then w.sendAddonMessage "SplitItem:Error:SourceCount0"
  else if sItem.count - split > sItem.maxStackSize then
    w.sendAddonMessage "SplitItem:Error:BadSourceCount"
  else if dItem.count + split = 0 then w.sendAddonMessage "SplitItem:Error:DestCount0"
  else if dItem.count + split > sItem.maxStackSize then
    w.sendAddonMessage "SplitItem:Error:BadDestCount"
  else
    let sItem := { sItem with count := sItem.count - split, state := .changed }
    let dItem := { dItem with count := dItem.count + split, state := .changed }
    let b := ((w.bank.setItem i sItem).enqueue sItem).setItem j dItem |>.enqueue dItem
    (w.setBank b).sendGuildMessage (splitMessage sItem dItem)

def splitItem : World db :=
  match splitParams msg with
  | none => w.sendWrongSyntax "SplitItem" msg
  | some q =>
    let bankTab := q.bankTab.toNat
    let fromSlot := q.fromSlot.toNat
    let toSlot := q.toSlot.toNat
    if !w.canAccessTab env bankTab .splitItem then
      w.sendNoRights "SplitItem" "You dont have access to this tab."
    else if fromSlot = toSlot then w.sendAddonMessage "SplitItem:Error:fromSlot=toSlot"
    else if bankTab = 0 ∨ bankTab > maxTabs ∨ fromSlot = 0 ∨ fromSlot > bankTabSize ∨ toSlot = 0 ∨
        toSlot > bankTabSize then
      w.sendAddonMessage "SplitItem:Error:ParamsOutOfRange"
    else
      match w.bank.findItem bankTab fromSlot with
      | none => w
      | some i =>
        match w.bank.items[i]?, w.bank.findItem bankTab toSlot with
        | none, _ => w
        | some sItem, none => w.splitToEmpty toSlot q.split.toUInt32 i sItem
        | some sItem, some j =>
          match w.bank.items[j]? with
          | none => w
          | some dItem => w.splitOver q.split.toUInt32 i j sItem dItem

/-- `DestroyItem:tab:slot:count`, all `uint8`. -/
def destroyItem : World db :=
  match tokenizer msg ':' with
  | [_, a, b, c] =>
    let bankTab := (atoi a).toUInt8.toNat
    let bankSlot := (atoi b).toUInt8.toNat
    let count := (atoi c).toUInt8.toUInt32
    if !w.canAccessTab env bankTab .destroyItem then
      w.sendNoRights "DestroyItem" "You dont have access to this tab."
    else if bankTab = 0 ∨ bankTab > maxTabs ∨ bankSlot = 0 ∨ bankSlot > bankTabSize then
      w.sendAddonMessage "DestroyItem:Error:ParamsOutOfRange"
    else
      match w.bank.findItem bankTab bankSlot with
      | none => w
      | some i =>
        match w.bank.items[i]? with
        | none => w
        | some sItem =>
          if count > sItem.maxStackSize ∨ count > sItem.count then
            w.sendAddonMessage "DestroyItem:Error:CountTooBig"
          else if count = 0 ∨ count = sItem.count then
            let sItem := { sItem with state := .removed }
            let w := w.setBank ((w.bank.setItem i sItem).enqueue sItem)
            let w := w.sendGuildMessage ("GDestroy:" ++ toString bankTab ++ ":" ++
              toString bankSlot ++ ":0:" ++ toString sItem.itemTemplate ++ ":" ++ toStr sItem.count)
            let w := w.logAction env .destroyItem bankTab sItem.itemTemplate sItem.count (some sItem)
            w.setBank (w.bank.deleteItem i)
          else
            -- the remaining stack is not queued for the next save
            let sItem := { sItem with count := sItem.count - count, state := .changed }
            let w := w.setBank (w.bank.setItem i sItem)
            let w := w.sendGuildMessage ("GPartialDestroy:" ++ toString sItem.tab ++ ":" ++
              toString sItem.slot ++ ":" ++ toStr sItem.guid ++ ":" ++
              toString sItem.itemTemplate ++ ":" ++ toStr sItem.count)
            w.logAction env .destroyItem bankTab sItem.itemTemplate count (some sItem)
  | _ => w.sendWrongSyntax "DestroyItem" msg

end World

end Windrunner
