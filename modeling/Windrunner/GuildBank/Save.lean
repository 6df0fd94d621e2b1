import Windrunner.GuildBank.State

/-!
# Loading and saving a guild bank

* `writeItem`: the three item statements. An `INSERT` fails on a duplicate key, and on a guid that the
  column, an `int(11)`, does not hold. An `UPDATE` names the row by `guildid` and `guid` only and sets
  `isInferno`: with two such rows it fails on the key.
* `saveToDB`: one transaction. A failed statement rolls the transactional tables back (`guild_bank`
  and `guild_bank_log`; the other two are not), and the queue is cleared either way.
* `loadBank`, `loadLog`, `setGuild`: what the server reads at startup and after an unlock.
-/

namespace Windrunner

open Lib

/-! ## Items -/

/-- The columns of an item's row. -/
def BankItem.toRow (it : BankItem) : ItemRow :=
  { guildid := it.guildid, guid := it.guid, isInferno := it.isInferno, tab := it.tab, slot := it.slot
    itemTemplate := it.itemTemplate, creatorGuid := it.creatorGuid
    giftCreatorGuid := it.giftCreatorGuid, count := it.count, duration := it.duration
    charges := it.charges, flags := it.flags, enchantments := it.enchantments
    randomPropertyId := it.randomPropertyId, transmogrifyId := it.transmogrifyId
    durability := it.durability, text := it.text, generatedLoot := it.generatedLoot }

/-- The first number beyond the column `guid`, an `int(11)`. -/
def guidLimit : UInt32 := 2147483648

/-- `WHERE guildid = .. AND guid = ..`. -/
def ItemRow.matchesGuid (it : BankItem) (r : ItemRow) : Bool :=
  r.guildid == it.guildid && r.guid == it.guid

/-- `WHERE guildid = .. AND guid = .. AND isInferno = ..`. -/
def ItemRow.matchesKey (it : BankItem) (r : ItemRow) : Bool :=
  r.matchesGuid it && r.isInferno == it.isInferno

def BankItem.addToDB (it : BankItem) (rows : List ItemRow) : Option (List ItemRow) :=
  if rows.any (·.matchesKey it) then none
  else if it.guid ≥ guidLimit then none
  else some (rows ++ [it.toRow])

def BankItem.saveToDB (it : BankItem) (rows : List ItemRow) : Option (List ItemRow) :=
  if 2 ≤ rows.countP (·.matchesGuid it) then none
  else some (rows.map fun r => if r.matchesGuid it then it.toRow else r)

def BankItem.deleteFromDB (it : BankItem) (rows : List ItemRow) : List ItemRow :=
  rows.filter fun r => !r.matchesKey it

/-- The statement a queued copy stands for. -/
def writeItem (rows : List ItemRow) (it : BankItem) : Option (List ItemRow) :=
  match it.state with
  | .new => it.addToDB rows
  | .changed => it.saveToDB rows
  | .removed => some (it.deleteFromDB rows)
  | .unchanged => some rows

namespace GuildBank

variable (b : GuildBank)

/-! ## Saving -/

def moneyLogRow (l : MoneyLog) : LogRow :=
  { guildid := b.guildid, isInferno := b.infernoBank, player := l.player, action := l.action
    tab := 0, item := 0, randomPropertyId := 0, enchant := 0, count := l.money, stamp := l.stamp }

def logRow (l : BankLog) : LogRow :=
  { guildid := b.guildid, isInferno := b.infernoBank, player := l.player, action := l.action
    tab := l.tab, item := l.item, randomPropertyId := l.randomPropertyId, enchant := l.enchant
    count := l.count, stamp := l.stamp }

/-- The log rows the transaction inserts. -/
def newLogRows : List LogRow :=
  (if b.moneyLogChanged then
    (b.moneyLog.filter fun l => l.state = .new).map b.moneyLogRow
  else []) ++
  (if b.logChanged then
    (List.range' 1 maxTabs).flatMap fun tab =>
      ((b.logAt tab).filter fun l => l.state = .new).map b.logRow
  else [])

/-- `UPDATE guild_bank_money`. -/
def saveMoney (rows : List MoneyRow) : List MoneyRow :=
  rows.map fun r =>
    if r.guildid = b.guildid ∧ r.isInferno = b.infernoBank then { r with money := b.money } else r

/-- `UPDATE guild_bank_tabs`. -/
def saveTabs (rows : List TabsRow) : List TabsRow :=
  rows.map fun r =>
    if r.guildid = b.guildid ∧ r.isInferno = b.infernoBank then
      { r with tabs := b.tabs, info := (List.range' 1 maxTabs).map b.tabInfoAt }
    else r

/-- There is something to save. -/
def dirty : Bool :=
  b.moneyLogChanged || b.tabsChanged || b.moneyChanged || b.logChanged || !b.itemUpdateQueue.isEmpty

/-- The bank in memory after a save. -/
def saved : GuildBank :=
  { b with
    moneyChanged := false
    tabsChanged := false
    moneyLog := if b.moneyLogChanged then b.moneyLog.map ({ · with state := .unchanged }) else b.moneyLog
    moneyLogChanged := false
    log := if b.logChanged then
        (List.range' 1 maxTabs).foldl (fun log tab =>
          log.insert tab ((b.logAt tab).map ({ · with state := .unchanged }))) b.log
      else b.log
    logChanged := false
    items := if b.itemUpdateQueue.isEmpty then b.items
      else b.items.map ({ · with state := .unchanged })
    itemUpdateQueue := [] }

/-- The tables after the transaction. -/
def commit (t : Tables) : Tables :=
  let t := { t with
    money := if b.moneyChanged then b.saveMoney t.money else t.money
    tabs := if b.tabsChanged then b.saveTabs t.tabs else t.tabs }
  match b.itemUpdateQueue.foldlM writeItem t.items with
  | some rows => { t with items := rows, log := t.log ++ b.newLogRows }
  | none => t

end GuildBank

namespace World

variable {db : ItemDb} (w : World db)

def saveToDB : World db :=
  if w.bank.saveLock then w
  else if !w.bank.dirty then w
  else { w with bank := w.bank.saved, tables := w.bank.commit w.tables }

@[simp] theorem saveToDB_player : w.saveToDB.player = w.player := by
  unfold saveToDB; split_ifs <;> rfl

@[simp] theorem saveToDB_units (e : Nat) : w.saveToDB.units e = w.units e := by
  have hs : w.bank.saved.units e = w.bank.units e := by
    unfold GuildBank.units GuildBank.saved
    dsimp only
    split_ifs
    · rfl
    · rw [List.map_map]; rfl
  unfold units
  rw [saveToDB_player]
  unfold saveToDB
  split_ifs
  · rfl
  · rfl
  · rw [hs]

end World

/-! ## Loading -/

namespace GuildBank

/-- `BankItem::LoadFromDB` and what `LoadBank` adds from the prototype; without one these fields are
left unset. -/
def loadItem (db : ItemDb) (r : ItemRow) : BankItem :=
  let params := tokenizer r.enchantments ' '
  let it : BankItem :=
    { guildid := r.guildid, guid := r.guid, isInferno := r.isInferno, tab := r.tab % 256
      slot := r.slot % 256
      itemTemplate := r.itemTemplate, creatorGuid := r.creatorGuid
      giftCreatorGuid := r.giftCreatorGuid, count := r.count, duration := r.duration
      charges := r.charges, flags := r.flags, enchantments := r.enchantments
      enchant := if params.length = 21 then atoi (params.headD []) else 0
      randomPropertyId := r.randomPropertyId, transmogrifyId := r.transmogrifyId
      durability := r.durability, text := r.text, generatedLoot := r.generatedLoot
      maxStackSize := 0, quality := 0 }
  match db.get r.itemTemplate with
  | none => it
  | some proto =>
    { it with
      name := if it.randomPropertyId > 0 then
          proto.name1 ++ " " ++ db.nameSuffix it.randomPropertyId else proto.name1
      quality := proto.quality
      maxStackSize := proto.stackable }

/-- `SELECT .. FROM guild_bank WHERE guildid = .. AND isInferno = ..`. -/
def ownRows (b : GuildBank) (rows : List ItemRow) : List ItemRow :=
  rows.filter fun r => r.guildid = b.guildid ∧ r.isInferno = b.infernoBank

/-- The tabs and money rows of the bank, joined; the loop over the result keeps the last. -/
def lastInfo (b : GuildBank) (t : Tables) : Option (TabsRow × MoneyRow) :=
  ((t.tabs.filter fun r => r.guildid = b.guildid ∧ r.isInferno = b.infernoBank).flatMap fun r =>
    (t.money.filter fun m => m.guildid = r.guildid ∧ m.isInferno = r.isInferno).map (r, ·)).getLast?

/-- `LoadBank`: tabs and money are replaced, the items of the table are added to those in memory. -/
def loadBank (b : GuildBank) (db : ItemDb) (t : Tables) : GuildBank :=
  match b.lastInfo t with
  | none => b
  | some (r, m) =>
    let info := (List.range maxTabs).foldl
      (fun info i => info.insert (i + 1) (r.info.getD i {})) b.tabInfo
    let money := { (info.lookup tabMoney).getD {} with minrank := 1 }
    { b with
      tabs := r.tabs
      money := m.money
      tabInfo := info.insert tabMoney money
      items := b.items ++ (b.ownRows t.items).map (loadItem db) }

/-- Writes entry `i` of a log whose entries are numbered from `0`. -/
def putAt {α : Type} (l : List α) (i : Nat) (x : α) : List α :=
  if i < l.length then l.set i x else l ++ [x]

def appendLog (b : GuildBank) (db : ItemDb) (env : Env) (index : Nat) (r : LogRow) : GuildBank :=
  let playerName := (env.playerName r.player).getD "Unknown"
  if r.tab = tabMoney then
    { b with
      moneyLog := putAt b.moneyLog index
        { player := r.player, action := r.action, money := r.count, stamp := r.stamp, playerName
          state := .unchanged } }
  else
    let (itemName, itemQuality) := match db.get r.item with
      | none => ("Unknown", "1")
      | some proto =>
        (if r.randomPropertyId > 0 then proto.name1 ++ " " ++ db.nameSuffix r.randomPropertyId
          else proto.name1, toString proto.quality)
    { b with
      log := b.log.insert r.tab (putAt (b.logAt r.tab) index
        { player := r.player, action := r.action, tab := r.tab, item := r.item
          -- the enchantment of the row is read and not kept
          enchant := ((b.logAt r.tab)[index]?.map (·.enchant)).getD 0
          randomPropertyId := r.randomPropertyId, count := r.count.toUInt8.toUInt32
          stamp := r.stamp, playerName, itemName, itemQuality, state := .unchanged }) }

/-- `LoadLog`: the entries of the last week, oldest first, numbered per tab from `0`. -/
def loadLog (b : GuildBank) (db : ItemDb) (env : Env) (t : Tables) : GuildBank :=
  let rows := (t.log.filter fun r => r.guildid = b.guildid ∧ r.isInferno = b.infernoBank ∧
    env.now - 604800 ≤ r.stamp).insertionSort fun r s => r.stamp ≤ s.stamp
  if rows.isEmpty then b
  else
    let step := fun (st : GuildBank × (Nat → Nat)) (r : LogRow) =>
      (st.1.appendLog db env (st.2 r.tab) r, Function.update st.2 r.tab (st.2 r.tab + 1))
    { (rows.foldl step (b, fun _ => 0)).1 with moneyLogChanged := false, logChanged := false }

/-- `SetGuild`: the bank at server start. -/
def setGuild (db : ItemDb) (env : Env) (t : Tables) (guildid : Nat) (infernoBank : Bool) :
    GuildBank :=
  { (({ guildid, infernoBank } : GuildBank).loadBank db t).loadLog db env t with
    tabsChanged := false, moneyChanged := false, moneyLogChanged := false, logChanged := false
    itemUpdateQueue := [] }

end GuildBank

end Windrunner
