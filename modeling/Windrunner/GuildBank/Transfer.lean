import Windrunner.GuildBank.Items

/-!
# Deposits and withdrawals by branch

`DepositItem` and `WithdrawItem` check a message and then take one of seven ways. `Transfer` names
them, `depositBranch` and `withdrawBranch` are the checks, `Transfer.exec` is the rest:
`depositItem_eq` and `withdrawItem_eq` put them together again. What the checks have established
is `Transfer.Checked`.
-/

namespace Windrunner

open Lib

variable {db : ItemDb}

/-- What a message comes to after its checks. -/
inductive Transfer where
  /-- Nothing but these replies. -/
  | reply (rs : List Reply)
  /-- The player's item goes to whatever room the tab has. -/
  | free (bankTab : Nat) (p : Pos)
  /-- `count` units go to an empty bank slot. -/
  | place (bankTab bankSlot : Nat) (p : Pos) (count : UInt32)
  /-- `count` units go onto the stack in a bank slot. -/
  | stack (bankTab bankSlot : Nat) (p : Pos) (count : UInt32)
  /-- `count` units of the bank item at index `i` go onto the player's stack at `p`. -/
  | take (bankTab bankSlot i : Nat) (bItem : BankItem) (p : Pos) (count : UInt32)
  /-- `count` units of the bank item at index `i` are stored as a new item. -/
  | store (bankTab bankSlot i : Nat) (bItem : BankItem) (p : Pos) (count : UInt32)
  /-- The player's item and the bank item at index `i` change places. -/
  | swap (bankTab i : Nat) (p : Pos)
  deriving DecidableEq

def Transfer.exec (env : Env) (w : World db) : Transfer → World db
  | reply rs => { w with sent := w.sent ++ rs }
  | free bankTab p => w.depositItemInFreeSlot env bankTab p
  | place bankTab bankSlot p count => w.depositItemInSlot env id bankTab bankSlot p count 0 .new false
  | stack bankTab bankSlot p count =>
    w.depositItemInSlot env id bankTab bankSlot p count 0 .changed true
  | take bankTab bankSlot i bItem p count =>
    w.withdrawBankItem env bankTab bankSlot count p.1 p.2 bItem (some i) (some p)
      (bItem.count - count) false
  | store bankTab bankSlot i bItem p count =>
    w.withdrawBankItem env bankTab bankSlot count p.1 p.2 bItem (some i) none
      (bItem.count - count) false
  | swap _ i p => w.swapItems env p i

namespace World

variable (env : Env) (w : World db)

/-! ## The checks -/

/-- A deposit over the bank item `dItem`. -/
def overBranch (bankTab bankSlot : Nat) (p : Pos) (it : Item db) (count : UInt32) (i : Nat)
    (dItem : BankItem) : Transfer :=
  if dItem.itemTemplate = it.entry ∧ dItem.count = it.count ∧ dItem.count = dItem.maxStackSize ∧
      dItem.randomPropertyId = it.fields.randomPropertyId then
    .reply [.addon "DepositItem:Swap:Error:SameItemSameCount"]
  else if dItem.itemTemplate = it.entry ∧ dItem.maxStackSize > 1 then
    if dItem.count + count ≤ dItem.maxStackSize then .stack bankTab bankSlot p count
    else if count < dItem.count ∧ dItem.count = dItem.maxStackSize then
      .take bankTab bankSlot i dItem p (dItem.maxStackSize - count)
    else .stack bankTab bankSlot p (dItem.maxStackSize - dItem.count)
  else .swap bankTab i p

def depositBranch (msg : Text) : Transfer :=
  match depositParams msg with
  | none => .reply [.addon ("DepositItem:Error:WrongSyntax(" ++ String.ofList msg ++ ")")]
  | some q =>
    let bankTab := q.bankTab.toNat
    let bankSlot := q.bankSlot.toNat
    if bankTab = 0 ∨ bankTab > maxTabs ∨ bankSlot > bankTabSize then
      .reply [.addon "DepositItem:Error:ParamsOutOfRange"]
    else if !w.canAccessTab env bankTab .depositItem then
      .reply [.notification "You dont have access to this tab.", .addon "DepositItem:Error:NoRights"]
    else
      match w.player.inv.getItemByPos q.pos with
      | none => .reply [.addon ("DepositItem:Error:CantGetPlayerItem:" ++ toString q.pos.1 ++ ":" ++
          toString q.pos.2)]
      | some it =>
        match isItemBankable it with
        | .error (note, text) => .reply [.notification note, .addon text]
        | .ok () =>
          if q.count.toUInt32 > it.proto.stackable then
            .reply [.addon "DepositItem:Error:Count>GetMaxStackCount"]
          else if bankSlot = 0 then .free bankTab q.pos
          else
            match w.bank.findItem bankTab bankSlot with
            | none => .place bankTab bankSlot q.pos q.count.toUInt32
            | some i =>
              match w.bank.items[i]? with
              | none => .reply []
              | some dItem => overBranch bankTab bankSlot q.pos it q.count.toUInt32 i dItem

/-- The units that fit on the player's stack `it`. -/
def fitCount (it : Item db) (withdrawCount : UInt32) : UInt32 :=
  if withdrawCount + it.count > it.proto.stackable then it.proto.stackable - it.count
  else withdrawCount

def withdrawToBranch (bankTab bankSlot : Nat) (p : Pos) (withdrawCount : UInt32) (i : Nat)
    (bItem : BankItem) : Transfer :=
  match w.player.inv.getItemByPos p with
  | none => .store bankTab bankSlot i bItem p withdrawCount
  | some it =>
    match isItemBankable it with
    | .error (note, text) => .reply [.notification note, .addon text]
    | .ok () =>
      if it.entry = bItem.itemTemplate ∧ bItem.maxStackSize > 1 then
        .take bankTab bankSlot i bItem p (fitCount it withdrawCount)
      else .swap bankTab i p

def withdrawBranch (msg : Text) : Transfer :=
  match withdrawParams msg with
  | none => .reply [.addon ("WithdrawItem:Error:WrongSyntax(" ++ String.ofList msg ++ ")")]
  | some q =>
    let bankTab := q.bankTab.toNat
    let bankSlot := q.bankSlot.toNat
    if bankTab = 0 ∨ bankTab > maxTabs ∨ bankSlot = 0 ∨ bankSlot > bankTabSize then
      .reply [.addon "WithdrawItem:Error:ParamsOutOfRange"]
    else if !w.canAccessTab env bankTab .withdrawItem then
      .reply [.notification "You dont have access to this tab.", .addon "WithdrawItem:Error:NoRights"]
    else
      match w.bank.findItem bankTab bankSlot with
      | none => .reply [.addon "WithdrawItem:Error:CantFindBankItem"]
      | some i =>
        match w.bank.items[i]? with
        | none => .reply []
        | some bItem =>
          if q.count > bItem.count then
            .reply [.addon "WithdrawItem:Error:CantWithdrawMoreThanCount"]
          else if q.playerBag = 0 ∧ q.playerSlot = 0 then
            if bItem.count = q.count then
              .store bankTab bankSlot i bItem (nullBag, nullSlot) bItem.count
            else .reply [.addon "WithdrawItem:Error:CantAutoWithdrawDifferentCount"]
          else w.withdrawToBranch bankTab bankSlot q.pos q.count i bItem

/-! ## The commands are their branches -/

theorem sendNoRights_eq (command note : String) :
    w.sendNoRights command note =
      { w with sent := w.sent ++ [.notification note, .addon (command ++ ":Error:NoRights")] } := by
  simp [sendNoRights, sendNotification, sendAddonMessage, send]

theorem send_two (r s : Reply) : (w.send r).send s = { w with sent := w.sent ++ [r, s] } := by
  simp [send]

theorem depositOver_eq (bankTab bankSlot : Nat) (p : Pos) (it : Item db) (count : UInt32) (i : Nat)
    (dItem : BankItem) :
    w.depositOver env bankTab bankSlot p it count i dItem =
      (overBranch bankTab bankSlot p it count i dItem).exec env w := by
  unfold depositOver overBranch
  split_ifs with h1 h2 h3 h4
  · rfl
  · rfl
  · simp only [Transfer.exec, h4.2]
  · rfl
  · rfl

theorem depositItem_eq (msg : Text) :
    w.depositItem env msg = (w.depositBranch env msg).exec env w := by
  unfold depositItem depositBranch
  cases depositParams msg with
  | none => rfl
  | some q =>
    dsimp only
    by_cases hr : q.bankTab.toNat = 0 ∨ q.bankTab.toNat > maxTabs ∨ q.bankSlot.toNat > bankTabSize
    · rw [if_pos hr, if_pos hr]; rfl
    rw [if_neg hr, if_neg hr]
    by_cases ha : (!w.canAccessTab env q.bankTab.toNat .depositItem) = true
    · rw [if_pos ha, if_pos ha, sendNoRights_eq]; rfl
    rw [if_neg ha, if_neg ha]
    cases w.player.inv.getItemByPos q.pos with
    | none => rfl
    | some it =>
      dsimp only
      cases isItemBankable it with
      | error e => exact send_two w _ _
      | ok u =>
        dsimp only
        by_cases hc : q.count.toUInt32 > it.proto.stackable
        · rw [if_pos hc, if_pos hc]; rfl
        rw [if_neg hc, if_neg hc]
        by_cases hs : q.bankSlot.toNat = 0
        · rw [if_pos hs, if_pos hs]; rfl
        rw [if_neg hs, if_neg hs]
        cases w.bank.findItem q.bankTab.toNat q.bankSlot.toNat with
        | none => rfl
        | some i =>
          dsimp only
          cases w.bank.items[i]? with
          | none => simp [Transfer.exec]
          | some dItem => exact depositOver_eq env w _ _ _ _ _ _ _

theorem withdrawTo_eq (bankTab bankSlot : Nat) (p : Pos) (withdrawCount : UInt32) (i : Nat)
    (bItem : BankItem) :
    w.withdrawTo env bankTab bankSlot p withdrawCount i bItem =
      (w.withdrawToBranch bankTab bankSlot p withdrawCount i bItem).exec env w := by
  unfold withdrawTo withdrawToBranch
  cases w.player.inv.getItemByPos p with
  | none => rfl
  | some it =>
    dsimp only
    cases isItemBankable it with
    | error e => exact send_two w _ _
    | ok u =>
      dsimp only
      by_cases he : it.entry = bItem.itemTemplate ∧ bItem.maxStackSize > 1
      · rw [if_pos he, if_pos he]; rfl
      · rw [if_neg he, if_neg he]; rfl

theorem withdrawItem_eq (msg : Text) :
    w.withdrawItem env msg = (w.withdrawBranch env msg).exec env w := by
  unfold withdrawItem withdrawBranch
  cases withdrawParams msg with
  | none => rfl
  | some q =>
    dsimp only
    by_cases hr : q.bankTab.toNat = 0 ∨ q.bankTab.toNat > maxTabs ∨ q.bankSlot.toNat = 0 ∨
        q.bankSlot.toNat > bankTabSize
    · rw [if_pos hr, if_pos hr]; rfl
    rw [if_neg hr, if_neg hr]
    by_cases ha : (!w.canAccessTab env q.bankTab.toNat .withdrawItem) = true
    · rw [if_pos ha, if_pos ha, sendNoRights_eq]; rfl
    rw [if_neg ha, if_neg ha]
    cases w.bank.findItem q.bankTab.toNat q.bankSlot.toNat with
    | none => rfl
    | some i =>
      dsimp only
      cases w.bank.items[i]? with
      | none => simp [Transfer.exec]
      | some bItem =>
        dsimp only
        split_ifs
        · rfl
        · simp [Transfer.exec]
        · rfl
        · exact withdrawTo_eq env w _ _ _ _ _ _

end World

/-! ## What the checks establish -/

/-- The bank item at `(bankTab, bankSlot)` is `bItem`, at index `i`. -/
def GuildBank.Holds (b : GuildBank) (bankTab bankSlot i : Nat) (bItem : BankItem) : Prop :=
  b.findItem bankTab bankSlot = some i ∧ b.items[i]? = some bItem

theorem GuildBank.Holds.at {b : GuildBank} {bankTab bankSlot i : Nat} {bItem : BankItem}
    (h : b.Holds bankTab bankSlot i bItem) : bItem.tab = bankTab ∧ bItem.slot = bankSlot := by
  obtain ⟨hf, hi⟩ := h
  obtain ⟨hlt, hp, -⟩ := List.findIdx?_eq_some_iff_getElem.mp hf
  rw [List.getElem?_eq_getElem hlt] at hi
  rw [Option.some.inj hi] at hp
  simpa [isAt] using hp

/-- The tab of a command is one the player has passed the check for. -/
structure TabOk (env : Env) (w : World db) (bankTab : Nat) (action : GuildBankAction) : Prop where
  pos : 1 ≤ bankTab
  le : bankTab ≤ maxTabs
  access : w.canAccessTab env bankTab action = true

/-- The facts a branch starts from. -/
def Transfer.Checked (env : Env) (w : World db) : Transfer → Prop
  | reply _ => True
  | free bankTab p =>
    TabOk env w bankTab .depositItem ∧ ∃ it, w.player.inv.getItemByPos p = some it
  | place bankTab bankSlot p count =>
    TabOk env w bankTab .depositItem ∧ 1 ≤ bankSlot ∧ bankSlot ≤ bankTabSize ∧
      w.bank.findItem bankTab bankSlot = none ∧
      ∃ it, w.player.inv.getItemByPos p = some it ∧ count ≤ it.proto.stackable
  | stack bankTab bankSlot p count =>
    TabOk env w bankTab .depositItem ∧ ∃ it i dItem, w.player.inv.getItemByPos p = some it ∧
      w.bank.Holds bankTab bankSlot i dItem ∧ dItem.itemTemplate = it.entry ∧
      dItem.maxStackSize > 1 ∧
      (dItem.count + count ≤ dItem.maxStackSize ∧ count ≤ it.proto.stackable ∨
        count = dItem.maxStackSize - dItem.count)
  | take bankTab bankSlot i bItem p count =>
    (∃ action, (action = .depositItem ∨ action = .withdrawItem) ∧ TabOk env w bankTab action) ∧
      w.bank.Holds bankTab bankSlot i bItem ∧
      ∃ it, w.player.inv.getItemByPos p = some it ∧ it.entry = bItem.itemTemplate ∧
        bItem.maxStackSize > 1 ∧
        ((∃ n, n ≤ bItem.count ∧ count = World.fitCount it n) ∨
          (count ≤ bItem.count ∧ bItem.count = bItem.maxStackSize ∧ count ≠ 0))
  | store bankTab bankSlot i bItem p count =>
    TabOk env w bankTab .withdrawItem ∧ w.bank.Holds bankTab bankSlot i bItem ∧ count ≤ bItem.count ∧
      (p = (nullBag, nullSlot) ∨ w.player.inv.getItemByPos p = none)
  | swap bankTab i p =>
    (∃ action, (action = .depositItem ∨ action = .withdrawItem) ∧ TabOk env w bankTab action) ∧
      (∃ bankSlot bItem, w.bank.Holds bankTab bankSlot i bItem) ∧
      ∃ it, w.player.inv.getItemByPos p = some it

namespace World

variable {env : Env} {w : World db}

theorem overBranch_checked {bankTab bankSlot : Nat} {p : Pos} {it : Item db} {count : UInt32}
    {i : Nat} {dItem : BankItem} (ht : TabOk env w bankTab .depositItem)
    (hp : w.player.inv.getItemByPos p = some it) (hd : w.bank.Holds bankTab bankSlot i dItem)
    (hc : count ≤ it.proto.stackable) :
    (overBranch bankTab bankSlot p it count i dItem).Checked env w := by
  unfold overBranch
  split_ifs with h1 h2 h3 h4
  · trivial
  · exact ⟨ht, it, i, dItem, hp, hd, h2.1, h2.2, .inl ⟨h3, hc⟩⟩
  · have hlt := lt_toNat.mp h4.1
    have heq := eq_toNat.mp h4.2
    have hsub := toNat_sub (a := dItem.maxStackSize) (b := count) (by omega)
    refine ⟨⟨_, .inl rfl, ht⟩, hd, it, hp, h2.1.symm, h2.2, .inr ⟨?_, h4.2, ?_⟩⟩
    · rw [le_toNat]; omega
    · rw [ne_zero_toNat]; omega
  · exact ⟨ht, it, i, dItem, hp, hd, h2.1, h2.2, .inr rfl⟩
  · exact ⟨⟨_, .inl rfl, ht⟩, ⟨bankSlot, dItem, hd⟩, it, hp⟩

theorem depositBranch_checked (msg : Text) : (w.depositBranch env msg).Checked env w := by
  unfold depositBranch
  cases depositParams msg with
  | none => trivial
  | some q =>
    dsimp only
    by_cases hr : q.bankTab.toNat = 0 ∨ q.bankTab.toNat > maxTabs ∨ q.bankSlot.toNat > bankTabSize
    · rw [if_pos hr]; trivial
    rw [if_neg hr]
    by_cases ha : (!w.canAccessTab env q.bankTab.toNat .depositItem) = true
    · rw [if_pos ha]; trivial
    rw [if_neg ha]
    have ht : TabOk env w q.bankTab.toNat .depositItem := ⟨by omega, by omega, by simpa using ha⟩
    cases hp : w.player.inv.getItemByPos q.pos with
    | none => trivial
    | some it =>
      dsimp only
      cases isItemBankable it with
      | error e => trivial
      | ok u =>
        dsimp only
        by_cases hc : q.count.toUInt32 > it.proto.stackable
        · rw [if_pos hc]; trivial
        rw [if_neg hc]
        have hc' : q.count.toUInt32 ≤ it.proto.stackable := by simpa using hc
        by_cases hs : q.bankSlot.toNat = 0
        · rw [if_pos hs]; exact ⟨ht, it, hp⟩
        rw [if_neg hs]
        cases hf : w.bank.findItem q.bankTab.toNat q.bankSlot.toNat with
        | none => exact ⟨ht, by omega, by omega, hf, it, hp, hc'⟩
        | some i =>
          dsimp only
          cases hi : w.bank.items[i]? with
          | none => trivial
          | some dItem => exact overBranch_checked ht hp ⟨hf, hi⟩ hc'

theorem withdrawToBranch_checked {bankTab bankSlot : Nat} {p : Pos} {count : UInt32} {i : Nat}
    {bItem : BankItem} (ht : TabOk env w bankTab .withdrawItem)
    (hb : w.bank.Holds bankTab bankSlot i bItem) (hc : count ≤ bItem.count) :
    (w.withdrawToBranch bankTab bankSlot p count i bItem).Checked env w := by
  unfold withdrawToBranch
  split
  · rename_i hp
    exact ⟨ht, hb, hc, .inr hp⟩
  rename_i it hp
  split
  · trivial
  split_ifs with he
  · exact ⟨⟨_, .inr rfl, ht⟩, hb, it, hp, he.1, he.2, .inl ⟨count, hc, rfl⟩⟩
  · exact ⟨⟨_, .inr rfl, ht⟩, ⟨bankSlot, bItem, hb⟩, it, hp⟩

theorem withdrawBranch_checked (msg : Text) : (w.withdrawBranch env msg).Checked env w := by
  unfold withdrawBranch
  cases withdrawParams msg with
  | none => trivial
  | some q =>
    dsimp only
    by_cases hr : q.bankTab.toNat = 0 ∨ q.bankTab.toNat > maxTabs ∨ q.bankSlot.toNat = 0 ∨
        q.bankSlot.toNat > bankTabSize
    · rw [if_pos hr]; trivial
    rw [if_neg hr]
    by_cases ha : (!w.canAccessTab env q.bankTab.toNat .withdrawItem) = true
    · rw [if_pos ha]; trivial
    rw [if_neg ha]
    have ht : TabOk env w q.bankTab.toNat .withdrawItem := ⟨by omega, by omega, by simpa using ha⟩
    cases hf : w.bank.findItem q.bankTab.toNat q.bankSlot.toNat with
    | none => trivial
    | some i =>
      dsimp only
      cases hi : w.bank.items[i]? with
      | none => trivial
      | some bItem =>
        dsimp only
        split_ifs with hc hn he
        · trivial
        · exact ⟨ht, ⟨hf, hi⟩, UInt32.le_refl _, .inl rfl⟩
        · trivial
        · exact withdrawToBranch_checked ht ⟨hf, hi⟩ (by simpa using hc)

/-! ## Moves and splits -/

/-- Two different slots of a tab the player has passed the check for. -/
structure SlotsOk (env : Env) (w : World db) (bankTab fromSlot toSlot : Nat)
    (action : GuildBankAction) : Prop extends TabOk env w bankTab action where
  ne : fromSlot ≠ toSlot
  from_range : 1 ≤ fromSlot ∧ fromSlot ≤ bankTabSize
  to_range : 1 ≤ toSlot ∧ toSlot ≤ bankTabSize

theorem SlotsOk.not_outOfRange {env : Env} {w : World db} {bankTab fromSlot toSlot : Nat}
    {action : GuildBankAction} (h : SlotsOk env w bankTab fromSlot toSlot action) :
    ¬ (bankTab = 0 ∨ bankTab > maxTabs ∨ fromSlot = 0 ∨ fromSlot > bankTabSize ∨ toSlot = 0 ∨
      toSlot > bankTabSize) := by
  have h1 := h.pos
  have h2 := h.le
  have h3 := h.from_range
  have h4 := h.to_range
  omega

theorem holds_of_findItem {b : GuildBank} {bankTab bankSlot i : Nat}
    (h : b.findItem bankTab bankSlot = some i) : ∃ it, b.Holds bankTab bankSlot i it := by
  obtain ⟨hlt, -⟩ := List.findIdx?_eq_some_iff_getElem.mp h
  exact ⟨b.items[i], h, List.getElem?_eq_getElem hlt⟩

theorem forall_some {α : Type} {P : Prop} {Q : α → Prop} {a : α} (hp : P) (hq : ¬ Q a) :
    P ∧ ∀ b, some a = some b → ¬ Q b :=
  ⟨hp, fun _ hb => Option.some.inj hb ▸ hq⟩

/-- A `MoveItem` message is answered without effect, moves an item to a free slot, or moves it over
another item. -/
theorem moveItem_cases (env : Env) (w : World db) (msg : Text) :
    ((∃ rs, w.moveItem env msg = { w with sent := w.sent ++ rs }) ∧
      ∀ q, moveParams msg = some q →
        ¬ (SlotsOk env w q.bankTab.toNat q.fromSlot.toNat q.toSlot.toNat .moveItem ∧
          ∃ i sItem, w.bank.Holds q.bankTab.toNat q.fromSlot.toNat i sItem)) ∨
    ∃ q i sItem, moveParams msg = some q ∧
      SlotsOk env w q.bankTab.toNat q.fromSlot.toNat q.toSlot.toNat .moveItem ∧
      w.bank.Holds q.bankTab.toNat q.fromSlot.toNat i sItem ∧
      ((w.bank.findItem q.bankTab.toNat q.toSlot.toNat = none ∧ ∃ text, w.moveItem env msg =
          (w.setBank ((w.bank.setItem i
            { sItem with slot := q.toSlot.toNat, state := .changed }).enqueue
            { sItem with slot := q.toSlot.toNat, state := .changed })).sendGuildMessage text) ∨
        ∃ j dItem, w.bank.Holds q.bankTab.toNat q.toSlot.toNat j dItem ∧
          w.moveItem env msg =
            w.moveOver q.bankTab.toNat q.fromSlot.toNat q.toSlot.toNat i j sItem dItem) := by
  unfold moveItem
  cases hq : moveParams msg with
  | none => exact .inl ⟨⟨_, rfl⟩, nofun⟩
  | some q =>
    dsimp only
    by_cases ha : (!w.canAccessTab env q.bankTab.toNat .moveItem) = true
    · rw [if_pos ha, sendNoRights_eq]
      exact .inl (forall_some ⟨_, rfl⟩ fun h => by simp [h.1.access] at ha)
    rw [if_neg ha]
    by_cases hne : q.fromSlot.toNat = q.toSlot.toNat
    · rw [if_pos hne]
      exact .inl (forall_some ⟨_, rfl⟩ fun h => h.1.ne hne)
    rw [if_neg hne]
    by_cases hr : q.bankTab.toNat = 0 ∨ q.bankTab.toNat > maxTabs ∨ q.fromSlot.toNat = 0 ∨
        q.fromSlot.toNat > bankTabSize ∨ q.toSlot.toNat = 0 ∨ q.toSlot.toNat > bankTabSize
    · rw [if_pos hr]
      exact .inl (forall_some ⟨_, rfl⟩ fun h => h.1.not_outOfRange hr)
    rw [if_neg hr]
    have hok : SlotsOk env w q.bankTab.toNat q.fromSlot.toNat q.toSlot.toNat .moveItem :=
      ⟨⟨by omega, by omega, by simpa using ha⟩, hne, by omega, by omega⟩
    cases hf : w.bank.findItem q.bankTab.toNat q.fromSlot.toNat with
    | none =>
      refine .inl (forall_some ⟨_, rfl⟩ ?_)
      rintro ⟨-, i, sItem, hs⟩
      exact nomatch hf.symm.trans hs.1
    | some i =>
      obtain ⟨sItem, hs⟩ := holds_of_findItem hf
      refine .inr ⟨q, i, sItem, rfl, hok, hs, ?_⟩
      dsimp only
      rw [hs.2]
      cases ht : w.bank.findItem q.bankTab.toNat q.toSlot.toNat with
      | none => exact .inl ⟨rfl, _, rfl⟩
      | some j =>
        obtain ⟨dItem, hd⟩ := holds_of_findItem ht
        refine .inr ⟨j, dItem, hd, ?_⟩
        dsimp only
        rw [hd.2]

/-- A `SplitItem` message is answered without effect, or its checks are passed and the destination is
free or occupied. -/
theorem splitItem_cases (env : Env) (w : World db) (msg : Text) :
    ((∃ rs, w.splitItem env msg = { w with sent := w.sent ++ rs }) ∧
      ∀ q, splitParams msg = some q →
        ¬ (SlotsOk env w q.bankTab.toNat q.fromSlot.toNat q.toSlot.toNat .splitItem ∧
          ∃ i sItem, w.bank.Holds q.bankTab.toNat q.fromSlot.toNat i sItem)) ∨
    ∃ q i sItem, splitParams msg = some q ∧
      SlotsOk env w q.bankTab.toNat q.fromSlot.toNat q.toSlot.toNat .splitItem ∧
      w.bank.Holds q.bankTab.toNat q.fromSlot.toNat i sItem ∧
      ((w.bank.findItem q.bankTab.toNat q.toSlot.toNat = none ∧
          w.splitItem env msg = w.splitToEmpty q.toSlot.toNat q.split.toUInt32 i sItem) ∨
        ∃ j dItem, w.bank.Holds q.bankTab.toNat q.toSlot.toNat j dItem ∧
          w.splitItem env msg = w.splitOver q.split.toUInt32 i j sItem dItem) := by
  unfold splitItem
  cases hq : splitParams msg with
  | none => exact .inl ⟨⟨_, rfl⟩, nofun⟩
  | some q =>
    dsimp only
    by_cases ha : (!w.canAccessTab env q.bankTab.toNat .splitItem) = true
    · rw [if_pos ha, sendNoRights_eq]
      exact .inl (forall_some ⟨_, rfl⟩ fun h => by simp [h.1.access] at ha)
    rw [if_neg ha]
    by_cases hne : q.fromSlot.toNat = q.toSlot.toNat
    · rw [if_pos hne]
      exact .inl (forall_some ⟨_, rfl⟩ fun h => h.1.ne hne)
    rw [if_neg hne]
    by_cases hr : q.bankTab.toNat = 0 ∨ q.bankTab.toNat > maxTabs ∨ q.fromSlot.toNat = 0 ∨
        q.fromSlot.toNat > bankTabSize ∨ q.toSlot.toNat = 0 ∨ q.toSlot.toNat > bankTabSize
    · rw [if_pos hr]
      exact .inl (forall_some ⟨_, rfl⟩ fun h => h.1.not_outOfRange hr)
    rw [if_neg hr]
    have hok : SlotsOk env w q.bankTab.toNat q.fromSlot.toNat q.toSlot.toNat .splitItem :=
      ⟨⟨by omega, by omega, by simpa using ha⟩, hne, by omega, by omega⟩
    cases hf : w.bank.findItem q.bankTab.toNat q.fromSlot.toNat with
    | none =>
      refine .inl (forall_some ⟨[], by simp⟩ ?_)
      rintro ⟨-, i, sItem, hs⟩
      exact nomatch hf.symm.trans hs.1
    | some i =>
      obtain ⟨sItem, hs⟩ := holds_of_findItem hf
      refine .inr ⟨q, i, sItem, rfl, hok, hs, ?_⟩
      dsimp only
      rw [hs.2]
      cases ht : w.bank.findItem q.bankTab.toNat q.toSlot.toNat with
      | none => exact .inl ⟨rfl, rfl⟩
      | some j =>
        obtain ⟨dItem, hd⟩ := holds_of_findItem ht
        refine .inr ⟨j, dItem, hd, ?_⟩
        dsimp only
        rw [hd.2]

end World

end Windrunner
