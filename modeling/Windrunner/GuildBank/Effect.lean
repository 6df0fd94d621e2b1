import Mathlib.Algebra.BigOperators.Group.Finset.Piecewise
import Mathlib.Algebra.Order.BigOperators.Group.Finset
import Mathlib.Order.Interval.Finset.Nat
import Windrunner.GuildBank.Commands
import Windrunner.GuildBank.Edit
import Windrunner.GuildBank.Swap

/-!
# Every command edits

Each command of `handleAddonMessages` takes a world to one that is `Edited` from it. Deposits,
withdrawals, moves and splits are followed branch by branch; the other commands touch the vault only
by saving. `Changes`, `MoveChanges` and `SplitChanges` say which items a branch queues as changed.
-/

namespace Windrunner

open Lib

variable {db : ItemDb}

/-! ## The items a deposit reaches -/

namespace GuildBank

variable {b : GuildBank} {bankTab bankSlot slot i : Nat} {x y : BankItem}

theorem Holds.getItem (h : b.Holds bankTab bankSlot i y) : b.getItem bankTab bankSlot = some y := by
  obtain ⟨hlt, hp, hmin⟩ := List.findIdx?_eq_some_iff_getElem.mp h.1
  have hy : b.items[i] = y := (List.getElem?_eq_some_iff.mp h.2).2
  exact List.find?_eq_some_iff_getElem.mpr ⟨hy ▸ hp, i, hlt, hy, fun j hj => by simpa using hmin j hj⟩

theorem getItem_of_findItem (h : b.findItem bankTab bankSlot = none) :
    b.getItem bankTab bankSlot = none :=
  List.find?_eq_none.mpr fun y hy => by simpa using List.findIdx?_eq_none_iff.mp h y hy

/-- `GetItem` after an item is written in its slot. -/
theorem getItem_setItem (hd : b.Holds bankTab bankSlot i y) (ht : x.tab = y.tab) (hs : x.slot = y.slot)
    (slot : Nat) : (b.setItem i x).getItem bankTab slot =
      if slot = bankSlot then some x else b.getItem bankTab slot := by
  obtain ⟨hyt, hys⟩ := hd.at
  split_ifs with h
  · subst h
    obtain ⟨hlt, -, hmin⟩ := List.findIdx?_eq_some_iff_getElem.mp hd.1
    refine List.find?_eq_some_iff_getElem.mpr ⟨by simp [isAt, ht, hs, hyt, hys], i, ?_, ?_, ?_⟩
    · rw [setItem, List.length_set]; exact hlt
    · exact List.getElem_set_self ..
    · intro j hj
      simp only [setItem, List.getElem_set_ne (Nat.ne_of_gt hj)]
      simpa using hmin j hj
  · unfold getItem setItem
    rw [← List.head?_filter, ← List.head?_filter, filter_set_of_not hd.2]
    · simp [isAt, hys, Ne.symm h]
    · simp [isAt, hs, hys, Ne.symm h]

/-- The units of a template that the stack in a slot still takes. -/
def room (b : GuildBank) (bankTab entry slot : Nat) : Nat :=
  match b.getItem bankTab slot with
  | some y =>
    if y.itemTemplate = entry ∧ y.count < y.maxStackSize then y.maxStackSize.toNat - y.count.toNat
    else 0
  | none => 0

/-- A deposit that may go to any slot comes to the stack with the guid: it has room, and the stacks
before it do not take the whole item. -/
def Reaches (b : GuildBank) (bankTab : Nat) (it : Item db) (guid : UInt32) : Prop :=
  ∃ slot ∈ List.range' 1 bankTabSize, ∃ y, b.getItem bankTab slot = some y ∧ y.guid = guid ∧
    0 < b.room bankTab it.entry slot ∧
    (∑ s ∈ Finset.Ico 1 slot, b.room bankTab it.entry s = 0 ∨
      ∑ s ∈ Finset.Ico 1 slot, b.room bankTab it.entry s < it.count.toNat)

instance (b : GuildBank) (bankTab : Nat) (it : Item db) (guid : UInt32) :
    Decidable (b.Reaches bankTab it guid) := by
  unfold Reaches
  infer_instance

end GuildBank

namespace World

variable {env : Env} {w : World db} {c : Terms} {p : Pos} {it : Item db} {count remainer : UInt32}
  {i j : Nat}

/-! ## Saving and logging -/

theorem commit_items (b : GuildBank) (t : Tables) :
    (b.commit t).items = (b.itemUpdateQueue.foldlM writeItem t.items).getD t.items := by
  unfold GuildBank.commit
  dsimp only
  cases b.itemUpdateQueue.foldlM writeItem t.items <;> rfl

theorem saveToDB_vault (h : w.bank.saveLock = false) : w.saveToDB.vault = w.vault.flush := by
  unfold saveToDB
  rw [h, if_neg Bool.false_ne_true]
  by_cases hq : w.bank.itemUpdateQueue = []
  · -- without queued items a save leaves items and rows alone
    have hflush : w.vault.flush = w.vault := if_pos hq
    rw [hflush]
    split_ifs
    · rfl
    · simp [vault, GuildBank.saved, commit_items, hq]
  · have hdirty : w.bank.dirty = true := by simp [GuildBank.dirty, hq]
    rw [hdirty, if_neg (by decide)]
    simp [vault, GuildBank.saved, commit_items, Vault.flush, hq]

/-- The updates of money and tabs name the bank. -/
theorem commit_others (b : GuildBank) (t : Tables) :
    ((b.commit t).money.filter fun r => ¬ (r.guildid = b.guildid ∧ r.isInferno = b.infernoBank)) =
        (t.money.filter fun r => ¬ (r.guildid = b.guildid ∧ r.isInferno = b.infernoBank)) ∧
      ((b.commit t).tabs.filter fun r => ¬ (r.guildid = b.guildid ∧ r.isInferno = b.infernoBank)) =
        t.tabs.filter fun r => ¬ (r.guildid = b.guildid ∧ r.isInferno = b.infernoBank) := by
  have hcommit : (b.commit t).money = (if b.moneyChanged then b.saveMoney t.money else t.money) ∧
      (b.commit t).tabs = if b.tabsChanged then b.saveTabs t.tabs else t.tabs := by
    unfold GuildBank.commit
    dsimp only
    cases b.itemUpdateQueue.foldlM writeItem t.items <;> exact ⟨rfl, rfl⟩
  rw [hcommit.1, hcommit.2]
  constructor
  · split_ifs
    · refine filter_map_other fun r _ => ?_
      split_ifs with h
      · exact .inl ⟨h, h⟩
      · exact .inr rfl
    · rfl
  · split_ifs
    · refine filter_map_other fun r _ => ?_
      split_ifs with h
      · exact .inl ⟨h, h⟩
      · exact .inr rfl
    · rfl

theorem saveToDB_frame : w.saveToDB.frame = w.frame := by
  unfold saveToDB
  split_ifs
  · rfl
  · rfl
  · obtain ⟨hm, ht⟩ := commit_others w.bank w.tables
    have hf : ({ w with bank := w.bank.saved, tables := w.bank.commit w.tables } : World db).frame =
        { w.frame with
          otherMoney := (w.bank.commit w.tables).money.filter fun r =>
            ¬ (r.guildid = w.bank.guildid ∧ r.isInferno = w.bank.infernoBank)
          otherTabs := (w.bank.commit w.tables).tabs.filter fun r =>
            ¬ (r.guildid = w.bank.guildid ∧ r.isInferno = w.bank.infernoBank) } := rfl
    rw [hf, hm, ht]
    rfl

theorem saveToDB_edited : Edited c w w.saveToDB := by
  by_cases h : w.bank.saveLock = true
  · have hs : w.saveToDB = w := if_pos h
    rw [hs]
    exact .same rfl rfl
  · refine .one ?_ saveToDB_frame
    rw [saveToDB_vault (by simpa using h)]
    exact .flush

theorem saveToDB_guids : w.saveToDB.bank.items.map (·.guid) = w.bank.items.map (·.guid) := by
  by_cases h : w.bank.saveLock = true
  · rw [show w.saveToDB = w from if_pos h]
  · rw [show w.saveToDB.bank.items = w.vault.flush.items from
      congrArg Vault.items (saveToDB_vault (by simpa using h))]
    exact Vault.flush_map fun _ => rfl

@[simp] theorem logAction_vault {action : GuildBankAction} {tab itemID : Nat}
    {bItem : Option BankItem} : (w.logAction env action tab itemID count bItem).vault = w.vault := by
  unfold logAction; split_ifs <;> rfl

@[simp] theorem logAction_frame {action : GuildBankAction} {tab itemID : Nat}
    {bItem : Option BankItem} : (w.logAction env action tab itemID count bItem).frame = w.frame := by
  unfold logAction; split_ifs <;> rfl

@[simp] theorem sendTabWithdrawalsLeft_vault {tab : Nat} :
    (w.sendTabWithdrawalsLeft env tab).vault = w.vault := by
  unfold vault; simp

@[simp] theorem sendTabWithdrawalsLeft_frame {tab : Nat} :
    (w.sendTabWithdrawalsLeft env tab).frame = w.frame := by
  unfold frame; simp

theorem reply_edited (rs : List Reply) : Edited c w { w with sent := w.sent ++ rs } := .same rfl rfl

/-! ## Deposits -/

theorem finishDeposit_edited : Edited c w (w.finishDeposit env i count) := by
  unfold finishDeposit
  cases w.bank.items[i]? with
  | none => exact .same rfl rfl
  | some bItem =>
    refine .trans ?_ saveToDB_edited
    exact .same (logAction_vault.trans rfl) (logAction_frame.trans rfl)

theorem finishDeposit_guids :
    (w.finishDeposit env i count).bank.items.map (·.guid) = w.bank.items.map (·.guid) := by
  unfold finishDeposit
  cases w.bank.items[i]? with
  | none => rfl
  | some bItem => rw [saveToDB_guids, logAction_items]; rfl

theorem payOut_vault : (w.payOut p it count remainer).vault = w.vault := by
  unfold payOut; split_ifs <;> rfl

theorem payOut_frame : (w.payOut p it count remainer).frame = w.frame := by
  unfold payOut; split_ifs <;> rfl

section Deposit

variable {bankTab bankSlot : Nat} {dItem : BankItem} {bank : GuildBank} {stack : Bool}

theorem free_of_findItem (h : w.bank.findItem bankTab bankSlot = none) :
    w.vault.Free bankTab bankSlot := by
  intro y hy hat
  have := List.findIdx?_eq_none_iff.mp h y hy
  simp [GuildBank.isAt, hat.1, hat.2] at this

theorem depositNew_edited (hm : Mint c w) (hf : Fit c w) (ht : w.MayUse bankTab)
    (hs : 1 ≤ bankSlot ∧ bankSlot ≤ bankTabSize) (hfree : w.bank.findItem bankTab bankSlot = none)
    (hbank : bank = (w.bank.enqueue (newBankItem w.bank bankTab bankSlot it count)).addItem
      (newBankItem w.bank bankTab bankSlot it count)) :
    Edited c w ((w.setBank bank).payOut p it count remainer) := by
  have hv : ((w.setBank bank).payOut p it count remainer).vault =
      w.vault.append (newBankItem w.bank bankTab bankSlot it count) := by
    rw [payOut_vault, hbank]; rfl
  refine .one ?_ (by rw [payOut_frame, hbank]; rfl)
  rw [hv]
  refine .add ⟨ht.1, ht.2.1⟩ hs (hf.tab _ ht) (free_of_findItem hfree) hm.guid hm.fresh
    (fun _ => ⟨rfl, rfl⟩) (fun _ proto hget => ?_) rfl hm.mints
  have hget : db.get it.proto.itemId = some proto := hget
  rw [it.isProto] at hget
  rw [← Option.some.inj hget]
  rfl

/-- A deposit over a bank item writes it in place. -/
theorem depositOver_edited (hf : Fit c w) (ht : w.MayUse bankTab)
    (hd : w.bank.Holds bankTab bankSlot i dItem) (hc : c.changed dItem.guid)
    (hbank : bank = (w.bank.setItem i (overBankItem w.bank dItem it count .changed stack)).enqueue
      (overBankItem w.bank dItem it count .changed stack)) :
    Edited c w ((w.setBank bank).payOut p it count remainer) := by
  have hv : ((w.setBank bank).payOut p it count remainer).vault =
      w.vault.put i (overBankItem w.bank dItem it count .changed stack) := by
    rw [payOut_vault, hbank]; rfl
  refine .one ?_ (by rw [payOut_frame, hbank]; rfl)
  rw [hv]
  refine .set hd.2 (by rw [hd.at.1]; exact hf.tab _ ht) ⟨rfl, rfl, rfl, rfl, rfl, fun _ =>
    typed_overBankItem⟩ (fun hg => ⟨?_, rfl⟩) hc
  exact (hf.tagged hg dItem hd.mem).1

theorem place_edited {again : World db → World db} (hm : Mint c w) (hf : Fit c w)
    (ht : w.MayUse bankTab) (hs : 1 ≤ bankSlot ∧ bankSlot ≤ bankTabSize)
    (hfree : w.bank.findItem bankTab bankSlot = none) (hp : w.player.inv.getItemByPos p = some it) :
    Edited c w (w.depositItemInSlot env again bankTab bankSlot p count 0 .new false) := by
  obtain ⟨bank, hdep, hbank, -⟩ := w.depositToBank_new bankTab bankSlot it count false
  rw [depositItemInSlot_eq hp hdep, if_pos rfl]
  exact (depositNew_edited hm hf ht hs hfree hbank).trans finishDeposit_edited

theorem stack_edited {again : World db → World db} (hf : Fit c w) (ht : w.MayUse bankTab)
    (hd : w.bank.Holds bankTab bankSlot i dItem) (hp : w.player.inv.getItemByPos p = some it)
    (hc : c.changed dItem.guid) :
    Edited c w (w.depositItemInSlot env again bankTab bankSlot p count 0 .changed stack) := by
  obtain ⟨bank, hdep, hbank, -⟩ := depositToBank_over it count stack hd
  rw [depositItemInSlot_eq hp hdep, if_pos rfl]
  exact (depositOver_edited hf ht hd hc hbank).trans finishDeposit_edited

theorem room_of_partial {b : GuildBank} {slot : Nat} {y : BankItem} {entry : Nat}
    (hy : b.getItem bankTab slot = some y) (he : y.itemTemplate = entry)
    (hlt : y.count < y.maxStackSize) :
    b.room bankTab entry slot = y.maxStackSize.toNat - y.count.toNat := by
  unfold GuildBank.room
  rw [hy]
  exact if_pos ⟨he, hlt⟩

/-- The first stack with room is reached. -/
theorem reaches_of_partialStack {b : GuildBank} {slot : Nat} {bItem : BankItem}
    (h : partialStack b bankTab it.entry = some (slot, bItem)) : b.Reaches bankTab it bItem.guid := by
  obtain ⟨hr, ⟨i, hd⟩, he, hlt⟩ := partialStack_some h
  have hroom := room_of_partial hd.getItem he hlt
  have hlt := lt_toNat.mp hlt
  refine ⟨slot, List.mem_range'_1.mpr (by omega), bItem, hd.getItem, rfl, by omega, .inl ?_⟩
  obtain ⟨l, a, l', hrange, ha, hnone⟩ := List.findSome?_eq_some_iff.mp h
  have hsa : a = slot := by
    split at ha
    · split_ifs at ha
      exact congrArg Prod.fst (Option.some.inj ha)
    · cases ha
  subst hsa
  refine Finset.sum_eq_zero fun s hs => ?_
  have hs := Finset.mem_Ico.mp hs
  -- the slots before it come first in the search
  have hmem : s ∈ l ++ a :: l' := by
    rw [← hrange]
    exact List.mem_range'_1.mpr (by omega)
  have hsorted : (l ++ a :: l').Pairwise (· < ·) := by
    rw [← hrange]
    exact List.pairwise_lt_range'
  have hl : s ∈ l := by
    obtain hl | hl := List.mem_append.mp hmem
    · exact hl
    obtain rfl | hl := List.mem_cons.mp hl
    · exact absurd hs.2 (Nat.lt_irrefl _)
    · have := List.rel_of_pairwise_cons (List.pairwise_append.mp hsorted).2.1 hl
      omega
  have hs := hnone s hl
  unfold GuildBank.room
  cases hy : b.getItem bankTab s with
  | none => rfl
  | some y =>
    rw [hy] at hs
    dsimp only at hs
    split_ifs at hs with hc
    exact if_neg hc

/-- The items the search for room writes. -/
def Searched (w : World db) (bankTab : Nat) (p : Pos) (guid : UInt32) : Prop :=
  ∃ it, w.player.inv.getItemByPos p = some it ∧ it.proto.stackable > 1 ∧
    w.bank.Reaches bankTab it guid

instance (w : World db) (bankTab : Nat) (p : Pos) (guid : UInt32) :
    Decidable (w.Searched bankTab p guid) := by
  unfold Searched
  infer_instance

/-- What is reached with the rest, once a stack is filled up, is reached. -/
theorem reaches_of_fill {slot : Nat} {bItem : BankItem} {guid : UInt32} (hT : w.bank.Typed db)
    (hd : w.bank.Holds bankTab slot i bItem) (he : bItem.itemTemplate = it.entry)
    (hlt : bItem.count < bItem.maxStackSize) (hn : ¬ it.count + bItem.count ≤ bItem.maxStackSize)
    (hbank : bank = (w.bank.setItem i (overBankItem w.bank bItem it
      (bItem.maxStackSize - bItem.count) .changed true)).enqueue (overBankItem w.bank bItem it
      (bItem.maxStackSize - bItem.count) .changed true))
    (h : bank.Reaches bankTab { it with count := it.count - (bItem.maxStackSize - bItem.count) } guid) :
    w.bank.Reaches bankTab it guid := by
  obtain ⟨h1, h2, h3, h4⟩ := room_lt hlt hn
  have hsub := toNat_sub (Nat.le_of_lt h3)
  have hroom := room_of_partial hd.getItem he hlt
  let x := overBankItem w.bank bItem it (bItem.maxStackSize - bItem.count) .changed true
  have hget : ∀ s, bank.getItem bankTab s = if s = slot then some x else w.bank.getItem bankTab s := by
    intro s
    rw [hbank]
    exact GuildBank.getItem_setItem (x := x) hd rfl rfl s
  -- the stack that was filled up has no room
  have hfull : ¬ x.count < x.maxStackSize := by
    have hmax : x.maxStackSize = bItem.maxStackSize := by
      refine (hT bItem hd.mem it.proto ?_).symm
      rw [he]
      exact it.isProto
    have hcount : x.count = bItem.count + (bItem.maxStackSize - bItem.count) := rfl
    rw [hmax, hcount, lt_toNat, toNat_add (by omega)]
    omega
  have hother : ∀ s, bank.room bankTab it.entry s =
      if s = slot then 0 else w.bank.room bankTab it.entry s := by
    intro s
    unfold GuildBank.room
    rw [hget s]
    split_ifs with hs
    · exact if_neg fun hc => hfull hc.2
    · rfl
  obtain ⟨s, hs, y, hy, hg, hpos, hsum⟩ := h
  have hpos : 0 < bank.room bankTab it.entry s := hpos
  have hne : s ≠ slot := by
    rintro rfl
    rw [hother s, if_pos rfl] at hpos
    exact absurd hpos (Nat.lt_irrefl 0)
  rw [hother s, if_neg hne] at hpos
  rw [hget s, if_neg hne] at hy
  refine ⟨s, hs, y, hy, hg, hpos, .inr ?_⟩
  have hle : ∑ t ∈ Finset.Ico 1 s, w.bank.room bankTab it.entry t ≤
      ∑ t ∈ Finset.Ico 1 s, bank.room bankTab it.entry t + w.bank.room bankTab it.entry slot := by
    calc ∑ t ∈ Finset.Ico 1 s, w.bank.room bankTab it.entry t
        = ∑ t ∈ Finset.Ico 1 s, (bank.room bankTab it.entry t +
            if t = slot then w.bank.room bankTab it.entry slot else 0) := by
          refine Finset.sum_congr rfl fun t _ => ?_
          rw [hother t]
          split_ifs with ht
          · rw [ht, Nat.zero_add]
          · rw [Nat.add_zero]
      _ ≤ _ := by
          rw [Finset.sum_add_distrib, Finset.sum_ite_eq']
          split_ifs <;> omega
  have hsum : ∑ t ∈ Finset.Ico 1 s, bank.room bankTab it.entry t = 0 ∨
      ∑ t ∈ Finset.Ico 1 s, bank.room bankTab it.entry t <
        (it.count - (bItem.maxStackSize - bItem.count)).toNat := hsum
  omega

theorem freeSlotN_edited {n : Nat} (hm : Mint c w) (hf : Fit c w) (ht : w.MayUse bankTab)
    (hc : ∀ g, (w.bank.Typed db → w.Searched bankTab p g) → c.changed g) :
    Edited c w (depositItemInFreeSlotN env bankTab p n w) := by
  induction n generalizing w with
  | zero => exact .same rfl rfl
  | succ n ih =>
    unfold depositItemInFreeSlotN
    cases hp : w.player.inv.getItemByPos p with
    | none => exact .same rfl rfl
    | some it =>
      dsimp only
      cases hps : (if it.proto.stackable > 1 then partialStack w.bank bankTab it.entry else none) with
      | none =>
        dsimp only
        cases hfs : freeSlot w.bank bankTab with
        | none => exact .same rfl rfl
        | some slot =>
          obtain ⟨hs, hfree⟩ := freeSlot_some hfs
          exact place_edited hm hf ht hs hfree hp
      | some x =>
        obtain ⟨slot, bItem⟩ := x
        obtain ⟨hst, hps⟩ := partialStack_if hps
        obtain ⟨-, ⟨i, hd⟩, he, hlt⟩ := partialStack_some hps
        have hch : c.changed bItem.guid := hc _ fun _ => ⟨it, hp, hst, reaches_of_partialStack hps⟩
        dsimp only
        split_ifs with hall
        · exact stack_edited hf ht hd hp hch
        · obtain ⟨bank, hdep, hbank, -⟩ :=
            depositToBank_over it (bItem.maxStackSize - bItem.count) true hd
          rw [depositItemInSlot_eq hp hdep]
          have hover : Edited c w ((w.setBank bank).payOut p it (bItem.maxStackSize - bItem.count)
              (it.count - (bItem.maxStackSize - bItem.count))) := depositOver_edited hf ht hd hch hbank
          refine .trans ?_ finishDeposit_edited
          split_ifs with hr
          · exact hover
          · refine hover.trans (ih ?_ (hf.edited hover) ((mayUse_congr hover.frame _).mpr ht) ?_)
            · refine hm.congr ?_
              rw [payOut_bank, setBank_bank, hbank]
              exact map_set_key hd.2 rfl
            · -- the search goes on with the rest, over stacks that the whole item reaches
              refine fun g hg => hc g fun hT => ?_
              obtain ⟨_, w', hdep', rfl, -, hT', -, hp'⟩ := fill_step hT hp hd he hlt hall
              obtain ⟨-, rfl⟩ := Prod.mk.inj (Option.some.inj (hdep.symm.trans hdep'))
              obtain ⟨it', hit', -, hreach⟩ := hg hT'
              rw [hp'] at hit'
              rw [← Option.some.inj hit', payOut_bank, setBank_bank] at hreach
              exact ⟨it, hp, hst, reaches_of_fill hT hd he hlt hall hbank hreach⟩

end Deposit

/-! ## Withdrawals -/

section Withdraw

variable {bankTab bankSlot : Nat} {bItem : BankItem} {ref : Option Nat} {rest : UInt32} {swap : Bool}

theorem finishWithdraw_frame :
    (w.finishWithdraw env bankTab count bItem ref).frame = w.frame := by
  unfold finishWithdraw
  dsimp only
  rw [sendTabWithdrawalsLeft_frame]
  split_ifs
  · cases ref <;> exact logAction_frame
  · exact logAction_frame

theorem finishWithdraw_vault :
    (w.finishWithdraw env bankTab count bItem ref).vault =
      { w.vault with items :=
          if bItem.state = .removed then (deleteRef w.bank ref).items else w.bank.items } := by
  unfold finishWithdraw
  dsimp only
  rw [sendTabWithdrawalsLeft_vault]
  obtain ⟨log, moneyLog, logChanged, moneyLogChanged, hlog⟩ :=
    @logAction_bank db env w .withdrawItem bItem.tab bItem.itemTemplate count (some bItem)
  split_ifs
  · unfold vault
    rw [setBank_bank, setBank_tables, logAction_tables, hlog]
    cases ref <;> rfl
  · exact logAction_vault

/-- What a withdrawal does to the item at `i`: deleted, or written with the rest. -/
theorem takeFrom_edited (hf : Fit c w) (ht : w.MayUse bankTab)
    (hd : w.bank.Holds bankTab bankSlot i bItem) (hc : remainer ≠ 0 → c.changed bItem.guid) :
    Edited c w (finishWithdraw env
      (w.setBank ((putRef w.bank (some i) (takeFrom bItem remainer rest)).enqueue
        (takeFrom bItem remainer rest))) bankTab count (takeFrom bItem remainer rest) (some i)) := by
  refine .one ?_ (by rw [finishWithdraw_frame]; rfl)
  rw [finishWithdraw_vault]
  have htab : c.tab bItem.tab := by rw [hd.at.1]; exact hf.tab _ ht
  by_cases hr : remainer = 0
  · have hx : takeFrom bItem remainer rest = { bItem with state := .removed } := if_pos hr
    rw [hx, if_pos rfl]
    -- the item that was marked is the one that goes
    have hv : (deleteRef ((putRef w.bank (some i) { bItem with state := .removed }).enqueue
        { bItem with state := .removed }) (some i)).items = w.bank.items.eraseIdx i :=
      List.eraseIdx_set_eq
    rw [setBank_bank, hv]
    exact .drop hd.2 htab
  · have hx : takeFrom bItem remainer rest = { bItem with count := rest, state := .changed } :=
      if_neg hr
    rw [hx, if_neg nofun]
    refine Edit.set hd.2 htab ⟨rfl, rfl, rfl, rfl, rfl, fun h => h⟩ (fun hg => ?_) (hc hr)
    exact hf.tagged hg bItem hd.mem

theorem SameBank.edited {w' : World db} (h : w.SameBank w') : Edited c w w' := by
  refine .same ?_ ?_
  · unfold vault; rw [h.bank, h.tables]
  · unfold frame; rw [h.bank, h.rank, h.tables]

theorem SameBank.takeFrom_edited {w' : World db} (h : w.SameBank w') (hf : Fit c w)
    (ht : w.MayUse bankTab) (hd : w.bank.Holds bankTab bankSlot i bItem)
    (hc : remainer ≠ 0 → c.changed bItem.guid) :
    Edited c w (finishWithdraw env
      (w'.setBank ((putRef w'.bank (some i) (takeFrom bItem remainer rest)).enqueue
        (takeFrom bItem remainer rest))) bankTab count (takeFrom bItem remainer rest) (some i)) := by
  have he : Edited c w w' := h.edited
  have hd' : w'.bank.Holds bankTab bankSlot i bItem := by rw [h.bank]; exact hd
  exact he.trans (World.takeFrom_edited (hf.edited he) ((mayUse_congr he.frame _).mpr ht) hd' hc)

/-- A withdrawal of a stack of the bank. -/
theorem withdraw_edited {bag slot : Nat} {pItem : Option Pos} (hf : Fit c w) (ht : w.MayUse bankTab)
    (hd : w.bank.Holds bankTab bankSlot i bItem)
    (hp : ∀ q, pItem = some q → ∃ it, w.player.inv.getItemByPos q = some it)
    (hch : remainer ≠ 0 → (w.player.inv.canStoreItem (bag % 256) (slot % 256) [] bItem.itemTemplate
      count .none false).res = .ok → c.changed bItem.guid) :
    Edited c w (w.withdrawBankItem env bankTab bankSlot count bag slot bItem (some i) pItem remainer
      swap) := by
  unfold withdrawBankItem
  by_cases hr : (w.player.inv.canStoreItem (bag % 256) (slot % 256) [] bItem.itemTemplate count .none
    false).res = .ok
  swap
  · rw [if_pos hr]
    exact reply_edited _
  rw [if_neg (not_not.mpr hr)]
  have hch := fun h0 => hch h0 hr
  refine .trans ?_ saveToDB_edited
  cases pItem with
  | some q =>
    obtain ⟨it, hq⟩ := hp q rfl
    obtain ⟨w', heq, hsame, -⟩ := withdrawOnto_eq env bankTab bankSlot count (some i) remainer swap hq
    dsimp only
    rw [heq]
    exact hsame.takeFrom_edited hf ht hd hch
  | none =>
    dsimp only
    by_cases hc : count = 0
    · subst hc
      unfold withdrawNew
      rw [Inventory.storeNewItem_nothing _ _ (Inventory.canStoreItem_nothing hr)]
      exact .same rfl rfl
    · obtain ⟨w', heq, hsame, -⟩ :=
        withdrawNew_eq env bankTab bankSlot (some i) remainer swap hc hr rfl
      rw [heq]
      exact hsame.takeFrom_edited hf ht hd hch

/-- The swap of the item at `p` and the bank item at `i` is executed: the bank item is one the player
can store, also once the own item is gone. -/
def SwapDone (w : World db) (p : Pos) (i : Nat) : Prop :=
  ∃ bItem, w.bank.items[i]? = some bItem ∧ bItem.count ≠ 0 ∧
    ((w.player.inv.canStoreItem nullBag nullSlot [] bItem.itemTemplate bItem.count .none
        false).res = .ok ∨
      (w.player.inv.canStoreItem nullBag nullSlot [] bItem.itemTemplate bItem.count .none
        false).res = .inventoryFull) ∧
    ((w.player.inv.remove p).canStoreItem inventorySlotBag0 nullSlot [] bItem.itemTemplate
      bItem.count .none false).res = .ok

instance (w : World db) (p : Pos) (i : Nat) : Decidable (w.SwapDone p i) := by
  unfold SwapDone
  infer_instance

theorem swap_edited (hf : Fit c w) (ht : w.MayUse bankTab)
    (hd : w.bank.Holds bankTab bankSlot i bItem) (hp : w.player.inv.getItemByPos p = some it)
    (hch : w.SwapTried bItem → c.changed bItem.guid) (hs : w.SwapDone p i → c.swaps) :
    Edited c w (w.swapItems env p i) := by
  obtain ⟨rfl, rfl⟩ := hd.at
  unfold swapItems swapItemsTo
  rw [hd.2, hp]
  dsimp only
  by_cases hr : (w.player.inv.canStoreItem nullBag nullSlot [] bItem.itemTemplate bItem.count .none
      false).res ≠ .ok ∧ (w.player.inv.canStoreItem nullBag nullSlot [] bItem.itemTemplate bItem.count
      .none false).res ≠ .inventoryFull
  · rw [if_pos hr]
    exact reply_edited _
  rw [if_neg hr]
  have htried : w.SwapTried bItem := by
    by_contra hno
    exact hr (not_or.mp hno)
  obtain ⟨bank, hdep, hbank, -⟩ := depositToBank_over it it.count false hd
  have hdeposit : Edited c w
      (w.depositItemInSlot env id bItem.tab bItem.slot p it.count 0 .changed false) :=
    stack_edited hf ht hd hp (hch htried)
  have hinv : (w.depositItemInSlot env id bItem.tab bItem.slot p it.count 0 .changed
      false).player.inv = w.player.inv.remove p := by
    rw [depositItemInSlot_eq hp hdep, if_pos rfl, finishDeposit_player]
    unfold payOut
    rw [if_pos ⟨rfl, rfl⟩]
    rfl
  have hguid : ∃ y ∈ (w.depositItemInSlot env id bItem.tab bItem.slot p it.count 0 .changed
      false).bank.items, y.guid = bItem.guid := by
    refine List.mem_map.mp ?_
    rw [depositItemInSlot_eq hp hdep, if_pos rfl, finishDeposit_guids, payOut_bank, setBank_bank, hbank]
    have hmap : (w.bank.items.set i (overBankItem w.bank bItem it it.count .changed false)).map
        (·.guid) = w.bank.items.map (·.guid) := map_set_key hd.2 rfl
    show bItem.guid ∈ (w.bank.items.set i _).map (·.guid)
    rw [hmap]
    exact List.mem_map_of_mem hd.mem
  refine hdeposit.trans ?_
  generalize w.depositItemInSlot env id bItem.tab bItem.slot p it.count 0 .changed false = w₁ at *
  unfold withdrawBankItem
  by_cases hok : (w₁.player.inv.canStoreItem (inventorySlotBag0 % 256) (nullSlot % 256) []
    bItem.itemTemplate bItem.count .none false).res = .ok
  swap
  · rw [if_pos hok]
    exact reply_edited _
  rw [if_neg (not_not.mpr hok)]
  refine .trans ?_ saveToDB_edited
  dsimp only
  by_cases hc : bItem.count = 0
  · rw [hc] at hok ⊢
    unfold withdrawNew
    rw [Inventory.storeNewItem_nothing _ _ (Inventory.canStoreItem_nothing hok)]
    exact .same rfl rfl
  have hdone : w.SwapDone p i := ⟨bItem, hd.2, hc, htried, by rw [← hinv]; exact hok⟩
  obtain ⟨w', heq, hsame, -⟩ := withdrawNew_eq env bItem.tab bItem.slot none 0 true hc hok rfl
  rw [heq]
  refine hsame.edited.trans (.one ?_ (by rw [finishWithdraw_frame]; rfl))
  rw [finishWithdraw_vault]
  have hown := (hdeposit.trans hsame.edited).bank
  have hx : takeFrom bItem 0 0 = { bItem with state := .removed } := if_pos rfl
  rw [hx, if_pos rfl]
  refine Edit.stray (hs hdone) (fun hg => ?_) ?_
  · have h := hf.tagged hg bItem hd.mem
    exact ⟨h.1.trans hown.1.symm, h.2.trans hown.2.symm⟩
  · rw [← hsame.bank] at hguid
    exact hguid

end Withdraw

/-! ## Deposits and withdrawals -/

/-- The branch is a swap that is executed. -/
def Swaps (w : World db) : Transfer → Prop
  | .swap _ i p => w.SwapDone p i
  | _ => False

instance (w : World db) : DecidablePred w.Swaps := fun tr => by
  unfold Swaps
  cases tr <;> infer_instance

/-- Part of the stack is withdrawn, and the player has room for it. -/
def LeavesRest (w : World db) (bItem : BankItem) (p : Pos) (count : UInt32) : Prop :=
  count ≠ bItem.count ∧ (w.player.inv.canStoreItem (p.1 % 256) (p.2 % 256) [] bItem.itemTemplate
    count .none false).res = .ok

instance (w : World db) (bItem : BankItem) (p : Pos) (count : UInt32) :
    Decidable (w.LeavesRest bItem p count) := inferInstanceAs (Decidable (_ ∧ _))

/-- The branch queues an item with the guid as changed. -/
def Changes (w : World db) : Transfer → UInt32 → Prop
  | .reply _, _ => False
  | .free bankTab p, guid => w.Searched bankTab p guid
  | .place _ _ _ _, _ => False
  | .stack bankTab bankSlot _ _, guid =>
    ∃ dItem, w.bank.getItem bankTab bankSlot = some dItem ∧ dItem.guid = guid
  | .take _ _ _ bItem p count, guid => bItem.guid = guid ∧ w.LeavesRest bItem p count
  | .store _ _ _ bItem p count, guid => bItem.guid = guid ∧ w.LeavesRest bItem p count
  | .swap _ i _, guid => ∃ bItem, w.bank.items[i]? = some bItem ∧ bItem.guid = guid ∧ w.SwapTried bItem

instance (w : World db) (tr : Transfer) (guid : UInt32) : Decidable (w.Changes tr guid) := by
  unfold Changes
  cases tr <;> infer_instance

/-- The branch may create a bank item. -/
def Mints : Transfer → Prop
  | .free _ _ => True
  | .place _ _ _ _ => True
  | _ => False

theorem rest_ne {count n : UInt32} (h : n - count ≠ 0) : count ≠ n := by
  rintro rfl
  exact h (UInt32.sub_self count)

theorem exec_edited {tr : Transfer} (hm : Mints tr → Mint c w) (hf : Fit c w) (hc : tr.Checked env w)
    (hch : ∀ g, (w.bank.Typed db → w.Changes tr g) → c.changed g) (hs : w.Swaps tr → c.swaps) :
    Edited c w (tr.exec env w) := by
  have hmay : ∀ {t : Nat} {action : GuildBankAction},
      (action = .depositItem ∨ action = .withdrawItem) → TabOk env w t action → w.MayUse t := by
    rintro t action (rfl | rfl) h
    · exact h.mayUse (by decide)
    · exact h.mayUse (by decide)
  cases tr with
  | reply rs => exact reply_edited rs
  | free bankTab p => exact freeSlotN_edited (hm trivial) hf (hmay (.inl rfl) hc.1) hch
  | place bankTab bankSlot p count =>
    obtain ⟨ht, h1, h2, hfree, it, hp, -⟩ := hc
    exact place_edited (hm trivial) hf (hmay (.inl rfl) ht) ⟨h1, h2⟩ hfree hp
  | stack bankTab bankSlot p count =>
    obtain ⟨ht, it, i, dItem, hp, hd, -⟩ := hc
    exact stack_edited hf (hmay (.inl rfl) ht) hd hp (hch _ fun _ => ⟨dItem, hd.getItem, rfl⟩)
  | take bankTab bankSlot i bItem p count =>
    obtain ⟨⟨action, ha, ht⟩, hd, it, hp, -⟩ := hc
    have hp' : ∀ q, some p = some q → ∃ it, w.player.inv.getItemByPos q = some it := by
      rintro q ⟨⟩
      exact ⟨it, hp⟩
    have hrest : bItem.count - count ≠ 0 → (w.player.inv.canStoreItem (p.1 % 256) (p.2 % 256) []
        bItem.itemTemplate count .none false).res = .ok → c.changed bItem.guid :=
      fun h0 hok => hch _ fun _ => ⟨rfl, rest_ne h0, hok⟩
    show Edited c w (w.withdrawBankItem env bankTab bankSlot count p.1 p.2 bItem (some i) (some p)
      (bItem.count - count) false)
    exact withdraw_edited hf (hmay ha ht) hd hp' hrest
  | store bankTab bankSlot i bItem p count =>
    show Edited c w (w.withdrawBankItem env bankTab bankSlot count p.1 p.2 bItem (some i) none
      (bItem.count - count) false)
    exact withdraw_edited hf (hmay (.inr rfl) hc.1) hc.2.1 nofun fun h0 hok =>
      hch _ fun _ => ⟨rfl, rest_ne h0, hok⟩
  | swap bankTab i p =>
    obtain ⟨⟨action, ha, ht⟩, ⟨bankSlot, bItem, hd⟩, it, hp⟩ := hc
    exact swap_edited hf (hmay ha ht) hd hp (fun h => hch _ fun _ => ⟨bItem, hd.2, rfl, h⟩) hs

theorem depositItem_edited (hm : Mint c w) (hf : Fit c w) (msg : Text)
    (hch : ∀ g, (w.bank.Typed db → w.Changes (w.depositBranch env msg) g) → c.changed g)
    (hs : w.Swaps (w.depositBranch env msg) → c.swaps) : Edited c w (w.depositItem env msg) := by
  rw [depositItem_eq]
  exact exec_edited (fun _ => hm) hf (depositBranch_checked msg) hch hs

/-- A withdrawal creates no bank item. -/
theorem withdrawBranch_not_mints (env : Env) (w : World db) (msg : Text) :
    ¬ Mints (w.withdrawBranch env msg) := by
  unfold withdrawBranch
  split
  · exact id
  · dsimp only
    split
    · exact id
    split
    · exact id
    split
    · exact id
    split
    · exact id
    split
    · exact id
    split
    · split <;> exact id
    · unfold withdrawToBranch
      split
      · exact id
      split
      · exact id
      split <;> exact id

theorem withdrawItem_edited (hf : Fit c w) (msg : Text)
    (hch : ∀ g, (w.bank.Typed db → w.Changes (w.withdrawBranch env msg) g) → c.changed g)
    (hs : w.Swaps (w.withdrawBranch env msg) → c.swaps) : Edited c w (w.withdrawItem env msg) := by
  rw [withdrawItem_eq]
  exact exec_edited (fun h => absurd h (withdrawBranch_not_mints env w msg)) hf
    (withdrawBranch_checked msg) hch hs

/-! ## Moves and splits -/

/-- The stack is merged with the one it is moved over. -/
def Merges (sItem dItem : BankItem) : Prop :=
  sItem.itemTemplate = dItem.itemTemplate ∧ sItem.count ≠ sItem.maxStackSize ∧
    dItem.count ≠ dItem.maxStackSize

/-- The checks of a split onto another stack. -/
def Splits (split : UInt32) (sItem dItem : BankItem) : Prop :=
  sItem.itemTemplate = dItem.itemTemplate ∧ dItem.count + split ≤ dItem.maxStackSize ∧
    sItem.count - split ≠ 0 ∧ sItem.count - split ≤ sItem.maxStackSize ∧
    dItem.count + split ≠ 0 ∧ dItem.count + split ≤ sItem.maxStackSize

instance (sItem dItem : BankItem) : Decidable (Merges sItem dItem) :=
  inferInstanceAs (Decidable (_ ∧ _))

instance (split : UInt32) (sItem dItem : BankItem) : Decidable (Splits split sItem dItem) :=
  inferInstanceAs (Decidable (_ ∧ _))

/-- A move queues an item with the guid as changed: what is moved over, and what is moved, unless the
other one takes all of it. -/
def MoveChanges (b : GuildBank) (bankTab fromSlot toSlot : Nat) (guid : UInt32) : Prop :=
  ∃ sItem, b.getItem bankTab fromSlot = some sItem ∧
    match b.getItem bankTab toSlot with
    | none => sItem.guid = guid
    | some dItem => dItem.guid = guid ∨ sItem.guid = guid ∧
        ¬ (Merges sItem dItem ∧ sItem.count + dItem.count ≤ sItem.maxStackSize)

/-- A split queues an item with the guid as changed. -/
def SplitChanges (b : GuildBank) (bankTab fromSlot toSlot : Nat) (split guid : UInt32) : Prop :=
  ∃ sItem, b.getItem bankTab fromSlot = some sItem ∧
    match b.getItem bankTab toSlot with
    | none => sItem.guid = guid ∧ split < sItem.maxStackSize ∧ sItem.count.toNat < 2 ^ 31 ∧
        split < sItem.count
    | some dItem => (sItem.guid = guid ∨ dItem.guid = guid) ∧ Splits split sItem dItem

instance (b : GuildBank) (bankTab fromSlot toSlot : Nat) (guid : UInt32) :
    Decidable (MoveChanges b bankTab fromSlot toSlot guid) := by
  unfold MoveChanges
  cases b.getItem bankTab toSlot <;> infer_instance

instance (b : GuildBank) (bankTab fromSlot toSlot : Nat) (split guid : UInt32) :
    Decidable (SplitChanges b bankTab fromSlot toSlot split guid) := by
  unfold SplitChanges
  cases b.getItem bankTab toSlot <;> infer_instance

section Move

variable {bankTab fromSlot toSlot : Nat} {sItem dItem : BankItem}

/-- A move to a free slot changes what is moved. -/
theorem moveChanges_free {b : GuildBank} (hs : b.Holds bankTab fromSlot i sItem)
    (hfree : b.findItem bankTab toSlot = none) :
    MoveChanges b bankTab fromSlot toSlot sItem.guid := by
  refine ⟨sItem, hs.getItem, ?_⟩
  rw [GuildBank.getItem_of_findItem hfree]

theorem moveChanges_over {b : GuildBank} {guid : UInt32} (hs : b.Holds bankTab fromSlot i sItem)
    (hd : b.Holds bankTab toSlot j dItem) (h : dItem.guid = guid ∨ sItem.guid = guid ∧
      ¬ (Merges sItem dItem ∧ sItem.count + dItem.count ≤ sItem.maxStackSize)) :
    MoveChanges b bankTab fromSlot toSlot guid := by
  refine ⟨sItem, hs.getItem, ?_⟩
  rw [hd.getItem]
  exact h

/-- Two items of the tab are written in place. -/
theorem setTwo_edited {x y : BankItem} {r : Reply} (hf : Fit c w) (ht : w.MayUse bankTab)
    (hs : w.bank.Holds bankTab fromSlot i sItem) (hd : w.bank.Holds bankTab toSlot j dItem)
    (hij : i ≠ j) (hcs : c.changed sItem.guid) (hcd : c.changed dItem.guid) (hx : Rewritten db sItem x) (hxi : x.isInferno = sItem.isInferno)
    (hy : Rewritten db dItem y) (hyi : y.isInferno = dItem.isInferno) :
    Edited c w ((w.setBank (((w.bank.setItem i x).enqueue x).setItem j y |>.enqueue y)).send r) := by
  have hown : c.good → w.vault.Own x ∧ w.vault.Own y := fun hg => by
    obtain ⟨h1, h2⟩ := hf.tagged hg sItem hs.mem
    obtain ⟨h3, h4⟩ := hf.tagged hg dItem hd.mem
    exact ⟨⟨hx.guildid.trans h1, hxi.trans h2⟩, hy.guildid.trans h3, hyi.trans h4⟩
  have hj : (w.vault.put i x).items[j]? = some dItem := by
    show (w.bank.items.set i x)[j]? = _
    rw [List.getElem?_set_ne hij]
    exact hd.2
  refine ⟨.tail (.single (.set hs.2 ?_ hx (fun hg => (hown hg).1) hcs))
    (.set hj ?_ hy (fun hg => (hown hg).2) hcd), rfl⟩
  · rw [hs.at.1]; exact hf.tab _ ht
  · rw [hd.at.1]; exact hf.tab _ ht

theorem holds_ne (hs : w.bank.Holds bankTab fromSlot i sItem) (hd : w.bank.Holds bankTab toSlot j dItem)
    (hne : fromSlot ≠ toSlot) : i ≠ j :=
  index_ne hs.2 hd.2 (by rw [hs.at.2, hd.at.2]; exact hne.symm)

theorem moveOver_edited (hf : Fit c w) (ht : w.MayUse bankTab)
    (hs : w.bank.Holds bankTab fromSlot i sItem) (hd : w.bank.Holds bankTab toSlot j dItem)
    (hne : fromSlot ≠ toSlot)
    (hch : ∀ g, MoveChanges w.bank bankTab fromSlot toSlot g → c.changed g) :
    Edited c w (w.moveOver bankTab fromSlot toSlot i j sItem dItem) := by
  have htab : c.tab sItem.tab := by rw [hs.at.1]; exact hf.tab _ ht
  have hij := holds_ne hs hd hne
  have hcd : c.changed dItem.guid := hch _ (moveChanges_over hs hd (.inl rfl))
  unfold moveOver
  split_ifs with hx hall
  · have hcs : c.changed sItem.guid := by
      refine hch _ (moveChanges_over hs hd (.inr ⟨rfl, fun hm => ?_⟩))
      obtain ⟨⟨h1, h2, h3⟩, -⟩ := hm
      exact hx.elim (· h1) fun h => h.elim h2 h3
    refine .trans ?_ saveToDB_edited
    refine .one ?_ rfl
    obtain ⟨hst, hss⟩ := hs.at
    obtain ⟨hdt, hds⟩ := hd.at
    have he : Edit db c w.vault _ := Edit.exchange hs.2 hd.2 htab (hdt.trans hst.symm)
      (by rw [hss, hds]; exact hne.symm) hcs hcd
    rw [hss, hds] at he
    exact he
  · -- the destination is written, and the source goes
    let x : BankItem := { dItem with count := sItem.count + dItem.count, state := .changed }
    have hi : (w.vault.put j x).items[i]? = some sItem := by
      show (w.bank.items.set j x)[i]? = _
      rw [List.getElem?_set_ne hij.symm]
      exact hs.2
    have hput : Edit db c w.vault (w.vault.put j x) := by
      refine .set hd.2 (by rw [hd.at.1]; exact hf.tab _ ht) ⟨rfl, rfl, rfl, rfl, rfl, fun h => h⟩ ?_
        hcd
      exact fun hg => hf.tagged hg dItem hd.mem
    have hdrop : Edit db c (w.vault.put j x) ((w.vault.put j x).discard i sItem) := .drop hi htab
    refine ⟨.tail (.single hput) ?_, rfl⟩
    have hv : ((w.bank.items.set j x).set i { sItem with state := .removed }).eraseIdx i =
        (w.bank.items.set j x).eraseIdx i := List.eraseIdx_set_eq
    convert hdrop using 1
    simp only [vault, Vault.discard, Vault.queueRemoved, Vault.put, setBank_bank, sendGuildMessage_eq,
      send_bank, send_tables, setBank_tables, GuildBank.deleteItem, GuildBank.enqueue,
      GuildBank.setItem]
    rw [hv]
  · have hcs : c.changed sItem.guid :=
      hch _ (moveChanges_over hs hd (.inr ⟨rfl, fun hm => hall hm.2⟩))
    exact setTwo_edited hf ht hs hd hij hcs hcd ⟨rfl, rfl, rfl, rfl, rfl, fun h => h⟩ rfl
      ⟨rfl, rfl, rfl, rfl, rfl, fun h => h⟩ rfl

/-- A `MoveItem` message queues an item with the guid as changed. -/
def MovesBy (env : Env) (w : World db) (msg : Text) (guid : UInt32) : Prop :=
  ∃ q, moveParams msg = some q ∧
    SlotsOk env w q.bankTab.toNat q.fromSlot.toNat q.toSlot.toNat .moveItem ∧
    MoveChanges w.bank q.bankTab.toNat q.fromSlot.toNat q.toSlot.toNat guid

theorem moveItem_edited (hf : Fit c w) (msg : Text)
    (hch : ∀ g, MovesBy env w msg g → c.changed g) : Edited c w (w.moveItem env msg) := by
  obtain ⟨⟨rs, h⟩, -⟩ | ⟨q, i, sItem, hq, hok, hs, ⟨hfree, text, h⟩ | ⟨j, dItem, hd, h⟩⟩ :=
    moveItem_cases env w msg
  · rw [h]; exact reply_edited rs
  · have ht := hok.mayUse (by decide)
    rw [h]
    refine .one ?_ rfl
    have hfree' : w.vault.Free sItem.tab q.toSlot.toNat := by
      rw [hs.at.1]; exact free_of_findItem hfree
    exact .relocate hs.2 (by rw [hs.at.1]; exact hf.tab _ ht) hok.to_range hfree'
      (hch _ ⟨q, hq, hok, moveChanges_free hs hfree⟩)
  · rw [h]
    exact moveOver_edited hf (hok.mayUse (by decide)) hs hd hok.ne fun g hg => hch g ⟨q, hq, hok, hg⟩

theorem splitToEmpty_edited {split : UInt32} (hm : Mint c w) (hf : Fit c w) (ht : w.MayUse bankTab)
    (hs : w.bank.Holds bankTab fromSlot i sItem) (hto : 1 ≤ toSlot ∧ toSlot ≤ bankTabSize)
    (hfree : w.bank.findItem bankTab toSlot = none)
    (hch : ∀ g, SplitChanges w.bank bankTab fromSlot toSlot split g → c.changed g) :
    Edited c w (w.splitToEmpty toSlot split i sItem) := by
  unfold splitToEmpty
  split_ifs with hmax hcount
  · exact .same rfl rfl
  · exact .same rfl rfl
  have hcs : c.changed sItem.guid := by
    refine hch _ ⟨sItem, hs.getItem, ?_⟩
    rw [GuildBank.getItem_of_findItem hfree]
    obtain ⟨h1, h2⟩ := not_or.mp hcount
    exact ⟨rfl, UInt32.not_le.mp hmax, Nat.not_le.mp h1, UInt32.not_le.mp h2⟩
  refine .trans ?_ saveToDB_edited
  let x : BankItem := { sItem with count := sItem.count - split, state := .changed }
  let w₁ : World db := w.setBank ((w.bank.setItem i x).enqueue x)
  have htab : c.tab sItem.tab := by rw [hs.at.1]; exact hf.tab _ ht
  have hset : Edited c w w₁ := .one (.set hs.2 htab ⟨rfl, rfl, rfl, rfl, rfl, fun h => h⟩ (fun hg =>
    hf.tagged hg sItem hs.mem) hcs) rfl
  have hm₁ : Mint c w₁ := hm.congr (map_set_key hs.2 rfl)
  refine hset.trans (.one (Edit.add ?_ hto htab ?_ hm₁.guid hm₁.fresh ?_ ?_ rfl hm₁.mints) rfl)
  · show 1 ≤ sItem.tab ∧ sItem.tab ≤ maxTabs
    rw [hs.at.1]
    exact ⟨ht.1, ht.2.1⟩
  · -- the source keeps its slot, so the destination is still free
    intro y hy
    obtain hy | rfl := List.mem_or_eq_of_mem_set hy
    · have h := free_of_findItem hfree y hy
      rw [← hs.at.1] at h
      exact h
    · have h := free_of_findItem hfree sItem hs.mem
      rw [← hs.at.1] at h
      exact h
  · exact fun hg => ⟨rfl, (hf.tagged hg sItem hs.mem).2⟩
  · exact fun h => h x (List.mem_of_getElem? (by
      show (w.bank.items.set i x)[i]? = some x
      rw [List.getElem?_set_self (List.getElem?_eq_some_iff.mp hs.2).1]))

theorem splitOver_edited {split : UInt32} (hf : Fit c w) (ht : w.MayUse bankTab)
    (hs : w.bank.Holds bankTab fromSlot i sItem) (hd : w.bank.Holds bankTab toSlot j dItem)
    (hne : fromSlot ≠ toSlot)
    (hch : ∀ g, SplitChanges w.bank bankTab fromSlot toSlot split g → c.changed g) :
    Edited c w (w.splitOver split i j sItem dItem) := by
  unfold splitOver
  by_cases h1 : sItem.itemTemplate ≠ dItem.itemTemplate
  · rw [if_pos h1]; exact .same rfl rfl
  by_cases h2 : ¬ dItem.count + split ≤ dItem.maxStackSize
  · rw [if_neg h1, if_pos h2]; exact .same rfl rfl
  rw [if_neg h1, if_neg h2]
  split_ifs with h3 h4 h5 h6
  · exact .same rfl rfl
  · exact .same rfl rfl
  · exact .same rfl rfl
  · exact .same rfl rfl
  have hsplits : Splits split sItem dItem :=
    ⟨not_not.mp h1, not_not.mp h2, h3, UInt32.not_lt.mp h4, h5, UInt32.not_lt.mp h6⟩
  have hc : ∀ g, sItem.guid = g ∨ dItem.guid = g → c.changed g := by
    refine fun g hg => hch g ⟨sItem, hs.getItem, ?_⟩
    rw [hd.getItem]
    exact ⟨hg, hsplits⟩
  exact setTwo_edited hf ht hs hd (holds_ne hs hd hne) (hc _ (.inl rfl)) (hc _ (.inr rfl))
    ⟨rfl, rfl, rfl, rfl, rfl, fun h => h⟩ rfl ⟨rfl, rfl, rfl, rfl, rfl, fun h => h⟩ rfl

/-- A `SplitItem` message queues an item with the guid as changed. -/
def SplitsBy (env : Env) (w : World db) (msg : Text) (guid : UInt32) : Prop :=
  ∃ q, splitParams msg = some q ∧
    SlotsOk env w q.bankTab.toNat q.fromSlot.toNat q.toSlot.toNat .splitItem ∧
    SplitChanges w.bank q.bankTab.toNat q.fromSlot.toNat q.toSlot.toNat q.split.toUInt32 guid

theorem splitItem_edited (hm : Mint c w) (hf : Fit c w) (msg : Text)
    (hch : ∀ g, SplitsBy env w msg g → c.changed g) : Edited c w (w.splitItem env msg) := by
  obtain ⟨⟨rs, h⟩, -⟩ | ⟨q, i, sItem, hq, hok, hs, ⟨hfree, h⟩ | ⟨j, dItem, hd, h⟩⟩ :=
    splitItem_cases env w msg
  · rw [h]; exact reply_edited rs
  · rw [h]
    exact splitToEmpty_edited hm hf (hok.mayUse (by decide)) hs hok.to_range hfree
      fun g hg => hch g ⟨q, hq, hok, hg⟩
  · rw [h]
    exact splitOver_edited hf (hok.mayUse (by decide)) hs hd hok.ne
      fun g hg => hch g ⟨q, hq, hok, hg⟩

end Move

end World

end Windrunner
