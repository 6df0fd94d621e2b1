import Windrunner.Lib.Run
import Windrunner.GuildBank.Effect

/-!
# Runs of a guild bank

A bank is loaded at server start and then receives messages from any players and saves
(`World.step`). A message is itself a run, over the commands it is matched against. `command_edits`
is the one fact about the commands that the results on reachable banks rest on; `step_keeps` is the
rule that turns it into an invariant of runs.
-/

namespace Windrunner

open Lib List

variable {db : ItemDb}

namespace World

variable {env : Env} {w : World db} {c : Terms} {msg : Text}

/-! ## Commands that only save -/

/-- The vault is as it was, or saved. -/
def Quiet (w w' : World db) : Prop := w'.vault = w.vault ∨ w'.vault = w.vault.flush

theorem Quiet.edits {w' : World db} (h : Quiet w w') :
    Relation.ReflTransGen (Edit db c) w.vault w'.vault := by
  obtain h | h := h
  · rw [h]
  · rw [h]; exact .single .flush

theorem saveToDB_quiet {w₁ : World db} (h : w₁.vault = w.vault) : Quiet w w₁.saveToDB := by
  by_cases hl : w₁.bank.saveLock = true
  · rw [show w₁.saveToDB = w₁ from if_pos hl]; exact .inl h
  · exact .inr (by rw [saveToDB_vault (by simpa using hl), h])

theorem sendAll_eq (messages : List String) :
    w.sendAll messages = { w with sent := w.sent ++ messages.map .addon } := by
  unfold sendAll
  induction messages generalizing w with
  | nil => simp
  | cons m messages ih =>
    rw [foldl_cons, ih]
    simp [send]

theorem finishUnlockTab_quiet {w₁ : World db} {tab : Nat} {cost : UInt32} {action : GuildBankAction}
    (h : w₁.vault = w.vault) : Quiet w (w₁.finishUnlockTab env tab cost action) := by
  unfold finishUnlockTab
  exact saveToDB_quiet (logAction_vault.trans h)

theorem finishMoney_quiet {w₁ : World db} {action : GuildBankAction} {money : UInt32}
    (h : w₁.vault = w.vault) : Quiet w (w₁.finishMoney env action money) := by
  unfold finishMoney
  refine saveToDB_quiet ?_
  show (w₁.logAction env action tabMoney 0 money none).vault = w.vault
  rw [logAction_vault, h]

theorem unlockTab_quiet : Quiet w (w.unlockTab env msg) := by
  unfold unlockTab
  by_cases hr : w.player.rank ≠ 0
  · rw [if_pos hr]; exact .inl rfl
  rw [if_neg hr]
  split
  · dsimp only
    split_ifs
    · exact .inl rfl
    · exact .inl rfl
    · exact .inl rfl
    · exact finishUnlockTab_quiet rfl
    · exact .inl rfl
    · exact finishUnlockTab_quiet rfl
  · exact .inl rfl

/-- Nothing but replies. -/
def Sends (w w' : World db) : Prop := ∃ rs, w' = { w with sent := w.sent ++ rs }

theorem Sends.edited {w' : World db} (h : Sends w w') : Edited c w w' := by
  obtain ⟨rs, rfl⟩ := h
  exact reply_edited rs

theorem sends_one (r : Reply) : Sends w (w.send r) := ⟨_, rfl⟩

theorem unlockTabCost_sends : Sends w (w.unlockTabCost msg) := by
  unfold unlockTabCost
  split_ifs
  · exact sends_one _
  · split
    · dsimp only
      split_ifs <;> exact sends_one _
    · exact sends_one _

theorem sendTabWithdrawalsLeft_sends {tab : Nat} : Sends w (w.sendTabWithdrawalsLeft env tab) := by
  unfold sendTabWithdrawalsLeft
  dsimp only
  split_ifs <;> exact sends_one _

theorem sendTabItems_sends : Sends w (w.sendTabItems env msg) := by
  unfold sendTabItems
  split
  · rename_i tab _
    obtain ⟨rs, hrs⟩ : Sends w (w.sendTabWithdrawalsLeft env (atoi tab).toUInt8.toNat) :=
      sendTabWithdrawalsLeft_sends
    dsimp only
    rw [sendAll_eq, hrs]
    exact ⟨_, congrArg (fun sent => { w with sent }) (append_assoc _ _ _)⟩
  · exact sends_one _

theorem sendTabWithdrawalsLeftMsg_sends : Sends w (w.sendTabWithdrawalsLeftMsg env msg) := by
  unfold sendTabWithdrawalsLeftMsg
  split
  · exact sendTabWithdrawalsLeft_sends
  · exact sends_one _

theorem sendTabLog_sends : Sends w (w.sendTabLog msg) := by
  unfold sendTabLog
  split
  · dsimp only
    rw [sendAll_eq]
    split_ifs
    · exact sends_one _
    · exact ⟨_, rfl⟩
  · exact sends_one _

theorem sendMoneyLog_sends : Sends w w.sendMoneyLog := ⟨_, sendAll_eq _⟩

theorem sendBankInfo_sends : Sends w w.sendBankInfo := ⟨_, send_two w _ _⟩

theorem updateTab_quiet : Quiet w (w.updateTab env msg) := by
  unfold updateTab
  by_cases hr : w.player.rank ≠ 0
  · rw [if_pos hr]; exact .inl rfl
  rw [if_neg hr]
  split
  · dsimp only
    split_ifs
    · exact .inl rfl
    · exact .inl rfl
    · exact .inl rfl
    · exact .inl rfl
    · exact saveToDB_quiet rfl
  · exact .inl rfl

theorem depositMoney_quiet : Quiet w (w.depositMoney env msg) := by
  unfold depositMoney
  split
  · dsimp only
    split_ifs
    · exact .inl rfl
    · exact finishMoney_quiet rfl
  · exact .inl rfl

theorem withdrawMoney_quiet : Quiet w (w.withdrawMoney env msg) := by
  unfold withdrawMoney
  split
  · dsimp only
    split_ifs
    · exact .inl rfl
    · exact .inl rfl
    · exact finishMoney_quiet rfl
  · exact .inl rfl

/-- The amount of a `DepositMoney` message. -/
def depositAmount (msg : Text) : Option UInt32 :=
  match tokenizer msg ':' with
  | [_, a] => some (atoi a)
  | _ => none

/-! ## All commands -/

/-- A swap is executed by the command `name`. -/
def SwapsBy (env : Env) (msg : Text) (name : String) (w : World db) : Prop :=
  name = "DepositItem:" ∧ w.Swaps (w.depositBranch env msg) ∨
    name = "WithdrawItem:" ∧ w.Swaps (w.withdrawBranch env msg)

instance (env : Env) (msg : Text) (name : String) (w : World db) :
    Decidable (w.SwapsBy env msg name) := by
  unfold SwapsBy
  infer_instance

/-- The command `name` queues an item with the guid as changed. -/
def ChangesBy (env : Env) (msg : Text) (name : String) (w : World db) (guid : UInt32) : Prop :=
  name = "DepositItem:" ∧ w.Changes (w.depositBranch env msg) guid ∨
    name = "WithdrawItem:" ∧ w.Changes (w.withdrawBranch env msg) guid ∨
    name = "MoveItem:" ∧ MovesBy env w msg guid ∨ name = "SplitItem:" ∧ SplitsBy env w msg guid

instance (env : Env) (w : World db) (bankTab fromSlot toSlot : Nat) (action : GuildBankAction) :
    Decidable (SlotsOk env w bankTab fromSlot toSlot action) :=
  decidable_of_iff ((1 ≤ bankTab ∧ bankTab ≤ maxTabs ∧ w.canAccessTab env bankTab action = true) ∧
      fromSlot ≠ toSlot ∧ (1 ≤ fromSlot ∧ fromSlot ≤ bankTabSize) ∧ 1 ≤ toSlot ∧ toSlot ≤ bankTabSize)
    ⟨fun ⟨⟨h1, h2, h3⟩, h4, h5, h6⟩ => ⟨⟨h1, h2, h3⟩, h4, h5, h6⟩,
      fun ⟨⟨h1, h2, h3⟩, h4, h5, h6⟩ => ⟨⟨h1, h2, h3⟩, h4, h5, h6⟩⟩

instance (env : Env) (msg : Text) (name : String) (w : World db) (guid : UInt32) :
    Decidable (w.ChangesBy env msg name guid) := by
  unfold ChangesBy MovesBy SplitsBy
  infer_instance

/-- The terms of a command in the world it is executed in. -/
def terms (w : World db) (env : Env) (msg : Text) (name : String) : Terms where
  tab := w.MayUse
  changed := fun guid => w.bank.Typed db → w.ChangesBy env msg name guid
  mints := name = "DepositItem:" ∨ name = "SplitItem:"
  guid := w.bank.getNewGuid
  good := w.vault.Tagged
  fresh := name = "DepositItem:" ∨ name = "SplitItem:" → ¬ w.bank.GuidsSpent
  swaps := w.SwapsBy env msg name

theorem fit_terms (w : World db) (env : Env) (msg : Text) (name : String) :
    Fit (w.terms env msg name) w :=
  ⟨fun _ h => h, fun h => h⟩

theorem mint_terms {name : String} (w : World db) (env : Env) (msg : Text)
    (h : name = "DepositItem:" ∨ name = "SplitItem:") : Mint (w.terms env msg name) w :=
  ⟨h, rfl, fun hf => GuildBank.getNewGuid_fresh_iff.mpr (hf h)⟩

/-- A deposit as one of the commands. -/
theorem depositItem_terms (w : World db) (env : Env) (msg : Text) :
    Edited (w.terms env msg "DepositItem:") w (w.depositItem env msg) :=
  depositItem_edited (w.mint_terms env msg (.inl rfl)) (w.fit_terms env msg _) msg
    (fun _ h hT => .inl ⟨rfl, h hT⟩) fun h => .inl ⟨rfl, h⟩

theorem withdrawItem_terms (w : World db) (env : Env) (msg : Text) :
    Edited (w.terms env msg "WithdrawItem:") w (w.withdrawItem env msg) :=
  withdrawItem_edited (w.fit_terms env msg _) msg (fun _ h hT => .inr (.inl ⟨rfl, h hT⟩))
    fun h => .inr ⟨rfl, h⟩

theorem moveItem_terms (w : World db) (env : Env) (msg : Text) :
    Edited (w.terms env msg "MoveItem:") w (w.moveItem env msg) :=
  moveItem_edited (w.fit_terms env msg _) msg fun _ h _ => .inr (.inr (.inl ⟨rfl, h⟩))

theorem splitItem_terms (w : World db) (env : Env) (msg : Text) :
    Edited (w.terms env msg "SplitItem:") w (w.splitItem env msg) :=
  splitItem_edited (w.mint_terms env msg (.inr rfl)) (w.fit_terms env msg _) msg
    fun _ h _ => .inr (.inr (.inr ⟨rfl, h⟩))

/-- What any command does to the items, the queue and the table is a sequence of edits. -/
theorem command_edits {cmd : String × (World db → World db)} (h : cmd ∈ commands env msg)
    (w : World db) :
    Relation.ReflTransGen (Edit db (w.terms env msg cmd.1)) w.vault (cmd.2 w).vault := by
  unfold commands at h
  simp only [mem_cons, not_mem_nil, or_false] at h
  rcases h with rfl | rfl | rfl | rfl | rfl | rfl | rfl | rfl | rfl | rfl | rfl | rfl | rfl | rfl | rfl
  · exact unlockTab_quiet.edits
  · exact unlockTabCost_sends.edited.edits
  · exact sendBankInfo_sends.edited.edits
  · exact sendTabItems_sends.edited.edits
  · exact sendTabWithdrawalsLeftMsg_sends.edited.edits
  · exact sendTabLog_sends.edited.edits
  · exact sendMoneyLog_sends.edited.edits
  · exact (w.depositItem_terms env msg).edits
  · exact (w.withdrawItem_terms env msg).edits
  · exact (w.moveItem_terms env msg).edits
  · exact (w.splitItem_terms env msg).edits
  · exact .refl
  · exact updateTab_quiet.edits
  · exact depositMoney_quiet.edits
  · exact withdrawMoney_quiet.edits

/-! ## What the commands do to the rest of the bank -/

/-- What the command `name` does to rank, tabs and money. -/
inductive Reframed (name : String) (msg : Text) (w : World db) : Frame → Prop
  | same : Reframed name msg w w.frame
  /-- The guild master unlocks or describes a tab. -/
  | master (tabs : Nat) (money : UInt32) (tabInfo : FinMap Nat BankTab) (hr : w.player.rank = 0)
      (ht : w.bank.tabs ≠ 0 → tabs ≠ 0) :
      Reframed name msg w { w.frame with tabs, money, tabInfo }
  | deposit (money : UInt32) (hn : name = "DepositMoney:") (hm : depositAmount msg = some money)
      (hle : money ≤ w.player.money) :
      Reframed name msg w { w.frame with money := w.bank.money + money }
  | withdraw (money : UInt32) (hr : w.player.rank ≤ 1) :
      Reframed name msg w { w.frame with money := w.bank.money - money }

theorem finishUnlockTab_frame {tab : Nat} {cost : UInt32} {action : GuildBankAction} :
    (w.finishUnlockTab env tab cost action).frame = { w.frame with tabs := tab } := by
  unfold finishUnlockTab
  rw [saveToDB_frame]
  exact logAction_frame.trans rfl

theorem finishMoney_frame {action : GuildBankAction} {money : UInt32} :
    (w.finishMoney env action money).frame = w.frame := by
  unfold finishMoney
  rw [saveToDB_frame]
  show (w.logAction env action tabMoney 0 money none).frame = w.frame
  exact logAction_frame

theorem unlockTab_frame {name : String} : Reframed name msg w (w.unlockTab env msg).frame := by
  unfold unlockTab
  by_cases hr : w.player.rank ≠ 0
  · rw [if_pos hr]; exact .same
  rw [if_neg hr]
  split
  · dsimp only
    split_ifs with htab
    · exact .same
    · exact .same
    · exact .same
    · rw [finishUnlockTab_frame]
      exact .master _ _ _ (not_not.mp hr) fun _ h => htab (.inl (by omega))
    · exact .same
    · rw [finishUnlockTab_frame]
      exact .master _ _ _ (not_not.mp hr) fun _ h => htab (.inl (by omega))
  · exact .same

theorem updateTab_frame {name : String} : Reframed name msg w (w.updateTab env msg).frame := by
  unfold updateTab
  by_cases hr : w.player.rank ≠ 0
  · rw [if_pos hr]; exact .same
  rw [if_neg hr]
  split
  · dsimp only
    split_ifs
    · exact .same
    · exact .same
    · exact .same
    · exact .same
    · rw [saveToDB_frame]
      exact .master w.bank.tabs w.bank.money _ (not_not.mp hr) fun h => h
  · exact .same

theorem depositMoney_frame : Reframed "DepositMoney:" msg w (w.depositMoney env msg).frame := by
  unfold depositMoney
  split
  · rename_i a h
    dsimp only
    split_ifs with hm
    · exact .same
    · rw [finishMoney_frame]
      exact .deposit (atoi a) rfl (by unfold depositAmount; rw [h]) (by simpa using hm)
  · exact .same

theorem withdrawMoney_frame {name : String} : Reframed name msg w (w.withdrawMoney env msg).frame := by
  unfold withdrawMoney
  split
  · dsimp only
    split_ifs with hacc
    · exact .same
    · exact .same
    · rw [finishMoney_frame]
      have hr : w.player.rank ≤ 1 := by simpa [canAccessTab] using hacc
      exact .withdraw _ hr
  · exact .same

theorem command_frame {cmd : String × (World db → World db)} (h : cmd ∈ commands env msg)
    (w : World db) : Reframed cmd.1 msg w (cmd.2 w).frame := by
  have same : ∀ {name : String} {w' : World db}, Edited (w.terms env msg name) w w' →
      Reframed name msg w w'.frame := by
    intro name w' h
    rw [h.frame]
    exact .same
  unfold commands at h
  simp only [mem_cons, not_mem_nil, or_false] at h
  rcases h with rfl | rfl | rfl | rfl | rfl | rfl | rfl | rfl | rfl | rfl | rfl | rfl | rfl | rfl | rfl
  · exact unlockTab_frame
  · exact same unlockTabCost_sends.edited
  · exact same sendBankInfo_sends.edited
  · exact same sendTabItems_sends.edited
  · exact same sendTabWithdrawalsLeftMsg_sends.edited
  · exact same sendTabLog_sends.edited
  · exact same sendMoneyLog_sends.edited
  · exact same (w.depositItem_terms env msg)
  · exact same (w.withdrawItem_terms env msg)
  · exact same (w.moveItem_terms env msg)
  · exact same (w.splitItem_terms env msg)
  · exact .same
  · exact updateTab_frame
  · exact depositMoney_frame
  · exact withdrawMoney_frame

/-! ## Messages -/

/-- One command of the list a message is matched against. -/
def execCommand (msg : Text) (w : World db) (cmd : String × (World db → World db)) : World db :=
  if strstr msg cmd.1.toList then cmd.2 w else w

/-- The message passes the first checks of the handler. -/
def Heard (env : Env) (w : World db) : Prop := env.canUseGuildBank = true ∧ w.bank.saveLock = false

/-- `UnlockGuildBank:Ok` is accepted. -/
def Unlocks (env : Env) (w : World db) (msg : Text) : Prop :=
  Heard env w ∧ strstr msg "UnlockGuildBank:".toList = true ∧ w.player.rank = 0 ∧
    (∃ name, tokenizer msg ':' = [name, "Ok".toList]) ∧ ¬ w.player.money < guildBankCost

/-- The message is matched against the commands. -/
def Serves (env : Env) (w : World db) (msg : Text) : Prop :=
  Heard env w ∧ strstr msg "UnlockGuildBank:".toList = false ∧ w.bank.tabs ≠ 0

theorem unlockGuildBank_cases (h : Heard env w) (hm : strstr msg "UnlockGuildBank:".toList = true) :
    Sends w (w.unlockGuildBank env msg) ∨
      Unlocks env w msg ∧ w.unlockGuildBank env msg = w.unlock env := by
  unfold unlockGuildBank
  by_cases hr : w.player.rank ≠ 0
  · rw [if_pos hr]; exact .inl (sends_one _)
  rw [if_neg hr]
  split
  · rename_i name query ht
    split_ifs with hcost hok hmoney
    · exact .inl (sends_one _)
    · exact .inl (sends_one _)
    · exact .inr ⟨⟨h, hm, not_not.mp hr, ⟨name, by rw [ht, hok]⟩, hmoney⟩, rfl⟩
    · exact .inl (sends_one _)
  · exact .inl (sends_one _)

/-- A message is answered, unlocks the bank, or is a run of its commands. -/
theorem handleAddonMessages_cases (env : Env) (w : World db) (msg : Text) :
    Sends w (w.handleAddonMessages env msg) ∨
      (Unlocks env w msg ∧ w.handleAddonMessages env msg = w.unlock env) ∨
      (Serves env w msg ∧
        w.handleAddonMessages env msg = run (execCommand msg) w (commands env msg)) := by
  unfold handleAddonMessages
  by_cases hu : (!env.canUseGuildBank) = true
  · rw [if_pos hu]; exact .inl ⟨[], by simp⟩
  by_cases hl : w.bank.saveLock = true
  · rw [if_neg hu, if_pos hl]; exact .inl (sends_one _)
  have hh : Heard env w := ⟨by simpa using hu, by simpa using hl⟩
  rw [if_neg hu, if_neg hl]
  by_cases hm : strstr msg "UnlockGuildBank:".toList = true
  · rw [if_pos hm]
    obtain h | h := unlockGuildBank_cases hh hm
    · exact .inl h
    · exact .inr (.inl h)
  rw [if_neg hm]
  by_cases ht : w.bank.tabs = 0
  · rw [if_pos ht]; exact .inl (sends_one _)
  · rw [if_neg ht]
    exact .inr (.inr ⟨⟨hh, by simpa using hm, ht⟩, rfl⟩)

/-- What every command keeps, the commands of a message keep. -/
theorem run_commands {I : World db → Prop}
    (hcmd : ∀ w cmd, cmd ∈ commands env msg → I w → I (cmd.2 w)) (h : I w) :
    I (run (execCommand msg) w (commands env msg)) := by
  have hall : AlongRun (execCommand msg) (fun _ _ => True) w (commands env msg) :=
    AlongRun.of_forall fun _ _ => trivial
  refine run_keeps (fun w cmd h hmem => ?_) h hall.mem
  unfold execCommand
  split_ifs
  · exact hcmd w cmd hmem.1 h
  · exact h

/-! ## Unlocking -/

end World

/-- The rows of the bank, as `LoadBank` selects them. -/
def Vault.ownRows (v : Vault) : List ItemRow :=
  v.rows.filter fun r => r.guildid = v.guildid ∧ r.isInferno = v.infernoBank

/-- `LoadBank` adds the items of the table to those in memory. -/
def Vault.load (db : ItemDb) (v : Vault) : Vault :=
  { v with items := v.items ++ v.ownRows.map (GuildBank.loadItem db) }

namespace World

variable {env : Env}

theorem lastInfo_unlock (b : GuildBank) (t : Tables) :
    ∃ x, b.lastInfo (t.unlock b.guildid b.infernoBank) = some x := by
  let row : TabsRow :=
    { guildid := b.guildid, isInferno := b.infernoBank, tabs := 1, info := defaultTabs }
  have hmoney : ∃ m ∈ (t.unlock b.guildid b.infernoBank).money,
      m.guildid = b.guildid ∧ m.isInferno = b.infernoBank := by
    unfold Tables.unlock
    dsimp only
    split_ifs with h
    · obtain ⟨m, hm, he⟩ := any_eq_true.mp h
      exact ⟨m, hm, by simpa using he⟩
    · exact ⟨_, mem_append_right _ (mem_singleton_self _), rfl, rfl⟩
  obtain ⟨m, hm, he⟩ := hmoney
  unfold GuildBank.lastInfo
  rw [← Option.isSome_iff_exists, getLast?_isSome]
  refine ne_nil_of_mem (a := (row, m)) ?_
  refine mem_flatMap.mpr ⟨row, mem_filter.mpr ⟨?_, by simp [row]⟩, ?_⟩
  · exact mem_append_right _ (mem_singleton_self _)
  · exact mem_map.mpr ⟨m, mem_filter.mpr ⟨hm, by simpa [row] using he⟩, rfl⟩

theorem appendLog_bank (b : GuildBank) (index : Nat) (r : LogRow) :
    ∃ log moneyLog, b.appendLog db env index r = { b with log, moneyLog } := by
  unfold GuildBank.appendLog
  by_cases h : r.tab = tabMoney
  · rw [if_pos h]; exact ⟨_, _, rfl⟩
  · rw [if_neg h]; exact ⟨_, _, rfl⟩

/-- Of the bank, only the logs are loaded. -/
theorem loadLog_bank (b : GuildBank) (t : Tables) :
    ∃ log moneyLog logChanged moneyLogChanged,
      b.loadLog db env t = { b with log, moneyLog, logChanged, moneyLogChanged } := by
  unfold GuildBank.loadLog
  dsimp only
  split_ifs
  · exact ⟨_, _, _, _, rfl⟩
  -- the induction is over the rows, with the numbers of the entries in the state
  have hfold : ∀ (rows : List LogRow) (st : GuildBank × (Nat → Nat)),
      ∃ log moneyLog, (rows.foldl (fun st r => (st.1.appendLog db env (st.2 r.tab) r,
        Function.update st.2 r.tab (st.2 r.tab + 1))) st).1 = { st.1 with log, moneyLog } := by
    intro rows
    induction rows with
    | nil => exact fun st => ⟨_, _, rfl⟩
    | cons r rows ih =>
      intro st
      obtain ⟨log, moneyLog, h⟩ := ih (st.1.appendLog db env (st.2 r.tab) r,
        Function.update st.2 r.tab (st.2 r.tab + 1))
      obtain ⟨log', moneyLog', h'⟩ := @appendLog_bank db env st.1 (st.2 r.tab) r
      rw [foldl_cons, h]
      dsimp only
      rw [h']
      exact ⟨log, moneyLog, rfl⟩
  obtain ⟨log, moneyLog, h⟩ := hfold _ (b, fun _ => 0)
  rw [h]
  exact ⟨_, _, _, _, rfl⟩

theorem loadBank_eq {b : GuildBank} {t : Tables} (h : ∃ x, b.lastInfo t = some x) :
    ∃ tabs money tabInfo, b.loadBank db t =
      { b with tabs, money, tabInfo
               items := b.items ++ (b.ownRows t.items).map (GuildBank.loadItem db) } := by
  obtain ⟨⟨r, m⟩, h⟩ := h
  unfold GuildBank.loadBank
  rw [h]
  exact ⟨_, _, _, rfl⟩

theorem unlock_vault (w : World db) : (w.unlock env).vault = w.vault.load db := by
  let t := w.tables.unlock w.bank.guildid w.bank.infernoBank
  obtain ⟨x, hx⟩ := lastInfo_unlock { w.bank with tabs := 1 } w.tables
  obtain ⟨tabs, money, tabInfo, hb⟩ := @loadBank_eq db { w.bank with tabs := 1 } t ⟨x, hx⟩
  obtain ⟨log, moneyLog, logChanged, moneyLogChanged, hl⟩ :=
    @loadLog_bank db env (({ w.bank with tabs := 1 } : GuildBank).loadBank db t) t
  have hunlock : (w.unlock env).vault = (w.setBank
      ((({ w.bank with tabs := 1 } : GuildBank).loadBank db t).loadLog db env t)).vault := rfl
  rw [hunlock, hl, hb]
  rfl

/-- The rows of a new bank are its own. -/
theorem unlock_others (t : Tables) (guildid : Nat) (infernoBank : Bool) :
    ((t.unlock guildid infernoBank).money.filter fun r =>
        ¬ (r.guildid = guildid ∧ r.isInferno = infernoBank)) =
        (t.money.filter fun r => ¬ (r.guildid = guildid ∧ r.isInferno = infernoBank)) ∧
      ((t.unlock guildid infernoBank).tabs.filter fun r =>
        ¬ (r.guildid = guildid ∧ r.isInferno = infernoBank)) =
        t.tabs.filter fun r => ¬ (r.guildid = guildid ∧ r.isInferno = infernoBank) := by
  unfold Tables.unlock
  dsimp only
  constructor
  · split_ifs
    · rfl
    · rw [filter_append, filter_cons_of_neg (by simp), filter_nil, append_nil]
  · rw [filter_append, filter_cons_of_neg (by simp), filter_nil, append_nil]

theorem unlock_frame (w : World db) : ∃ tabs money tabInfo,
    (w.unlock env).frame = { w.frame with tabs, money, tabInfo } := by
  let t := w.tables.unlock w.bank.guildid w.bank.infernoBank
  obtain ⟨x, hx⟩ := lastInfo_unlock { w.bank with tabs := 1 } w.tables
  obtain ⟨tabs, money, tabInfo, hb⟩ := @loadBank_eq db { w.bank with tabs := 1 } t ⟨x, hx⟩
  obtain ⟨log, moneyLog, logChanged, moneyLogChanged, hl⟩ :=
    @loadLog_bank db env (({ w.bank with tabs := 1 } : GuildBank).loadBank db t) t
  obtain ⟨hm, ht⟩ := unlock_others w.tables w.bank.guildid w.bank.infernoBank
  have hunlock : (w.unlock env).frame = ({ w with tables := t }.setBank
      ((({ w.bank with tabs := 1 } : GuildBank).loadBank db t).loadLog db env t)).frame := rfl
  refine ⟨tabs, money, tabInfo, ?_⟩
  rw [hunlock, hl, hb]
  unfold frame
  rw [← hm, ← ht]
  rfl

/-! ## Runs -/

/-- The bank as loaded at server start. -/
def start (env : Env) (t : Tables) (guildid : Nat) (infernoBank : Bool) (player : Player db) :
    World db :=
  { bank := GuildBank.setGuild db env t guildid infernoBank, tables := t, player }

/-- The vault of a bank before anything is loaded. -/
def blank (t : Tables) (guildid : Nat) (infernoBank : Bool) : Vault :=
  { guildid, infernoBank, items := [], queue := [], rows := t.items }

/-- A loaded bank has its rows in memory, or is not unlocked and has none. -/
theorem start_vault (env : Env) (t : Tables) (guildid : Nat) (infernoBank : Bool) (player : Player db) :
    ((start env t guildid infernoBank player).vault = (blank t guildid infernoBank).load db ∨
      (start env t guildid infernoBank player).vault = blank t guildid infernoBank ∧
        (start env t guildid infernoBank player).bank.tabs = 0) ∧
    (start env t guildid infernoBank player).bank.saveLock = false := by
  let b : GuildBank := { guildid, infernoBank }
  obtain ⟨log, moneyLog, logChanged, moneyLogChanged, hl⟩ :=
    @loadLog_bank db env (b.loadBank db t) t
  unfold start GuildBank.setGuild
  dsimp only
  rw [show (({ guildid, infernoBank } : GuildBank).loadBank db t).loadLog db env t = _ from hl]
  cases hi : b.lastInfo t with
  | none =>
    have hb : b.loadBank db t = b := by unfold GuildBank.loadBank; rw [hi]
    rw [hb]
    exact ⟨.inr ⟨rfl, rfl⟩, rfl⟩
  | some x =>
    obtain ⟨tabs, money, tabInfo, hb⟩ := @loadBank_eq db b t ⟨x, hi⟩
    rw [hb]
    exact ⟨.inl rfl, rfl⟩

end World

/-- What a bank receives: messages, from any player in any state, and the periodic save. -/
inductive Input (db : ItemDb) where
  | message (env : Env) (player : Player db) (msg : Text)
  | save

namespace World

variable {env : Env} {w : World db} {msg : Text}

def step (w : World db) : Input db → World db
  | .message env player msg => handleAddonMessages env { w with player } msg
  | .save => w.saveToDB

/-- A message meets `first` when it unlocks the bank and `each` at every command it executes. -/
def MessageOk (first : World db → Prop) (each : String → World db → Prop) (env : Env) (msg : Text)
    (w : World db) : Prop :=
  (Unlocks env w msg → first w) ∧
    (Serves env w msg → AlongRun (execCommand msg)
      (fun w cmd => strstr msg cmd.1.toList = true → each cmd.1 w) w (commands env msg))

def StepOk (first : World db → Prop) (each : Env → Text → String → World db → Prop) (w : World db) :
    Input db → Prop
  | .message env player msg => MessageOk first (each env msg) env msg { w with player }
  | .save => True

/-! ### What every step keeps -/

/-- The identity of the bank and the money and tabs rows of other banks. -/
def ident (w : World db) : (Nat × Bool) × List MoneyRow × List TabsRow :=
  ((w.bank.guildid, w.bank.infernoBank), w.frame.otherMoney, w.frame.otherTabs)

theorem ident_congr {w' : World db} (hg : w'.vault.guildid = w.vault.guildid)
    (hi : w'.vault.infernoBank = w.vault.infernoBank) (hm : w'.frame.otherMoney = w.frame.otherMoney)
    (ht : w'.frame.otherTabs = w.frame.otherTabs) : w'.ident = w.ident := by
  have hg : w'.bank.guildid = w.bank.guildid := hg
  have hi : w'.bank.infernoBank = w.bank.infernoBank := hi
  unfold ident
  rw [hg, hi, hm, ht]

theorem command_ident {cmd : String × (World db → World db)} (hmem : cmd ∈ commands env msg)
    (w : World db) : (cmd.2 w).ident = w.ident := by
  obtain ⟨hg, hi⟩ := edits_bank (command_edits hmem w)
  have hfr := command_frame hmem w
  refine ident_congr hg hi ?_ ?_
  · generalize (cmd.2 w).frame = fr at hfr
    cases hfr <;> rfl
  · generalize (cmd.2 w).frame = fr at hfr
    cases hfr <;> rfl

theorem step_ident (w : World db) (i : Input db) : (step w i).ident = w.ident := by
  cases i with
  | save =>
    have he : Edited (w.terms {} [] "") w w.saveToDB := saveToDB_edited
    exact ident_congr he.bank.1 he.bank.2 (congrArg Frame.otherMoney he.frame)
      (congrArg Frame.otherTabs he.frame)
  | message env player msg =>
    show (handleAddonMessages env { w with player } msg).ident = w.ident
    have hw : ({ w with player } : World db).ident = w.ident := rfl
    rw [← hw]
    generalize { w with player } = w
    obtain ⟨rs, hs⟩ | ⟨-, he⟩ | ⟨-, he⟩ := handleAddonMessages_cases env w msg
    · rw [hs]; rfl
    · obtain ⟨_, _, _, hf⟩ := @unlock_frame db env w
      rw [he]
      refine ident_congr ?_ ?_ (by rw [hf]) (by rw [hf])
      · rw [unlock_vault]; rfl
      · rw [unlock_vault]; rfl
    · rw [he]
      exact run_commands (I := fun w' => w'.ident = w.ident)
        (fun w' cmd hmem h => (command_ident hmem w').trans h) rfl

/-- `J` holds of the vault, and before the bank is unlocked `K` as well. -/
structure Held (J K : Vault → Prop) (w : World db) : Prop where
  vault : J w.vault
  locked : w.bank.tabs = 0 → K w.vault
  saveLock : w.bank.saveLock = false

section Keeps

variable {J K : Vault → Prop} {first : World db → Prop}
  {each : Env → Text → String → World db → Prop}

theorem Held.congr {w' : World db} (h : Held J K w) (hv : w'.vault = w.vault)
    (ht : w'.bank.tabs = w.bank.tabs) (hl : w'.bank.saveLock = w.bank.saveLock) : Held J K w' :=
  ⟨by rw [hv]; exact h.vault, by rw [hv, ht]; exact h.locked, by rw [hl]; exact h.saveLock⟩

/-- The unlock of a bank of which `K` holds. -/
theorem Held.unlock (h : Held J K w) (hj : J (w.vault.load db)) (hk : K (w.vault.load db)) :
    Held J K (w.unlock env) := by
  obtain ⟨_, _, _, hf⟩ := @unlock_frame db env w
  refine ⟨by rw [unlock_vault]; exact hj, fun _ => by rw [unlock_vault]; exact hk, ?_⟩
  exact (congrArg Frame.saveLock hf).trans h.saveLock

/-- The commands of a message keep `J`. -/
theorem commands_keep (hcmd : ∀ w cmd, cmd ∈ commands env msg → J w.vault → each env msg cmd.1 w →
      J (cmd.2 w).vault)
    (h : Held J K w) (ht : w.bank.tabs ≠ 0) (hok : AlongRun (execCommand msg)
      (fun w cmd => strstr msg cmd.1.toList = true → each env msg cmd.1 w) w (commands env msg)) :
    Held J K (run (execCommand msg) w (commands env msg)) := by
  have hinv : Held J (fun _ => False) (run (execCommand msg) w (commands env msg)) := by
    refine run_keeps ?_ ⟨h.vault, ht, h.saveLock⟩ hok.mem
    rintro w cmd h ⟨hmem, heach⟩
    unfold execCommand
    split_ifs with hs
    · have hfr := command_frame hmem w
      have hframe : (cmd.2 w).bank.tabs = (cmd.2 w).frame.tabs ∧
          (cmd.2 w).bank.saveLock = (cmd.2 w).frame.saveLock := ⟨rfl, rfl⟩
      refine ⟨hcmd w cmd hmem h.vault (heach hs), ?_, ?_⟩
      · rw [hframe.1]
        generalize (cmd.2 w).frame = fr at hfr
        cases hfr with
        | same => exact h.locked
        | master _ _ _ _ ht => exact ht h.locked
        | deposit => exact h.locked
        | withdraw => exact h.locked
      · rw [hframe.2]
        generalize (cmd.2 w).frame = fr at hfr
        cases hfr <;> exact h.saveLock
    · exact h
  exact ⟨hinv.vault, fun h0 => absurd h0 hinv.locked, hinv.saveLock⟩

/-- What commands, saves and unlocks keep, every step keeps. -/
theorem step_keeps (hflush : ∀ v, J v → J v.flush) (hqueue : ∀ v, K v → K v.flush)
    (hcmd : ∀ env msg w cmd, cmd ∈ commands env msg → J w.vault → each env msg cmd.1 w →
      J (cmd.2 w).vault)
    (hunlock : ∀ env w, Held J K w → first w → Held J K (w.unlock env)) {i : Input db}
    (h : Held J K w) (hok : StepOk first each w i) : Held J K (step w i) := by
  cases i with
  | save =>
    have hv := saveToDB_vault h.saveLock
    have hf : w.saveToDB.frame = w.frame := saveToDB_frame
    refine ⟨?_, fun h0 => ?_, ?_⟩
    · show J w.saveToDB.vault
      rw [hv]
      exact hflush _ h.vault
    · show K w.saveToDB.vault
      rw [hv]
      exact hqueue _ (h.locked ((congrArg Frame.tabs hf).symm.trans h0))
    · exact (congrArg Frame.saveLock hf).trans h.saveLock
  | message env player msg =>
    have h : Held J K { w with player } := h.congr rfl rfl rfl
    have hok : MessageOk first (each env msg) env msg { w with player } := hok
    show Held J K (handleAddonMessages env { w with player } msg)
    generalize { w with player } = w at h hok
    obtain ⟨rs, hs⟩ | ⟨hu, he⟩ | ⟨hs, he⟩ := handleAddonMessages_cases env w msg
    · rw [hs]; exact h.congr rfl rfl rfl
    · rw [he]; exact hunlock env w h (hok.1 hu)
    · rw [he]; exact commands_keep (hcmd env msg) h hs.2.2 (hok.2 hs)

/-- The invariant of a run. -/
theorem run_held (hflush : ∀ v, J v → J v.flush) (hqueue : ∀ v, K v → K v.flush)
    (hcmd : ∀ env msg w cmd, cmd ∈ commands env msg → J w.vault → each env msg cmd.1 w →
      J (cmd.2 w).vault)
    (hunlock : ∀ env w, Held J K w → first w → Held J K (w.unlock env)) {is : List (Input db)}
    (h : Held J K w) (hrun : AlongRun step (StepOk first each) w is) : Held J K (run step w is) :=
  run_keeps (fun _ _ h hok => step_keeps hflush hqueue hcmd hunlock h hok) h hrun

end Keeps

end World

end Windrunner
