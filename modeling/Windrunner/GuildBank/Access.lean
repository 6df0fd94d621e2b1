import Windrunner.GuildBank.Slots

/-!
# Access to the tabs

A player whose rank does not reach a tab cannot change its items (`commands_tab`), and one below the
officers cannot take money (`commands_money`). Both follow from the terms of the commands: an edit is
of a tab the player may use, and the tab descriptions are the guild master's.
-/

namespace Windrunner

open Lib

variable {db : ItemDb}

/-- The items of a tab, without the mark that they wait for a save. -/
def tabItems (t : Nat) (items : List BankItem) : List BankItem :=
  (items.filter fun y => y.tab = t).map ({ · with state := .unchanged })

section Edit

variable {c : Terms} {v v' : Vault} {x x' : BankItem} {t i : Nat} {items : List BankItem}

theorem tabItems_set (hi : items[i]? = some x) (hx : x.tab ≠ t) (hx' : x'.tab ≠ t) :
    tabItems t (items.set i x') = tabItems t items := by
  unfold tabItems
  rw [filter_set_of_not hi (by simpa using hx) (by simpa using hx')]

theorem tabItems_flush : tabItems t v.flush.items = tabItems t v.items := by
  unfold Vault.flush
  split_ifs
  · rfl
  · unfold tabItems
    rw [List.filter_map, List.map_map]
    rfl

/-- An edit leaves the tabs alone that the player may not use. -/
theorem Edit.tabItems_eq (ht : ¬ c.tab t) (e : Edit db c v v') :
    tabItems t v'.items = tabItems t v.items := by
  have hne : ∀ {y : BankItem}, c.tab y.tab → y.tab ≠ t := by
    rintro y hy rfl
    exact ht hy
  cases e with
  | set hi hc hx => exact tabItems_set hi (hne hc) (by rw [hx.tab]; exact hne hc)
  | @relocate i slot x hi hc => exact tabItems_set hi (hne hc) (hne hc)
  | @exchange i j x y hi hj hc htab hslot =>
    have hij := index_ne hi hj hslot
    have hy : y.tab ≠ t := by rw [htab]; exact hne hc
    let x' : BankItem := { x with slot := y.slot, state := .changed }
    have hj' : (v.items.set i x')[j]? = some y := by rw [List.getElem?_set_ne hij]; exact hj
    let y' : BankItem := { y with slot := x.slot, state := .changed }
    have hx : tabItems t (v.items.set i x') = tabItems t v.items := tabItems_set hi (hne hc) (hne hc)
    have hxy : tabItems t ((v.items.set i x').set j y') = tabItems t (v.items.set i x') :=
      tabItems_set hj' hy hy
    exact hxy.trans hx
  | @add x htab hs hc =>
    unfold tabItems
    show ((v.items ++ [x]).filter _).map _ = _
    rw [List.filter_append, List.filter_cons_of_neg (by simpa using hne hc), List.filter_nil,
      List.append_nil]
  | @drop i x hi hc =>
    unfold tabItems
    show ((v.items.eraseIdx i).filter _).map _ = _
    rw [filter_eraseIdx_of_not hi (by simpa using hne hc)]
  | stray => rfl
  | flush => exact tabItems_flush

theorem edits_tabItems (ht : ¬ c.tab t) (e : Relation.ReflTransGen (Edit db c) v v') :
    tabItems t v'.items = tabItems t v.items := by
  induction e with
  | refl => rfl
  | tail _ e ih => exact (e.tabItems_eq ht).trans ih

end Edit

namespace World

variable {env : Env} {w : World db} {msg : Text} {t : Nat}

/-- A deposit of money does not come around `2 ^ 32`. -/
def NoWrap (msg : Text) (name : String) (w : World db) : Prop :=
  name = "DepositMoney:" → ∀ m, depositAmount msg = some m → m ≤ w.player.money →
    w.bank.money.toNat + m.toNat < 4294967296

instance (msg : Text) (name : String) (w : World db) : Decidable (w.NoWrap msg name) :=
  have : Decidable (∀ m ∈ depositAmount msg, m ≤ w.player.money →
      w.bank.money.toNat + m.toNat < 4294967296) := Option.decidableForallMem _
  inferInstanceAs (Decidable (name = "DepositMoney:" → ∀ m ∈ depositAmount msg, m ≤ w.player.money →
    w.bank.money.toNat + m.toNat < 4294967296))

/-- What a command of a player who is not the guild master leaves of tab `t`. -/
theorem command_tab {cmd : String × (World db → World db)} (hmem : cmd ∈ commands env msg)
    (hr : w.player.rank ≠ 0) (ht : ¬ w.MayUse t) :
    tabItems t (cmd.2 w).bank.items = tabItems t w.bank.items ∧
      (cmd.2 w).player.rank = w.player.rank ∧ (cmd.2 w).bank.tabInfo = w.bank.tabInfo := by
  refine ⟨edits_tabItems ht (command_edits hmem w), ?_, ?_⟩
  · have hfr := command_frame hmem w
    show (cmd.2 w).frame.rank = w.player.rank
    generalize (cmd.2 w).frame = fr at hfr
    cases hfr <;> rfl
  · have hfr := command_frame hmem w
    show (cmd.2 w).frame.tabInfo = w.bank.tabInfo
    generalize (cmd.2 w).frame = fr at hfr
    cases hfr with
    | master _ _ _ h => exact absurd h hr
    | _ => rfl

theorem commands_tab (hr : w.player.rank ≠ 0) (ht : ¬ w.MayUse t) :
    tabItems t (run (execCommand msg) w (commands env msg)).bank.items = tabItems t w.bank.items := by
  let I : World db → Prop := fun w' =>
    tabItems t w'.bank.items = tabItems t w.bank.items ∧ w'.player.rank = w.player.rank ∧
      w'.bank.tabInfo = w.bank.tabInfo
  refine (run_commands (I := I) ?_ ⟨rfl, rfl, rfl⟩).1
  rintro w' cmd hmem ⟨h1, h2, h3⟩
  have ht' : ¬ w'.MayUse t := by
    unfold MayUse GuildBank.tabInfoAt at ht ⊢
    rw [h2, h3]
    exact ht
  obtain ⟨g1, g2, g3⟩ := command_tab hmem (by rw [h2]; exact hr) ht'
  exact ⟨g1.trans h1, g2.trans h2, g3.trans h3⟩

theorem commands_money (hr : 1 < w.player.rank) (hwrap : AlongRun (execCommand msg)
      (fun w cmd => strstr msg cmd.1.toList = true → NoWrap msg cmd.1 w) w (commands env msg)) :
    w.bank.money ≤ (run (execCommand msg) w (commands env msg)).bank.money := by
  let I : World db → Prop := fun w' => w.bank.money ≤ w'.bank.money ∧ 1 < w'.player.rank
  refine (run_keeps (I := I) ?_ ⟨UInt32.le_refl _, hr⟩ hwrap.mem).1
  rintro w' cmd ⟨hle, hr⟩ ⟨hmem, hw⟩
  unfold execCommand
  split_ifs with hs
  · have hfr := command_frame hmem w'
    show w.bank.money ≤ (cmd.2 w').frame.money ∧ 1 < (cmd.2 w').frame.rank
    generalize (cmd.2 w').frame = fr at hfr
    cases hfr with
    | same => exact ⟨hle, hr⟩
    | master _ _ _ h => omega
    | deposit m hn hm hmoney =>
      have hadd := toNat_add (hw hs hn m hm hmoney)
      have hle := le_toNat.mp hle
      exact ⟨le_toNat.mpr (by dsimp only; omega), hr⟩
    | withdraw _ h => omega
  · exact ⟨hle, hr⟩

/-- A message of a player whose rank does not reach tab `t` leaves the items of the tab as they are,
but for the mark that they wait for a save; and one of a player below the officers does not lower the
money of the bank unless a deposit of money comes around `2 ^ 32`. -/
theorem message_access (env : Env) (w : World db) (msg : Text) (t : Nat) :
    ((w.bank.tabInfoAt t).minrank.toNat < w.player.rank →
      tabItems t (w.handleAddonMessages env msg).bank.items = tabItems t w.bank.items) ∧
    (1 < w.player.rank → MessageOk (fun _ => True) (NoWrap msg) env msg w →
      w.bank.money ≤ (w.handleAddonMessages env msg).bank.money) := by
  obtain ⟨rs, hs⟩ | ⟨hu, -⟩ | ⟨hs, he⟩ := handleAddonMessages_cases env w msg
  · rw [hs]
    exact ⟨fun _ => rfl, fun _ _ => UInt32.le_refl _⟩
  · -- only the guild master unlocks
    have h0 := hu.2.2.1
    exact ⟨fun h => by omega, fun h => by omega⟩
  · rw [he]
    refine ⟨fun h => commands_tab (by omega) fun hm => ?_, fun h hok => commands_money h (hok.2 hs)⟩
    have := hm.2.2
    omega

end World

/-- A member with some money. -/
def member : Player sampleDb := { guid := 2, rank := 2, money := 100, inv := Inventory.empty 2 }

/-- The guild master has moved the cloth and it waits for the next save; a member has come. -/
def movedWorld : World sampleDb :=
  { run World.step (World.start {} clothTables 1 false master)
      [.message {} master "MoveItem:1:1:2".toList] with player := member }

/-- A bank with all the money it can hold, and a member. -/
def fullWorld : World sampleDb :=
  World.start {} { clothTables with money := [{ guildid := 1, isInferno := false, money := 4294967295 }] }
    1 false member

/-- The member may not use the tab, yet the save of a money deposit resets the mark of the item; and
the money of a full bank comes around. -/
theorem member_resets_and_lowers :
    ((movedWorld.bank.tabInfoAt 1).minrank.toNat < movedWorld.player.rank ∧
      ¬ ((movedWorld.handleAddonMessages {} "DepositMoney:0".toList).bank.items.filter (·.tab = 1) =
        movedWorld.bank.items.filter (·.tab = 1))) ∧
    1 < fullWorld.player.rank ∧
      ¬ fullWorld.bank.money ≤
        (fullWorld.handleAddonMessages {} "DepositMoney:1".toList).bank.money := by
  decide +kernel

/-- The member deposits what he has. -/
theorem movedWorld_member :
    tabItems 1 (movedWorld.handleAddonMessages {} "DepositMoney:100".toList).bank.items =
        tabItems 1 movedWorld.bank.items ∧
      movedWorld.bank.money ≤
        (movedWorld.handleAddonMessages {} "DepositMoney:100".toList).bank.money := by
  obtain ⟨h1, h2⟩ := World.message_access {} movedWorld "DepositMoney:100".toList 1
  refine ⟨h1 (by decide), h2 (by decide) ⟨fun _ => trivial, fun _ => ?_⟩⟩
  decide +kernel

end Windrunner
