import Windrunner.Lib.Keyed
import Windrunner.GuildBank.Conserve

/-!
# The edits of a guild bank

Whatever a message does to the items of a bank is a sequence of `Edit`s of its `Vault`: the items in
memory, the update queue and the table. An edit is made on the `Terms` of the message: the tabs the
player may use, the guids it may update, the guid of a new item, and whether the message swaps. Everything the later modules
prove about reachable banks is proved for one edit and carried over by induction.

* `set`, `relocate`, `exchange`: an item is written in place and queued.
* `add`, `drop`: an item is created or deleted and queued.
* `stray`: a swap queues the copy it withdraws as removed, while the item stays.
* `flush`: a save.
-/

namespace Windrunner

open Lib List

/-- What the item commands write. -/
structure Vault where
  guildid : Nat
  infernoBank : Bool
  items : List BankItem
  queue : List BankItem
  rows : List ItemRow

namespace Vault

variable (v : Vault)

/-- An item is written and queued. -/
def put (i : Nat) (x : BankItem) : Vault :=
  { v with items := v.items.set i x, queue := v.queue ++ [x] }

/-- An item is created and queued. -/
def append (x : BankItem) : Vault := { v with items := v.items ++ [x], queue := v.queue ++ [x] }

/-- A copy is queued as removed. -/
def queueRemoved (x : BankItem) : Vault :=
  { v with queue := v.queue ++ [{ x with state := .removed }] }

/-- An item is deleted and queued as removed. -/
def discard (i : Nat) (x : BankItem) : Vault :=
  { v.queueRemoved x with items := v.items.eraseIdx i }

/-- A save. A failed statement leaves the table as it was. -/
def flush : Vault :=
  if v.queue = [] then v
  else
    { v with
      items := v.items.map ({ · with state := .unchanged })
      queue := []
      rows := (v.queue.foldlM writeItem v.rows).getD v.rows }

def Free (tab slot : Nat) : Prop := ∀ y ∈ v.items, ¬ (y.tab = tab ∧ y.slot = slot)

/-- The item belongs to this bank. -/
def Own (x : BankItem) : Prop := x.guildid = v.guildid ∧ x.isInferno = v.infernoBank

end Vault

/-- What a message may do. -/
structure Terms where
  /-- The tabs the player may use. -/
  tab : Nat → Prop
  /-- The guids of the items that may be queued as changed. -/
  changed : UInt32 → Prop
  /-- An item may be created. -/
  mints : Prop
  /-- The guid of a new item. -/
  guid : UInt32
  /-- The items belong to the bank. -/
  good : Prop
  /-- The new guid is not in use. -/
  fresh : Prop
  /-- A swap is executed. -/
  swaps : Prop

/-- The slots and the identity of a written item stay. -/
structure Rewritten (db : ItemDb) (x x' : BankItem) : Prop where
  guid : x'.guid = x.guid
  guildid : x'.guildid = x.guildid
  tab : x'.tab = x.tab
  slot : x'.slot = x.slot
  state : x'.state = .changed
  typed : x.Typed db → x'.Typed db

inductive Edit (db : ItemDb) (c : Terms) : Vault → Vault → Prop
  | set {v : Vault} {i : Nat} {x x' : BankItem} (hi : v.items[i]? = some x) (ht : c.tab x.tab)
      (h : Rewritten db x x') (own : c.good → v.Own x') (hc : c.changed x.guid) :
      Edit db c v (v.put i x')
  | relocate {v : Vault} {i slot : Nat} {x : BankItem} (hi : v.items[i]? = some x) (ht : c.tab x.tab)
      (hs : 1 ≤ slot ∧ slot ≤ bankTabSize) (hfree : v.Free x.tab slot) (hc : c.changed x.guid) :
      Edit db c v (v.put i { x with slot, state := .changed })
  | exchange {v : Vault} {i j : Nat} {x y : BankItem} (hi : v.items[i]? = some x)
      (hj : v.items[j]? = some y) (ht : c.tab x.tab) (htab : y.tab = x.tab) (hne : y.slot ≠ x.slot)
      (hx : c.changed x.guid) (hy : c.changed y.guid) :
      Edit db c v ((v.put i { x with slot := y.slot, state := .changed }).put j
        { y with slot := x.slot, state := .changed })
  | add {v : Vault} {x : BankItem} (htab : 1 ≤ x.tab ∧ x.tab ≤ maxTabs)
      (hs : 1 ≤ x.slot ∧ x.slot ≤ bankTabSize) (ht : c.tab x.tab) (hfree : v.Free x.tab x.slot)
      (hguid : x.guid = c.guid) (fresh : c.fresh → ∀ y ∈ v.items, y.guid ≠ c.guid)
      (own : c.good → v.Own x) (typed : (∀ y ∈ v.items, y.Typed db) → x.Typed db)
      (hstate : x.state = .new) (minted : c.mints) : Edit db c v (v.append x)
  | drop {v : Vault} {i : Nat} {x : BankItem} (hi : v.items[i]? = some x) (ht : c.tab x.tab) :
      Edit db c v (v.discard i x)
  | stray {v : Vault} {x : BankItem} (hs : c.swaps) (own : c.good → v.Own x)
      (hguid : ∃ y ∈ v.items, y.guid = x.guid) : Edit db c v (v.queueRemoved x)
  | flush {v : Vault} : Edit db c v v.flush

/-- Items in different slots have different indices. -/
theorem index_ne {items : List BankItem} {i j : Nat} {x y : BankItem} (hi : items[i]? = some x)
    (hj : items[j]? = some y) (hne : y.slot ≠ x.slot) : i ≠ j := by
  rintro rfl
  exact hne (congrArg BankItem.slot (Option.some.inj (hj.symm.trans hi)))

/-- Every item belongs to the bank. -/
def Vault.Tagged (v : Vault) : Prop := ∀ x ∈ v.items, v.Own x

section Tagged

variable {db : ItemDb} {c : Terms} {v v' : Vault} {x : BankItem} {i : Nat}

theorem Vault.Tagged.put (h : v.Tagged) (hx : v.Own x) : (v.put i x).Tagged := by
  intro y hy
  obtain hy | rfl := mem_or_eq_of_mem_set hy
  · exact h y hy
  · exact hx

theorem Vault.Tagged.flush (h : v.Tagged) : v.flush.Tagged := by
  unfold Vault.flush
  split_ifs
  · exact h
  · intro y hy
    obtain ⟨z, hz, rfl⟩ := mem_map.mp hy
    exact h z hz

theorem Edit.tagged (hg : c.good) (h : v.Tagged) (e : Edit db c v v') : v'.Tagged := by
  cases e with
  | set hi ht hx own => exact h.put (own hg)
  | relocate hi =>
    have hx := h _ (mem_of_getElem? hi)
    exact h.put hx
  | exchange hi hj =>
    have hx := h _ (mem_of_getElem? hi)
    have hy := h _ (mem_of_getElem? hj)
    exact Vault.Tagged.put (Vault.Tagged.put h hx) hy
  | add htab hs ht hfree hguid fresh own =>
    intro y hy
    obtain hy | hy := mem_append.mp hy
    · exact h y hy
    · rw [mem_singleton.mp hy]; exact own hg
  | drop => exact fun y hy => h y (mem_of_mem_eraseIdx hy)
  | stray => exact h
  | flush => exact h.flush

theorem Vault.flush_map {κ : Type} {f : BankItem → κ}
    (hf : ∀ y, f { y with state := .unchanged } = f y) : v.flush.items.map f = v.items.map f := by
  unfold Vault.flush
  split_ifs
  · rfl
  · rw [map_map]
    exact map_congr_left fun y _ => hf y

/-- An edit is of one bank. -/
theorem Edit.bank (e : Edit db c v v') :
    v'.guildid = v.guildid ∧ v'.infernoBank = v.infernoBank := by
  cases e with
  | flush =>
    unfold Vault.flush
    split_ifs <;> exact ⟨rfl, rfl⟩
  | _ => exact ⟨rfl, rfl⟩

end Tagged

/-! ## Guids -/

namespace GuildBank

variable {b : GuildBank}

/-- `GetNewGuid` has come around: the largest guid is in use, and so is the one after it. -/
def GuidsSpent (b : GuildBank) : Prop :=
  (∃ it ∈ b.items, it.guid = 0) ∧ ∃ it ∈ b.items, it.guid = 4294967295

instance : Decidable b.GuidsSpent := by
  unfold GuidsSpent
  infer_instance

/-- The largest guid, as the loop of `GetNewGuid` finds it. -/
def maxGuid (items : List BankItem) (g : UInt32) : UInt32 :=
  items.foldl (fun g it => if it.guid > g then it.guid else g) g

theorem maxGuid_spec (items : List BankItem) (g : UInt32) :
    g ≤ maxGuid items g ∧ (∀ it ∈ items, it.guid ≤ maxGuid items g) ∧
      (maxGuid items g = g ∨ ∃ it ∈ items, it.guid = maxGuid items g) := by
  induction items generalizing g with
  | nil => exact ⟨UInt32.le_refl _, nofun, .inl rfl⟩
  | cons a items ih =>
    obtain ⟨h1, h2, h3⟩ := ih (if a.guid > g then a.guid else g)
    have hstep : maxGuid (a :: items) g = maxGuid items (if a.guid > g then a.guid else g) := rfl
    rw [hstep]
    generalize maxGuid items (if a.guid > g then a.guid else g) = m at h1 h2 h3
    have hag : a.guid ≤ m ∧ g ≤ m := by
      split_ifs at h1 with hgt
      · have := lt_toNat.mp hgt
        have := le_toNat.mp h1
        exact ⟨h1, le_toNat.mpr (by omega)⟩
      · have := mt lt_toNat.mpr hgt
        have := le_toNat.mp h1
        exact ⟨le_toNat.mpr (by omega), h1⟩
    refine ⟨hag.2, ?_, ?_⟩
    · intro it hit
      obtain rfl | hit := mem_cons.mp hit
      · exact hag.1
      · exact h2 it hit
    · obtain h3 | ⟨it, hit, h3⟩ := h3
      · split_ifs at h3 with hgt
        · exact .inr ⟨a, mem_cons_self, h3.symm⟩
        · exact .inl h3
      · exact .inr ⟨it, mem_cons_of_mem _ hit, h3⟩

/-- A new guid is in use if and only if the guids are spent. -/
theorem getNewGuid_fresh_iff :
    (∀ it ∈ b.items, it.guid ≠ b.getNewGuid) ↔ ¬ b.GuidsSpent := by
  obtain ⟨-, hle, hmax⟩ := maxGuid_spec b.items 0
  have hnew : b.getNewGuid = maxGuid b.items 0 + 1 := rfl
  have hlt := (maxGuid b.items 0).toNat_lt
  have hadd : (maxGuid b.items 0 + 1).toNat = ((maxGuid b.items 0).toNat + 1) % 2 ^ 32 :=
    UInt32.toNat_add _ _
  rw [hnew]
  constructor
  · rintro hfresh ⟨⟨x, hx, hx0⟩, y, hy, hy1⟩
    have hy := le_toNat.mp (hle y hy)
    rw [hy1] at hy
    refine hfresh x hx ?_
    rw [hx0, eq_toNat, hadd]
    have h1 : (4294967295 : UInt32).toNat = 4294967295 := rfl
    have h0 : (0 : UInt32).toNat = 0 := rfl
    omega
  · intro hspent x hx hxg
    have hx' := le_toNat.mp (hle x hx)
    rw [hxg, hadd] at hx'
    have htop : (maxGuid b.items 0).toNat = 4294967295 := by omega
    refine hspent ⟨⟨x, hx, ?_⟩, ?_⟩
    · rw [hxg, eq_toNat, hadd, htop]; rfl
    · obtain h0 | ⟨y, hy, hyg⟩ := hmax
      · rw [h0] at htop; exact absurd htop (by decide)
      · exact ⟨y, hy, by rw [hyg, eq_toNat, htop]; rfl⟩

/-- The column of the table holds the next guid. -/
def GuidsLeft (b : GuildBank) : Prop := ∀ it ∈ b.items, it.guid < 2147483647

instance : Decidable b.GuidsLeft := by
  unfold GuidsLeft
  infer_instance

theorem GuidsLeft.not_spent (h : b.GuidsLeft) : ¬ b.GuidsSpent := by
  rintro ⟨-, y, hy, hguid⟩
  have hlt := h y hy
  rw [hguid] at hlt
  exact absurd hlt (by decide)

theorem GuidsLeft.getNewGuid_lt (h : b.GuidsLeft) : b.getNewGuid < guidLimit := by
  obtain ⟨-, -, hmax⟩ := maxGuid_spec b.items 0
  have hlt : (maxGuid b.items 0).toNat < 2147483647 := by
    obtain h0 | ⟨y, hy, hguid⟩ := hmax
    · rw [h0]; decide
    · rw [← hguid]; exact lt_toNat.mp (h y hy)
  have hnew : b.getNewGuid = maxGuid b.items 0 + 1 := rfl
  have hadd : (maxGuid b.items 0 + 1).toNat = ((maxGuid b.items 0).toNat + 1) % 2 ^ 32 :=
    UInt32.toNat_add _ _
  have hlimit : guidLimit.toNat = 2147483648 := rfl
  rw [hnew, lt_toNat, hadd, hlimit]
  omega

theorem getNewGuid_congr {b' : GuildBank} (h : b'.items.map (·.guid) = b.items.map (·.guid)) :
    b'.getNewGuid = b.getNewGuid := by
  have hmap : ∀ items : List BankItem, ∀ g, maxGuid items g =
      (items.map (·.guid)).foldl (fun g x => if x > g then x else g) g := fun items g => by
    unfold maxGuid; rw [foldl_map]
  show maxGuid b'.items 0 + 1 = maxGuid b.items 0 + 1
  rw [hmap, hmap, h]

end GuildBank

/-! ## Edited worlds -/

/-- What the item commands leave alone. -/
structure Frame where
  rank : Nat
  tabInfo : FinMap Nat BankTab
  tabs : Nat
  money : UInt32
  saveLock : Bool
  /-- The rows of other banks in `guild_bank_money`. -/
  otherMoney : List MoneyRow
  /-- The rows of other banks in `guild_bank_tabs`. -/
  otherTabs : List TabsRow

namespace World

variable {db : ItemDb} (w : World db)

def vault : Vault :=
  { guildid := w.bank.guildid, infernoBank := w.bank.infernoBank, items := w.bank.items
    queue := w.bank.itemUpdateQueue, rows := w.tables.items }

def frame : Frame :=
  { rank := w.player.rank, tabInfo := w.bank.tabInfo, tabs := w.bank.tabs, money := w.bank.money
    saveLock := w.bank.saveLock
    otherMoney := w.tables.money.filter fun r =>
      ¬ (r.guildid = w.bank.guildid ∧ r.isInferno = w.bank.infernoBank)
    otherTabs := w.tables.tabs.filter fun r =>
      ¬ (r.guildid = w.bank.guildid ∧ r.isInferno = w.bank.infernoBank) }

/-- The player may use the tab. -/
def MayUse (tab : Nat) : Prop :=
  1 ≤ tab ∧ tab ≤ maxTabs ∧ w.player.rank ≤ (w.bank.tabInfoAt tab).minrank.toNat

/-- `w'` comes from `w` by edits on the terms `c`. -/
structure Edited (c : Terms) (w w' : World db) : Prop where
  edits : Relation.ReflTransGen (Edit db c) w.vault w'.vault
  frame : w'.frame = w.frame

/-- The terms `c` are those of the world. -/
structure Fit (c : Terms) (w : World db) : Prop where
  tab : ∀ t, w.MayUse t → c.tab t
  tagged : c.good → w.vault.Tagged

/-- An item may be created, and it has the guid of the terms. -/
structure Mint (c : Terms) (w : World db) : Prop where
  mints : c.mints
  guid : w.bank.getNewGuid = c.guid
  fresh : c.fresh → ∀ y ∈ w.bank.items, y.guid ≠ c.guid

variable {w} {w₁ w₂ : World db} {c : Terms}

theorem Edited.same (hv : w₁.vault = w.vault) (hf : w₁.frame = w.frame) : Edited c w w₁ :=
  ⟨by rw [hv], hf⟩

theorem Edited.one (e : Edit db c w.vault w₁.vault) (hf : w₁.frame = w.frame) : Edited c w w₁ :=
  ⟨.single e, hf⟩

theorem Edited.trans (h₁ : Edited c w w₁) (h₂ : Edited c w₁ w₂) : Edited c w w₂ :=
  ⟨h₁.edits.trans h₂.edits, h₂.frame.trans h₁.frame⟩

theorem mayUse_congr (hf : w₁.frame = w.frame) (t : Nat) : w₁.MayUse t ↔ w.MayUse t := by
  have h1 : w₁.player.rank = w.player.rank := congrArg Frame.rank hf
  have h2 : w₁.bank.tabInfo = w.bank.tabInfo := congrArg Frame.tabInfo hf
  unfold MayUse GuildBank.tabInfoAt
  rw [h1, h2]

theorem tagged_of_edits {v v' : Vault} (hg : c.good) (h : v.Tagged)
    (he : Relation.ReflTransGen (Edit db c) v v') : v'.Tagged := by
  induction he with
  | refl => exact h
  | tail _ e ih => exact e.tagged hg ih

theorem edits_bank {v v' : Vault} (h : Relation.ReflTransGen (Edit db c) v v') :
    v'.guildid = v.guildid ∧ v'.infernoBank = v.infernoBank := by
  induction h with
  | refl => exact ⟨rfl, rfl⟩
  | tail _ e ih => exact ⟨e.bank.1.trans ih.1, e.bank.2.trans ih.2⟩

theorem Edited.bank (h : Edited c w w₁) :
    w₁.vault.guildid = w.vault.guildid ∧ w₁.vault.infernoBank = w.vault.infernoBank :=
  edits_bank h.edits

theorem Fit.edited (h : Fit c w) (he : Edited c w w₁) : Fit c w₁ :=
  ⟨fun t ht => h.tab t ((mayUse_congr he.frame t).mp ht),
    fun hg => tagged_of_edits hg (h.tagged hg) he.edits⟩

theorem Mint.congr (h : Mint c w) (hi : w₁.bank.items.map (·.guid) = w.bank.items.map (·.guid)) :
    Mint c w₁ := by
  refine ⟨h.mints, by rw [GuildBank.getNewGuid_congr hi]; exact h.guid, fun hg y hy he => ?_⟩
  obtain ⟨z, hz, hzy⟩ := mem_map.mp (hi ▸ mem_map_of_mem hy)
  exact h.fresh hg z hz (hzy.trans he)

end World

/-- A tab that has passed the check is one the player may use. -/
theorem TabOk.mayUse {db : ItemDb} {env : Env} {w : World db} {bankTab : Nat} {action : GuildBankAction}
    (h : TabOk env w bankTab action) (ha : action ≠ .withdrawMoney) : w.MayUse bankTab := by
  refine ⟨h.pos, h.le, ?_⟩
  have hacc := h.access
  unfold World.canAccessTab at hacc
  rw [if_neg ha] at hacc
  split_ifs at hacc with h1 h2 h3
  exact Nat.le_of_not_lt h3

end Windrunner
