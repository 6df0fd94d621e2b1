import Windrunner.GuildBank.Reach

/-!
# Slots and guids

In a reachable bank the stack limits are those of the templates (`reachable_typed`), no two items
share a guid or a slot, and every slot is one of its tab (`reachable_arranged`). The latter has two
exceptions: an `UnlockGuildBank:Ok` for a bank that is unlocked already loads every item a second
time, and `GetNewGuid` comes around once the largest guid is in use.
-/

namespace Windrunner

open Lib List

variable {db : ItemDb}

def BankItem.place (it : BankItem) : Nat × Nat := (it.tab, it.slot)

def BankItem.InRange (it : BankItem) : Prop :=
  (1 ≤ it.tab ∧ it.tab ≤ maxTabs) ∧ 1 ≤ it.slot ∧ it.slot ≤ bankTabSize

/-- No two items share a guid or a slot, and every slot exists. -/
structure Arranged (items : List BankItem) : Prop where
  guids : Keyed (·.guid) items
  places : Keyed BankItem.place items
  range : ∀ it ∈ items, it.InRange

namespace Arranged

variable {items : List BankItem} {i j : Nat} {x y : BankItem}

theorem nil : Arranged [] := ⟨.nil, .nil, nofun⟩

section

variable (h : Arranged items)
include h

theorem range_set {x' : BankItem} (hx : x'.InRange) :
    ∀ it ∈ items.set i x', it.InRange := by
  intro it hit
  obtain hit | rfl := mem_or_eq_of_mem_set hit
  · exact h.range it hit
  · exact hx

/-- An item is written without its guid and slot. -/
theorem set {x' : BankItem} (hi : items[i]? = some x)
    (hg : x'.guid = x.guid) (hp : x'.place = x.place) : Arranged (items.set i x') := by
  refine ⟨h.guids.set_key hi hg, h.places.set_key hi hp, h.range_set ?_⟩
  have hr := h.range x (mem_of_getElem? hi)
  obtain ⟨ht, hs⟩ := Prod.mk.inj hp
  unfold BankItem.InRange
  rw [ht, hs]
  exact hr

/-- An item moves to a free slot. -/
theorem relocate {x' : BankItem} (hi : items[i]? = some x)
    (hg : x'.guid = x.guid) (hr : x'.InRange) (hfree : ∀ y ∈ items, y.place ≠ x'.place) :
    Arranged (items.set i x') :=
  ⟨h.guids.set_key hi hg, h.places.set_fresh hfree, h.range_set hr⟩

/-- Two items of one tab exchange their slots. -/
theorem exchange (hi : items[i]? = some x) (hj : items[j]? = some y)
    (htab : y.tab = x.tab) (hne : y.slot ≠ x.slot) :
    Arranged ((items.set i { x with slot := y.slot, state := .changed }).set j
      { y with slot := x.slot, state := .changed }) := by
  have hrx := h.range x (mem_of_getElem? hi)
  have hry := h.range y (mem_of_getElem? hj)
  have hij := index_ne hi hj hne
  let x' : BankItem := { x with slot := y.slot, state := .changed }
  have hj' : (items.set i x')[j]? = some y := by rw [getElem?_set_ne hij]; exact hj
  have hg : Keyed (·.guid) (items.set i x') := h.guids.set_key hi rfl
  have hx' : x'.InRange := ⟨hrx.1, hry.2⟩
  refine ⟨hg.set_key hj' rfl, ?_, ?_⟩
  · refine h.places.exchange hi hj ?_ ?_
    · show (x.tab, y.slot) = (y.tab, y.slot)
      rw [htab]
    · show (y.tab, x.slot) = (x.tab, x.slot)
      rw [htab]
  · intro it hit
    obtain hit | rfl := mem_or_eq_of_mem_set hit
    · exact h.range_set hx' it hit
    · exact ⟨hry.1, hrx.2⟩

theorem concat (hg : ∀ y ∈ items, y.guid ≠ x.guid)
    (hp : ∀ y ∈ items, y.place ≠ x.place) (hr : x.InRange) : Arranged (items ++ [x]) := by
  refine ⟨h.guids.concat hg, h.places.concat hp, fun it hit => ?_⟩
  obtain hit | hit := mem_append.mp hit
  · exact h.range it hit
  · rw [mem_singleton.mp hit]; exact hr

theorem eraseIdx (i : Nat) : Arranged (items.eraseIdx i) :=
  ⟨h.guids.eraseIdx i, h.places.eraseIdx i, fun it hit => h.range it (mem_of_mem_eraseIdx hit)⟩

end

theorem flush {v : Vault} (h : Arranged v.items) : Arranged v.flush.items := by
  refine ⟨?_, ?_, ?_⟩
  · unfold Keyed
    rw [Vault.flush_map fun _ => rfl]
    exact h.guids
  · unfold Keyed
    rw [Vault.flush_map fun _ => rfl]
    exact h.places
  · unfold Vault.flush
    split_ifs
    · exact h.range
    · intro it hit
      obtain ⟨y, hy, rfl⟩ := mem_map.mp hit
      exact h.range y hy

/-- With a fresh guid an edit keeps the arrangement. -/
theorem edit {c : Terms} {v v' : Vault} (hg : c.fresh) (h : Arranged v.items)
    (e : Edit db c v v') : Arranged v'.items := by
  have free : ∀ {tab slot : Nat}, v.Free tab slot → ∀ y ∈ v.items, y.place ≠ (tab, slot) :=
    fun hf y hy he => hf y hy (Prod.mk.inj he)
  cases e with
  | set hi ht hx own => exact h.set hi hx.guid (by unfold BankItem.place; rw [hx.tab, hx.slot])
  | relocate hi ht hs hfree =>
    have hr := h.range _ (mem_of_getElem? hi)
    exact h.relocate hi rfl ⟨hr.1, hs⟩ (free hfree)
  | exchange hi hj ht htab hne => exact h.exchange hi hj htab hne
  | add htab hs ht hfree hguid fresh =>
    refine h.concat (fun y hy => ?_) (free hfree) ⟨htab, hs⟩
    rw [hguid]
    exact fresh hg y hy
  | drop hi => exact h.eraseIdx _
  | stray => exact h
  | flush => exact h.flush

theorem edits {c : Terms} {v v' : Vault} (hg : c.fresh) (h : Arranged v.items)
    (e : Relation.ReflTransGen (Edit db c) v v') : Arranged v'.items := by
  induction e with
  | refl => exact h
  | tail _ e ih => exact ih.edit hg e

end Arranged

/-! ## Loading -/

/-- The rows of a bank have distinct guids and slots, and every slot exists. -/
structure RowsOk (rows : List ItemRow) : Prop where
  guids : Keyed (·.guid) rows
  places : Keyed (fun r : ItemRow => (r.tab, r.slot)) rows
  range : ∀ r ∈ rows, (1 ≤ r.tab ∧ r.tab ≤ maxTabs) ∧ 1 ≤ r.slot ∧ r.slot ≤ bankTabSize

section Load

variable {r : ItemRow} {rows : List ItemRow}

/-- What does not depend on the prototype is read from the row. -/
theorem loadItem_fields (r : ItemRow) :
    (GuildBank.loadItem db r).guid = r.guid ∧ (GuildBank.loadItem db r).guildid = r.guildid ∧
      (GuildBank.loadItem db r).isInferno = r.isInferno ∧
      (GuildBank.loadItem db r).place = (r.tab % 256, r.slot % 256) := by
  unfold GuildBank.loadItem
  dsimp only
  cases db.get r.itemTemplate <;> exact ⟨rfl, rfl, rfl, rfl⟩

theorem loadItem_place (h : (1 ≤ r.tab ∧ r.tab ≤ maxTabs) ∧ 1 ≤ r.slot ∧ r.slot ≤ bankTabSize) :
    (GuildBank.loadItem db r).place = (r.tab, r.slot) := by
  have h5 : maxTabs = 5 := rfl
  have h98 : bankTabSize = 98 := rfl
  rw [(loadItem_fields r).2.2.2, Nat.mod_eq_of_lt (by omega), Nat.mod_eq_of_lt (by omega)]

theorem arranged_load (h : RowsOk rows) : Arranged (rows.map (GuildBank.loadItem db)) := by
  refine ⟨h.guids.map fun r _ => (loadItem_fields r).1,
    h.places.map fun r hr => loadItem_place (h.range r hr), fun it hit => ?_⟩
  obtain ⟨r, hr, rfl⟩ := mem_map.mp hit
  obtain ⟨ht, hs⟩ := Prod.mk.inj (@loadItem_place db r (h.range r hr))
  unfold BankItem.InRange
  rw [ht, hs]
  exact h.range r hr

theorem tagged_load {v : Vault} (h : v.Tagged) : (v.load db).Tagged := by
  intro x hx
  obtain hx | hx := mem_append.mp hx
  · exact h x hx
  · obtain ⟨r, hr, rfl⟩ := mem_map.mp hx
    have hown : r.guildid = v.guildid ∧ r.isInferno = v.infernoBank := by
      simpa using (mem_filter.mp hr).2
    obtain ⟨-, hg, hi, -⟩ := @loadItem_fields db r
    exact ⟨hg.trans hown.1, hi.trans hown.2⟩

theorem typed_loadItem (r : ItemRow) : (GuildBank.loadItem db r).Typed db := by
  intro proto hget
  unfold GuildBank.loadItem at hget ⊢
  dsimp only at hget ⊢
  cases hr : db.get r.itemTemplate with
  | none =>
    rw [hr] at hget
    dsimp only at hget
    rw [hr] at hget
    cases hget
  | some proto' =>
    rw [hr] at hget
    dsimp only at hget
    rw [hr] at hget
    exact congrArg ItemPrototype.stackable (Option.some.inj hget)

end Load

/-! ## Stack limits -/

/-- The stack limits of the items are those of their templates. -/
def Vault.Typed (db : ItemDb) (v : Vault) : Prop := ∀ y ∈ v.items, y.Typed db

section Typed

variable {c : Terms} {v v' : Vault} {x : BankItem} {i : Nat}

theorem Vault.Typed.put (h : v.Typed db) (hx : x.Typed db) : (v.put i x).Typed db := by
  intro y hy
  obtain hy | rfl := mem_or_eq_of_mem_set hy
  · exact h y hy
  · exact hx

theorem Vault.Typed.flush (h : v.Typed db) : v.flush.Typed db := by
  unfold Vault.flush
  split_ifs
  · exact h
  · intro y hy
    obtain ⟨z, hz, rfl⟩ := mem_map.mp hy
    exact h z hz

theorem Vault.Typed.load (h : v.Typed db) : (v.load db).Typed db := by
  intro y hy
  obtain hy | hy := mem_append.mp hy
  · exact h y hy
  · obtain ⟨r, -, rfl⟩ := mem_map.mp hy
    exact typed_loadItem r

theorem Edit.typed (h : v.Typed db) (e : Edit db c v v') : v'.Typed db := by
  cases e with
  | set hi ht hx => exact h.put (hx.typed (h _ (mem_of_getElem? hi)))
  | relocate hi =>
    have hx := h _ (mem_of_getElem? hi)
    exact h.put hx
  | exchange hi hj =>
    have hx := h _ (mem_of_getElem? hi)
    have hy := h _ (mem_of_getElem? hj)
    exact Vault.Typed.put (Vault.Typed.put h hx) hy
  | add htab hs ht hfree hguid fresh own typed =>
    intro y hy
    obtain hy | hy := mem_append.mp hy
    · exact h y hy
    · rw [mem_singleton.mp hy]; exact typed h
  | drop => exact fun y hy => h y (mem_of_mem_eraseIdx hy)
  | stray => exact h
  | flush => exact h.flush

theorem typed_of_edits (h : v.Typed db) (he : Relation.ReflTransGen (Edit db c) v v') :
    v'.Typed db := by
  induction he with
  | refl => exact h
  | tail _ e ih => exact e.typed ih

end Typed

/-! ## Reachable banks -/

namespace World

variable {env : Env} {w : World db}

/-- The bank is not unlocked and has no items. -/
def Locked (w : World db) : Prop := w.bank.tabs = 0 ∧ w.bank.items = []

theorem typed_start {t : Tables} {guildid : Nat} {infernoBank : Bool} {player : Player db} :
    (start env t guildid infernoBank player).vault.Typed db := by
  have hblank : (blank t guildid infernoBank).Typed db := nofun
  obtain ⟨h | ⟨h, -⟩, -⟩ := @start_vault db env t guildid infernoBank player
  · rw [h]; exact hblank.load
  · rw [h]; exact hblank

/-- In every run from a loaded bank the stack limits are those of the templates. -/
theorem reachable_typed {t : Tables} {guildid : Nat} {infernoBank : Bool} {player : Player db}
    (is : List (Input db)) : (run step (start env t guildid infernoBank player) is).bank.Typed db := by
  have hok : ∀ (w : World db) (i : Input db),
      StepOk (fun _ => True) (fun _ _ _ _ => True) w i := by
    intro w i
    cases i with
    | message env player msg =>
      exact ⟨fun _ => trivial, fun _ => AlongRun.of_forall fun _ _ _ => trivial⟩
    | save => trivial
  have hstart : Held (Vault.Typed db) (fun _ => True) (start env t guildid infernoBank player) :=
    ⟨typed_start, fun _ => trivial, (start_vault env t guildid infernoBank player).2⟩
  refine (run_held (fun v h => h.flush) (fun _ _ => trivial) ?_ ?_ hstart
    (AlongRun.of_forall hok)).vault
  · exact fun env msg w cmd hmem h _ => typed_of_edits h (command_edits hmem w)
  · exact fun env w h _ => h.unlock h.vault.load trivial

/-- In every run from a loaded bank in which `UnlockGuildBank:Ok` is accepted only for a bank that is
not unlocked, and no deposit or split is executed while the guids are spent, no two items of the bank
share a guid or a slot, and every slot is one of the bank. -/
theorem reachable_arranged {t : Tables} {guildid : Nat} {infernoBank : Bool} {player : Player db}
    {is : List (Input db)}
    (hrows : RowsOk (t.items.filter fun r => r.guildid = guildid ∧ r.isInferno = infernoBank))
    (hrun : AlongRun step (StepOk Locked fun _ _ name w =>
        name = "DepositItem:" ∨ name = "SplitItem:" → ¬ w.bank.GuidsSpent)
      (start env t guildid infernoBank player) is) :
    Arranged (run step (start env t guildid infernoBank player) is).bank.items := by
  let J : Vault → Prop := fun v => v.Tagged ∧ Arranged v.items
  let K : Vault → Prop := fun v => v.queue = [] ∧ RowsOk v.ownRows
  have hblank : J (blank t guildid infernoBank) := ⟨nofun, .nil⟩
  have hload : ∀ v, v.items = [] → J v → RowsOk v.ownRows → J (v.load db) := by
    intro v hv hj hr
    refine ⟨tagged_load hj.1, ?_⟩
    show Arranged (v.items ++ _)
    rw [hv]
    exact arranged_load hr
  have hstart : Held J K (start env t guildid infernoBank player) := by
    obtain ⟨h | ⟨h, -⟩, hl⟩ := @start_vault db env t guildid infernoBank player
    · exact ⟨by rw [h]; exact hload _ rfl hblank hrows, fun _ => by rw [h]; exact ⟨rfl, hrows⟩, hl⟩
    · exact ⟨by rw [h]; exact hblank, fun _ => by rw [h]; exact ⟨rfl, hrows⟩, hl⟩
  refine (run_held ?_ ?_ ?_ ?_ hstart hrun).vault.2
  · exact fun v h => ⟨h.1.flush, h.2.flush⟩
  · intro v hk
    rw [show v.flush = v from if_pos hk.1]
    exact hk
  · intro env msg w cmd hmem hj hspent
    have he := command_edits hmem w
    exact ⟨tagged_of_edits hj.1 hj.1 he, hj.2.edits hspent he⟩
  · intro env w h hf
    have hk := h.locked hf.1
    exact h.unlock (hload _ hf.2 h.vault hk.2) hk

end World

/-! ## A bank with one stack of cloth -/

/-- Five pieces of cloth in the first slot of the first tab. -/
def clothRow : ItemRow :=
  { guildid := 1, guid := 1, isInferno := false, tab := 1, slot := 1, itemTemplate := 2589
    creatorGuid := 0, giftCreatorGuid := 0, count := 5, duration := 0, charges := [], flags := 0
    enchantments := [], randomPropertyId := 0, transmogrifyId := 0, durability := 0, text := 0
    generatedLoot := false }

/-- The tables of a guild with one unlocked bank. -/
def clothTables : Tables :=
  { items := [clothRow]
    money := [{ guildid := 1, isInferno := false, money := 0 }]
    tabs := [{ guildid := 1, isInferno := false, tabs := 1, info := defaultTabs }] }

/-- A rich guild master without belongings. -/
def master : Player sampleDb := { guid := 1, rank := 0, money := 50000000, inv := Inventory.empty 1 }

theorem clothTables_rows :
    RowsOk (clothTables.items.filter fun r => r.guildid = 1 ∧ r.isInferno = false) :=
  ⟨by unfold Keyed; decide, by unfold Keyed; decide, by decide⟩

/-- The guild master unlocks the bank once more: the cloth is there twice. -/
theorem clothTables_doubled :
    RowsOk (clothTables.items.filter fun r => r.guildid = 1 ∧ r.isInferno = false) ∧
      ¬ Arranged (run World.step (World.start {} clothTables 1 false master)
        [.message {} master "UnlockGuildBank:Ok".toList]).bank.items := by
  refine ⟨clothTables_rows, fun h => ?_⟩
  have hitems : (run World.step (World.start {} clothTables 1 false master)
      [.message {} master "UnlockGuildBank:Ok".toList]).bank.items.map (·.guid) = [1, 1] := by
    decide
  have hg := h.guids
  unfold Keyed at hg
  rw [hitems] at hg
  exact absurd hg (by decide)

/-- The cloth is moved to the second slot and saved. -/
theorem clothTables_moved :
    RowsOk (clothTables.items.filter fun r => r.guildid = 1 ∧ r.isInferno = false) ∧
      Arranged (run World.step (World.start {} clothTables 1 false master)
        [.message {} master "MoveItem:1:1:2".toList, .save]).bank.items := by
  refine ⟨clothTables_rows, World.reachable_arranged clothTables_rows ⟨⟨?_, ?_⟩, trivial, trivial⟩⟩
  · exact fun h => absurd h.2.1 (by decide)
  · exact fun _ => by decide

end Windrunner
