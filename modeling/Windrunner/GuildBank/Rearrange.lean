import Windrunner.GuildBank.Slots
import Windrunner.GuildBank.Swap

/-!
# Moves and splits only rearrange

* `Rearranged`: what a move or split leaves alone: the player, every item outside the two slots it
  names, and everything when it is not announced to the guild.
* `MoveExact`, `SplitExact`: the counts a message adds and subtracts stay within their `uint32`.
* `moves_splits_rearrange`: every message rearranges, and it keeps the units of every template
  exactly when its counts are exact.
-/

namespace Windrunner

open Lib

variable {db : ItemDb}

/-- The items outside some slots, without the mark that they wait for a save. -/
def elsewhere (named : BankItem → Bool) (items : List BankItem) : List BankItem :=
  (items.filter fun x => !named x).map ({ · with state := .unchanged })

section Elsewhere

variable {named : BankItem → Bool} {items : List BankItem} {x x' : BankItem} {i : Nat}

theorem elsewhere_set (hi : items[i]? = some x) (hx : named x = true) (hx' : named x' = true) :
    elsewhere named (items.set i x') = elsewhere named items := by
  unfold elsewhere
  rw [filter_set_of_not hi (by simp [hx]) (by simp [hx'])]

theorem elsewhere_concat (hx : named x = true) :
    elsewhere named (items ++ [x]) = elsewhere named items := by
  simp [elsewhere, hx]

theorem elsewhere_eraseIdx (hi : items[i]? = some x) (hx : named x = true) :
    elsewhere named (items.eraseIdx i) = elsewhere named items := by
  unfold elsewhere
  rw [filter_eraseIdx_of_not hi (by simp [hx])]

theorem GuildBank.SameItems.elsewhere_eq {b b' : GuildBank} (h : b.SameItems b')
    (hn : ∀ x s, named { x with state := s } = named x) :
    elsewhere named b'.items = elsewhere named b.items := by
  obtain ⟨g, hg⟩ := h
  have hp : (fun x => !named x) ∘ (fun x : BankItem => { x with state := g x }) =
      fun x => !named x := by
    funext x
    simp [hn]
  unfold elsewhere
  rw [hg, List.filter_map, hp, List.map_map]
  rfl

end Elsewhere

theorem GuildBank.Holds.unique {b : GuildBank} {tab slot i i' : Nat} {x x' : BankItem}
    (h : b.Holds tab slot i x) (h' : b.Holds tab slot i' x') : i = i' ∧ x = x' := by
  obtain rfl := Option.some.inj (h.1.symm.trans h'.1)
  exact ⟨rfl, Option.some.inj (h.2.symm.trans h'.2)⟩

namespace World

variable {env : Env} {w w' : World db} {msg : Text} {named : BankItem → Bool} {i j : Nat}
  {sItem dItem : BankItem} {bankTab fromSlot toSlot : Nat} {split : UInt32}

/-- The item is in one of the two slots that a `MoveItem` message names. -/
def moveNames (msg : Text) (x : BankItem) : Bool :=
  (moveParams msg).any fun q =>
    x.tab == q.bankTab.toNat && (x.slot == q.fromSlot.toNat || x.slot == q.toSlot.toNat)

/-- The item is in one of the two slots that a `SplitItem` message names. -/
def splitNames (msg : Text) (x : BankItem) : Bool :=
  (splitParams msg).any fun q =>
    x.tab == q.bankTab.toNat && (x.slot == q.fromSlot.toNat || x.slot == q.toSlot.toNat)

/-- The one reply is the announcement of a change to the guild; every other message is rejected. -/
def Announced (w w' : World db) : Prop := ∃ text, w'.sent = w.sent ++ [.guild text]

/-- What a message about the slots `named` leaves alone. -/
structure Rearranged (named : BankItem → Bool) (w w' : World db) : Prop where
  player : w'.player = w.player
  others : elsewhere named w'.bank.items = elsewhere named w.bank.items
  rejected : ¬ w.Announced w' → w'.bank = w.bank ∧ w'.tables = w.tables

/-- The units of every template in the bank stay the same. -/
def SameUnits (w w' : World db) : Prop := ∀ e, w'.bank.units e = w.bank.units e

/-! ## Counts -/

/-- The sum of the counts is a `uint32`, and what is filled up is filled to the same limit. -/
def MergeExact (sItem dItem : BankItem) : Prop :=
  sItem.count.toNat + dItem.count.toNat < 4294967296 ∧
    (sItem.count.toNat + dItem.count.toNat ≤ sItem.maxStackSize.toNat ∨
      sItem.maxStackSize = dItem.maxStackSize)

/-- Neither count wraps around, or both do. -/
def SplitExact (split : UInt32) (sItem dItem : BankItem) : Prop :=
  split.toNat ≤ sItem.count.toNat ↔ dItem.count.toNat + split.toNat < 4294967296

/-- When a `MoveItem` message merges two stacks, the counts are exact. -/
def MoveExact (env : Env) (w : World db) (msg : Text) : Prop :=
  ∀ q i j sItem dItem, moveParams msg = some q →
    SlotsOk env w q.bankTab.toNat q.fromSlot.toNat q.toSlot.toNat .moveItem →
    w.bank.Holds q.bankTab.toNat q.fromSlot.toNat i sItem →
    w.bank.Holds q.bankTab.toNat q.toSlot.toNat j dItem →
    Merges sItem dItem → MergeExact sItem dItem

/-- When a `SplitItem` message puts units on another stack, the counts are exact. -/
def SplitsExact (env : Env) (w : World db) (msg : Text) : Prop :=
  ∀ q i j sItem dItem, splitParams msg = some q →
    SlotsOk env w q.bankTab.toNat q.fromSlot.toNat q.toSlot.toNat .splitItem →
    w.bank.Holds q.bankTab.toNat q.fromSlot.toNat i sItem →
    w.bank.Holds q.bankTab.toNat q.toSlot.toNat j dItem →
    Splits q.split.toUInt32 sItem dItem → SplitExact q.split.toUInt32 sItem dItem

/-! ## What stays -/

/-- The slots of one tab that a message names. -/
def Names (named : BankItem → Bool) (bankTab fromSlot toSlot : Nat) : Prop :=
  ∀ x, named x = true ↔ x.tab = bankTab ∧ (x.slot = fromSlot ∨ x.slot = toSlot)

theorem moveNames_names {q : MoveParams} (h : moveParams msg = some q) :
    Names (moveNames msg) q.bankTab.toNat q.fromSlot.toNat q.toSlot.toNat := by
  intro x
  simp [moveNames, h]

theorem splitNames_names {q : SplitParams} (h : splitParams msg = some q) :
    Names (splitNames msg) q.bankTab.toNat q.fromSlot.toNat q.toSlot.toNat := by
  intro x
  simp [splitNames, h]

section

variable (hn : Names named bankTab fromSlot toSlot)
include hn

theorem Names.from {x : BankItem} (h : x.tab = bankTab ∧ x.slot = fromSlot) : named x = true :=
  (hn x).mpr ⟨h.1, .inl h.2⟩

theorem Names.to {x : BankItem} (h : x.tab = bankTab ∧ x.slot = toSlot) : named x = true :=
  (hn x).mpr ⟨h.1, .inr h.2⟩

theorem Names.state (x : BankItem)
    (s : ItemUpdateState) : named { x with state := s } = named x := by
  apply Bool.eq_iff_iff.mpr
  rw [hn, hn]

end

theorem saveToDB_sent : w.saveToDB.sent = w.sent := by
  unfold saveToDB
  split_ifs <;> rfl

theorem reply_rearranged (rs : List Reply) : Rearranged named w { w with sent := w.sent ++ rs } :=
  ⟨rfl, rfl, fun _ => ⟨rfl, rfl⟩⟩

/-- An announced change of the bank, perhaps with a save. -/
theorem announced_rearranged {text : String} {b : GuildBank}
    (hb : elsewhere named b.items = elsewhere named w.bank.items) :
    Rearranged named w ((w.setBank b).sendGuildMessage text) :=
  ⟨rfl, hb, fun h => absurd ⟨_, rfl⟩ h⟩

theorem saved_rearranged {text : String} {b : GuildBank}
    (hn : ∀ x s, named { x with state := s } = named x)
    (hb : elsewhere named b.items = elsewhere named w.bank.items) :
    Rearranged named w ((w.setBank b).sendGuildMessage text).saveToDB :=
  ⟨by rw [saveToDB_player]; rfl, (saveToDB_sameItems.elsewhere_eq hn).trans hb,
    fun h => absurd ⟨_, by rw [saveToDB_sent]; rfl⟩ h⟩

/-- Two items of the named slots are written in place. -/
theorem elsewhere_setTwo {x y : BankItem} (hi : w.bank.items[i]? = some sItem)
    (hj : w.bank.items[j]? = some dItem) (hij : i ≠ j) (hs : named sItem = true)
    (hd : named dItem = true) (hx : named x = true) (hy : named y = true) :
    elsewhere named (((w.bank.setItem i x).enqueue x).setItem j y |>.enqueue y).items =
      elsewhere named w.bank.items := by
  have hj' : (w.bank.items.set i x)[j]? = some dItem := by
    rw [List.getElem?_set_ne hij]
    exact hj
  have hxy : elsewhere named ((w.bank.items.set i x).set j y) =
      elsewhere named (w.bank.items.set i x) := elsewhere_set hj' hd hy
  exact hxy.trans (elsewhere_set hi hs hx)

theorem moveOver_rearranged (hn : Names named bankTab fromSlot toSlot)
    (hs : w.bank.Holds bankTab fromSlot i sItem) (hd : w.bank.Holds bankTab toSlot j dItem)
    (hne : fromSlot ≠ toSlot) :
    Rearranged named w (w.moveOver bankTab fromSlot toSlot i j sItem dItem) := by
  have hij := holds_ne hs hd hne
  have hsn := hn.from hs.at
  have hdn := hn.to hd.at
  unfold moveOver
  split_ifs
  · apply saved_rearranged hn.state
    exact elsewhere_setTwo hs.2 hd.2 hij hsn hdn (hn.to ⟨hs.at.1, rfl⟩) (hn.from ⟨hd.at.1, rfl⟩)
  · apply announced_rearranged
    -- the destination is written, and the source goes
    let y : BankItem := { dItem with count := sItem.count + dItem.count, state := .changed }
    have hi : (w.bank.items.set j y)[i]? = some sItem := by
      rw [List.getElem?_set_ne hij.symm]
      exact hs.2
    show elsewhere named (((w.bank.items.set j y).set i _).eraseIdx i) = _
    rw [List.eraseIdx_set_eq, elsewhere_eraseIdx hi hsn]
    exact elsewhere_set hd.2 hdn (hn.to hd.at)
  · apply announced_rearranged
    exact elsewhere_setTwo hs.2 hd.2 hij hsn hdn (hn.from hs.at) (hn.to hd.at)

theorem moveItem_rearranged (env : Env) (w : World db) (msg : Text) :
    Rearranged (moveNames msg) w (w.moveItem env msg) := by
  obtain ⟨⟨rs, h⟩, -⟩ | ⟨q, i, sItem, hq, hok, hs, ⟨-, text, h⟩ | ⟨j, dItem, hd, h⟩⟩ :=
    moveItem_cases env w msg
  · rw [h]; exact reply_rearranged rs
  · have hn := moveNames_names hq
    rw [h]
    exact announced_rearranged (elsewhere_set hs.2 (hn.from hs.at) (hn.to ⟨hs.at.1, rfl⟩))
  · rw [h]; exact moveOver_rearranged (moveNames_names hq) hs hd hok.ne

section

variable (hn : Names named bankTab fromSlot toSlot) (hs : w.bank.Holds bankTab fromSlot i sItem)
include hn hs

theorem splitToEmpty_rearranged :
    Rearranged named w (w.splitToEmpty toSlot split i sItem) := by
  have hsn := hn.from hs.at
  unfold splitToEmpty
  split_ifs
  · exact reply_rearranged _
  · exact reply_rearranged _
  · apply saved_rearranged hn.state
    refine (elsewhere_concat ?_).trans (elsewhere_set hs.2 hsn (hn.from hs.at))
    exact hn.to ⟨hs.at.1, rfl⟩

theorem splitOver_rearranged (hd : w.bank.Holds bankTab toSlot j dItem)
    (hne : fromSlot ≠ toSlot) : Rearranged named w (w.splitOver split i j sItem dItem) := by
  unfold splitOver
  split_ifs
  case neg =>
    apply announced_rearranged
    exact elsewhere_setTwo hs.2 hd.2 (holds_ne hs hd hne) (hn.from hs.at) (hn.to hd.at)
      (hn.from hs.at) (hn.to hd.at)
  all_goals exact reply_rearranged _

end

theorem splitItem_rearranged (env : Env) (w : World db) (msg : Text) :
    Rearranged (splitNames msg) w (w.splitItem env msg) := by
  obtain ⟨⟨rs, h⟩, -⟩ | ⟨q, i, sItem, hq, hok, hs, ⟨-, h⟩ | ⟨j, dItem, hd, h⟩⟩ :=
    splitItem_cases env w msg
  · rw [h]; exact reply_rearranged rs
  · rw [h]; exact splitToEmpty_rearranged (splitNames_names hq) hs
  · rw [h]; exact splitOver_rearranged (splitNames_names hq) hs hd hok.ne

/-! ## Units -/

theorem reply_sameUnits (rs : List Reply) : w.SameUnits { w with sent := w.sent ++ rs } :=
  fun _ => rfl

section

variable (hi : w.bank.items[i]? = some sItem) (hj : w.bank.items[j]? = some dItem) (hij : i ≠ j)
include hi hj hij

theorem units_setTwo {x y : BankItem} (e : Nat) :
    (((w.bank.setItem i x).enqueue x).setItem j y |>.enqueue y).units e +
      (sItem.share e + dItem.share e) = w.bank.units e + (x.share e + y.share e) := by
  have hj' : ((w.bank.setItem i x).enqueue x).items[j]? = some dItem := by
    show (w.bank.items.set i x)[j]? = _
    rw [List.getElem?_set_ne hij]
    exact hj
  have h1 := GuildBank.units_setItem hi x e
  have h2 := GuildBank.units_setItem hj' y e
  rw [GuildBank.units_enqueue] at h2 ⊢
  omega

/-- The destination is written, and the source goes. -/
theorem units_mergeInto {y : BankItem} (e : Nat) :
    ((((w.bank.setItem j y).enqueue y).setItem i { sItem with state := .removed } |>.enqueue
      { sItem with state := .removed }).deleteItem i).units e + (sItem.share e + dItem.share e) =
      w.bank.units e + (({ sItem with count := 0 } : BankItem).share e + y.share e) := by
  have hset := units_setTwo (x := y) (y := { sItem with state := .removed }) hj hi hij.symm e
  have hi' : (((w.bank.setItem j y).enqueue y).setItem i { sItem with state := .removed } |>.enqueue
      { sItem with state := .removed }).items[i]? = some { sItem with state := .removed } := by
    show ((w.bank.items.set j y).set i _)[i]? = _
    rw [List.getElem?_set_self]
    rw [List.length_set]
    exact (List.getElem?_eq_some_iff.mp hi).1
  have hdel := GuildBank.units_deleteItem hi' e
  have hzero : ({ sItem with count := 0 } : BankItem).share e = 0 := by simp [BankItem.share]
  have hmark : ({ sItem with state := .removed } : BankItem).share e = sItem.share e := rfl
  omega

end

/-- Two stacks of one template are written: the units stay if the two counts add up. -/
theorem sameUnits_iff {x y : BankItem} {n : GuildBank}
    (hsd : sItem.itemTemplate = dItem.itemTemplate) (hx : x.itemTemplate = sItem.itemTemplate) (hy : y.itemTemplate = dItem.itemTemplate)
    (h : ∀ e, n.units e + (sItem.share e + dItem.share e) =
      w.bank.units e + (x.share e + y.share e)) :
    (∀ e, n.units e = w.bank.units e) ↔
      x.count.toNat + y.count.toNat = sItem.count.toNat + dItem.count.toNat := by
  constructor
  · intro hu
    have he := h dItem.itemTemplate
    rw [hu] at he
    simp only [BankItem.share, hx, hy, hsd, if_true] at he
    omega
  · intro hc e
    have he := h e
    simp only [BankItem.share, hx, hy, hsd] at he
    split_ifs at he <;> omega

/-- Two stacks that fit on one. -/
theorem merge_exact_iff {s d m n : UInt32} (hfit : s + d ≤ m) :
    (s + d).toNat = s.toNat + d.toNat ↔
      s.toNat + d.toNat < 4294967296 ∧ (s.toNat + d.toNat ≤ m.toNat ∨ m = n) := by
  have hfit := le_toNat.mp hfit
  have hm := toNat_lt32 m
  rw [UInt32.toNat_add] at hfit ⊢
  omega

/-- The part of a stack that fills another one up. -/
theorem fill_exact_iff {s d m n : UInt32} (hfit : ¬ s + d ≤ m) :
    (s - (m - d)).toNat + n.toNat = s.toNat + d.toNat ↔
      s.toNat + d.toNat < 4294967296 ∧ (s.toNat + d.toNat ≤ m.toNat ∨ m = n) := by
  have hfit := mt le_toNat.mpr hfit
  have hs := toNat_lt32 s
  have hd := toNat_lt32 d
  have hm := toNat_lt32 m
  have hn := toNat_lt32 n
  rw [eq_toNat, UInt32.toNat_sub, UInt32.toNat_sub]
  rw [UInt32.toNat_add] at hfit
  omega

theorem moveOver_sameUnits_iff (hs : w.bank.Holds bankTab fromSlot i sItem)
    (hd : w.bank.Holds bankTab toSlot j dItem) (hne : fromSlot ≠ toSlot) :
    w.SameUnits (w.moveOver bankTab fromSlot toSlot i j sItem dItem) ↔
      (Merges sItem dItem → MergeExact sItem dItem) := by
  have hij := holds_ne hs hd hne
  unfold moveOver
  by_cases hswap : sItem.itemTemplate ≠ dItem.itemTemplate ∨ sItem.count = sItem.maxStackSize ∨
      dItem.count = dItem.maxStackSize
  · rw [if_pos hswap]
    refine iff_of_true (fun e => ?_) fun hm => ?_
    · rw [saveToDB_sameItems.units]
      have h := units_setTwo (x := { sItem with slot := toSlot, state := .changed })
        (y := { dItem with slot := fromSlot, state := .changed }) hs.2 hd.2 hij e
      exact Nat.add_right_cancel h
    · obtain h | h | h := hswap
      · exact absurd hm.1 h
      · exact absurd h hm.2.1
      · exact absurd h hm.2.2
  rw [if_neg hswap]
  simp only [not_or, not_not] at hswap
  have hm : Merges sItem dItem := hswap
  have ht := hm.1
  refine Iff.trans ?_ (forall_prop_of_true hm).symm
  by_cases hfit : sItem.count + dItem.count ≤ sItem.maxStackSize
  · rw [if_pos hfit]
    let y : BankItem := { dItem with count := sItem.count + dItem.count, state := .changed }
    have h := fun e => units_mergeInto (y := y) hs.2 hd.2 hij e
    have hsame := sameUnits_iff ht (x := { sItem with count := 0 }) rfl (y := y) rfl h
    refine Iff.trans hsame ?_
    rw [UInt32.toNat_zero, Nat.zero_add]
    exact merge_exact_iff hfit
  · rw [if_neg hfit]
    let x : BankItem := { sItem with
      count := sItem.count - (sItem.maxStackSize - dItem.count), state := .changed }
    let y : BankItem := { dItem with count := dItem.maxStackSize, state := .changed }
    have h := fun e => units_setTwo (x := x) (y := y) hs.2 hd.2 hij e
    have hsame := sameUnits_iff ht (x := x) rfl (y := y) rfl h
    exact hsame.trans (fill_exact_iff hfit)

theorem moveItem_sameUnits_iff (env : Env) (w : World db) (msg : Text) :
    w.SameUnits (w.moveItem env msg) ↔ MoveExact env w msg := by
  obtain ⟨⟨rs, h⟩, hno⟩ | ⟨q, i, sItem, hq, hok, hs, ⟨hfree, text, h⟩ | ⟨j, dItem, hd, h⟩⟩ :=
    moveItem_cases env w msg
  · rw [h]
    refine iff_of_true (reply_sameUnits rs) ?_
    intro q i j sItem dItem hq hok hs
    exact absurd ⟨hok, i, sItem, hs⟩ (hno q hq)
  · rw [h]
    refine iff_of_true (fun e => ?_) ?_
    · exact Nat.add_right_cancel (GuildBank.units_setItem hs.2
        { sItem with slot := q.toSlot.toNat, state := .changed } e)
    · intro q' i' j' sItem' dItem' hq' hok' hs' hd'
      obtain rfl := Option.some.inj (hq.symm.trans hq')
      exact nomatch hfree.symm.trans hd'.1
  · rw [h, moveOver_sameUnits_iff hs hd hok.ne]
    constructor
    · intro hex q' i' j' sItem' dItem' hq' hok' hs' hd'
      obtain rfl := Option.some.inj (hq.symm.trans hq')
      obtain ⟨rfl, rfl⟩ := hs.unique hs'
      obtain ⟨rfl, rfl⟩ := hd.unique hd'
      exact hex
    · exact fun hex => hex q i j sItem dItem hq hok hs hd

/-- The units put on an occupied slot are those that leave the source, in `uint32` arithmetic. -/
theorem split_exact_iff {split s d : UInt32} :
    (s - split).toNat + (d + split).toNat = s.toNat + d.toNat ↔
      (split.toNat ≤ s.toNat ↔ d.toNat + split.toNat < 4294967296) := by
  have hs := toNat_lt32 s
  have hd := toNat_lt32 d
  have hn := toNat_lt32 split
  rw [UInt32.toNat_sub, UInt32.toNat_add]
  omega

theorem splitToEmpty_sameUnits (hs : w.bank.Holds bankTab fromSlot i sItem) :
    w.SameUnits (w.splitToEmpty toSlot split i sItem) := by
  unfold splitToEmpty
  split_ifs with hbig hleft
  · exact reply_sameUnits _
  · exact reply_sameUnits _
  · intro e
    rw [saveToDB_sameItems.units]
    have hle : split.toNat ≤ sItem.count.toNat := by
      by_contra h
      exact hleft (.inr (le_toNat.mpr (by omega)))
    have hsub := toNat_sub hle
    let x : BankItem := { sItem with count := sItem.count - split, state := .changed }
    let b := (w.bank.setItem i x).enqueue x
    let y : BankItem := { x.cloneBankItem b.guildid b.getNewGuid with
      slot := toSlot, count := split, state := .new }
    have hset : b.units e + sItem.share e = w.bank.units e + x.share e :=
      GuildBank.units_setItem hs.2 x e
    have hadd : ((b.enqueue y).addItem y).units e = b.units e + y.share e :=
      GuildBank.units_addItem y e
    have hshare : x.share e + y.share e = sItem.share e := by
      show (if sItem.itemTemplate = e then _ else 0) + (if sItem.itemTemplate = e then _ else 0) =
        if sItem.itemTemplate = e then _ else 0
      split_ifs
      · exact hsub
      · rfl
    show ((b.enqueue y).addItem y).units e = w.bank.units e
    omega

theorem splitOver_sameUnits_iff (hs : w.bank.Holds bankTab fromSlot i sItem)
    (hd : w.bank.Holds bankTab toSlot j dItem) (hne : fromSlot ≠ toSlot) :
    w.SameUnits (w.splitOver split i j sItem dItem) ↔
      (Splits split sItem dItem → SplitExact split sItem dItem) := by
  unfold splitOver
  split_ifs with ht hfit h0 hmax hd0 hdmax
  case neg =>
    have hsp : Splits split sItem dItem :=
      ⟨not_not.mp ht, hfit, h0, UInt32.not_lt.mp hmax, hd0, UInt32.not_lt.mp hdmax⟩
    let x : BankItem := { sItem with count := sItem.count - split, state := .changed }
    let y : BankItem := { dItem with count := dItem.count + split, state := .changed }
    have h := fun e => units_setTwo (x := x) (y := y) hs.2 hd.2 (holds_ne hs hd hne) e
    have hsame := sameUnits_iff hsp.1 (x := x) rfl (y := y) rfl h
    refine hsame.trans (Iff.trans ?_ (forall_prop_of_true hsp).symm)
    exact split_exact_iff
  all_goals
    refine iff_of_true (reply_sameUnits _) ?_
    rintro ⟨h1, h2, h3, h4, h5, h6⟩
  · exact absurd h1 ht
  · exact absurd h0 h3
  · exact absurd hmax (UInt32.not_lt.mpr h4)
  · exact absurd hd0 h5
  · exact absurd hdmax (UInt32.not_lt.mpr h6)
  · exact absurd h2 hfit

theorem splitItem_sameUnits_iff (env : Env) (w : World db) (msg : Text) :
    w.SameUnits (w.splitItem env msg) ↔ SplitsExact env w msg := by
  obtain ⟨⟨rs, h⟩, hno⟩ | ⟨q, i, sItem, hq, hok, hs, ⟨hfree, h⟩ | ⟨j, dItem, hd, h⟩⟩ :=
    splitItem_cases env w msg
  · rw [h]
    refine iff_of_true (reply_sameUnits rs) ?_
    intro q i j sItem dItem hq hok hs
    exact absurd ⟨hok, i, sItem, hs⟩ (hno q hq)
  · rw [h]
    refine iff_of_true (splitToEmpty_sameUnits hs) ?_
    intro q' i' j' sItem' dItem' hq' hok' hs' hd'
    obtain rfl := Option.some.inj (hq.symm.trans hq')
    exact nomatch hfree.symm.trans hd'.1
  · rw [h, splitOver_sameUnits_iff hs hd hok.ne]
    constructor
    · intro hex q' i' j' sItem' dItem' hq' hok' hs' hd'
      obtain rfl := Option.some.inj (hq.symm.trans hq')
      obtain ⟨rfl, rfl⟩ := hs.unique hs'
      obtain ⟨rfl, rfl⟩ := hd.unique hd'
      exact hex
    · exact fun hex => hex q i j sItem dItem hq hok hs hd

/-- Moves and splits only rearrange the items of the two slots they name. The units of a template
stay the same exactly when the counts that the message adds and subtracts are exact. -/
theorem moves_splits_rearrange (env : Env) (w : World db) (msg : Text) :
    (Rearranged (moveNames msg) w (w.moveItem env msg) ∧
      (w.SameUnits (w.moveItem env msg) ↔ MoveExact env w msg)) ∧
    (Rearranged (splitNames msg) w (w.splitItem env msg) ∧
      (w.SameUnits (w.splitItem env msg) ↔ SplitsExact env w msg)) :=
  ⟨⟨moveItem_rearranged env w msg, moveItem_sameUnits_iff env w msg⟩,
    splitItem_rearranged env w msg, splitItem_sameUnits_iff env w msg⟩

end World

/-- Cloth and a pouch, and a third item that waits for a save. -/
def waitingWorld : World sampleDb where
  bank :=
    { guildid := 1, tabs := 1
      items :=
        [{ guid := 1, tab := 1, slot := 1, itemTemplate := 2589, count := 5, maxStackSize := 20 },
          { guid := 2, tab := 1, slot := 2, itemTemplate := 4496, count := 1, maxStackSize := 1 },
          { guid := 3, tab := 1, slot := 3, itemTemplate := 2589, count := 7, maxStackSize := 20
            state := .changed }] }
  player := master

/-- Two stacks of `2 ^ 31` units. -/
def hugeWorld : World sampleDb where
  bank :=
    { guildid := 1, tabs := 1
      items :=
        [{ guid := 1, tab := 1, slot := 1, itemTemplate := 2589, count := 2147483648
           maxStackSize := 20 },
          { guid := 2, tab := 1, slot := 2, itemTemplate := 2589, count := 2147483648
            maxStackSize := 20 }] }
  player := master

/-- The exchange of two slots resets the mark of the item in the third, and a merge wraps around. -/
theorem rearranged_marks_and_wraps :
    (Arranged waitingWorld.bank.items ∧
      (waitingWorld.moveItem {} "MoveItem:1:1:2".toList).bank.items.filter (·.slot = 3) ≠
        waitingWorld.bank.items.filter (·.slot = 3)) ∧
    Arranged hugeWorld.bank.items ∧
      ¬ hugeWorld.SameUnits (hugeWorld.moveItem {} "MoveItem:1:1:2".toList) := by
  refine ⟨⟨⟨?_, ?_, ?_⟩, by decide +kernel⟩, ⟨?_, ?_, ?_⟩, fun h => ?_⟩
  iterate 2
    · unfold Keyed; decide
    · unfold Keyed; decide
    · unfold BankItem.InRange; decide
  have hcloth : (hugeWorld.moveItem {} "MoveItem:1:1:2".toList).bank.units 2589 ≠
      hugeWorld.bank.units 2589 := by decide +kernel
  exact hcloth (h 2589)

end Windrunner
