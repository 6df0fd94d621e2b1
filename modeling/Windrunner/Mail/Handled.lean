import Windrunner.Inventory.Holding
import Windrunner.Mail.State

/-!
# What one step does to purses, inventories and mails

* `Content`: a mail without the marks that say where it is stored and whether it was read.
* `Mail.Marked`: how the marks of a mail fit together. `MailWorld.Sound` is the invariant of the mail
  system: purses within the cap, stacks within their limits, and marks that fit.
* `Handled w i w'`: the seven things a step can do. `step_handled` says that it does one of them.
-/

namespace Windrunner

open Lib List
open Bool hiding not_or

variable {db : ItemDb}

/-- What a mail holds and whose it is. -/
structure Content (db : ItemDb) where
  messageID : Nat
  messageType : MailMessageType
  sender : Nat
  receiver : Nat
  money : UInt32
  cod : UInt32
  items : List (Item db)
  undeleted : Bool

namespace Content

/-- The mail that brings the contents back to the sender. -/
def back (x : Content db) (id : Nat) : Content db :=
  { x with messageID := id, messageType := .normal, sender := x.receiver, receiver := x.sender
           cod := 0 }

/-- The mail after its item was taken, and `items` are left. -/
def without (x : Content db) (items : List (Item db)) : Content db := { x with items, cod := 0 }

/-- The mail after its money was taken. -/
def spent (x : Content db) : Content db := { x with money := 0 }

def discarded (x : Content db) : Content db := { x with undeleted := false }

/-- The mail that pays for what was taken from `x`. -/
def payment (x : Content db) (id : Nat) : Content db :=
  { messageID := id, messageType := .normal, sender := x.receiver, receiver := x.sender
    money := x.cod, cod := 0, items := [], undeleted := true }

end Content

namespace Mail

def content (m : Mail db) : Content db :=
  { messageID := m.messageID, messageType := m.messageType, sender := m.sender
    receiver := m.receiver, money := m.money, cod := m.cod, items := m.items
    undeleted := m.undeleted }

@[simp] theorem content_items (m : Mail db) : m.content.items = m.items := rfl

/-- A soft-deleted row is a deleted mail; a deleted mail is in memory until its row is soft-deleted;
only mails of characters who are online are in memory, and all of theirs that are not deleted. -/
structure Marked (online : List Nat) (m : Mail db) : Prop where
  soft : m.isDeleted = true → m.state = .deleted
  kept : m.state = .deleted → m.inBox = true ∨ m.isDeleted = true
  boxed : m.inBox = true → m.receiver ∈ online
  loaded : m.state ≠ .deleted → m.receiver ∈ online → m.inBox = true

/-- Saving writes marks only. -/
theorem content_save (m : Mail db) : m.save.content = m.content := by
  unfold save
  cases h : m.state with
  | unchanged => rfl
  | changed => simp only [content, undeleted, h]; rfl
  | deleted => simp only [content, undeleted, h]

end Mail

namespace MailWorld

variable {w w' : MailWorld db} {guid id : Nat} {m : MailMoment}

def contents (w : MailWorld db) : List (Content db) := w.mails.map Mail.content

/-- What a packet deletes: the contents of a mail of the player who sends it. -/
def discards (w : MailWorld db) (g : Content db → Nat) : MailInput → Nat
  | .delete guid id m =>
    match w.getMail guid id with
    | some (_, mail) => if m.checkMailBox ∧ mail.cod = 0 ∧ mail.undeleted then g mail.content else 0
    | none => 0
  | _ => 0

/-- The marks of every mail fit together. -/
def Marked (w : MailWorld db) : Prop := ∀ m ∈ w.mails, m.Marked w.online

/-- What every state of the mail system satisfies. -/
structure Sound (w : MailWorld db) : Prop where
  purse : ∀ guid c, w.chars.lookup guid = some c → c.money ≤ maxMoneyAmount
  bounded : ∀ guid c, w.chars.lookup guid = some c → c.inv.Bounded
  counted : ∀ x ∈ w.contents, ∀ it ∈ x.items, it.count ≠ 0
  marked : w.Marked

end MailWorld

/-- The effect of a step on what there is to conserve. -/
inductive Handled (w : MailWorld db) : MailInput → MailWorld db → Prop
  | idle {i : MailInput} {w' : MailWorld db} (quiet : ∀ g, w.discards g i = 0)
      (chars : w'.chars = w.chars) (contents : w'.contents = w.contents)
      (fresh : w'.fresh = w.fresh) (sent : w'.sent = w.sent) : Handled w i w'
  /-- A player pays for a mail and puts at most one item into it. -/
  | sent {i : MailInput} {w' : MailWorld db} {guid : Nat} {c : Char db} {money : UInt32}
      {inv : Inventory db} {x : Content db} (quiet : ∀ g, w.discards g i = 0)
      (hc : w.chars.lookup guid = some c)
      (covers : x.money.toNat + 30 ≤ c.money.toNat)
      (paid : money = modifyMoney c.money (0 - (x.money + 30)))
      (items : x.items = [] ∧ inv = c.inv ∨ ∃ p it, c.inv.getItemByPos p = some it ∧
        c.inv.isNonEmptyBag (.own p) = false ∧ x.items = [it] ∧ inv = c.inv.remove p)
      (undeleted : x.undeleted = true)
      (chars : w'.chars = w.chars.insert guid { c with money, inv })
      (contents : w'.contents = x :: w.contents) (fresh : w'.fresh = w.fresh)
      (sent : w'.sent = w.sent + 1) : Handled w i w'
  | deleted {w' : MailWorld db} {guid id j : Nat} {m : MailMoment} {mail : Mail db}
      (hg : w.getMail guid id = some (j, mail)) (box : m.checkMailBox = true) (cod : mail.cod = 0)
      (chars : w'.chars = w.chars)
      (contents : w'.contents = w.contents.set j mail.content.discarded)
      (fresh : w'.fresh = w.fresh) (sent : w'.sent = w.sent) : Handled w (.delete guid id m) w'
  /-- The contents go back to the sender, who does not ask for money. -/
  | returned {w' : MailWorld db} {guid id j : Nat} {m : MailMoment} {mail : Mail db}
      (hg : w.getMail guid id = some (j, mail)) (undeleted : mail.undeleted = true)
      (chars : w'.chars = w.chars)
      (contents : w'.contents = mail.content.back w.nextMailId :: w.contents.eraseIdx j)
      (fresh : w'.fresh = w.fresh) (sent : w'.sent = w.sent) :
      Handled w (.returnToSender guid id m) w'
  /-- Nobody can get the mail back. -/
  | dropped {w' : MailWorld db} {guid id j : Nat} {m : MailMoment} {mail : Mail db}
      (hg : w.getMail guid id = some (j, mail))
      (unknown : ¬ (mail.messageType = .normal ∧ mail.sender ≠ 0 ∧
        (w.chars.lookup mail.sender).any (fun c => !c.hardcore)))
      (chars : w'.chars = w.chars) (contents : w'.contents = w.contents.eraseIdx j)
      (fresh : w'.fresh = w.fresh) (sent : w'.sent = w.sent) :
      Handled w (.returnToSender guid id m) w'
  /-- An item is taken, and paid for by a mail to the sender. -/
  | itemTaken {w' : MailWorld db} {guid id j : Nat} {m : MailMoment} {mail : Mail db} {c : Char db}
      {it : Item db} {items : List (Item db)} {money : UInt32} (hc : w.chars.lookup guid = some c)
      (hg : w.getMail guid id = some (j, mail)) (undeleted : mail.undeleted = true)
      (hitems : mail.items = it :: items) (covers : mail.cod ≤ c.money)
      (paid : money = if mail.cod > 0 then modifyMoney c.money (0 - mail.cod) else c.money)
      (fits : (c.inv.canStoreLoose [] (some it)).res = .ok)
      (chars : w'.chars = w.chars.insert guid
        { c with
          money
          inv := (c.inv.moveItemToInventory (c.inv.canStoreLoose [] (some it)).dest it w.fresh).inv })
      (contents : w'.contents =
        (if mail.cod ≠ 0 ∧ (w.chars.lookup mail.sender).isSome then
          [mail.content.payment w.nextMailId] else []) ++
            w.contents.set j (mail.content.without items))
      (fresh : w'.fresh =
        (c.inv.moveItemToInventory (c.inv.canStoreLoose [] (some it)).dest it w.fresh).fresh)
      (sent : w'.sent = w.sent) : Handled w (.takeItem guid id m) w'
  | moneyTaken {w' : MailWorld db} {guid id j : Nat} {m : MailMoment} {mail : Mail db} {c : Char db}
      (hc : w.chars.lookup guid = some c) (hg : w.getMail guid id = some (j, mail))
      (undeleted : mail.undeleted = true)
      (chars : w'.chars = w.chars.insert guid { c with money := modifyMoney c.money mail.money })
      (contents : w'.contents = w.contents.set j mail.content.spent)
      (fresh : w'.fresh = w.fresh) (sent : w'.sent = w.sent) : Handled w (.takeMoney guid id m) w'

/-! ## Purses -/

/-- A debit that the purse covers. -/
theorem modifyMoney_sub {money amount : UInt32} (h : amount ≤ money) (hm : money ≤ maxMoneyAmount) :
    (modifyMoney money (0 - amount)).toNat + amount.toNat = money.toNat := by
  have h1 := le_toNat.mp h
  have h2 : money.toNat ≤ 2147483646 := le_toNat.mp hm
  unfold modifyMoney
  simp only [gt_iff_lt, ge_iff_le, lt_toNat, UInt32.toNat_sub, UInt32.toNat_zero]
  split_ifs with h3 h4 h4
  · rw [UInt32.toNat_add, UInt32.toNat_sub, UInt32.toNat_zero]; omega
  · rw [UInt32.toNat_zero]; omega
  · rw [UInt32.toNat_add, UInt32.toNat_sub, UInt32.toNat_zero]; omega
  · have hmax : maxMoneyAmount.toNat = 2147483646 := rfl
    rw [hmax] at h4 ⊢
    omega

/-- The price of a mail is taken from a purse that covers it. -/
theorem modifyMoney_fee {money amount : UInt32} (h : amount.toNat + 30 ≤ money.toNat)
    (hm : money ≤ maxMoneyAmount) :
    (modifyMoney money (0 - (amount + 30))).toNat + amount.toNat + 30 = money.toNat := by
  have h30 : (30 : UInt32).toNat = 30 := rfl
  have h2 : money.toNat ≤ 2147483646 := le_toNat.mp hm
  have hsum : (amount + 30).toNat = amount.toNat + 30 := by rw [toNat_add (by omega), h30]
  rw [Nat.add_assoc, ← hsum]
  exact modifyMoney_sub (le_toNat.mpr (by omega)) hm

/-- So is the cash on delivery. -/
theorem modifyMoney_cod {money amount : UInt32} (h : amount ≤ money) (hm : money ≤ maxMoneyAmount) :
    (if amount > 0 then modifyMoney money (0 - amount) else money).toNat + amount.toNat =
      money.toNat := by
  split_ifs with hpos
  · exact modifyMoney_sub h hm
  · rw [gt_iff_lt, lt_toNat, UInt32.toNat_zero] at hpos; omega

/-- A credit that stays under the cap. -/
theorem modifyMoney_add {money amount : UInt32}
    (h : money.toNat + amount.toNat ≤ maxMoneyAmount.toNat) :
    (modifyMoney money amount).toNat = money.toNat + amount.toNat := by
  have hmax : maxMoneyAmount.toNat = 2147483646 := rfl
  rw [hmax] at h
  unfold modifyMoney
  simp only [gt_iff_lt, ge_iff_le, lt_toNat, UInt32.toNat_sub]
  split_ifs with h3 h4 h4
  · omega
  · omega
  · rw [UInt32.toNat_add]; omega
  · rw [hmax] at h4 ⊢; omega

namespace MailWorld

variable {w w' : MailWorld db} {guid id : Nat} {m : MailMoment}

/-! ## Reading the mails -/

theorem getMail_some {i : Nat} {mail : Mail db} (h : w.getMail guid id = some (i, mail)) :
    w.mails[i]? = some mail ∧ mail.receiver = guid ∧ mail.inBox = true ∧ mail.messageID = id := by
  unfold getMail at h
  obtain ⟨j, hj, hm⟩ := Option.bind_eq_some_iff.mp h
  obtain ⟨mail', hm', he⟩ := Option.map_eq_some_iff.mp hm
  cases he
  obtain ⟨hlt, hp, -⟩ := findIdx?_eq_some_iff_getElem.mp hj
  rw [getElem?_eq_getElem hlt, Option.some.injEq] at hm'
  subst hm'
  simp only [and_eq_true, beq_iff_eq] at hp
  exact ⟨getElem?_eq_getElem hlt, hp.1.1, hp.1.2, hp.2⟩

theorem contents_getElem? {i : Nat} {mail : Mail db} (h : w.mails[i]? = some mail) :
    w.contents[i]? = some mail.content := by
  rw [contents, getElem?_map, h]; rfl

theorem contents_setMail {i : Nat} (mail : Mail db) :
    (w.setMail i mail).contents = w.contents.set i mail.content := map_set

/-- Saving writes marks only. -/
theorem contents_saveMails : (w.saveMails guid).contents = w.contents := by
  unfold contents saveMails
  rw [map_map]
  refine map_congr_left fun mail _ => ?_
  rw [Function.comp_apply]
  split_ifs
  · exact mail.content_save
  · rfl

theorem available_undeleted {mail : Mail db} (h : mail.available m = true) :
    mail.undeleted = true := by
  unfold Mail.available at h
  exact (and_eq_true_iff.mp h).1

/-! ## The handlers -/

theorem getItemByGuid_some {inv : Inventory db} {g : Nat} {x : Pos × Item db}
    (h : inv.getItemByGuid g = some x) : inv.getItemByPos x.1 = some x.2 := by
  unfold Inventory.getItemByGuid at h
  obtain ⟨y, hy, rfl⟩ := Option.map_eq_some_iff.mp h
  have hs := find?_some hy
  simp only [Inventory.searched, and_eq_true] at hs
  rw [Inventory.getItemByPos_visible hs.2.1]
  exact mem_dlookup inv.cells.nodupKeys (mem_of_find?_eq_some hy)

/-- A bag that may be traded is empty. -/
theorem emptied_of_mayBeMailed {inv : Inventory db} {p : Pos} {it : Item db} {same : Bool}
    (hp : inv.getItemByPos p = some it) (h : it.mayBeMailed inv m p same = true) :
    inv.isNonEmptyBag (.own p) = false := by
  unfold Item.mayBeMailed at h
  split_ifs at h with h1 h2 h3
  rw [Bool.or_eq_true, not_or, Bool.not_eq_true', Bool.not_eq_false] at h3
  have ht := h3.1
  unfold Inventory.canBeTraded at ht
  split_ifs at ht with h4 h5 h6 h7
  rw [and_eq_true, Bool.or_eq_true, not_and_or, not_or, not_eq_true,
    not_eq_true, not_eq_true] at h5
  rcases h5 with hbag | h5
  · obtain ⟨b, s⟩ := p
    simp [Inventory.isNonEmptyBag, hp, hbag]
  · exact h5.2

/-- What the checks of the send handler establish. -/
theorem sendCheck_ok {r : MailRequest} {c : Char db} {mailsCount : UInt8}
    {item : Option (Pos × Item db)} (h : w.sendCheck r c mailsCount m = .ok item) :
    r.packet.money.toNat + 30 < 4294967296 ∧ reqmoney r.packet ≤ c.money ∧ mailsCount ≤ 100 ∧
      ∀ x ∈ item, c.inv.getItemByPos x.1 = some x.2 ∧ c.inv.isNonEmptyBag (.own x.1) = false := by
  unfold sendCheck at h
  dsimp only at h
  generalize hfound : (if r.packet.itemGuid ≠ 0 then c.inv.getItemByGuid r.packet.itemGuid
    else none) = found at h
  split_ifs at h with h1 h2 h3 h4 h5
  cases h
  refine ⟨?_, ?_, by simpa using h3, fun x hx => ?_⟩
  · unfold reqmoney at h1
    rw [lt_toNat, UInt32.toNat_add] at h1
    have := toNat_lt32 r.packet.money
    have h30 : (30 : UInt32).toNat = 30 := rfl
    omega
  · by_cases h0 : reqmoney r.packet = 0
    · rw [h0, le_toNat]
      exact Nat.zero_le _
    · rw [le_toNat]
      have := mt (fun hlt => ⟨h0, hlt⟩) h2
      rw [lt_toNat] at this
      omega
  · -- the item was found by its guid and passes the checks on items
    obtain rfl : item = some x := hx
    split_ifs at hfound with hguid
    have hp := getItemByGuid_some hfound
    have hmay := not_and.mp h5 hguid
    rw [Option.all_some, not_eq_true, not_eq_false'] at hmay
    exact ⟨hp, emptied_of_mayBeMailed hp hmay⟩

theorem handled_self {i : MailInput} (hq : ∀ g, w.discards g i = 0) : Handled w i w :=
  .idle hq rfl rfl rfl rfl

theorem Marked.set {j : Nat} {mail mail' : Mail db} (hm : w.Marked) (hg : w.mails[j]? = some mail)
    (h : mail.Marked w.online → mail'.Marked w.online) : (w.setMail j mail').Marked := by
  intro x hx
  rcases mem_or_eq_of_mem_set hx with hx | rfl
  · exact hm x hx
  · exact h (hm mail (mem_of_getElem? hg))

theorem Marked.sendMailTo (hm : w.Marked) (d : MailDraft db) (now : Nat) :
    (w.sendMailTo d now).Marked := by
  intro x hx
  rcases mem_cons.mp hx with rfl | hx
  · refine ⟨nofun, nofun, fun h => ?_, fun _ h => ?_⟩
    · exact contains_iff_mem.mp h
    · exact contains_iff_mem.mpr h
  · exact hm x hx

theorem Marked.eraseIdx (hm : w.Marked) (j : Nat) :
    { w with mails := w.mails.eraseIdx j }.Marked :=
  fun x hx => hm x (mem_of_mem_eraseIdx hx)

theorem Marked.map {f : Mail db → Mail db} {online : List Nat} (hm : w.Marked)
    (h : ∀ x ∈ w.mails, x.Marked w.online → (f x).Marked online) :
    { w with mails := w.mails.map f, online }.Marked := by
  intro y hy
  obtain ⟨x, hx, rfl⟩ := mem_map.mp hy
  exact h x hx (hm x hx)

theorem marked_save {online : List Nat} {mail : Mail db} (h : mail.Marked online) :
    mail.save.Marked online := by
  unfold Mail.save
  split
  · exact h
  · rename_i hs
    refine ⟨fun hd => ?_, nofun, h.boxed, fun _ => h.loaded (by rw [hs]; nofun)⟩
    rw [h.soft hd] at hs
    cases hs
  · rename_i hs
    exact ⟨fun _ => hs, fun _ => .inr rfl, nofun, fun hd => absurd hs hd⟩

theorem Marked.saveMails (hm : w.Marked) (guid : Nat) : (w.saveMails guid).Marked := by
  refine hm.map fun x _ h => ?_
  split_ifs
  · exact marked_save h
  · exact h

/-- A mail that is written to after the check that it is not deleted. -/
theorem marked_changed {online : List Nat} {mail mail' : Mail db} (hd : mail.state ≠ .deleted)
    (hs : mail'.state = .changed) (hr : mail'.receiver = mail.receiver)
    (hb : mail'.inBox = mail.inBox) (hi : mail'.isDeleted = mail.isDeleted)
    (h : mail.Marked online) : mail'.Marked online := by
  refine ⟨fun h' => absurd (h.soft (hi ▸ h')) hd, fun h' => ?_, fun h' => ?_, fun _ h' => ?_⟩
  · rw [hs] at h'; cases h'
  · rw [hr]; exact h.boxed (hb ▸ h')
  · rw [hb]; exact h.loaded hd (hr ▸ h')

/-- The execution of a request is a mail sent, or nothing. The requests that wait do not matter. -/
theorem handled_handleSendMailCallback {i : MailInput} (hq : ∀ g, w.discards g i = 0)
    (hm : w.Marked) (r : MailRequest) (mailsCount : UInt8) (pending : List MailRequest) :
    Handled w i ({ w with pending }.handleSendMailCallback r mailsCount m).2 ∧
      ({ w with pending }.handleSendMailCallback r mailsCount m).2.Marked := by
  have hsame : Handled w i { w with pending } ∧ { w with pending }.Marked :=
    ⟨.idle hq rfl rfl rfl rfl, hm⟩
  unfold handleSendMailCallback
  split
  · exact hsame
  cases hc : w.chars.lookup r.senderGuid with
  | none => exact hsame
  | some c =>
    dsimp only
    cases hs : { w with pending }.sendCheck r c mailsCount m with
    | error e => exact hsame
    | ok item =>
      obtain ⟨hlt, hle, -, hitem⟩ := sendCheck_ok hs
      have hcovers : r.packet.money.toNat + 30 ≤ c.money.toNat := by
        have h30 : (30 : UInt32).toNat = 30 := rfl
        have := le_toNat.mp hle
        rwa [reqmoney, toNat_add (by omega), h30] at this
      refine ⟨.sent hq hc hcovers ?_ ?_ rfl rfl rfl rfl rfl, ?_⟩
      · rfl
      · cases item with
        | none => exact .inl ⟨rfl, rfl⟩
        | some x => exact .inr ⟨x.1, x.2, (hitem x rfl).1, (hitem x rfl).2, rfl, rfl⟩
      · have hset : ({ w with pending }.setChar r.senderGuid
            { c with
              money := modifyMoney c.money (0 - reqmoney r.packet)
              inv := item.elim c.inv fun x => c.inv.remove x.1 }).Marked := hm
        exact hset.sendMailTo _ _

/-- What a send packet leads to: nothing, a request that is executed at once, or one that waits. -/
theorem handleSendMail_cases {P : MailWorld db → Prop} (guid : Nat) (pk : MailPacket) (m : MailMoment)
    (hrefused : P w) (hnow : ∀ r, r.packet = pk → pk.receiver ∈ w.online →
      P (w.handleSendMailCallback r (UInt8.ofNat (w.getMailSize pk.receiver)) m).2)
    (hwaits : ∀ r, r.answer = none → P { w with pending := w.pending ++ [r] }) :
    P (w.handleSendMail guid pk m).2 := by
  unfold handleSendMail
  split
  · exact hrefused
  split
  · exact hrefused
  split
  · exact hrefused
  split
  · exact hrefused
  split
  · exact hrefused
  · exact hrefused
  split
  · exact hrefused
  split
  · exact hrefused
  split
  · exact hrefused
  split
  · exact hrefused
  dsimp only
  split
  · rename_i ho
    exact hnow _ rfl (contains_iff_mem.mp ho)
  · exact hwaits _ rfl

section

variable (hm : w.Marked)
include hm

theorem handled_handleSendMail (pk : MailPacket) :
    Handled w (.sendMail guid pk m) (w.handleSendMail guid pk m).2 ∧
      (w.handleSendMail guid pk m).2.Marked := by
  apply handleSendMail_cases (P := fun w' => Handled w (.sendMail guid pk m) w' ∧ w'.Marked) guid pk m
  · exact ⟨handled_self fun _ => rfl, hm⟩
  · intro r _ _
    exact handled_handleSendMailCallback (fun _ => rfl) hm r _ w.pending
  · intro r _
    exact ⟨.idle (fun _ => rfl) rfl rfl rfl rfl, hm⟩

theorem handled_callback (k : Nat) :
    Handled w (.answer k m) (w.callback k m).2 ∧ (w.callback k m).2.Marked := by
  unfold callback
  cases w.pending[k]? with
  | none => exact ⟨handled_self fun _ => rfl, hm⟩
  | some r => exact handled_handleSendMailCallback (fun _ => rfl) hm r _ _

theorem handled_handleMailMarkAsRead :
    Handled w (.markAsRead guid id m) (w.handleMailMarkAsRead guid id m).2 ∧
      (w.handleMailMarkAsRead guid id m).2.Marked := by
  have hsame : Handled w (.markAsRead guid id m) w ∧ w.Marked :=
    ⟨handled_self fun _ => rfl, hm⟩
  unfold handleMailMarkAsRead
  split
  · exact hsame
  cases hg : w.getMail guid id with
  | none => exact hsame
  | some x =>
    obtain ⟨j, mail⟩ := x
    dsimp only
    by_cases hd : mail.state = .deleted
    · rw [if_pos hd]; exact hsame
    rw [if_neg hd]
    have hj := (getMail_some hg).1
    refine ⟨.idle (fun _ => rfl) rfl ?_ rfl rfl, hm.set hj (marked_changed hd rfl rfl rfl rfl)⟩
    have hread : { mail with
        checked := mail.checked ||| mailCheckMaskRead
        state := .changed
        expireTime := if mail.expireTime > m.now + 3 * day then m.now + 3 * day
          else mail.expireTime }.content = mail.content := by
      simp only [Mail.content, Mail.undeleted, bne, beq_eq_false_iff_ne.mpr hd]
      rfl
    obtain ⟨hlt, he⟩ := List.getElem?_eq_some_iff.mp (contents_getElem? hj)
    rw [contents_setMail, hread, ← he, set_getElem_self]

theorem handled_handleMailDelete :
    Handled w (.delete guid id m) (w.handleMailDelete guid id m).2 ∧
      (w.handleMailDelete guid id m).2.Marked := by
  unfold handleMailDelete
  by_cases hbox : m.checkMailBox = true
  swap
  · rw [if_pos (by simp [hbox])]
    refine ⟨handled_self fun g => ?_, hm⟩
    unfold discards
    dsimp only
    split
    · exact if_neg fun h => hbox h.1
    · rfl
  rw [if_neg (by simp [hbox])]
  cases hg : w.getMail guid id with
  | none => exact ⟨handled_self fun g => by simp only [discards, hg], hm⟩
  | some x =>
    obtain ⟨j, mail⟩ := x
    dsimp only
    obtain ⟨hj, -, hb, -⟩ := getMail_some hg
    by_cases hd : mail.cod ≠ 0
    · rw [if_pos hd]
      refine ⟨handled_self fun g => ?_, hm⟩
      simp only [discards, hg]
      exact if_neg fun h => hd h.2.1
    · rw [if_neg hd]
      refine ⟨.deleted hg hbox (not_not.mp hd) rfl (contents_setMail _) rfl rfl, ?_⟩
      exact hm.set hj fun h =>
        ⟨fun _ => rfl, fun _ => .inl hb, h.boxed, fun hn => absurd rfl hn⟩

theorem handled_handleMailReturnToSender :
    Handled w (.returnToSender guid id m) (w.handleMailReturnToSender guid id m).2 ∧
      (w.handleMailReturnToSender guid id m).2.Marked := by
  have hsame : Handled w (.returnToSender guid id m) w ∧ w.Marked :=
    ⟨handled_self fun _ => rfl, hm⟩
  unfold handleMailReturnToSender
  split
  · exact hsame
  cases hg : w.getMail guid id with
  | none => exact hsame
  | some x =>
    obtain ⟨j, mail⟩ := x
    dsimp only
    by_cases ha : mail.available m = true
    swap
    · rw [if_pos (by simp [ha])]; exact hsame
    rw [if_neg (by simp [ha])]
    have herase : (w.mails.eraseIdx j).map Mail.content = w.contents.eraseIdx j := by
      rw [contents, eraseIdx_map]
    dsimp only
    split
    · unfold sendReturnToSender
      by_cases hs : (w.chars.lookup mail.sender).isNone = true
      · rw [if_pos hs]
        refine ⟨.dropped hg (fun h => ?_) rfl herase rfl rfl, hm.eraseIdx j⟩
        rw [Option.isNone_iff_eq_none.mp hs] at h
        exact false_ne_true h.2.2
      · rw [if_neg hs]
        refine ⟨.returned hg (available_undeleted ha) rfl ?_ rfl rfl,
          (hm.eraseIdx j).sendMailTo _ _⟩
        have hu : mail.content.undeleted = true := available_undeleted ha
        unfold Content.back
        rw [← herase, hu]
        rfl
    · rename_i hn
      refine ⟨.dropped hg (fun h => hn ⟨h.1, h.2.1, ?_⟩) rfl herase rfl rfl, hm.eraseIdx j⟩
      have hany := h.2.2
      unfold isPlayerHardcore
      cases hc : w.chars.lookup mail.sender with
      | none => rw [hc] at hany; cases hany
      | some c => rwa [hc] at hany

end

theorem contents_payCod (mail : Mail db) (now : Nat) :
    (w.payCod mail.receiver mail now).contents =
      (if mail.cod ≠ 0 ∧ (w.chars.lookup mail.sender).isSome then
        [mail.content.payment w.nextMailId] else []) ++ w.contents := by
  have hpos : mail.cod > 0 ↔ mail.cod ≠ 0 := by
    rw [gt_iff_lt, lt_toNat, ne_zero_toNat, UInt32.toNat_zero]
  unfold payCod
  simp only [hpos]
  by_cases h : mail.cod ≠ 0 ∧ (w.chars.lookup mail.sender).isSome = true
  · rw [if_pos h, if_pos h]; rfl
  · rw [if_neg h, if_neg h]; rfl

/-- The payment is a mail and nothing else. -/
theorem payCod_frame (guid : Nat) (hm : w.Marked) (mail : Mail db) (now : Nat) :
    (w.payCod guid mail now).chars = w.chars ∧ (w.payCod guid mail now).sent = w.sent ∧
      (w.payCod guid mail now).Marked := by
  unfold payCod
  split
  · exact ⟨rfl, rfl, hm.sendMailTo _ _⟩
  · exact ⟨rfl, rfl, hm⟩

section

variable (hm : w.Marked)
include hm

theorem handled_handleMailTakeItem :
    Handled w (.takeItem guid id m) (w.handleMailTakeItem guid id m).2 ∧
      (w.handleMailTakeItem guid id m).2.Marked := by
  have hsame : Handled w (.takeItem guid id m) w ∧ w.Marked :=
    ⟨handled_self fun _ => rfl, hm⟩
  unfold handleMailTakeItem
  split
  · exact hsame
  cases hc : w.chars.lookup guid with
  | none => exact hsame
  | some c =>
  cases hg : w.getMail guid id with
  | none => exact hsame
  | some x =>
  obtain ⟨j, mail⟩ := x
  dsimp only
  by_cases ha : mail.available m = true
  swap
  · rw [if_pos (by simp [ha])]; exact hsame
  rw [if_neg (by simp [ha])]
  cases hitems : mail.items with
  | nil => exact hsame
  | cons it items =>
  dsimp only
  by_cases hless : c.money < mail.cod
  · rw [if_pos hless]; exact hsame
  rw [if_neg hless]
  split
  · exact hsame
  by_cases hfit : (c.inv.canStoreLoose [] (some it)).res = .ok
  swap
  · rw [if_pos hfit]; exact hsame
  rw [if_neg (not_not.mpr hfit)]
  have hu : mail.content.undeleted = true := available_undeleted ha
  have hd : mail.state ≠ .deleted := by simpa [Mail.undeleted] using available_undeleted ha
  have hle : mail.cod ≤ c.money := by rw [le_toNat]; rw [lt_toNat] at hless; omega
  -- the mail without the item, then the payment, then the character
  have hset : (w.setMail j { mail with items, cod := 0, state := .changed }).contents =
      w.contents.set j (mail.content.without items) := by
    unfold Content.without
    rw [contents_setMail, hu]
    rfl
  have hmark : (w.setMail j { mail with items, cod := 0, state := .changed }).Marked :=
    hm.set (getMail_some hg).1 (marked_changed hd rfl rfl rfl rfl)
  obtain rfl : mail.receiver = guid := (getMail_some hg).2.1
  obtain ⟨hp1, hp2, hp3⟩ := payCod_frame (mail.receiver) hmark mail m.now
  refine ⟨.itemTaken hc hg (available_undeleted ha) hitems hle rfl hfit ?_ ?_ rfl hp2, ?_⟩
  · exact congrArg (AList.insert mail.receiver _) hp1
  · rw [contents_saveMails]
    exact (contents_payCod mail m.now).trans (congrArg (_ ++ ·) hset)
  · exact Marked.saveMails (w := { setChar _ mail.receiver _ with fresh := _ }) hp3 _

theorem handled_handleMailTakeMoney :
    Handled w (.takeMoney guid id m) (w.handleMailTakeMoney guid id m).2 ∧
      (w.handleMailTakeMoney guid id m).2.Marked := by
  have hsame : Handled w (.takeMoney guid id m) w ∧ w.Marked :=
    ⟨handled_self fun _ => rfl, hm⟩
  unfold handleMailTakeMoney
  split
  · exact hsame
  cases hc : w.chars.lookup guid with
  | none => exact hsame
  | some c =>
  cases hg : w.getMail guid id with
  | none => exact hsame
  | some x =>
  obtain ⟨j, mail⟩ := x
  dsimp only
  by_cases ha : mail.available m = true
  swap
  · rw [if_pos (by simp [ha])]; exact hsame
  rw [if_neg (by simp [ha])]
  have hu : mail.content.undeleted = true := available_undeleted ha
  have hd : mail.state ≠ .deleted := by simpa [Mail.undeleted] using available_undeleted ha
  refine ⟨.moneyTaken hc hg (available_undeleted ha) rfl ?_ rfl rfl, ?_⟩
  · unfold Content.spent
    rw [contents_saveMails, contents_setMail, hu]
    rfl
  · have hmark : (w.setChar guid { c with money := modifyMoney c.money mail.money }).Marked :=
      hm
    refine Marked.saveMails (w := setMail _ j { mail with money := 0, state := .changed }) ?_ guid
    exact hmark.set (getMail_some hg).1 (marked_changed hd rfl rfl rfl rfl)

theorem handled_login :
    Handled w (.login guid) (w.login guid) ∧ (w.login guid).Marked := by
  unfold login
  by_cases ho : w.online.contains guid = true
  · rw [if_pos ho]
    exact ⟨handled_self fun _ => rfl, hm⟩
  rw [if_neg ho]
  -- a mail that is not in memory and whose row is not soft-deleted is undeleted
  have hout : ∀ mail ∈ w.mails, mail.receiver = guid → mail.isDeleted = false →
      mail.state ≠ .deleted := by
    intro mail hmem hr hi hd
    rcases (hm mail hmem).kept hd with hb | hb
    · exact ho (contains_iff_mem.mpr (hr ▸ (hm mail hmem).boxed hb))
    · rw [hi] at hb; cases hb
  refine ⟨.idle (fun _ => rfl) rfl ?_ rfl rfl, ?_⟩
  · unfold contents
    rw [map_map]
    refine map_congr_left fun mail hmem => ?_
    rw [Function.comp_apply]
    split_ifs with h
    · have hd := hout mail hmem h.1 (by simpa using h.2)
      simp only [Mail.content, Mail.undeleted, bne, beq_eq_false_iff_ne.mpr hd]
      rfl
    · rfl
  · refine hm.map fun mail _ h => ?_
    split_ifs with hl
    · refine ⟨fun hi => ?_, nofun, fun _ => hl.1 ▸ mem_cons_self, fun _ _ => rfl⟩
      rw [show mail.isDeleted = true from hi] at hl
      cases hl.2
    · refine ⟨h.soft, h.kept, fun hb => mem_cons_of_mem _ (h.boxed hb), fun hd hr => ?_⟩
      rcases mem_cons.mp hr with hr | hr
      · have hi : mail.isDeleted = true := by simpa [hr] using hl
        exact absurd (h.soft hi) hd
      · exact h.loaded hd hr

theorem handled_logout :
    Handled w (.logout guid) (w.logout guid) ∧ (w.logout guid).Marked := by
  have hsame : (w.logout guid).contents = (w.saveMails guid).contents := by
    unfold logout contents
    dsimp only
    rw [map_map]
    refine map_congr_left fun mail _ => ?_
    rw [Function.comp_apply]
    split_ifs <;> rfl
  refine ⟨.idle (fun _ => rfl) rfl (hsame.trans contents_saveMails) rfl rfl, ?_⟩
  unfold logout
  refine (hm.saveMails guid).map fun mail hmem h => ?_
  have hother : mail.receiver ∈ w.online → mail.receiver ≠ guid →
      mail.receiver ∈ w.online.filter (· ≠ guid) := fun hr hn =>
    mem_filter.mpr ⟨hr, decide_eq_true hn⟩
  split_ifs with hr
  · -- what was in memory has just been saved
    refine ⟨h.soft, fun hd => .inr ?_, nofun, fun _ hr' => ?_⟩
    · obtain ⟨x, hx, rfl⟩ := mem_map.mp hmem
      by_cases hb : x.receiver = guid ∧ x.inBox = true
      · rw [if_pos hb] at hd ⊢
        unfold Mail.save at hd ⊢
        split at hd
        · rename_i hs; rw [hs] at hd; cases hd
        · cases hd
        · rfl
      · rw [if_neg hb] at hd hr ⊢
        exact ((hm x hx).kept hd).resolve_left fun h' => hb ⟨hr, h'⟩
    · have := (mem_filter.mp hr').2
      simp [hr] at this
  · exact ⟨h.soft, h.kept, fun hb => hother (h.boxed hb) hr,
      fun hd hr' => h.loaded hd (mem_filter.mp hr').1⟩

/-- Every step is one of the seven. -/
theorem step_handled (i : MailInput) : Handled w i (w.step i) ∧ (w.step i).Marked := by
  cases i with
  | sendMail guid pk m => exact handled_handleSendMail hm pk
  | count k => exact ⟨.idle (fun _ => rfl) rfl rfl rfl rfl, hm⟩
  | answer k m => exact handled_callback hm k
  | markAsRead guid id m => exact handled_handleMailMarkAsRead hm
  | delete guid id m => exact handled_handleMailDelete hm
  | returnToSender guid id m => exact handled_handleMailReturnToSender hm
  | takeItem guid id m => exact handled_handleMailTakeItem hm
  | takeMoney guid id m => exact handled_handleMailTakeMoney hm
  | saveMails guid =>
    exact ⟨.idle (fun _ => rfl) rfl contents_saveMails rfl rfl, hm.saveMails guid⟩
  | login guid => exact handled_login hm
  | logout guid => exact handled_logout hm

end

end MailWorld

end Windrunner
