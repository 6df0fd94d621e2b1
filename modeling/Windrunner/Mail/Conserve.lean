import Windrunner.Mail.Handled

/-!
# Mail conserves gold and items

* `gold`, `units`, `places`: what the purses and the mails that are not deleted hold; the units of
  an entry in inventories and mails; where the item with a given guid is.
* `Conserves w i w'`: one step changes these by the fee, the contents of a mail that its owner
  deletes, and nothing else; an item that is to be paid for leaves its mail paid or returned.
* `conserves_of_run`: so does every step of every run, as long as no purse passes the cap.
-/

namespace Windrunner

open Lib List

variable {db : ItemDb}

/-- The units of entry `e` in a mail. -/
def Content.units (x : Content db) (e : Nat) : Nat := (x.items.map (·.share e)).sum

/-- How often the item with guid `g` is in a mail. -/
def Content.holding (x : Content db) (g : Nat) : Nat := (x.items.map (·.carries g)).sum

namespace MailWorld

variable {w w' : MailWorld db} {i : MailInput} {guid id : Nat} {m : MailMoment}

/-- A weight of characters and of the mails that are not deleted, summed. -/
def worth (f : Char db → Nat) (g : Content db → Nat) (w : MailWorld db) : Nat :=
  total (fun _ c => f c) w.chars + (w.contents.map fun x => if x.undeleted then g x else 0).sum

/-- All purses and the money in the mails that are not deleted. -/
def gold (w : MailWorld db) : Nat := w.worth (·.money.toNat) (·.money.toNat)

/-- The units of entry `e` in all inventories and in the mails that are not deleted. -/
def units (w : MailWorld db) (e : Nat) : Nat := w.worth (·.inv.units e) (·.units e)

/-- The inventories and mails, not deleted, that the item with guid `g` is in. -/
def places (w : MailWorld db) (g : Nat) : Nat := w.worth (·.inv.holding g) (·.holding g)

/-- An item that is to be paid for stays in its mail; or it is taken, with one debit of the taker
and one mail of that amount to the sender; or the mail is returned. -/
def CodKept (w : MailWorld db) (i : MailInput) (w' : MailWorld db) (j : Nat) (x : Content db) :
    Prop :=
  (∃ money, { x with money } ∈ w'.contents) ∨
  (∃ id m c money inv it items, i = .takeItem x.receiver id m ∧ x.items = it :: items ∧
    w.chars.lookup x.receiver = some c ∧
    w'.chars = w.chars.insert x.receiver { c with money, inv } ∧
    money.toNat + x.cod.toNat = c.money.toNat ∧
    w'.contents = x.payment w.nextMailId :: w.contents.set j (x.without items)) ∨
  ∃ id m, i = .returnToSender x.receiver id m ∧ w'.chars = w.chars ∧
    w'.contents = x.back w.nextMailId :: w.contents.eraseIdx j

/-- What a step keeps. -/
structure Conserves (w : MailWorld db) (i : MailInput) (w' : MailWorld db) : Prop where
  gold : w'.gold + w.discards (·.money.toNat) i + 30 * w'.sent = w.gold + 30 * w.sent
  units : ∀ e, w'.units e + w.discards (·.units e) i = w.units e
  once : ∀ g, w'.places g ≤ 1
  cod : ∀ j x, w.contents[j]? = some x → x.undeleted = true → x.cod ≠ 0 → w.CodKept i w' j x

/-- The sender of a mail that goes back, or is paid for, is a character who can get mail. -/
def SenderKnown (w : MailWorld db) : MailInput → Prop
  | .returnToSender guid id _ => ∀ x ∈ w.getMail guid id, x.2.messageType = .normal ∧
      x.2.sender ≠ 0 ∧ (w.chars.lookup x.2.sender).any (fun c => !c.hardcore) = true
  | .takeItem guid id _ => ∀ x ∈ w.getMail guid id, x.2.cod ≠ 0 →
      (w.chars.lookup x.2.sender).isSome = true
  | _ => True

/-- Money that is taken fits under the cap of the purse. -/
def PurseFits (w : MailWorld db) : MailInput → Prop
  | .takeMoney guid id _ => ∀ c ∈ w.chars.lookup guid, ∀ x ∈ w.getMail guid id,
      c.money.toNat + x.2.money.toNat ≤ maxMoneyAmount.toNat
  | _ => True

instance (w : MailWorld db) : (i : MailInput) → Decidable (w.SenderKnown i)
  | .returnToSender guid id _ => inferInstanceAs (Decidable (∀ x ∈ w.getMail guid id, _ ∧ _ ∧ _))
  | .takeItem guid id _ => inferInstanceAs (Decidable (∀ x ∈ w.getMail guid id, _ → _))
  | .sendMail .. | .count _ | .answer .. | .markAsRead .. | .delete .. | .takeMoney ..
  | .saveMails _ | .login _ | .logout _ => inferInstanceAs (Decidable True)

instance (w : MailWorld db) : (i : MailInput) → Decidable (w.PurseFits i)
  | .takeMoney guid id _ => inferInstanceAs
      (Decidable (∀ c ∈ w.chars.lookup guid, ∀ x ∈ w.getMail guid id, _ ≤ _))
  | .sendMail .. | .count _ | .answer .. | .markAsRead .. | .delete .. | .takeItem ..
  | .returnToSender .. | .saveMails _ | .login _ | .logout _ => inferInstanceAs (Decidable True)

/-- The state of a mail system in which no item is in two places. -/
structure Orderly (w : MailWorld db) : Prop extends Sound w where
  once : ∀ g, w.places g ≤ 1
  new : ∀ g, w.fresh ≤ g → w.places g = 0

/-! ## Sums -/

/-- The weight of a mail as far as it counts. -/
def weigh (g : Content db → Nat) (x : Content db) : Nat := if x.undeleted then g x else 0

/-- What the items of a mail weigh. -/
def stock (s : Item db → Nat) (x : Content db) : Nat := (x.items.map s).sum

theorem weigh_undeleted {g : Content db → Nat} {x : Content db} (h : x.undeleted = true) :
    weigh g x = g x := if_pos h

theorem worth_eq (f : Char db → Nat) (g : Content db → Nat) (w : MailWorld db) :
    w.worth f g = total (fun _ c => f c) w.chars + (w.contents.map (weigh g)).sum := rfl

theorem total_insert_char (f : Char db → Nat) {c : Char db} (c' : Char db)
    (hc : w.chars.lookup guid = some c) :
    total (fun _ c => f c) (w.chars.insert guid c') + f c = total (fun _ c => f c) w.chars + f c' := by
  have h := total_insert (fun _ c => f c) w.chars guid c'
  rwa [weightAt_some hc] at h

section Sums

variable (f : Char db → Nat) (g : Content db → Nat) {c c' : Char db} {x x' : Content db} {j : Nat}

theorem worth_cons (hc : w.chars.lookup guid = some c)
    (hchars : w'.chars = w.chars.insert guid c') (hx : w'.contents = x :: w.contents) :
    w'.worth f g + f c = w.worth f g + f c' + weigh g x := by
  have h := total_insert_char f c' hc
  rw [worth_eq, worth_eq, hchars, hx, map_cons, sum_cons]
  omega

theorem worth_set (hchars : w'.chars = w.chars) (hj : w.contents[j]? = some x)
    (hx : w'.contents = w.contents.set j x') :
    w'.worth f g + weigh g x = w.worth f g + weigh g x' := by
  have h := sum_set (weigh g) x' hj
  rw [worth_eq, worth_eq, hchars, hx]
  omega

theorem worth_set_char (xs : List (Content db)) (hc : w.chars.lookup guid = some c)
    (hchars : w'.chars = w.chars.insert guid c') (hj : w.contents[j]? = some x)
    (hx : w'.contents = xs ++ w.contents.set j x') :
    w'.worth f g + f c + weigh g x =
      w.worth f g + f c' + weigh g x' + (xs.map (weigh g)).sum := by
  have h := total_insert_char f c' hc
  have h' := sum_set (weigh g) x' hj
  rw [worth_eq, worth_eq, hchars, hx, map_append, sum_append]
  omega

theorem worth_erase (hchars : w'.chars = w.chars) (hj : w.contents[j]? = some x)
    (hx : w'.contents = x' :: w.contents.eraseIdx j) :
    w'.worth f g + weigh g x = w.worth f g + weigh g x' := by
  have h := sum_eraseIdx (weigh g) hj
  rw [worth_eq, worth_eq, hchars, hx, map_cons, sum_cons]
  omega

theorem worth_same (hchars : w'.chars = w.chars) (hx : w'.contents = w.contents) :
    w'.worth f g = w.worth f g := by
  rw [worth_eq, worth_eq, hchars, hx]

end Sums

theorem getMail_content {j : Nat} {mail : Mail db} (hg : w.getMail guid id = some (j, mail)) :
    w.contents[j]? = some mail.content := contents_getElem? (getMail_some hg).1

/-- A mail that is deleted is what the packet discards. -/
theorem discards_deleted {g : Content db → Nat} {j : Nat} {mail : Mail db}
    (hg : w.getMail guid id = some (j, mail)) (hbox : m.checkMailBox = true) (hc : mail.cod = 0) :
    w.discards g (.delete guid id m) = weigh g mail.content := by
  simp only [discards, hg, hbox, hc, true_and]
  rfl

theorem counted_set {j : Nat} (x' : Content db) (hw : w.Sound) (h : ∀ it ∈ x'.items, it.count ≠ 0) :
    ∀ x ∈ w.contents.set j x', ∀ it ∈ x.items, it.count ≠ 0 := by
  intro x hx
  rcases mem_or_eq_of_mem_set hx with hx | rfl
  · exact hw.counted x hx
  · exact h

/-- A character is written within the bounds. -/
theorem sound_insert {c : Char db} (hw : w.Sound) (hchars : w'.chars = w.chars.insert guid c)
    (hmoney : c.money ≤ maxMoneyAmount) (hinv : c.inv.Bounded)
    (hcount : ∀ x ∈ w'.contents, ∀ it ∈ x.items, it.count ≠ 0) (hm : w'.Marked) : w'.Sound := by
  have hall : ∀ (P : Char db → Prop), (∀ k c, w.chars.lookup k = some c → P c) → P c →
      ∀ k c, w'.chars.lookup k = some c → P c := by
    intro P hP hc k c' hk
    rw [hchars] at hk
    by_cases he : k = guid
    · subst he
      rw [AList.lookup_insert] at hk
      exact Option.some.inj hk ▸ hc
    · rw [AList.lookup_insert_ne he] at hk
      exact hP k c' hk
  exact ⟨hall (·.money ≤ maxMoneyAmount) hw.purse hmoney, hall (·.inv.Bounded) hw.bounded hinv,
    hcount, hm⟩

/-! ## One step -/

/-- The payment for an item carries no items. -/
theorem sum_payment {g : Content db → Nat} {x : Content db} {n : Nat} {p : Prop} [Decidable p]
    (hg : g (x.payment n) = 0) :
    ((if p then [x.payment n] else []).map (weigh g)).sum = 0 := by
  split_ifs
  · rw [map_singleton, sum_singleton, weigh_undeleted rfl, hg]
  · rfl

section Step

variable (h : Handled w i w')
include h

theorem gold_of_handled (hw : w.Sound) (hs : w.SenderKnown i) (hp : w.PurseFits i) :
    w'.gold + w.discards (·.money.toNat) i + 30 * w'.sent = w.gold + 30 * w.sent := by
  unfold MailWorld.gold
  cases h with
  | idle quiet chars contents _ sent =>
    rw [quiet, sent, worth_same _ _ chars contents, Nat.add_zero]
  | sent quiet hc covers paid _ undeleted chars contents _ sent =>
    have hsum := worth_cons (fun c => c.money.toNat) (fun x => x.money.toNat) hc chars contents
    have hpays := modifyMoney_fee covers (hw.purse _ _ hc)
    rw [weigh_undeleted undeleted] at hsum
    rw [quiet, sent]
    dsimp only at hsum
    rw [paid] at hsum
    omega
  | deleted hg box cod chars contents _ sent =>
    have hsum := worth_set (fun c => c.money.toNat) (fun x => x.money.toNat) chars
      (getMail_content hg) contents
    rw [discards_deleted hg box cod, sent, hsum]
    rfl
  | returned hg _ chars contents _ sent =>
    have hsum := worth_erase (fun c => c.money.toNat) (fun x => x.money.toNat) chars
      (getMail_content hg) contents
    rw [sent, Nat.add_right_cancel hsum]
    rfl
  | dropped hg unknown _ _ _ _ => exact absurd (hs _ hg) unknown
  | @itemTaken _ guid id j m mail c it items money hc hg undeleted hitems covers paid fits chars
      contents _ sent =>
    have hsum := worth_set_char (fun c => c.money.toNat) (fun x => x.money.toNat) _ hc chars
      (getMail_content hg) contents
    have hpay : ((if mail.cod ≠ 0 ∧ (w.chars.lookup mail.sender).isSome then
        [mail.content.payment w.nextMailId] else []).map (weigh fun x => x.money.toNat)).sum =
        mail.cod.toNat := by
      by_cases hcod : mail.cod = 0
      · rw [if_neg fun hn => hn.1 hcod, hcod]; rfl
      · rw [if_pos ⟨hcod, hs _ hg hcod⟩]; rfl
    have hsame : weigh (fun x => x.money.toNat) (mail.content.without items) =
        weigh (fun x => x.money.toNat) mail.content := rfl
    have hpays := modifyMoney_cod covers (hw.purse _ _ hc)
    rw [hpay, hsame] at hsum
    rw [sent]
    dsimp only [discards] at hsum ⊢
    rw [paid] at hsum
    omega
  | @moneyTaken _ guid id j m mail c hc hg undeleted chars contents _ sent =>
    have hsum := worth_set_char (fun c => c.money.toNat) (fun x => x.money.toNat) [] hc chars
      (getMail_content hg) contents
    have hu : mail.content.undeleted = true := undeleted
    have hzero : weigh (fun x => x.money.toNat) mail.content.spent = 0 := by
      unfold weigh; split <;> rfl
    have hadd : (modifyMoney c.money mail.money).toNat = c.money.toNat + mail.money.toNat :=
      modifyMoney_add (hp c hc _ hg)
    rw [weigh_undeleted hu, hzero, map_nil, sum_nil] at hsum
    rw [sent]
    dsimp only [discards, Mail.content] at hsum ⊢
    omega

/-- What items weigh in inventories and mails: a mail without a sender to go back to is lost with
them, and an item that is taken is stored. -/
theorem stock_of_handled (f : Inventory db → Nat) (s : Item db → Nat)
    (hremove : ∀ {inv : Inventory db} {p : Pos} {it : Item db}, inv.getItemByPos p = some it →
      inv.isNonEmptyBag (.own p) = false → f (inv.remove p) + s it = f inv) :
    (w'.fresh = w.fresh ∧ ∃ lost,
      w'.worth (f ·.inv) (stock s) + w.discards (stock s) i + lost = w.worth (f ·.inv) (stock s) ∧
      (w.SenderKnown i → lost = 0)) ∨
    ∃ (c : Char db) (it : Item db),
      (∃ x ∈ w.contents, it ∈ x.items) ∧ (c.inv.canStoreLoose [] (some it)).res = .ok ∧
      w.discards (stock s) i = 0 ∧ ∃ st,
        st = c.inv.moveItemToInventory (c.inv.canStoreLoose [] (some it)).dest it w.fresh ∧
        w'.fresh = st.fresh ∧
        w'.worth (f ·.inv) (stock s) + f c.inv + s it = w.worth (f ·.inv) (stock s) + f st.inv := by
  cases h with
  | idle quiet chars contents fresh _ =>
    exact .inl ⟨fresh, 0, by rw [quiet, worth_same _ _ chars contents]; rfl, fun _ => rfl⟩
  | sent quiet hc _ _ items undeleted chars contents fresh _ =>
    have hsum := worth_cons (f ·.inv) (stock s) hc chars contents
    rw [weigh_undeleted undeleted] at hsum
    refine .inl ⟨fresh, 0, ?_, fun _ => rfl⟩
    rw [quiet]
    dsimp only at hsum
    rcases items with ⟨hx, rfl⟩ | ⟨p, it, hp, hne, hx, rfl⟩
    · rw [stock, hx, map_nil, sum_nil] at hsum
      omega
    · have hrem := hremove hp hne
      rw [stock, hx, map_singleton, sum_singleton] at hsum
      omega
  | deleted hg box cod chars contents fresh _ =>
    have hsum := worth_set (f ·.inv) (stock s) chars (getMail_content hg) contents
    refine .inl ⟨fresh, 0, ?_, fun _ => rfl⟩
    rw [discards_deleted hg box cod, hsum]
    rfl
  | returned hg _ chars contents fresh _ =>
    have hsum := worth_erase (f ·.inv) (stock s) chars (getMail_content hg) contents
    exact .inl ⟨fresh, 0, Nat.add_right_cancel hsum, fun _ => rfl⟩
  | @dropped _ _ _ j _ mail hg unknown chars contents fresh _ =>
    have hsum := sum_eraseIdx (weigh (stock s)) (getMail_content hg)
    refine .inl ⟨fresh, weigh (stock s) mail.content, ?_, fun hs => absurd (hs _ hg) unknown⟩
    rw [worth_eq, worth_eq, chars, contents, ← hsum, ← Nat.add_assoc]
    rfl
  | @itemTaken _ guid id j m mail c it items money hc hg undeleted hitems _ _ fits chars contents
      fresh _ =>
    have hsum := worth_set_char (f ·.inv) (stock s) _ hc chars (getMail_content hg) contents
    have hu : mail.content.undeleted = true := undeleted
    have htake : stock s mail.content = s it + stock s (mail.content.without items) := by
      rw [stock, Mail.content_items, hitems, map_cons, sum_cons]; rfl
    rw [sum_payment rfl, weigh_undeleted hu, weigh_undeleted (x := mail.content.without items) hu]
      at hsum
    refine .inr ⟨c, it, ⟨_, mem_of_getElem? (getMail_content hg), ?_⟩, fits, rfl, _, rfl, fresh, ?_⟩
    · rw [Mail.content_items, hitems]
      exact mem_cons_self
    · dsimp only at hsum
      omega
  | @moneyTaken _ guid id j m mail c hc hg undeleted chars contents fresh _ =>
    have hsum := worth_set_char (f ·.inv) (stock s) [] hc chars (getMail_content hg) contents
    have hsame : weigh (stock s) mail.content.spent = weigh (stock s) mail.content := rfl
    rw [hsame, map_nil, sum_nil] at hsum
    refine .inl ⟨fresh, 0, ?_, fun _ => rfl⟩
    dsimp only [discards] at hsum ⊢
    omega

/-- The units in inventories and mails. -/
theorem units_of_handled (hw : w.Sound) (hs : w.SenderKnown i) (e : Nat) :
    w'.units e + w.discards (·.units e) i = w.units e := by
  obtain ⟨-, lost, hsum, hlost⟩ | ⟨c, it, ⟨x, hx, hit⟩, fits, hd, st, rfl, -, hsum⟩ :=
    stock_of_handled h (·.units e) (·.share e) fun hp hne => Inventory.units_remove_emptied hp hne e
  · rw [hlost hs] at hsum
    exact hsum
  · have hstore := Inventory.units_moveItemToInventory e w.fresh (hw.counted x hx it hit) rfl fits
    show w'.worth _ (stock (·.share e)) + w.discards (stock (·.share e)) i = w.worth _ (stock _)
    omega

/-- Only an item taken in several stacks brings guids that were not there, and they are new. -/
theorem places_of_handled (g : Nat) :
    w.fresh ≤ w'.fresh ∧
      w'.places g ≤ w.places g + if w.fresh ≤ g ∧ g < w'.fresh then 1 else 0 := by
  show _ ∧ w'.worth _ (stock (·.carries g)) ≤ w.worth _ (stock (·.carries g)) + _
  obtain ⟨hfresh, lost, hsum, -⟩ | ⟨c, it, -, -, -, st, rfl, hfresh, hsum⟩ :=
    stock_of_handled h (·.holding g) (·.carries g) Inventory.holding_remove
  · exact ⟨Nat.le_of_eq hfresh.symm, Nat.le_add_right_of_le (by omega)⟩
  · have hstore := Inventory.holding_storeItem_le c.inv it g w.fresh
      (c.inv.canStoreLoose [] (some it)).dest
    rw [hfresh]
    refine ⟨Inventory.fresh_le_storeItem _ _ _ _, ?_⟩
    unfold Inventory.moveItemToInventory at hsum ⊢
    omega

/-- What is to be paid for leaves its mail paid or returned. -/
theorem codKept_of_handled (hw : w.Sound) (hs : w.SenderKnown i) {j : Nat} {x : Content db}
    (hx : w.contents[j]? = some x) (hc : x.cod ≠ 0) : w.CodKept i w' j x := by
  -- a step on another mail leaves this one in the list
  have hset : ∀ {k : Nat} {y : Content db}, k ≠ j → x ∈ w.contents.set k y := fun hk =>
    mem_of_getElem? (by rw [getElem?_set_ne hk]; exact hx)
  cases h with
  | idle _ _ contents _ _ =>
    exact .inl ⟨x.money, by rw [contents]; exact mem_of_getElem? hx⟩
  | sent _ _ _ _ _ _ _ contents _ _ =>
    exact .inl ⟨x.money, by rw [contents]; exact mem_cons_of_mem _ (mem_of_getElem? hx)⟩
  | @deleted _ _ _ k _ mail hg _ cod _ contents _ _ =>
    have hk : k ≠ j := by
      rintro rfl
      obtain rfl : mail.content = x := Option.some.inj ((getMail_content hg).symm.trans hx)
      exact hc cod
    exact .inl ⟨x.money, by rw [contents]; exact hset hk⟩
  | @returned _ _ id k m mail hg _ chars contents _ _ =>
    by_cases hk : k = j
    · subst hk
      obtain rfl : mail.content = x := Option.some.inj ((getMail_content hg).symm.trans hx)
      obtain rfl : mail.receiver = _ := (getMail_some hg).2.1
      exact .inr (.inr ⟨id, m, rfl, chars, contents⟩)
    · refine .inl ⟨x.money, ?_⟩
      rw [contents]
      exact mem_cons_of_mem _ (mem_eraseIdx_iff_getElem?.mpr ⟨j, Ne.symm hk, hx⟩)
  | dropped hg unknown _ _ _ _ => exact absurd (hs _ hg) unknown
  | @itemTaken _ _ id k m mail c it items money hc' hg _ hitems covers paid _ chars contents _ _ =>
    by_cases hk : k = j
    · subst hk
      obtain rfl : mail.content = x := Option.some.inj ((getMail_content hg).symm.trans hx)
      obtain rfl : mail.receiver = _ := (getMail_some hg).2.1
      rw [if_pos ⟨hc, hs _ hg hc⟩] at contents
      have hpays := modifyMoney_cod covers (hw.purse _ _ hc')
      rw [← paid] at hpays
      exact .inr (.inl ⟨id, m, c, money, _, it, items, rfl, hitems, hc', chars, hpays, contents⟩)
    · exact .inl ⟨x.money, by rw [contents]; exact mem_append_right _ (hset hk)⟩
  | @moneyTaken _ _ _ k _ mail _ _ hg _ _ contents _ _ =>
    by_cases hk : k = j
    · subst hk
      obtain rfl : mail.content = x := Option.some.inj ((getMail_content hg).symm.trans hx)
      refine .inl ⟨0, ?_⟩
      rw [contents]
      exact List.mem_set (List.getElem?_eq_some_iff.mp hx).1 _
    · exact .inl ⟨x.money, by rw [contents]; exact hset hk⟩

/-- Purses, stacks and mailed items stay within their bounds. -/
theorem sound_of_handled (hw : w.Sound) (hp : w.PurseFits i) (hm : w'.Marked) : w'.Sound := by
  cases h with
  | idle _ chars contents _ _ =>
    exact ⟨by rw [chars]; exact hw.purse, by rw [chars]; exact hw.bounded,
      by rw [contents]; exact hw.counted, hm⟩
  | @sent _ _ guid c money inv x _ hc covers paid items _ chars contents _ _ =>
    have hinv : inv.Bounded ∧ ∀ it ∈ x.items, it.count ≠ 0 := by
      have hb := hw.bounded _ _ hc
      rcases items with ⟨hx, rfl⟩ | ⟨p, it, hit, -, hx, rfl⟩
      · exact ⟨hb, by rw [hx]; exact forall_mem_nil _⟩
      · refine ⟨hb.remove p, ?_⟩
        rw [hx, forall_mem_singleton, ne_zero_toNat]
        exact (hb p it hit).1
    refine sound_insert hw chars ?_ hinv.1 ?_ hm
    · have hle := le_toNat.mp (hw.purse _ _ hc)
      have hpays := modifyMoney_fee covers (hw.purse _ _ hc)
      rw [← paid] at hpays
      rw [le_toNat]
      dsimp only
      omega
    · rw [contents, forall_mem_cons]
      exact ⟨hinv.2, hw.counted⟩
  | @deleted _ _ _ j _ mail hg _ _ chars contents _ _ =>
    refine ⟨by rw [chars]; exact hw.purse, by rw [chars]; exact hw.bounded, ?_, hm⟩
    rw [contents]
    exact counted_set (mail.content.discarded) hw fun it hit =>
      hw.counted _ (mem_of_getElem? (getMail_content hg)) it hit
  | @returned _ _ _ j _ mail hg _ chars contents _ _ =>
    refine ⟨by rw [chars]; exact hw.purse, by rw [chars]; exact hw.bounded, ?_, hm⟩
    have hmail := hw.counted _ (mem_of_getElem? (getMail_content hg))
    rw [contents, forall_mem_cons]
    exact ⟨hmail, fun x hx => hw.counted x (mem_of_mem_eraseIdx hx)⟩
  | dropped hg _ chars contents _ _ =>
    refine ⟨by rw [chars]; exact hw.purse, by rw [chars]; exact hw.bounded, ?_, hm⟩
    rw [contents]
    exact fun x hx => hw.counted x (mem_of_mem_eraseIdx hx)
  | @itemTaken _ guid id j m mail c it items money hc hg _ hitems covers paid fits chars contents _
      _ =>
    have hmail := hw.counted _ (mem_of_getElem? (getMail_content hg))
    rw [Mail.content_items, hitems, forall_mem_cons] at hmail
    refine sound_insert hw chars ?_
      (Inventory.bounded_moveItemToInventory w.fresh (hw.bounded _ _ hc) hmail.1 fits) ?_ hm
    · have hle := le_toNat.mp (hw.purse _ _ hc)
      have hpays := modifyMoney_cod covers (hw.purse _ _ hc)
      rw [← paid] at hpays
      rw [le_toNat]
      dsimp only
      omega
    · rw [contents]
      intro x hx
      rcases mem_append.mp hx with hx | hx
      · split_ifs at hx
        · obtain rfl := mem_singleton.mp hx
          exact forall_mem_nil _
        · cases hx
      · exact counted_set (mail.content.without items) hw hmail.2 x hx
  | @moneyTaken _ guid id j m mail c hc hg _ chars contents _ _ =>
    have hb := hw.bounded _ _ hc
    refine sound_insert hw chars ?_ hb ?_ hm
    · have hfit : c.money.toNat + mail.money.toNat ≤ maxMoneyAmount.toNat := hp c hc _ hg
      rw [le_toNat]
      dsimp only
      rw [modifyMoney_add hfit]
      exact hfit
    · rw [contents]
      exact counted_set (mail.content.spent) hw fun it hit =>
        hw.counted _ (mem_of_getElem? (getMail_content hg)) it hit

end Step

/-! ## Runs -/

/-- A step from an orderly state conserves, and its result is orderly. -/
theorem step_conserves (hw : w.Orderly) (hs : w.SenderKnown i) (hp : w.PurseFits i) :
    w.Conserves i (w.step i) ∧ (w.step i).Orderly := by
  obtain ⟨h, hm⟩ := step_handled hw.marked i
  have hplaces : ∀ g, (w.step i).places g ≤ 1 ∧ ((w.step i).fresh ≤ g → (w.step i).places g = 0) := by
    intro g
    obtain ⟨hf, hg⟩ := places_of_handled h g
    have h1 := hw.once g
    have h2 := hw.new g
    split_ifs at hg <;> omega
  exact ⟨⟨gold_of_handled h hw.toSound hs hp, units_of_handled h hw.toSound hs, fun g => (hplaces g).1,
    fun j x hx _ hc => codKept_of_handled h hw.toSound hs hx hc⟩,
    ⟨sound_of_handled h hw.toSound hp hm, fun g => (hplaces g).1, fun g => (hplaces g).2⟩⟩

/-- Every step of every run from an orderly state conserves gold and items, as long as the senders
of returned and paid mails exist and no purse passes the cap. -/
theorem conserves_of_run (hw : w.Orderly) {is : List MailInput}
    (h : AlongRun step (fun w i => w.SenderKnown i ∧ w.PurseFits i) w is) :
    AlongRun step (fun w i => w.Conserves i (w.step i)) w is :=
  h.imp (fun _ _ hw h => step_conserves hw h.1 h.2) hw

/-- A character with a full purse has two mails: five pieces of cloth to be paid for, and money. -/
def codWorld : MailWorld sampleDb :=
  { chars := ((∅ : FinMap Nat (Char sampleDb)).insert 1 { money := 1000, inv := .empty 1 }).insert 2
      { money := maxMoneyAmount, inv := .empty 2 }
    online := [1, 2]
    mails :=
      [{ messageID := 1, sender := 1, receiver := 2, cod := 50, items := [cloth 10 5] },
        { messageID := 2, sender := 1, receiver := 2, money := 5 }]
    nextMailId := 3
    fresh := 11 }

theorem codWorld_orderly : codWorld.Orderly := by
  have hchars : ∀ x ∈ codWorld.chars.entries, x.2.money ≤ maxMoneyAmount ∧
      x.2.inv.cells.entries = [] := by
    decide
  have hplaces : ∀ g, codWorld.places g = if g = 10 then 1 else 0 := by
    intro g
    have hsum : codWorld.places g = 0 + (cloth 10 5).carries g := rfl
    rw [hsum, Nat.zero_add]
    simp only [Item.carries, cloth, eq_comm]
  refine ⟨⟨fun k c hk => (hchars ⟨k, c⟩ (of_mem_dlookup hk)).1, fun k c hk => ?_, ?_, ?_⟩, ?_, ?_⟩
  · refine Inventory.bounded_of_entries ?_
    rw [(hchars ⟨k, c⟩ (of_mem_dlookup hk)).2]
    exact forall_mem_nil _
  · decide
  · intro x hx
    simp only [codWorld, mem_cons, not_mem_nil, or_false] at hx
    rcases hx with rfl | rfl
    · exact ⟨(fun h => by cases h), (fun h => by cases h), fun _ => by decide, fun _ _ => rfl⟩
    · exact ⟨(fun h => by cases h), (fun h => by cases h), fun _ => by decide, fun _ _ => rfl⟩
  · intro g
    rw [hplaces]
    split_ifs <;> omega
  · intro g hg
    have : 11 ≤ g := hg
    rw [hplaces, if_neg (by omega)]

/-- The mail to be paid for goes back without a payment, and taking the money loses it. -/
theorem codWorld_not_conserved :
    codWorld.Orderly ∧
      codWorld.SenderKnown (.returnToSender 2 1 {}) ∧
      (codWorld.step (.returnToSender 2 1 {})).chars = codWorld.chars ∧
      (codWorld.step (.returnToSender 2 1 {})).contents.all (fun x => x.messageID != 1) = true ∧
      (codWorld.contents.any fun x => x.messageID == 1 && x.cod == 50) = true ∧
      (codWorld.step (.takeMoney 2 2 {})).gold + 5 = codWorld.gold ∧
      (codWorld.step (.takeMoney 2 2 {})).sent = codWorld.sent :=
  ⟨codWorld_orderly, by decide, rfl, by decide, by decide, by decide, rfl⟩

/-- The cloth is paid for and stored first, and then the money fits. -/
theorem codWorld_conserved :
    AlongRun step (fun w i => w.Conserves i (w.step i)) codWorld
      [.takeItem 2 1 {}, .takeMoney 2 2 {}, .markAsRead 2 2 {}, .delete 2 2 {},
        .sendMail 2 { receiver := 1, itemGuid := 10, money := 7 } { now := 5 }] :=
  conserves_of_run codWorld_orderly (by decide)

end MailWorld

end Windrunner
