import Windrunner.Auction.Agree
import Windrunner.Mail.Handled

/-!
# Every auction is settled

The ledger of an auction is what was taken from purses for it and what was mailed for it.

* `AuctionLedger.Owed`: of a live auction, nothing has been delivered or earned, and what was taken
  from the bidders and not refunded is the standing bid.
* `AuctionLedger.Closed`: of an auction that has left its house, the item was delivered once, and
  the last bid was paid out or refunded.
* `AuctionWorld.settled_of_run`: this holds in every run in which nobody loses his auctions to
  `RemoveAllAuctions`; that call delivers and refunds nothing (`saleWorld_not_settled`).
-/

namespace Windrunner

open Lib List

variable {db : ItemDb}

namespace AuctionAnswer

/-- The mail gives a bid back. -/
def isRefund : AuctionAnswer → Bool
  | .outbidded | .cancelledToBidder => true
  | .won | .successful | .expired | .canceled => false

end AuctionAnswer

/-- The journal of one auction, latest first. -/
structure AuctionLedger (db : ItemDb) where
  debits : List AuctionDebit := []
  fees : List AuctionDebit := []
  sent : List (AuctionMail db) := []

/-- The auction was sold: it had a bid and was not cancelled. -/
def AuctionEnd.sold (e : AuctionEnd) : Bool := !e.cancelled && e.auction.bidder != 0

/-- Who gets the item. -/
def AuctionEnd.receiver (e : AuctionEnd) : Nat :=
  if e.sold then e.auction.bidder else e.auction.owner

namespace AuctionLedger

/-- What bidders among `q` have paid. -/
def taken (l : AuctionLedger db) (q : Nat → Bool) : Nat :=
  (l.debits.map fun d => if q d.player then d.amount else 0).sum

/-- What bidders among `q` got back. -/
def refunded (l : AuctionLedger db) (q : Nat → Bool) : Nat :=
  (l.sent.map fun s => if s.answer.isRefund && q s.receiver then s.money.toNat else 0).sum

/-- What players among `q` got besides. -/
def earned (l : AuctionLedger db) (q : Nat → Bool) : Nat :=
  (l.sent.map fun s => if !s.answer.isRefund && q s.receiver then s.money.toNat else 0).sum

/-- The guids of the items sent, with who got them. -/
def delivered (l : AuctionLedger db) : List (Nat × Nat) :=
  l.sent.flatMap fun s => s.items.map fun it => (s.receiver, it.guid)

/-- Deposits and cuts, with who paid them. -/
def charged (l : AuctionLedger db) : List (Nat × Nat) := l.fees.map fun d => (d.player, d.amount)

/-- The ledger of a live auction. -/
structure Owed (l : AuctionLedger db) (a : AuctionEntry) : Prop where
  taken : ∀ q, l.taken q = l.refunded q + if q a.bidder then a.bid.toNat else 0
  earned : ∀ q, l.earned q = 0
  delivered : l.delivered = []
  charged : l.charged = [(a.owner, a.deposit.toNat)]

/-- The ledger of an auction that has left its house. -/
structure Closed (l : AuctionLedger db) (e : AuctionEnd) : Prop where
  delivered : l.delivered = [(e.receiver, e.auction.itemGuid)]
  taken : ∀ q, l.taken q =
    l.refunded q + if e.sold && q e.auction.bidder then e.auction.bid.toNat else 0
  earned : ∀ q, l.earned q + (if e.sold && q e.auction.owner then e.cut.toNat else 0) =
    if e.sold && q e.auction.owner then e.auction.bid.toNat + e.auction.deposit.toNat else 0
  charged : l.charged =
    (if e.cancelled && e.auction.bidder != 0 then [(e.auction.owner, e.cut.toNat)] else []) ++
      [(e.auction.owner, e.auction.deposit.toNat)]

def mailed (l : AuctionLedger db) (s : AuctionMail db) : AuctionLedger db :=
  { l with sent := s :: l.sent }

variable {l : AuctionLedger db} {s : AuctionMail db} {q : Nat → Bool} {a : AuctionEntry}

@[simp] theorem taken_mailed : (l.mailed s).taken q = l.taken q := rfl

@[simp] theorem charged_mailed : (l.mailed s).charged = l.charged := rfl

@[simp] theorem refunded_mailed : (l.mailed s).refunded q =
    (if s.answer.isRefund && q s.receiver then s.money.toNat else 0) + l.refunded q := sum_cons

@[simp] theorem earned_mailed : (l.mailed s).earned q =
    (if !s.answer.isRefund && q s.receiver then s.money.toNat else 0) + l.earned q := sum_cons

@[simp] theorem delivered_mailed : (l.mailed s).delivered =
    (s.items.map fun it => (s.receiver, it.guid)) ++ l.delivered := flatMap_cons

/-- A bid is paid. -/
def debited (l : AuctionLedger db) (d : AuctionDebit) : AuctionLedger db :=
  { l with debits := d :: l.debits }

@[simp] theorem taken_debited {d : AuctionDebit} : (l.debited d).taken q =
    (if q d.player then d.amount else 0) + l.taken q := sum_cons

@[simp] theorem refunded_debited {d : AuctionDebit} : (l.debited d).refunded q = l.refunded q := rfl

@[simp] theorem earned_debited {d : AuctionDebit} : (l.debited d).earned q = l.earned q := rfl

@[simp] theorem delivered_debited {d : AuctionDebit} : (l.debited d).delivered = l.delivered := rfl

namespace Owed

variable {guid : Nat} {price : UInt32}

/-- The bidder raises his own bid. -/
theorem raised {d : AuctionDebit} (h : l.Owed a) (hp : d.player = a.bidder)
    (hd : d.amount + a.bid.toNat = price.toNat) : (l.debited d).Owed (a.bidBy a.bidder price) := by
  refine { h with taken := fun q => ?_ }
  rw [taken_debited, refunded_debited, h.taken q, hp]
  show _ = _ + if q a.bidder then price.toNat else 0
  split_ifs <;> omega

theorem firstBid {d : AuctionDebit} (h : l.Owed a) (hbid : a.bid = 0) (hp : d.player = guid)
    (hd : d.amount = price.toNat) : (l.debited d).Owed (a.bidBy guid price) := by
  refine { h with taken := fun q => ?_ }
  rw [taken_debited, refunded_debited, h.taken q, hp, hd, hbid]
  show _ = _ + if q guid then price.toNat else 0
  have : (if q a.bidder then (0 : UInt32).toNat else 0) = 0 := ite_self 0
  omega

/-- A higher bid of another bidder, and the old one goes back. -/
theorem outbid {d : AuctionDebit} (h : l.Owed a) (hp : d.player = guid)
    (hd : d.amount = price.toNat) (id : Nat) :
    ((l.debited d).mailed ⟨id, .outbidded, a.bidder, a.bid, []⟩).Owed (a.bidBy guid price) := by
  refine ⟨fun q => ?_, fun q => ?_, ?_, h.charged⟩
  · rw [taken_mailed, taken_debited, refunded_mailed, refunded_debited, h.taken q, hp, hd]
    show _ = _ + if q guid then price.toNat else 0
    simp only [AuctionAnswer.isRefund, Bool.true_and]
    omega
  · rw [earned_mailed, earned_debited, h.earned q]
    rfl
  · rw [delivered_mailed, delivered_debited, h.delivered]
    rfl

/-- The owner gets his money and the bidder the item. -/
theorem sold {cut : UInt32} {it : Item db} (h : l.Owed a) (hb : a.bidder ≠ 0)
    (hcut : cut ≤ a.bid) (hfits : a.bid.toNat + a.deposit.toNat < 2 ^ 32)
    (hit : it.guid = a.itemGuid) (id : Nat) :
    ((l.mailed ⟨id, .successful, a.owner, a.bid + a.deposit - cut, []⟩).mailed
      ⟨id, .won, a.bidder, 0, [it]⟩).Closed { auction := a, cut } := by
  have hsold : AuctionEnd.sold { auction := a, cut } = true := by simp [AuctionEnd.sold, hb]
  refine ⟨?_, fun q => ?_, fun q => ?_, h.charged⟩
  · rw [delivered_mailed, delivered_mailed, h.delivered, AuctionEnd.receiver, hsold]
    show [(a.bidder, it.guid)] = _
    rw [hit]
    rfl
  · rw [taken_mailed, taken_mailed, refunded_mailed, refunded_mailed, h.taken q, hsold]
    simp only [AuctionAnswer.isRefund, Bool.false_and, Bool.true_and]
    show _ = 0 + (0 + _) + _
    omega
  · have hmoney : (a.bid + a.deposit - cut).toNat + cut.toNat = a.bid.toNat + a.deposit.toNat := by
      have := le_toNat.mp hcut
      rw [UInt32.toNat_sub, UInt32.toNat_add]
      have := cut.toNat_lt
      omega
    rw [earned_mailed, earned_mailed, h.earned q, hsold]
    simp only [AuctionAnswer.isRefund, Bool.not_false, Bool.true_and, UInt32.toNat_zero, ite_self]
    split_ifs <;> omega

/-- Without a bid the item goes back to the owner. -/
theorem returned {it : Item db} {e : AuctionEnd} {answer : AuctionAnswer} (h : l.Owed e.auction)
    (hb : e.auction.bidder = 0) (hbid : e.auction.bid = 0) (hans : answer.isRefund = false)
    (hit : it.guid = e.auction.itemGuid) (id : Nat) :
    (l.mailed ⟨id, answer, e.auction.owner, 0, [it]⟩).Closed e := by
  have hsold : e.sold = false := by simp [AuctionEnd.sold, hb]
  refine ⟨?_, fun q => ?_, fun q => ?_, ?_⟩
  · rw [delivered_mailed, h.delivered, AuctionEnd.receiver, hsold, append_nil]
    show [(e.auction.owner, it.guid)] = _
    rw [hit]
    rfl
  · rw [taken_mailed, refunded_mailed, h.taken q, hsold, hbid, hans]
    simp only [Bool.false_and, UInt32.toNat_zero, ite_self]
    omega
  · rw [earned_mailed, h.earned q, hsold]
    simp only [Bool.false_and, UInt32.toNat_zero, ite_self]
    rfl
  · rw [charged_mailed, h.charged, hb]
    simp

/-- The owner pays the cut, the bidder gets his bid back, and the item goes back to the owner. -/
theorem cancelled {cut : UInt32} {it : Item db} {d : AuctionDebit} (h : l.Owed a)
    (hb : a.bidder ≠ 0) (hp : d.player = a.owner) (hd : d.amount = cut.toNat)
    (hit : it.guid = a.itemGuid) (id : Nat) :
    ({ l.mailed ⟨id, .cancelledToBidder, a.bidder, a.bid, []⟩ with
        fees := d :: l.fees }.mailed ⟨id, .canceled, a.owner, 0, [it]⟩).Closed
      { auction := a, cancelled := true, cut } := by
  refine ⟨?_, fun q => ?_, fun q => ?_, ?_⟩
  · show [(a.owner, it.guid)] ++ l.delivered = _
    rw [h.delivered, hit]
    rfl
  · show l.taken q = 0 + ((if q a.bidder then a.bid.toNat else 0) + l.refunded q) + 0
    rw [h.taken q]
    omega
  · show (if q a.owner then 0 else 0) + (0 + l.earned q) + 0 = 0
    rw [h.earned q, ite_self]
  · show (d.player, d.amount) :: l.charged = _
    rw [h.charged, hp, hd]
    simp [hb]

end Owed

end AuctionLedger

/-- A bid is below the buyout and, like the deposit, was in a purse. -/
structure AuctionEntry.Sane (a : AuctionEntry) : Prop where
  unbid : a.bidder = 0 → a.bid = 0
  below : a.buyout = 0 ∨ a.bid < a.buyout
  bid_le : a.bid ≤ maxMoneyAmount
  deposit_le : a.deposit ≤ maxMoneyAmount

/-- Purses are within the cap, and `0` is nobody. -/
def MailWorld.Solvent (w : MailWorld db) : Prop :=
  ∀ g c, w.chars.lookup g = some c → g ≠ 0 ∧ c.money ≤ maxMoneyAmount

namespace AuctionWorld

/-- The journal of an auction. -/
def ledger (w : AuctionWorld db) (id : Nat) : AuctionLedger db where
  debits := w.debits.filter (·.auction = id)
  fees := w.fees.filter (·.auction = id)
  sent := w.sent.filter (·.auction = id)

/-- Every auction there has been is live and owed, or has left and is closed. -/
structure Settled (w : AuctionWorld db) : Prop where
  solvent : w.mail.Solvent
  sane : ∀ a ∈ w.live, a.Sane
  owed : ∀ a ∈ w.live, (w.ledger a.id).Owed a
  closed : ∀ e ∈ w.left, (w.ledger e.auction.id).Closed e
  listed : ∀ id, (∃ a ∈ w.live, a.id = id) ∨ (∃ e ∈ w.left, e.auction.id = id) ∨ w.ledger id = {}
  once : ∀ e ∈ w.left, ∀ a ∈ w.live, a.id ≠ e.auction.id
  live_lt : ∀ a ∈ w.live, a.id < w.nextAuctionId
  left_lt : ∀ e ∈ w.left, e.auction.id < w.nextAuctionId

variable {w w' : AuctionWorld db} {k id : Nat} {h : AuctionHouse} {a a' : AuctionEntry}
  {rest : List AuctionEntry}

/-- The writes to a world that leave the auctions besides one alone. -/
structure Others (w w' : AuctionWorld db) (id : Nat) : Prop where
  ledger : ∀ i ≠ id, w'.ledger i = w.ledger i
  next : w'.nextAuctionId = w.nextAuctionId

namespace Settled

/-- Only the auction `id` changes. -/
theorem change (hw : w.Settled) (hledger : ∀ i ≠ id, w'.ledger i = w.ledger i)
    (hnext : w.nextAuctionId ≤ w'.nextAuctionId) (hid : id < w'.nextAuctionId)
    (hsolv : w'.mail.Solvent)
    (hlive : ∀ b ∈ w'.live, b ∈ w.live ∧ b.id ≠ id ∨ b.id = id ∧ b.Sane ∧ (w'.ledger id).Owed b)
    (hleft : ∀ e ∈ w'.left, e ∈ w.left ∧ e.auction.id ≠ id ∨
      e.auction.id = id ∧ (w'.ledger id).Closed e ∧ ∀ b ∈ w'.live, b.id ≠ id)
    (hkept : (∀ b ∈ w.live, b.id ≠ id → b ∈ w'.live) ∧ ∀ e ∈ w.left, e ∈ w'.left)
    (hlisted : (∃ b ∈ w'.live, b.id = id) ∨ ∃ e ∈ w'.left, e.auction.id = id) : w'.Settled := by
  refine ⟨hsolv, fun b hb => ?_, fun b hb => ?_, fun e he => ?_, fun i => ?_, fun e he b hb => ?_,
    fun b hb => ?_, fun e he => ?_⟩
  · rcases hlive b hb with ⟨hb, -⟩ | ⟨-, hsane, -⟩
    · exact hw.sane b hb
    · exact hsane
  · rcases hlive b hb with ⟨hb, hne⟩ | ⟨hi, -, howed⟩
    · rw [hledger _ hne]
      exact hw.owed b hb
    · rw [hi]
      exact howed
  · rcases hleft e he with ⟨he, hne⟩ | ⟨hi, hclosed, -⟩
    · rw [hledger _ hne]
      exact hw.closed e he
    · rw [hi]
      exact hclosed
  · by_cases hi : i = id
    · subst hi
      exact hlisted.imp_right .inl
    · rw [hledger i hi]
      rcases hw.listed i with ⟨b, hb, rfl⟩ | ⟨e, he, hei⟩ | hl
      · exact .inl ⟨b, hkept.1 b hb hi, rfl⟩
      · exact .inr (.inl ⟨e, hkept.2 e he, hei⟩)
      · exact .inr (.inr hl)
  · rcases hleft e he with ⟨he, hne⟩ | ⟨hi, -, honce⟩
    · rcases hlive b hb with ⟨hb, -⟩ | ⟨hi, -⟩
      · exact hw.once e he b hb
      · rw [hi]
        exact hne.symm
    · rw [hi]
      exact honce b hb
  · rcases hlive b hb with ⟨hb, -⟩ | ⟨hi, -⟩
    · exact (hw.live_lt b hb).trans_le hnext
    · omega
  · rcases hleft e he with ⟨he, -⟩ | ⟨hi, -⟩
    · exact (hw.left_lt e he).trans_le hnext
    · omega

/-- The other auctions have other ids. -/
theorem rest_ne (hids : (w.live.map (·.id)).Nodup) (hl : w.live.Perm (a :: rest)) :
    ∀ b ∈ rest, b ∈ w.live ∧ b.id ≠ a.id := by
  have hids := (hl.map (·.id)).nodup_iff.mp hids
  rw [map_cons, nodup_cons] at hids
  exact fun b hb => ⟨hl.mem_iff.mpr (mem_cons_of_mem _ hb), fun he => hids.1 (mem_map.mpr ⟨b, hb, he⟩)⟩

/-- An auction is written to. -/
theorem set (hw : w.Settled) (hids : (w.live.map (·.id)).Nodup) (hl : w.live.Perm (a :: rest))
    (hl' : w'.live.Perm (a' :: rest)) (hid : a'.id = a.id) (ho : Others w w' a.id)
    (hleft : w'.left = w.left) (hsolv : w'.mail.Solvent) (hsane : a'.Sane)
    (howed : (w'.ledger a.id).Owed a') : w'.Settled := by
  have hrest := rest_ne hids hl
  have ha : a ∈ w.live := hl.mem_iff.mpr mem_cons_self
  refine hw.change ho.ledger ho.next.ge (ho.next ▸ hw.live_lt a ha) hsolv (fun b hb => ?_)
    (fun e he => ?_) ⟨fun b hb hne => ?_, fun e he => hleft ▸ he⟩
    (.inl ⟨a', hl'.mem_iff.mpr mem_cons_self, hid⟩)
  · rcases mem_cons.mp (hl'.mem_iff.mp hb) with rfl | hb
    · exact .inr ⟨hid, hsane, howed⟩
    · exact .inl (hrest b hb)
  · rw [hleft] at he
    exact .inl ⟨he, fun heq => hw.once e he a ha heq.symm⟩
  · rcases mem_cons.mp (hl.mem_iff.mp hb) with rfl | hb
    · exact absurd rfl hne
    · exact hl'.mem_iff.mpr (mem_cons_of_mem _ hb)

/-- An auction leaves its house. -/
theorem close {e : AuctionEnd} (hw : w.Settled) (hids : (w.live.map (·.id)).Nodup)
    (hl : w.live.Perm (a :: rest)) (hl' : w'.live.Perm rest) (he : e.auction.id = a.id)
    (ho : Others w w' a.id) (hleft : w'.left = e :: w.left) (hsolv : w'.mail.Solvent)
    (hclosed : (w'.ledger a.id).Closed e) : w'.Settled := by
  have hrest := rest_ne hids hl
  have ha : a ∈ w.live := hl.mem_iff.mpr mem_cons_self
  have hin : e ∈ w'.left := hleft ▸ mem_cons_self
  refine hw.change ho.ledger ho.next.ge (ho.next ▸ hw.live_lt a ha) hsolv
    (fun b hb => .inl (hrest b (hl'.mem_iff.mp hb))) (fun x hx => ?_)
    ⟨fun b hb hne => ?_, fun x hx => hleft ▸ mem_cons_of_mem _ hx⟩ (.inr ⟨e, hin, he⟩)
  · rw [hleft] at hx
    rcases mem_cons.mp hx with rfl | hx
    · exact .inr ⟨he, hclosed, fun b hb => (hrest b (hl'.mem_iff.mp hb)).2⟩
    · exact .inl ⟨hx, fun heq => hw.once x hx a ha heq.symm⟩
  · rcases mem_cons.mp (hl.mem_iff.mp hb) with rfl | hb
    · exact absurd rfl hne
    · exact hl'.mem_iff.mpr hb

/-- Nothing is written down for an id that is not in use yet. -/
theorem ledger_of_le (hw : w.Settled) (hid : w.nextAuctionId ≤ id) : w.ledger id = {} := by
  rcases hw.listed id with ⟨b, hb, rfl⟩ | ⟨e, he, rfl⟩ | hl
  · exact absurd (hw.live_lt b hb) (by omega)
  · exact absurd (hw.left_lt e he) (by omega)
  · exact hl

/-- An auction is added. -/
theorem add (hw : w.Settled) (hl' : w'.live.Perm (a :: w.live)) (hnew : w.nextAuctionId ≤ a.id)
    (hledger : ∀ id ≠ a.id, w'.ledger id = w.ledger id) (hnext : w'.nextAuctionId = a.id + 1)
    (hleft : w'.left = w.left) (hsolv : w'.mail.Solvent) (hsane : a.Sane)
    (howed : (w'.ledger a.id).Owed a) : w'.Settled := by
  refine hw.change hledger (by omega) (by omega) hsolv (fun b hb => ?_) (fun e he => ?_)
    ⟨fun b hb _ => hl'.mem_iff.mpr (mem_cons_of_mem _ hb), fun e he => hleft ▸ he⟩
    (.inl ⟨a, hl'.mem_iff.mpr mem_cons_self, rfl⟩)
  · rcases mem_cons.mp (hl'.mem_iff.mp hb) with rfl | hb
    · exact .inr ⟨rfl, hsane, howed⟩
    · have := hw.live_lt b hb
      exact .inl ⟨hb, by omega⟩
  · rw [hleft] at he
    have := hw.left_lt e he
    exact .inl ⟨he, by omega⟩

end Settled

/-! ## Payments and mails -/

/-- Payments and mails for one auction: the others, and who exists, stay as they are. -/
structure Mailing (w w' : AuctionWorld db) (id : Nat) : Prop extends Others w w' id where
  left : w'.left = w.left
  knows : ∀ g, w'.knows g = w.knows g
  solvent : w.mail.Solvent → w'.mail.Solvent

section Mailing

variable {guid : Nat} {c : Char db} {m : AuctionMoment}

theorem Mailing.refl (w : AuctionWorld db) (id : Nat) : Mailing w w id :=
  ⟨⟨fun _ _ => rfl, rfl⟩, rfl, fun _ => rfl, fun hs => hs⟩

theorem Mailing.trans {w'' : AuctionWorld db} (h1 : Mailing w w' id) (h2 : Mailing w' w'' id) :
    Mailing w w'' id :=
  ⟨⟨fun i hi => (h2.ledger i hi).trans (h1.ledger i hi), h2.next.trans h1.next⟩,
    h2.left.trans h1.left, fun g => (h2.knows g).trans (h1.knows g), h2.solvent ∘ h1.solvent⟩

/-- An auction leaves its house after the mails were sent. -/
theorem Settled.finish {w₁ : AuctionWorld db} {e : AuctionEnd} (hw : w.Settled)
    (hids : (w.live.map (·.id)).Nodup) (hl : w.live.Perm (a :: rest)) (hl' : w'.live.Perm rest)
    (he : e.auction.id = a.id) (hmail : Mailing w w₁ a.id) (hclosed : (w₁.ledger a.id).Closed e)
    (hdebits : w'.debits = w₁.debits) (hfees : w'.fees = w₁.fees) (hsent : w'.sent = w₁.sent)
    (hnext : w'.nextAuctionId = w₁.nextAuctionId) (hm : w'.mail = w₁.mail)
    (hleft : w'.left = e :: w₁.left) : w'.Settled := by
  have hledger : ∀ i, w'.ledger i = w₁.ledger i := by
    intro i
    unfold ledger
    rw [hdebits, hfees, hsent]
  refine hw.close hids hl hl' he ⟨fun i hi => ?_, hnext.trans hmail.next⟩ ?_ ?_ ?_
  · rw [hledger]
    exact hmail.ledger i hi
  · rw [hleft, hmail.left]
  · rw [hm]
    exact hmail.solvent hw.solvent
  · rw [hledger]
    exact hclosed

theorem Mailing.setHouse (h : Mailing w w' id) (k : Nat) (h' : AuctionHouse) :
    Mailing w (w'.setHouse k h') id := ⟨⟨h.ledger, h.next⟩, h.left, h.knows, h.solvent⟩

@[simp] theorem ledger_post (answer : AuctionAnswer) (receiver : Nat) (money : UInt32)
    (items : List (Item db)) (now : Nat) : (w.post a answer receiver money items now).ledger a.id =
      (w.ledger a.id).mailed ⟨a.id, answer, receiver, money, items⟩ := by
  unfold ledger post AuctionLedger.mailed
  simp

theorem mailing_post (w : AuctionWorld db) (a : AuctionEntry) (answer : AuctionAnswer)
    (receiver : Nat) (money : UInt32) (items : List (Item db)) (now : Nat) :
    Mailing w (w.post a answer receiver money items now) a.id := by
  refine ⟨⟨fun id hid => ?_, rfl⟩, rfl, fun _ => rfl, fun hs => hs⟩
  unfold ledger post
  simp [Ne.symm hid]

/-- A purse is written to. -/
theorem knows_setChar {c' : Char db} (hc : w.char guid = some c)
    (hm : w'.mail = w.mail.setChar guid c') (hh : c'.hardcore = c.hardcore) (g : Nat) :
    w'.knows g = w.knows g := by
  unfold knows char at *
  rw [hm]
  unfold MailWorld.setChar
  by_cases hg : g = guid
  · subst hg
    rw [AList.lookup_insert, hc]
    simp [hh]
  · rw [AList.lookup_insert_ne hg]

theorem solvent_setChar {c' : Char db} (hc : w.char guid = some c)
    (hm : w'.mail = w.mail.setChar guid c') (hle : c'.money ≤ c.money) (hs : w.mail.Solvent) :
    w'.mail.Solvent := by
  intro g x hx
  rw [hm] at hx
  unfold MailWorld.setChar at hx
  by_cases hg : g = guid
  · subst hg
    rw [AList.lookup_insert, Option.some.injEq] at hx
    subst hx
    exact ⟨(hs g c hc).1, UInt32.le_trans hle (hs g c hc).2⟩
  · rw [AList.lookup_insert_ne hg] at hx
    exact hs g x hx

theorem modifyMoney_le {money amount : UInt32} (h : amount ≤ money) (hm : money ≤ maxMoneyAmount) :
    modifyMoney money (0 - amount) ≤ money := by
  have := modifyMoney_sub h hm
  exact le_toNat.mpr (by omega)

/-- What is taken is what was asked for. -/
theorem debit_amount {amount : UInt32} (h : amount ≤ c.money) (hm : c.money ≤ maxMoneyAmount) :
    (debit id guid c amount).amount = amount.toNat := by
  have := modifyMoney_sub h hm
  unfold debit
  dsimp only
  omega

theorem ledger_charge (amount : UInt32) :
    (w.charge a guid c amount).ledger a.id = (w.ledger a.id).debited (debit a.id guid c amount) := by
  unfold ledger charge AuctionLedger.debited debit
  simp

theorem mailing_charge (hc : w.char guid = some c) {amount : UInt32} (h : amount ≤ c.money)
    (hm : c.money ≤ maxMoneyAmount) : Mailing w (w.charge a guid c amount) a.id := by
  refine ⟨⟨fun id hid => ?_, rfl⟩, rfl, knows_setChar hc rfl rfl,
    solvent_setChar hc rfl (modifyMoney_le h hm)⟩
  unfold ledger charge debit
  simp [Ne.symm hid]

/-- An owner pays a deposit or a cut. -/
theorem ledger_fee {d : AuctionDebit} (hfees : w'.fees = d :: w.fees)
    (hdebits : w'.debits = w.debits) (hsent : w'.sent = w.sent) :
    w'.ledger d.auction = { w.ledger d.auction with fees := d :: (w.ledger d.auction).fees } ∧
      ∀ id ≠ d.auction, w'.ledger id = w.ledger id := by
  unfold ledger
  rw [hdebits, hsent, hfees]
  refine ⟨?_, fun id hid => ?_⟩
  · rw [filter_cons_of_pos (by simp)]
  · rw [filter_cons_of_neg (by simpa using Ne.symm hid)]

theorem ledger_payCut (cut : UInt32) : (w.payCut guid c a cut).ledger a.id =
    { w.ledger a.id with fees := debit a.id guid c cut :: (w.ledger a.id).fees } := by
  have hfees : (w.payCut guid c a cut).fees = debit a.id guid c cut :: w.fees := rfl
  exact (ledger_fee hfees rfl rfl).1

theorem mailing_payCut (a : AuctionEntry) (hc : w.char guid = some c) {cut : UInt32}
    (h : cut ≤ c.money) (hm : c.money ≤ maxMoneyAmount) :
    Mailing w (w.payCut guid c a cut) a.id := by
  have hfees : (w.payCut guid c a cut).fees = debit a.id guid c cut :: w.fees := rfl
  exact ⟨⟨(ledger_fee hfees rfl rfl).2, rfl⟩, rfl, knows_setChar hc rfl rfl,
    solvent_setChar hc rfl (modifyMoney_le h hm)⟩

/-- The bidder pays and the old bidder gets his money back. -/
theorem mailing_payBid {price : UInt32} (now : Nat) (hc : w.char guid = some c)
    (hm : c.money ≤ maxMoneyAmount) (hprice : price ≤ c.money) (hbid : a.bid ≤ price) :
    Mailing w (w.payBid guid c a price now) a.id := by
  have hdiff : price - a.bid ≤ c.money := by
    rw [le_toNat, UInt32.toNat_sub_of_le _ _ hbid]
    have := le_toNat.mp hprice
    omega
  unfold payBid
  dsimp only
  split_ifs with hg hb
  · exact mailing_charge hc hdiff hm
  · unfold sendAuctionOutbiddedMail
    split_ifs
    · exact (mailing_charge hc hprice hm).trans (mailing_post ..)
    · exact mailing_charge hc hprice hm
  · exact mailing_charge hc hprice hm

/-- The new bid is what is owed then. -/
theorem owed_payBid {price : UInt32} {now : Nat} (hw : (w.ledger a.id).Owed a) (hs : a.Sane)
    (hc : w.char guid = some c) (hm : c.money ≤ maxMoneyAmount) (hprice : price ≤ c.money)
    (hbid : a.bid ≤ price) (hknown : a.bidder ≠ 0 → w.knows a.bidder = true) :
    ((w.payBid guid c a price now).ledger a.id).Owed (a.bidBy guid price) := by
  have hsub : (price - a.bid).toNat + a.bid.toNat = price.toNat := by
    rw [UInt32.toNat_sub_of_le _ _ hbid]
    have := le_toNat.mp hbid
    omega
  have hdiff : price - a.bid ≤ c.money := by
    have := le_toNat.mp hprice
    exact le_toNat.mpr (by omega)
  unfold payBid
  dsimp only
  split_ifs with hg hb
  · subst hg
    rw [ledger_charge]
    refine hw.raised rfl ?_
    rw [debit_amount hdiff hm]
    exact hsub
  · unfold sendAuctionOutbiddedMail
    rw [(mailing_charge hc hprice hm).knows, if_pos (hknown hb), ledger_post, ledger_charge]
    exact hw.outbid rfl (debit_amount hprice hm) _
  · rw [ledger_charge]
    exact hw.firstBid (hs.unbid (not_not.mp hb)) rfl (debit_amount hprice hm)

/-- The item is sent to a receiver who exists. -/
theorem mailing_sendItem (answer : AuctionAnswer) {receiver : Nat} (m : AuctionMoment) {it : Item db}
    (hit : w.aitems.lookup a.itemGuid = some it) (hk : w.knows receiver = true) :
    ∃ w', w.sendItem a answer receiver m = w' ∧ Mailing w w' a.id ∧ w'.houses = w.houses ∧
      w'.ledger a.id = (w.ledger a.id).mailed ⟨a.id, answer, receiver, 0, [it]⟩ := by
  refine ⟨_, rfl, ?_⟩
  unfold sendItem
  rw [hit]
  dsimp only
  rw [if_pos hk]
  split_ifs
  · exact ⟨mailing_post .., rfl, ledger_post ..⟩
  · have hrem : Mailing w (w.removeAItem a.itemGuid) a.id :=
      ⟨⟨fun _ _ => rfl, rfl⟩, rfl, fun _ => rfl, fun hs => hs⟩
    exact ⟨hrem.trans (mailing_post ..), rfl, ledger_post ..⟩

/-- The owner gets his money and the bidder the item. -/
theorem closed_sold {it : Item db} (hw : (w.ledger a.id).Owed a) (hbid : a.bid ≤ maxMoneyAmount)
    (hdeposit : a.deposit ≤ maxMoneyAmount) (hb : a.bidder ≠ 0) (hcut : m.cut a ≤ a.bid)
    (hit : w.aitems.lookup a.itemGuid = some it) (hguid : it.guid = a.itemGuid)
    (ho : w.knows a.owner = true) (hk : w.knows a.bidder = true) :
    ∃ w', (w.sendAuctionSuccessfulMail a m).sendAuctionWonMail a m = w' ∧ Mailing w w' a.id ∧
      w'.houses = w.houses ∧ (w'.ledger a.id).Closed { auction := a, cut := m.cut a } := by
  have hpost := mailing_post w a .successful a.owner (a.bid + a.deposit - m.cut a) [] m.now
  unfold sendAuctionSuccessfulMail sendAuctionWonMail
  rw [if_pos ho]
  obtain ⟨w', he, hmail, hh, hl⟩ := mailing_sendItem
    (w := w.post a .successful a.owner (a.bid + a.deposit - m.cut a) [] m.now) .won m hit
    ((hpost.knows _).trans hk)
  refine ⟨w', he, hpost.trans hmail, hh, ?_⟩
  rw [hl, ledger_post]
  have hfits : a.bid.toNat + a.deposit.toNat < 2 ^ 32 := by
    have h1 : a.bid.toNat ≤ 2147483646 := le_toNat.mp hbid
    have h2 : a.deposit.toNat ≤ 2147483646 := le_toNat.mp hdeposit
    omega
  exact hw.sold hb hcut hfits hguid _

end Mailing

/-! ## Steps and runs -/

section Step

variable {guid : Nat} {c : Char db} {m : AuctionMoment}

/-- The item of a live auction is in `mAitems`. -/
theorem item_of_live (hw : w.Agrees) (ha : a ∈ w.live) :
    ∃ it, w.aitems.lookup a.itemGuid = some it ∧ it.guid = a.itemGuid := by
  have hk : a.itemGuid ∈ w.aitems.keys := hw.items.mem_iff.mpr (mem_map.mpr ⟨a, ha, rfl⟩)
  obtain ⟨it, hit⟩ := Option.isSome_iff_exists.mp (AList.lookup_isSome.mpr hk)
  exact ⟨it, hit, hw.guids _ it hit⟩

/-- The auction that a packet names. -/
theorem live_of_getAuction (ha : w.Agrees) (hk : w.houses[k]? = some h)
    (hg : h.getAuction id = some a) : h.getAuction a.id = some a ∧ a ∈ w.live ∧ a.id = id := by
  have hg' := getAuction_self ha hk hg
  obtain ⟨rest, hl, -⟩ := live_split hk hg'
  exact ⟨hg', hl.mem_iff.mpr mem_cons_self,
    (ha.houses h (mem_of_getElem? hk)).keyed id a hg⟩

section

variable (hw : w.Settled) (ha : w.Agrees) (hk : w.houses[k]? = some h) (hc : w.char guid = some c)
include hw ha hk hc

theorem settled_list {p : Pos} {it : Item db} {startbid buyout : UInt32}
    (hd : m.deposit ≤ c.money) : (w.list k h guid c p it startbid buyout m).Settled := by
  obtain ⟨hnew, hle⟩ := firstFree_spec w.auctionIds w.auctionIds.length w.nextAuctionId
    (length_filter_le ..)
  have hm := (hw.solvent guid c hc).2
  obtain ⟨-, -, hl'⟩ := ha.live_add (a := newAuction m _ guid c it startbid buyout) hk hnew
  have hfee : (w.list k h guid c p it startbid buyout m).fees = debit _ guid c m.deposit :: w.fees :=
    rfl
  obtain ⟨hself, hother⟩ := ledger_fee hfee rfl rfl
  refine hw.add hl' hle hother rfl rfl
    (solvent_setChar hc rfl (modifyMoney_le hd hm) hw.solvent) ?_ ?_
  · refine ⟨fun _ => rfl, ?_, le_toNat.mpr (Nat.zero_le _), UInt32.le_trans hd hm⟩
    by_cases hb : buyout = 0
    · exact .inl hb
    · exact .inr (lt_toNat.mpr (Nat.pos_of_ne_zero fun h0 => hb (UInt32.toNat_inj.mp h0)))
  · -- nothing but the deposit is written down for the new id
    have hempty := hw.ledger_of_le hle
    rw [show (newAuction m _ guid c it startbid buyout).id = (debit _ guid c m.deposit).auction from rfl,
      hself]
    show AuctionLedger.Owed { w.ledger (firstFree w.auctionIds w.auctionIds.length w.nextAuctionId) with
      fees := _ :: (w.ledger (firstFree w.auctionIds w.auctionIds.length w.nextAuctionId)).fees } _
    rw [hempty]
    refine ⟨fun q => ?_, fun _ => rfl, rfl, ?_⟩
    · show 0 = 0 + if q 0 then 0 else 0
      rw [ite_self, Nat.add_zero]
    · show [(guid, (debit _ guid c m.deposit).amount)] = [(guid, m.deposit.toNat)]
      rw [debit_amount hd hm]

theorem settled_bid (hg : h.getAuction a.id = some a) {price : UInt32} {now : Nat}
    (hprice : price ≤ c.money) (hbid : a.bid < price) (hlow : price < a.buyout ∨ a.buyout = 0)
    (hknown : a.bidder ≠ 0 → w.knows a.bidder = true) : (w.bid k h guid c a price now).Settled := by
  obtain ⟨rest, hl, -, hset⟩ := live_split hk hg
  have hin : a ∈ w.live := hl.mem_iff.mpr mem_cons_self
  have hm := (hw.solvent guid c hc).2
  have hbid := UInt32.le_of_lt hbid
  have hmail := mailing_payBid now hc hm hprice hbid
  have hhouses : (w.payBid guid c a price now).houses = w.houses := (sameStock_payBid ..).houses
  have hl' : (w.bid k h guid c a price now).live.Perm (a.bidBy guid price :: rest) := by
    have : (w.bid k h guid c a price now).live = (w.setHouse k (h.setAuction (a.bidBy guid price))).live := by
      show ((w.payBid guid c a price now).houses.set k _).flatMap _ = (w.houses.set k _).flatMap _
      rw [hhouses]
    rw [this]
    exact hset _ rfl
  refine hw.set ha.ids hl hl' rfl ⟨hmail.ledger, hmail.next⟩ hmail.left (hmail.solvent hw.solvent) ?_
    (owed_payBid (hw.owed a hin) (hw.sane a hin) hc hm hprice hbid hknown)
  refine ⟨fun h0 => absurd h0 (hw.solvent guid c hc).1, hlow.symm, UInt32.le_trans hprice hm,
    (hw.sane a hin).deposit_le⟩

end

/-- The houses after an auction was written to for the last time and removed. -/
theorem live_removed (a' : AuctionEntry) (hid : a'.id = a.id) (hbuyout : a'.buyout = a.buyout)
    (hacc : a'.ownerAccount = a.ownerAccount) {w₁ : AuctionWorld db}
    (h₁ : w₁.houses = w.houses.set k (h.setAuction a'))
    (h₂ : w'.houses = w₁.houses.set k ((h.setAuction a').removeAuction a')) :
    w'.live = (w.setHouse k (h.removeAuction a)).live := by
  unfold live
  rw [h₂, h₁, set_set, AuctionHouse.removeAuction_setAuction hid hbuyout hacc]
  rfl

section

variable (hw : w.Settled) (ha : w.Agrees) (hk : w.houses[k]? = some h) (hc : w.char guid = some c)
  (hg : h.getAuction a.id = some a)
include hw ha hk hc hg

theorem settled_buyOut (hprice : a.buyout ≤ c.money)
    (hbuy : a.buyout ≠ 0) (hcut : ∀ a, m.cut a ≤ a.bid)
    (hknown : a.bidder ≠ 0 → w.knows a.bidder = true) (hguid : w.knows guid = true)
    (howner : w.knows a.owner = true) : (w.buyOut k h guid c a m).Settled := by
  obtain ⟨rest, hl, hrem, -⟩ := live_split hk hg
  have hin : a ∈ w.live := hl.mem_iff.mpr mem_cons_self
  have hs := hw.sane a hin
  have hm := (hw.solvent guid c hc).2
  have hbid : a.bid ≤ a.buyout := UInt32.le_of_lt (hs.below.resolve_left hbuy)
  have hpay := mailing_payBid m.now hc hm hprice hbid
  have howed := @owed_payBid _ _ _ _ _ _ m.now (hw.owed a hin) hs hc hm hprice hbid hknown
  have hstock := sameStock_payBid w guid c a a.buyout m.now
  obtain ⟨it, hit, hig⟩ := item_of_live ha hin
  have hitem : (w.payBid guid c a a.buyout m.now).aitems.lookup a.itemGuid = some it := by
    rw [hstock.aitems]
    exact hit
  obtain ⟨w₂, he, hmail, hh, hclosed⟩ := closed_sold (m := m)
    (w := (w.payBid guid c a a.buyout m.now).setHouse k (h.setAuction (a.bidBy guid a.buyout)))
    (a := a.bidBy guid a.buyout) howed (UInt32.le_trans hprice hm) hs.deposit_le
    (hw.solvent guid c hc).1 (hcut _) hitem hig ((hpay.knows _).trans howner)
    ((hpay.knows _).trans hguid)
  have hall := (hpay.setHouse k (h.setAuction (a.bidBy guid a.buyout))).trans hmail
  have hhouses : w₂.houses = w.houses.set k (h.setAuction (a.bidBy guid a.buyout)) := by
    rw [hh, ← hstock.houses]
    rfl
  unfold buyOut
  dsimp only
  rw [he]
  refine hw.finish ha.ids hl ?_ rfl hall hclosed rfl rfl rfl rfl rfl rfl
  rw [live_removed (a.bidBy guid a.buyout) rfl rfl rfl hhouses rfl]
  exact hrem

theorem settled_cancel (hown : a.owner = guid)
    {it : Item db} (hit : w.aitems.lookup a.itemGuid = some it)
    (hcut : a.bidder > 0 → m.cut a ≤ c.money) (hknown : a.bidder ≠ 0 → w.knows a.bidder = true) :
    (w.cancel k h guid c a it m).Settled := by
  obtain ⟨rest, hl, hrem, -⟩ := live_split hk hg
  have hin : a ∈ w.live := hl.mem_iff.mpr mem_cons_self
  have hm := (hw.solvent guid c hc).2
  have hig := ha.guids _ it hit
  have hlive : (w.cancel k h guid c a it m).live = (w.setHouse k (h.removeAuction a)).live := by
    show ((w.refundBidder guid c a m).houses.set k _).flatMap _ = (w.houses.set k _).flatMap _
    rw [(sameStock_refundBidder w guid c a m).houses]
  have hrefund : Mailing w (w.refundBidder guid c a m) a.id ∧
      (((w.refundBidder guid c a m).ledger a.id).mailed ⟨a.id, .canceled, a.owner, 0, [it]⟩).Closed
        { auction := a, cancelled := true, cut := m.cut a } := by
    unfold refundBidder sendAuctionCancelledToBidderMail
    by_cases hb : a.bidder > 0
    · have hpost := mailing_post w a .cancelledToBidder a.bidder a.bid [] m.now
      rw [if_pos hb, if_pos (hknown (by omega))]
      have hpaid := mailing_payCut (w := w.post a .cancelledToBidder a.bidder a.bid [] m.now) a hc
        (hcut hb) hm
      refine ⟨hpost.trans hpaid, ?_⟩
      rw [ledger_payCut, ledger_post]
      exact (hw.owed a hin).cancelled (by omega) hown.symm (debit_amount (hcut hb) hm) hig a.id
    · have hb0 : a.bidder = 0 := by omega
      rw [if_neg hb]
      exact ⟨.refl w a.id,
        (hw.owed a hin).returned (e := { auction := a, cancelled := true, cut := m.cut a }) hb0
          ((hw.sane a hin).unbid hb0) rfl hig _⟩
  obtain ⟨hmail, hclosed⟩ := hrefund
  subst hown
  have hall := hmail.trans (mailing_post _ a .canceled a.owner 0 [it] m.now)
  rw [← ledger_post _ _ _ _ m.now] at hclosed
  exact hw.finish ha.ids hl (hlive ▸ hrem) rfl hall hclosed rfl rfl rfl rfl rfl rfl

end

/-- The parties of an auction whose time is over can be paid. -/
def Due (w : AuctionWorld db) (m : AuctionMoment) : Prop :=
  ∀ a ∈ w.live, a.expireTime < m.now →
    w.knows a.owner = true ∧ (a.bidder ≠ 0 → w.knows a.bidder = true)

/-- Whether there was a bid or not, the mails of an auction whose time is over close it. -/
theorem closed_expired (hw : (w.ledger a.id).Owed a) (hs : a.Sane) (hcut : m.cut a ≤ a.bid)
    {it : Item db} (hit : w.aitems.lookup a.itemGuid = some it) (hig : it.guid = a.itemGuid)
    (ho : w.knows a.owner = true) (hb : a.bidder ≠ 0 → w.knows a.bidder = true) :
    ∃ w', (if a.bidder = 0 then w.sendAuctionExpiredMail a m
        else (w.sendAuctionSuccessfulMail a m).sendAuctionWonMail a m) = w' ∧
      Mailing w w' a.id ∧ w'.houses = w.houses ∧
      (w'.ledger a.id).Closed { auction := a, cut := m.cut a } := by
  by_cases hb0 : a.bidder = 0
  · rw [if_pos hb0]
    obtain ⟨w₂, he, hmail, hh, hl⟩ := mailing_sendItem .expired m hit ho
    refine ⟨w₂, he, hmail, hh, ?_⟩
    rw [hl]
    exact hw.returned (e := { auction := a, cut := m.cut a }) hb0 (hs.unbid hb0) rfl hig _
  · rw [if_neg hb0]
    exact closed_sold hw hs.bid_le hs.deposit_le hb0 hcut hit hig ho (hb hb0)

theorem settled_expire (hw : w.Settled) (ha : w.Agrees) (hk : w.houses[k]? = some h)
    (hg : h.getAuction a.id = some a) (hcut : ∀ a, m.cut a ≤ a.bid)
    (ho : w.knows a.owner = true) (hb : a.bidder ≠ 0 → w.knows a.bidder = true) (ip : String) :
    ∃ w', (w.setHouse k (h.setAuction (a.lockedTo ip))).expire k (h.setAuction (a.lockedTo ip))
        (a.lockedTo ip) m = w' ∧ w'.Settled ∧ (∀ g, w'.knows g = w.knows g) ∧
      ∀ b ∈ w'.live, b ∈ w.live := by
  obtain ⟨rest, hl, hrem, -⟩ := live_split hk hg
  have hin : a ∈ w.live := hl.mem_iff.mpr mem_cons_self
  have hs := hw.sane a hin
  obtain ⟨it, hit, hig⟩ := item_of_live ha hin
  have howed := hw.owed a hin
  obtain ⟨w₂, he, hmail, hh, hclosed⟩ := closed_expired (m := m) (a := a.lockedTo ip)
    (w := w.setHouse k (h.setAuction (a.lockedTo ip)))
    { howed with }
    { hs with } (hcut _) hit hig ho hb
  have hall := ((Mailing.refl w a.id).setHouse k (h.setAuction (a.lockedTo ip))).trans hmail
  refine ⟨_, rfl, ?_⟩
  unfold expire
  rw [he]
  have hlive : (((w₂.deleteFromDB (a.lockedTo ip)).removeAItem (a.lockedTo ip).itemGuid).removeAuction
      k (h.setAuction (a.lockedTo ip)) { auction := a.lockedTo ip, cut := m.cut (a.lockedTo ip) }).live.Perm
      rest := by
    rw [live_removed (a.lockedTo ip) rfl rfl rfl hh rfl]
    exact hrem
  refine ⟨hw.finish ha.ids hl hlive rfl hall hclosed rfl rfl rfl rfl rfl rfl, hall.knows, fun b hb => ?_⟩
  exact hl.mem_iff.mpr (mem_cons_of_mem _ (hlive.mem_iff.mp hb))

theorem settled_updateOne (hw : w.Settled) (ha : w.Agrees) (hd : w.Due m)
    (hcut : ∀ a, m.cut a ≤ a.bid) :
    (updateOne m k w id).Settled ∧ (updateOne m k w id).Due m := by
  apply updateOne_cases (P := fun w' => w'.Settled ∧ w'.Due m) ⟨hw, hd⟩
  · intro h a hk hg
    have hg := getAuction_self ha hk hg
    obtain ⟨rest, hl, -, hset⟩ := live_split hk hg
    have hin : a ∈ w.live := hl.mem_iff.mpr mem_cons_self
    have hs := hw.sane a hin
    have howed := hw.owed a hin
    obtain ⟨ip, hip⟩ := unlocked_frame a m.now
    rw [hip]
    have hl' := hset (a.lockedTo ip) rfl
    refine ⟨hw.set ha.ids hl hl' rfl ⟨fun _ _ => rfl, rfl⟩ rfl hw.solvent
      { hs with }
      { howed with }, fun b hb hlt => ?_⟩
    rcases mem_cons.mp (hl'.mem_iff.mp hb) with rfl | hb
    · exact hd a hin hlt
    · exact hd b (hl.mem_iff.mpr (mem_cons_of_mem _ hb)) hlt
  · intro h a hk hg hlt
    obtain ⟨hg, hin, -⟩ := live_of_getAuction ha hk hg
    obtain ⟨ho, hb⟩ := hd a hin hlt
    obtain ⟨ip, hip⟩ := unlocked_frame a m.now
    rw [hip]
    obtain ⟨w', he, hw', hknows, hlive⟩ := settled_expire hw ha hk hg hcut ho hb ip
    rw [he]
    refine ⟨hw', fun b hb hlt => ?_⟩
    rw [hknows, hknows]
    exact hd b (hlive b hb) hlt

theorem settled_update (hw : w.Settled) (ha : w.Agrees) (hd : w.Due m)
    (hcut : ∀ a, m.cut a ≤ a.bid) : (w.update k m).Settled := by
  unfold update
  split
  · exact hw
  · refine (foldlRecOn (motive := fun w' : AuctionWorld db =>
      w'.Agrees ∧ w'.Settled ∧ w'.Due m) _ _ ⟨ha, hw, hd⟩ ?_).2.1
    rintro w ⟨ha, hw, hd⟩ id -
    exact ⟨agrees_updateOne ha, settled_updateOne hw ha hd hcut⟩

end Step

theorem bid_of_mayBid {guid : Nat} {c : Char db} {m : AuctionMoment} {price : UInt32}
    (h : w.mayBid m guid c a price = true) : a.bid < price ∧ price ≤ c.money := by
  unfold mayBid at h
  simp only [Bool.and_eq_true, decide_eq_true_eq] at h
  exact ⟨h.1.1.2, h.2⟩

/-- Those who are to be paid exist and are not hardcore, a cut is not above the bid, and the rest of
the game keeps purses within their cap. -/
def Payable (w : AuctionWorld db) : AuctionInput db → Prop
  | .placeBid guid id price m => (∀ a, m.cut a ≤ a.bid) ∧ ∀ a ∈ w.live, a.id = id →
      (a.bidder ≠ 0 → w.knows a.bidder = true) ∧
      (a.buyout ≠ 0 → a.buyout ≤ price → w.knows guid = true ∧ w.knows a.owner = true)
  | .removeItem _ id m => (∀ a, m.cut a ≤ a.bid) ∧
      ∀ a ∈ w.live, a.id = id → a.bidder ≠ 0 → w.knows a.bidder = true
  | .update _ m => (∀ a, m.cut a ≤ a.bid) ∧ w.Due m
  | .outside mail => mail.Solvent
  | .sellItem .. | .removeAllAuctions .. => True

theorem step_settled (hw : w.Settled) (ha : w.Agrees) {i : AuctionInput db} (hp : w.Payable i)
    (ho : w.OwnsNone i) : (w.step i).Settled := by
  cases i with
  | sellItem guid itemGuid startbid buyout etime m =>
    apply handleAuctionSellItem_cases (P := Settled) hw
    intro k h c p it hk hc _ _ _ hd
    exact settled_list hw ha hk hc hd
  | placeBid guid id price m =>
    apply handleAuctionPlaceBid_cases (P := Settled) hw
    · intro k h c a hk hc hg hmay hlow
      obtain ⟨hg, hin, hid⟩ := live_of_getAuction ha hk hg
      obtain ⟨hbid, hprice⟩ := bid_of_mayBid hmay
      exact settled_bid hw ha hk hc hg hprice hbid hlow (hp.2 a hin hid).1
    · intro k h c a hk hc hg hmay hhigh hne
      obtain ⟨hg, hin, hid⟩ := live_of_getAuction ha hk hg
      obtain ⟨hbid, hprice⟩ := bid_of_mayBid hmay
      obtain ⟨hguid, howner⟩ := (hp.2 a hin hid).2 hne hhigh
      exact settled_buyOut hw ha hk hc hg (UInt32.le_trans hhigh hprice) hne hp.1 (hp.2 a hin hid).1
        hguid howner
  | removeItem guid id m =>
    apply handleAuctionRemoveItem_cases (P := Settled) hw
    intro k h c a it hk hc hg hown hit hcut
    obtain ⟨hg, hin, hid⟩ := live_of_getAuction ha hk hg
    exact settled_cancel hw ha hk hc hg hown hit hcut (hp.2 a hin hid)
  | update k m => exact settled_update hw ha hp.2 hp.1
  | removeAllAuctions k guid =>
    show (w.removeAllAuctions k guid).Settled
    rw [removeAllAuctions_eq_self ha ho]
    exact hw
  | outside mail => exact { hw with solvent := hp }

/-- Neither the next bid nor the money of the owner can wrap. -/
theorem sums_fit (hs : a.Sane) : a.bid.toNat + a.getAuctionOutBid.toNat < 2 ^ 32 ∧
    a.bid.toNat + a.deposit.toNat < 2 ^ 32 := by
  have h1 : a.bid.toNat ≤ 2147483646 := le_toNat.mp hs.bid_le
  have h2 : a.deposit.toNat ≤ 2147483646 := le_toNat.mp hs.deposit_le
  have h3 : (a.bid / 100 * 5).toNat ≤ a.bid.toNat / 100 * 5 := by
    rw [UInt32.toNat_mul, UInt32.toNat_div]
    exact Nat.mod_le _ _
  refine ⟨?_, by omega⟩
  unfold AuctionEntry.getAuctionOutBid
  dsimp only
  split_ifs
  · rw [UInt32.toNat_one]
    omega
  · omega

/-- In every run in which nobody loses his auctions to `RemoveAllAuctions`, every auction is owed
while it is live and closed when it has left. -/
theorem settled_of_run (hw : w.Settled) (ha : w.Agrees) {is : List (AuctionInput db)}
    (h : AlongRun step (fun w i => w.Payable i ∧ w.OwnsNone i) w is) :
    (run step w is).Settled ∧ ∀ a ∈ (run step w is).live,
      a.bid.toNat + a.getAuctionOutBid.toNat < 2 ^ 32 ∧ a.bid.toNat + a.deposit.toNat < 2 ^ 32 := by
  have hrun := run_keeps (I := fun w => w.Agrees ∧ w.Settled)
    (fun _ _ hw h => ⟨step_agrees hw.1 h.2, step_settled hw.2 hw.1 h.1 h.2⟩) ⟨ha, hw⟩ h
  exact ⟨hrun.2, fun a ha => sums_fit (hrun.2.sane a ha)⟩

theorem saleWorld_settled : saleWorld.Settled := by
  have hchars : ∀ x ∈ saleWorld.mail.chars.entries, x.1 ≠ 0 ∧ x.2.money ≤ maxMoneyAmount := by decide
  exact ⟨fun g c hc => hchars ⟨g, c⟩ (of_mem_dlookup hc), forall_mem_nil _,
    forall_mem_nil _, forall_mem_nil _, fun _ => .inr (.inr rfl), forall_mem_nil _,
    forall_mem_nil _, forall_mem_nil _⟩

/-- The seller turns hardcore: nobody gets the cloth, and the bidder does not get his money back. -/
theorem saleWorld_not_settled :
    saleWorld.Settled ∧ saleWorld.Agrees ∧
      AlongRun step Payable saleWorld (saleAndBid ++ [.removeAllAuctions 0 1]) ∧
      (run step saleWorld (saleAndBid ++ [.removeAllAuctions 0 1])).live = [] ∧
      ((run step saleWorld (saleAndBid ++ [.removeAllAuctions 0 1])).ledger 1).delivered = [] ∧
      ((run step saleWorld (saleAndBid ++ [.removeAllAuctions 0 1])).ledger 1).taken (· = 2) = 200 ∧
      ((run step saleWorld (saleAndBid ++ [.removeAllAuctions 0 1])).ledger 1).refunded (· = 2) = 0 ∧
      ((run step saleWorld (saleAndBid ++ [.removeAllAuctions 0 1])).ledger 1).earned (· = 1) = 0 ∧
      ¬ (run step saleWorld (saleAndBid ++ [.removeAllAuctions 0 1])).Settled := by
  have hsent : ((run step saleWorld (saleAndBid ++ [.removeAllAuctions 0 1])).ledger 1).delivered = [] := by
    decide +kernel
  have hleft : (run step saleWorld (saleAndBid ++ [.removeAllAuctions 0 1])).left.map
      (·.auction.id) = [1] := by
    decide +kernel
  refine ⟨saleWorld_settled, saleWorld_agrees, ?_, by decide +kernel, hsent, by decide +kernel,
    by decide +kernel, by decide +kernel, fun hw => ?_⟩
  · exact ⟨trivial, ⟨fun a => le_toNat.mpr (Nat.zero_le _), by decide +kernel⟩, trivial, trivial⟩
  · obtain ⟨e, he, hid⟩ := mem_map.mp (hleft ▸ mem_singleton.mpr rfl : 1 ∈ _)
    have hclosed := (hw.closed e he).delivered
    rw [hid, hsent] at hclosed
    cases hclosed

/-- The bid is below the buyout, and the auction runs out. -/
theorem saleWorld_settled_of_run :
    (run step saleWorld (saleAndBid ++ [.removeAllAuctions 0 2, .update 0 { now := 1 }])).Settled ∧
      ∀ a ∈ (run step saleWorld (saleAndBid ++ [.removeAllAuctions 0 2, .update 0 { now := 1 }])).live,
        a.bid.toNat + a.getAuctionOutBid.toNat < 2 ^ 32 ∧ a.bid.toNat + a.deposit.toNat < 2 ^ 32 :=
  have hcut : ∀ a : AuctionEntry, (0 : UInt32) ≤ a.bid := fun a => le_toNat.mpr (Nat.zero_le _)
  settled_of_run saleWorld_settled saleWorld_agrees
    ⟨⟨trivial, trivial⟩, ⟨⟨hcut, by decide +kernel⟩, trivial⟩, ⟨trivial, by decide +kernel⟩,
      ⟨⟨hcut, by unfold Due; decide +kernel⟩, trivial⟩, trivial⟩

end AuctionWorld

end Windrunner
