import Windrunner.Mail.Handled

/-!
# The cap on the mails of a character

A request to send is refused when the receiver has more than a hundred mails. They are counted in
memory when the receiver is online, otherwise by a query whose answer comes back later; the number
is kept in a `uint8`.

* `sentTo w i`: the receiver of the mail that a step delivers for a player.
* `CountHolds`: the number fits into the `uint8`, and the mailbox has not outgrown it since.
* `cap_of_run`: then no mail is delivered to a mailbox of more than a hundred.
-/

namespace Windrunner

open Lib

variable {db : ItemDb}

/-- The input is a step of a request to send. -/
def MailInput.aboutRequest : MailInput → Bool
  | .sendMail .. | .count _ | .answer .. => true
  | _ => false

namespace MailWorld

variable {w : MailWorld db} {guid id q : Nat} {m : MailMoment} {i : MailInput}

/-- The receiver of the mail that the step sends for a player, if it sends one. -/
def sentTo (w : MailWorld db) (i : MailInput) : Option Nat :=
  if (w.step i).sent = w.sent then none
  else
    match i with
    | .sendMail _ pk _ => some pk.receiver
    | .answer k _ => (w.pending[k]?).map (·.packet.receiver)
    | _ => none

/-- A mail is sent only to a mailbox of at most a hundred mails. -/
def CapKept (w : MailWorld db) (i : MailInput) : Prop := ∀ q ∈ w.sentTo i, w.undeletedOf q ≤ 100

/-- The mails of the receiver were fewer than 256 when they were counted, and if they were at most
a hundred, those that have come since, less those that have gone, fit under the cap with them. -/
def CountHolds (w : MailWorld db) : MailInput → Prop
  | .sendMail _ pk _ => pk.receiver ∈ w.online → w.getMailSize pk.receiver < 256
  | .answer k _ => ∀ r ∈ w.pending[k]?, ∀ n ∈ r.answer,
      n < 256 ∧ (n ≤ 100 → n + (w.undeletedOf r.packet.receiver - r.undeletedThen) ≤ 100)
  | _ => True

instance (w : MailWorld db) (i : MailInput) : Decidable (w.CapKept i) :=
  inferInstanceAs (Decidable (∀ q ∈ w.sentTo i, _ ≤ _))

instance (w : MailWorld db) : DecidablePred w.CountHolds := fun i => by
  unfold CountHolds
  cases i <;> infer_instance

/-- An answer counts every mail that was undeleted then. -/
def Answered (w : MailWorld db) : Prop :=
  ∀ r ∈ w.pending, ∀ n ∈ r.answer, r.undeletedThen ≤ n

/-! ## The two counts -/

/-- The query counts at least the undeleted mails. -/
theorem undeletedOf_le_countMails (hm : w.Marked) : w.undeletedOf q ≤ w.countMails q := by
  unfold undeletedOf countMails
  refine List.countP_mono_left fun x hx h => ?_
  rw [Bool.and_eq_true] at h ⊢
  refine ⟨h.1, ?_⟩
  cases hd : x.isDeleted with
  | false => rfl
  | true =>
    have hu := h.2
    rw [Mail.undeleted, (hm x hx).soft hd] at hu
    cases hu

/-- So does the list in memory, for a character who is online. -/
theorem undeletedOf_le_getMailSize (hm : w.Marked) (hq : q ∈ w.online) :
    w.undeletedOf q ≤ w.getMailSize q := by
  unfold undeletedOf getMailSize
  refine List.countP_mono_left fun x hx h => ?_
  rw [Bool.and_eq_true, beq_iff_eq] at h ⊢
  refine ⟨h.1, (hm x hx).loaded ?_ (h.1 ▸ hq)⟩
  simpa [Mail.undeleted] using h.2

/-- A request is executed only if its count is at most a hundred. -/
theorem mailsCount_le_of_sent {r : MailRequest} {mailsCount : UInt8}
    (h : (w.handleSendMailCallback r mailsCount m).2.sent ≠ w.sent) : mailsCount.toNat ≤ 100 := by
  unfold handleSendMailCallback at h
  split at h
  · exact absurd rfl h
  split at h
  · exact absurd rfl h
  · split at h
    · exact absurd rfl h
    · rename_i hs
      exact (sendCheck_ok hs).2.2.1

theorem handleSendMailCallback_pending (r : MailRequest) (mailsCount : UInt8) :
    (w.handleSendMailCallback r mailsCount m).2.pending = w.pending := by
  unfold handleSendMailCallback
  split
  · rfl
  split
  · rfl
  split <;> rfl

/-! ## One step -/

/-- The handlers of a mail and of a character do not touch the requests. -/
theorem step_pending (hi : i.aboutRequest = false) : (w.step i).pending = w.pending := by
  cases i with
  | sendMail guid pk m => cases hi
  | count k => cases hi
  | answer k m => cases hi
  | markAsRead guid id m =>
    simp only [step, handleMailMarkAsRead]
    repeat' split
    all_goals rfl
  | delete guid id m =>
    simp only [step, handleMailDelete]
    repeat' split
    all_goals rfl
  | returnToSender guid id m =>
    simp only [step, handleMailReturnToSender, sendReturnToSender]
    repeat' split
    all_goals rfl
  | takeItem guid id m =>
    simp only [step, handleMailTakeItem, payCod]
    repeat' split
    all_goals rfl
  | takeMoney guid id m =>
    simp only [step, handleMailTakeMoney]
    repeat' split
    all_goals rfl
  | saveMails guid => rfl
  | login guid =>
    simp only [step, login]
    split <;> rfl
  | logout guid => rfl

/-- The answers stay bounds. -/
theorem step_answered (hm : w.Marked) (hw : w.Answered) (i : MailInput) : (w.step i).Answered := by
  cases i with
  | sendMail guid pk m =>
    apply handleSendMail_cases (P := Answered) guid pk m
    · exact hw
    · intro r _ _
      rw [Answered, handleSendMailCallback_pending]
      exact hw
    · intro r hr
      rw [Answered, List.forall_mem_append, List.forall_mem_singleton, hr]
      exact ⟨hw, nofun⟩
  | count k =>
    intro r hr n hn
    obtain ⟨j, hj⟩ := List.mem_iff_getElem?.mp hr
    by_cases hk : k = j
    · subst hk
      obtain ⟨r', -, rfl⟩ := Option.map_eq_some_iff.mp
        ((List.getElem?_modify_eq _ _ w.pending).symm.trans hj)
      obtain rfl : w.countMails r'.packet.receiver = n := Option.some.inj hn
      exact undeletedOf_le_countMails hm
    · have hj' : w.pending[j]? = some r := (List.getElem?_modify_ne _ _ hk).symm.trans hj
      exact hw r (List.mem_of_getElem? hj') n hn
  | answer k m =>
    show (w.callback k m).2.Answered
    unfold callback
    cases hk : w.pending[k]? with
    | none => exact hw
    | some r =>
      rw [Answered, handleSendMailCallback_pending]
      exact fun r' hr' => hw r' (List.mem_of_mem_eraseIdx hr')
  | _ =>
    rw [Answered, step_pending rfl]
    exact hw

/-- A mail is sent only to a mailbox of at most a hundred mails, if the count holds. -/
theorem step_capKept (hm : w.Marked) (hw : w.Answered) (h : w.CountHolds i) : w.CapKept i := by
  intro q hq
  unfold sentTo at hq
  by_cases hs : (w.step i).sent = w.sent
  · rw [if_pos hs] at hq; cases hq
  rw [if_neg hs] at hq
  cases i with
  | sendMail guid pk m =>
    obtain rfl : pk.receiver = q := Option.some.inj hq
    refine handleSendMail_cases (P := fun w' => w'.sent ≠ w.sent → w.undeletedOf pk.receiver ≤ 100)
      guid pk m ?_ ?_ ?_ hs
    · exact fun h => absurd rfl h
    · -- the number in memory is below 256, so the `uint8` has it
      intro r _ ho hsent
      have hle := mailsCount_le_of_sent hsent
      rw [UInt8.toNat_ofNat', Nat.mod_eq_of_lt (h ho)] at hle
      exact Nat.le_trans (undeletedOf_le_getMailSize hm ho) hle
    · exact fun _ _ h => absurd rfl h
  | answer k m =>
    obtain ⟨r, hr, rfl⟩ := Option.map_eq_some_iff.mp hq
    simp only [step, callback, hr] at hs
    have hle := mailsCount_le_of_sent hs
    cases hn : r.answer with
    | none => rw [hn] at hle; exact absurd hle (by decide)
    | some n =>
      obtain ⟨hlt, hgrow⟩ := h r hr n hn
      rw [hn, Option.elim_some, UInt8.toNat_ofNat', Nat.mod_eq_of_lt hlt] at hle
      have hthen := hw r (List.mem_of_getElem? hr) n hn
      have := hgrow hle
      omega
  | _ => cases hq

/-! ## Runs -/

/-- In every run in which the counts hold, every mail that a player sends is delivered to a mailbox
of at most a hundred undeleted mails. -/
theorem cap_of_run (hm : w.Marked) (hw : w.Answered) {is : List MailInput}
    (h : AlongRun step CountHolds w is) : AlongRun step CapKept w is :=
  h.imp (I := fun w => w.Marked ∧ w.Answered) (fun _ i hw h =>
    ⟨step_capKept hw.1 hw.2 h, (step_handled hw.1 i).2, step_answered hw.1 hw.2 i⟩) ⟨hm, hw⟩

/-- A character with `n` mails. -/
def fullBox (n : Nat) (online : List Nat) : MailWorld sampleDb :=
  { chars := ((∅ : FinMap Nat (Char sampleDb)).insert 1 { money := 1000, inv := .empty 1 }).insert 2
      { money := 0, inv := .empty 2 }
    online
    mails := List.replicate n
      { messageID := 1, sender := 1, receiver := 2, inBox := online.contains 2 } }

theorem fullBox_marked (n : Nat) (online : List Nat) : (fullBox n online).Marked := by
  intro x hx
  obtain rfl := List.eq_of_mem_replicate hx
  exact ⟨nofun, nofun, fun h => List.contains_iff_mem.mp h, fun _ h => List.contains_iff_mem.mpr h⟩

/-- Two requests to a character who is offline, both counted before the first is answered. -/
def twoRequests : List MailInput :=
  [.sendMail 1 { receiver := 2 } {}, .sendMail 1 { receiver := 2 } {}, .count 0, .count 1,
    .answer 0 {}, .answer 0 {}]

/-- A mailbox of 256 takes another mail, and so does one that two requests saw with a hundred. -/
theorem fullBox_cap_passed :
    ¬ (fullBox 256 [1, 2]).CapKept (.sendMail 1 { receiver := 2 } {}) ∧
      ¬ AlongRun step CapKept (fullBox 100 [1]) twoRequests :=
  ⟨by decide +kernel, by decide +kernel⟩

/-- With ninety-nine mails both requests are answered in time. -/
theorem fullBox_cap_kept :
    AlongRun step CountHolds (fullBox 99 [1]) twoRequests ∧
      AlongRun step CapKept (fullBox 99 [1]) twoRequests :=
  have h : AlongRun step CountHolds (fullBox 99 [1]) twoRequests := by decide +kernel
  ⟨h, cap_of_run (fullBox_marked 99 [1]) nofun h⟩

end MailWorld

end Windrunner
