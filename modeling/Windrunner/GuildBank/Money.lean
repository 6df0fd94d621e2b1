import Windrunner.GuildBank.Access

/-!
# The gold of a guild bank

What `DepositMoney` and `WithdrawMoney` do to the purse and to `b_money`. The amount is a `uint32`
that `ModifyMoney` gets as an `int32`, and the purse is capped; the bank is not.

* `modifyMoney_deposit`, `withdraw_exact_iff`: the purse afterwards, as a number.
* `World.money_kept_iff`: no gold is lost or made if and only if the amount fits.
-/

namespace Windrunner

open Lib

variable {db : ItemDb}

/-! ## The purse -/

/-- `ModifyMoney` in numbers: a debt stops at zero, a payment at the cap. -/
theorem modifyMoney_toNat (purse amount : UInt32) :
    (modifyMoney purse amount).toNat =
      if 2147483648 ≤ amount.toNat then purse.toNat - (4294967296 - amount.toNat)
      else if purse.toNat < (6442450942 - amount.toNat) % 4294967296 then
        (purse.toNat + amount.toNat) % 4294967296
      else 2147483646 := by
  have hp := toNat_lt32 purse
  have ha := toNat_lt32 amount
  have hcap : (maxMoneyAmount - amount).toNat = (6442450942 - amount.toNat) % 4294967296 := by
    rw [UInt32.toNat_sub]
    show (4294967296 - amount.toNat + 2147483646) % 4294967296 = _
    congr 1
    omega
  unfold modifyMoney
  by_cases hneg : 2147483648 ≤ amount.toNat
  · have hdebt : (0 - amount).toNat = 4294967296 - amount.toNat := by
      rw [UInt32.toNat_sub, UInt32.toNat_zero]
      omega
    rw [if_pos hneg, if_pos (show amount.toNat ≥ 2 ^ 31 from hneg)]
    split_ifs with hgt
    · rw [gt_iff_lt, lt_toNat, hdebt] at hgt
      rw [UInt32.toNat_add]
      omega
    · rw [gt_iff_lt, lt_toNat, hdebt] at hgt
      rw [UInt32.toNat_zero]
      omega
  · rw [if_neg hneg, if_neg (show ¬ amount.toNat ≥ 2 ^ 31 from hneg)]
    simp only [lt_toNat, hcap]
    split_ifs
    · rw [UInt32.toNat_add]
    · rfl

/-- A purse that gives `money`. From `2 ^ 31 + 2` on the `int32` is a payment, which fills it. -/
theorem modifyMoney_deposit {purse money : UInt32} (h : money ≤ purse) :
    (modifyMoney purse (0 - money)).toNat =
      if money.toNat = 0 then min purse.toNat 2147483646
      else if money.toNat ≤ 2147483649 then purse.toNat - money.toNat
      else 2147483646 := by
  have hle := le_toNat.mp h
  have hp := toNat_lt32 purse
  rw [modifyMoney_toNat, UInt32.toNat_sub, UInt32.toNat_zero]
  split_ifs <;> omega

/-- What the purse holds after a deposit is the rest if and only if the amount is no payment. -/
theorem deposit_exact_iff {purse money : UInt32} (h : money ≤ purse) :
    (modifyMoney purse (0 - money)).toNat + money.toNat = purse.toNat ↔
      money.toNat ≤ 2147483649 ∧ (money ≠ 0 ∨ purse ≤ maxMoneyAmount) := by
  have hle := le_toNat.mp h
  have hp := toNat_lt32 purse
  have hcap : maxMoneyAmount.toNat = 2147483646 := rfl
  rw [modifyMoney_deposit h, ne_zero_toNat, le_toNat, hcap]
  split_ifs <;> omega

/-- A withdrawal reaches the purse whole if and only if it is no debt and fits. -/
theorem withdraw_exact_iff (purse money : UInt32) :
    (modifyMoney purse money).toNat = purse.toNat + money.toNat ↔
      money.toNat < 2147483648 ∧ (purse.toNat + money.toNat ≤ 2147483646 ∨
        money.toNat = 2147483647 ∧ purse.toNat + money.toNat < 4294967296) := by
  have hp := toNat_lt32 purse
  have hm := toNat_lt32 money
  rw [modifyMoney_toNat]
  split_ifs <;> omega

/-! ## The two messages -/

namespace World

variable {env : Env} {w : World db} {msg : Text}

/-- The gold of the bank and of the purse together. -/
def gold (w : World db) : Nat := w.bank.money.toNat + w.player.money.toNat

/-- A deposit that is accepted is not above `2 ^ 31 + 1`, and the bank has room for it. A purse above
the cap is cut down to it by a deposit of nothing. -/
def DepositFits (w : World db) (msg : Text) : Prop :=
  ∀ money ∈ depositAmount msg, money ≤ w.player.money →
    money.toNat ≤ 2147483649 ∧ (money ≠ 0 ∨ w.player.money ≤ maxMoneyAmount) ∧
      w.bank.money.toNat + money.toNat < 4294967296

/-- A withdrawal that is accepted is below `2 ^ 31`, and the purse has room for it. The cap is not
kept against `2 ^ 31 - 1`, which is one more than the cap. -/
def WithdrawFits (env : Env) (w : World db) (msg : Text) : Prop :=
  ∀ money ∈ depositAmount msg, w.canAccessTab env 0 .withdrawMoney = true →
    money ≤ w.bank.money →
    money.toNat < 2147483648 ∧ (w.player.money.toNat + money.toNat ≤ 2147483646 ∨
      money.toNat = 2147483647 ∧ w.player.money.toNat + money.toNat < 4294967296)

theorem finishMoney_money {action : GuildBankAction} {money : UInt32} :
    (w.finishMoney env action money).bank.money = w.bank.money ∧
      (w.finishMoney env action money).player.money = w.player.money := by
  refine ⟨congrArg Frame.money finishMoney_frame, ?_⟩
  unfold finishMoney
  rw [saveToDB_player]
  show (w.logAction env action tabMoney 0 money none).player.money = _
  rw [logAction_player]

theorem depositAmount_eq_some {money : UInt32} (hm : depositAmount msg = some money) :
    ∃ head a, tokenizer msg ':' = [head, a] ∧ atoi a = money := by
  unfold depositAmount at hm
  split at hm
  case h_1 a ha => exact ⟨_, a, ha, Option.some.inj hm⟩
  case h_2 => cases hm

variable (env) in
/-- A deposit that is accepted, in numbers. -/
theorem depositMoney_some {money : UInt32} (hm : depositAmount msg = some money)
    (hle : money ≤ w.player.money) :
    (w.depositMoney env msg).bank.money = w.bank.money + money ∧
      (w.depositMoney env msg).player.money = modifyMoney w.player.money (0 - money) := by
  obtain ⟨_, a, ha, rfl⟩ := depositAmount_eq_some hm
  unfold depositMoney
  rw [ha]
  dsimp only
  rw [if_neg (by simpa using hle)]
  exact finishMoney_money

variable (env) in
theorem depositMoney_refused (hno : ∀ money ∈ depositAmount msg, ¬ money ≤ w.player.money) :
    (w.depositMoney env msg).bank = w.bank ∧ (w.depositMoney env msg).player = w.player := by
  unfold depositAmount at hno
  unfold depositMoney
  split
  · rename_i a ha
    rw [ha] at hno
    dsimp only at hno ⊢
    rw [if_pos (by simpa using hno)]
    exact ⟨rfl, rfl⟩
  · exact ⟨rfl, rfl⟩

/-- A withdrawal that is accepted, in numbers. -/
theorem withdrawMoney_some {money : UInt32} (hm : depositAmount msg = some money)
    (hacc : w.canAccessTab env 0 .withdrawMoney = true) (hle : money ≤ w.bank.money) :
    (w.withdrawMoney env msg).bank.money = w.bank.money - money ∧
      (w.withdrawMoney env msg).player.money = modifyMoney w.player.money money := by
  obtain ⟨_, a, ha, rfl⟩ := depositAmount_eq_some hm
  unfold withdrawMoney
  rw [ha]
  dsimp only
  rw [if_neg (by simpa using hacc), if_neg (by simpa using hle)]
  exact finishMoney_money

theorem withdrawMoney_refused (hno : ∀ money ∈ depositAmount msg,
    w.canAccessTab env 0 .withdrawMoney = true → ¬ money ≤ w.bank.money) :
    (w.withdrawMoney env msg).bank = w.bank ∧ (w.withdrawMoney env msg).player = w.player := by
  unfold depositAmount at hno
  unfold withdrawMoney
  split
  · rename_i a ha
    rw [ha] at hno
    dsimp only at hno ⊢
    split_ifs with h1 h2
    · exact ⟨rfl, rfl⟩
    · exact ⟨rfl, rfl⟩
    · exact absurd (by simpa using h2) (hno _ rfl (by simpa using h1))
  · exact ⟨rfl, rfl⟩

theorem deposit_kept_iff : ((w.depositMoney env msg).gold = w.gold ∧
    w.bank.money ≤ (w.depositMoney env msg).bank.money) ↔ w.DepositFits msg := by
  unfold DepositFits gold
  by_cases hm : ∃ money ∈ depositAmount msg, money ≤ w.player.money
  · obtain ⟨money, hm, hle⟩ := hm
    obtain ⟨hbank, hpurse⟩ := depositMoney_some env hm hle
    have hexact := deposit_exact_iff hle
    have hb := toNat_lt32 w.bank.money
    have hlt := toNat_lt32 money
    have hsum : (w.bank.money + money).toNat =
        (w.bank.money.toNat + money.toNat) % 4294967296 := UInt32.toNat_add ..
    rw [hbank, hpurse, le_toNat, hsum]
    constructor
    · rintro ⟨htotal, hwrap⟩ m hm' _
      obtain rfl := Option.some.inj (hm.symm.trans hm')
      have hno : w.bank.money.toNat + money.toNat < 4294967296 := by omega
      obtain ⟨h1, h2⟩ := hexact.mp (by omega)
      exact ⟨h1, h2, hno⟩
    · intro h
      obtain ⟨h1, h2, hno⟩ := h money hm hle
      have := hexact.mpr ⟨h1, h2⟩
      omega
  · have hno : ∀ money ∈ depositAmount msg, ¬ money ≤ w.player.money :=
      fun money hmoney hle => hm ⟨money, hmoney, hle⟩
    obtain ⟨hbank, hplayer⟩ := depositMoney_refused env hno
    rw [hbank, hplayer]
    exact ⟨fun _ money hmoney hle => absurd hle (hno money hmoney), fun _ => ⟨rfl, UInt32.le_refl _⟩⟩

theorem withdraw_kept_iff : ((w.withdrawMoney env msg).gold = w.gold ∧
    (w.withdrawMoney env msg).bank.money ≤ w.bank.money ∧
    w.player.money ≤ (w.withdrawMoney env msg).player.money) ↔ w.WithdrawFits env msg := by
  unfold WithdrawFits gold
  by_cases hm : ∃ money ∈ depositAmount msg, w.canAccessTab env 0 .withdrawMoney = true ∧
      money ≤ w.bank.money
  · obtain ⟨money, hm, hacc, hle⟩ := hm
    obtain ⟨hbank, hpurse⟩ := withdrawMoney_some hm hacc hle
    have hexact := withdraw_exact_iff w.player.money money
    have hsub := toNat_sub (le_toNat.mp hle)
    rw [hbank, hpurse, le_toNat, le_toNat]
    constructor
    · rintro ⟨htotal, -, -⟩ m hm' _ _
      obtain rfl := Option.some.inj (hm.symm.trans hm')
      exact hexact.mp (by omega)
    · intro h
      have := hexact.mpr (h money hm hacc hle)
      omega
  · have hno : ∀ money ∈ depositAmount msg, w.canAccessTab env 0 .withdrawMoney = true →
        ¬ money ≤ w.bank.money := fun money hmoney hacc hle => hm ⟨money, hmoney, hacc, hle⟩
    obtain ⟨hbank, hplayer⟩ := withdrawMoney_refused hno
    rw [hbank, hplayer]
    exact ⟨fun _ money hmoney hacc hle => absurd hle (hno money hmoney hacc),
      fun _ => ⟨rfl, UInt32.le_refl _, UInt32.le_refl _⟩⟩

/-- The gold of the bank and the purse stays the same, `b_money` does not wrap and a withdrawal does
not lower the purse, if and only if the amount fits. -/
theorem money_kept_iff (env : Env) (w : World db) (msg : Text) :
    (((w.depositMoney env msg).gold = w.gold ∧
        w.bank.money ≤ (w.depositMoney env msg).bank.money) ↔ w.DepositFits msg) ∧
    (((w.withdrawMoney env msg).gold = w.gold ∧
        (w.withdrawMoney env msg).bank.money ≤ w.bank.money ∧
        w.player.money ≤ (w.withdrawMoney env msg).player.money) ↔ w.WithdrawFits env msg) :=
  ⟨deposit_kept_iff, withdraw_kept_iff⟩

end World

/-- The balance of a full bank comes around; and a withdrawal of `2 ^ 31` empties the purse, a
smaller one stops at the cap. -/
theorem fullWorld_money_not_kept :
    ¬ ((fullWorld.depositMoney {} "DepositMoney:1".toList).gold = fullWorld.gold ∧
      fullWorld.bank.money ≤ (fullWorld.depositMoney {} "DepositMoney:1".toList).bank.money) ∧
    (({ fullWorld with player := master } : World sampleDb).withdrawMoney {}
      "WithdrawMoney:2147483648".toList).player.money = 0 ∧
    (({ fullWorld with player := master } : World sampleDb).withdrawMoney {}
      "WithdrawMoney:2147483646".toList).gold ≠ fullWorld.bank.money.toNat + master.money.toNat := by
  decide

end Windrunner
