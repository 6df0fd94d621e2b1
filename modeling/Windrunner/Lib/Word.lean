import Mathlib.Data.UInt

/-!
# Machine words as natural numbers

`UInt32` and `UInt8` arithmetic wraps; the lemmas here say when it does not and what it is when it does, in
terms of `toNat`, so that the arithmetic of a proof is left to `omega`.
-/

namespace Windrunner.Lib

variable {a b c : UInt32}

theorem toNat_lt32 (a : UInt32) : a.toNat < 4294967296 := a.toNat_lt

theorem le_toNat : a ≤ b ↔ a.toNat ≤ b.toNat := UInt32.le_iff_toNat_le

theorem lt_toNat : a < b ↔ a.toNat < b.toNat := UInt32.lt_iff_toNat_lt

theorem eq_toNat : a = b ↔ a.toNat = b.toNat := UInt32.toNat_inj.symm

theorem ne_zero_toNat : a ≠ 0 ↔ 0 < a.toNat := by
  rw [ne_eq, eq_toNat, UInt32.toNat_zero]; omega

/-- A sum below `2 ^ 32` is exact. -/
theorem toNat_add (h : a.toNat + b.toNat < 4294967296) : (a + b).toNat = a.toNat + b.toNat := by
  rw [UInt32.toNat_add]; omega

/-- A sum that reaches `2 ^ 32` loses it. -/
theorem toNat_add_wrap (h : 4294967296 ≤ a.toNat + b.toNat) :
    (a + b).toNat + 4294967296 = a.toNat + b.toNat := by
  have ha := toNat_lt32 a
  have hb := toNat_lt32 b
  rw [UInt32.toNat_add]; omega

/-- A difference is exact when nothing is borrowed. -/
theorem toNat_sub (h : b.toNat ≤ a.toNat) : (a - b).toNat + b.toNat = a.toNat := by
  have ha := toNat_lt32 a
  rw [UInt32.toNat_sub]; omega

/-- A difference that borrows gains `2 ^ 32`. -/
theorem toNat_sub_wrap (h : a.toNat < b.toNat) :
    (a - b).toNat + b.toNat = a.toNat + 4294967296 := by
  have hb := toNat_lt32 b
  rw [UInt32.toNat_sub]; omega

/-- The smaller of two words, as the source writes it. -/
theorem toNat_ite_gt (a b : UInt32) : (if a > b then b else a).toNat = min a.toNat b.toNat := by
  split
  · rename_i h; have := lt_toNat.mp h; omega
  · rename_i h; have := mt lt_toNat.mpr h; omega

theorem toNat_min (a b : UInt32) : (min a b).toNat = min a.toNat b.toNat := by
  rw [show min a b = if a ≤ b then a else b from rfl]
  split
  · rename_i h; have := le_toNat.mp h; omega
  · rename_i h; have := mt le_toNat.mpr h; omega

/-- A word below `256` fits the `uint8` it is truncated to. -/
theorem toNat_toUInt8 (h : a.toNat < 256) : a.toUInt8.toNat = a.toNat := by
  rw [UInt32.toNat_toUInt8]; omega

/-- A number in an `int32` -/
def int32 (n : Int) : Int := n.bmod 4294967296

theorem int32_eq {n : Int} (hlow : -2147483648 ≤ n) (hhigh : n < 2147483648) : int32 n = n := by
  rw [int32, Int.bmod_def]
  split <;> omega

/-! ## Bytes -/

/-- A byte that counts up below `256`. -/
theorem toNat_succ8 {a : UInt8} (h : a.toNat + 1 < 256) : (a + 1).toNat = a.toNat + 1 := by
  rw [UInt8.toNat_add, UInt8.toNat_one]; omega

/-- A byte that counts down from above zero. -/
theorem toNat_pred8 {a : UInt8} (h : 0 < a.toNat) : (a - 1).toNat + 1 = a.toNat := by
  have ha := a.toNat_lt
  rw [UInt8.toNat_sub, UInt8.toNat_one]; omega

end Windrunner.Lib
