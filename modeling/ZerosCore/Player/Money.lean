/-
# A player's money

`Player::ModifyMoney` and `HasEnoughMoney`
(`src/server/game/Entities/Player/Player.cpp`, `Player.h`).

Money is a `uint64`, modelled by a natural number with the wrap-around of its
arithmetic written out; the argument of `ModifyMoney` is an `int64`, modelled by
an integer.  The callers charge a price by casting it to a signed type and
negating it, so what is charged depends on the width of the cast (`int32`,
`int64`): `modifyMoney_neg` says what a negative argument takes, and the casts
return the price only below `2^31` and `2^63`.
-/

import Mathlib.Algebra.Order.Ring.Int

namespace ZerosCore.Player

def maxMoneyAmount : ℕ := 9999999999

/-- `int32(x)`. -/
def int32 (x : UInt32) : ℤ := Int.bmod x.toNat (2 ^ 32)

/-- `int64(x)`. -/
def int64 (x : UInt64) : ℤ := Int.bmod x.toNat (2 ^ 64)

def hasEnoughMoney (money : ℕ) (amount : UInt64) : Bool := amount.toNat ≤ money

/-- `ModifyMoney`.  `MAX_MONEY_AMOUNT - d` and `GetMoney() + d` are `uint64`. -/
def modifyMoney (money : ℕ) (d : ℤ) : ℕ :=
  if d < 0 then if money > d.natAbs then money - d.natAbs else 0
  else if money < ((maxMoneyAmount - d) % 2 ^ 64).toNat then (money + d.natAbs) % 2 ^ 64
  else maxMoneyAmount

theorem int32_of_lt {x : UInt32} (h : x.toNat < 2 ^ 31) : int32 x = x.toNat := by
  unfold int32
  apply Int.bmod_eq_of_le <;> omega

theorem int64_of_lt {x : UInt64} (h : x.toNat < 2 ^ 63) : int64 x = x.toNat := by
  unfold int64
  apply Int.bmod_eq_of_le <;> omega

/-- **A charge that the player can pay is taken in full.** -/
theorem modifyMoney_neg {money n : ℕ} (hn : n ≤ money) (hm : money ≤ maxMoneyAmount) :
    modifyMoney money (-n) = money - n := by
  unfold modifyMoney maxMoneyAmount at *
  split_ifs <;> omega

theorem modifyMoney_neg_of_pos {money n : ℕ} (h0 : 0 < n) (hn : n ≤ money) :
    modifyMoney money (-n) = money - n := by
  unfold modifyMoney
  split_ifs <;> omega

theorem modifyMoney_add {money n : ℕ} (h : money + n ≤ maxMoneyAmount) :
    modifyMoney money n = money + n := by
  unfold modifyMoney maxMoneyAmount at *
  split_ifs <;> omega

theorem modifyMoney_le {money : ℕ} {d : ℤ} (hm : money ≤ maxMoneyAmount)
    (hd : d ≤ maxMoneyAmount) : modifyMoney money d ≤ maxMoneyAmount := by
  unfold modifyMoney maxMoneyAmount at *
  split_ifs <;> omega

end ZerosCore.Player
