/-
# Packed times

`AppendPackedTime` and `ReadPackedTime` of `src/server/shared/Packets/ByteBuffer.h`, with
`localtime` and `mktime` of a zone whose offset never changes, from 1970 on in its own time.

The fields of a date do not overlap in the word, so what is written is the date to the minute.
But `mktime` takes the offset into account, and the reader adds it once more
(`packedTime_right_iff`).
-/

import Mathlib.Data.Nat.Find
import Mathlib.Data.Nat.Bitwise

namespace ZerosCore.Packets.PackedTime

/-! ### The calendar -/

structure Tm where
  sec : ℕ
  min : ℕ
  hour : ℕ
  mday : ℕ
  mon : ℕ
  year : ℕ
  wday : ℕ

def leap (year : ℕ) : Bool := year % 4 = 0 && (year % 100 ≠ 0 || year % 400 = 0)

/-- The days of a month, counted from January 1970. -/
def monthLength (month : ℕ) : ℕ :=
  match month % 12 with
  | 1 => if leap (1970 + month / 12) then 29 else 28
  | 3 | 5 | 8 | 10 => 30
  | _ => 31

def monthStart : ℕ → ℕ
  | 0 => 0
  | month + 1 => monthStart month + monthLength month

/-- The month of a day: each of them has 28 days. -/
def monthOf (day : ℕ) : ℕ := Nat.findGreatest (fun month => monthStart month ≤ day) (day / 28)

/-- `localtime`, `timezone` being the seconds the zone is behind. -/
def localtime (timezone time : ℤ) : Tm :=
  let secs := (time - timezone).toNat
  let day := secs / 86400
  { sec := secs % 60
    min := secs / 60 % 60
    hour := secs / 3600 % 24
    mday := day - monthStart (monthOf day) + 1
    mon := monthOf day % 12
    year := 70 + monthOf day / 12
    wday := (4 + day) % 7 }

/-- `mktime`, which does not read the day of the week. -/
def mktime (timezone : ℤ) (lt : Tm) : ℤ :=
  let day := monthStart (12 * (lt.year - 70) + lt.mon) + (lt.mday - 1)
  timezone + ((((day * 24 + lt.hour) * 60 + lt.min) * 60 + lt.sec : ℕ) : ℤ)

/-! ### The word -/

def appendPackedTime (timezone time : ℤ) : ℕ :=
  let lt := localtime timezone time
  (lt.year - 100) <<< 24 ||| lt.mon <<< 20 ||| (lt.mday - 1) <<< 14 ||| lt.wday <<< 11 |||
    lt.hour <<< 6 ||| lt.min

def readFields (packedDate : ℕ) : Tm where
  sec := 0
  min := packedDate &&& 0x3F
  hour := (packedDate >>> 6) &&& 0x1F
  mday := ((packedDate >>> 14) &&& 0x3F) + 1
  mon := (packedDate >>> 20) &&& 0xF
  year := ((packedDate >>> 24) &&& 0x1F) + 100
  wday := 0

def readPackedTime (timezone : ℤ) (packedDate : ℕ) : ℤ :=
  (mktime timezone (readFields packedDate) + timezone) % 2 ^ 32

def InRange (timezone time : ℤ) : Prop :=
  timezone ≤ time ∧ 100 ≤ (localtime timezone time).year ∧ (localtime timezone time).year ≤ 131

def minute (timezone time : ℤ) : ℤ := timezone + (time - timezone) / 60 * 60

variable {timezone time : ℤ} {day month : ℕ}

/-! ### Dates -/

theorem monthLength_bounds (month : ℕ) : 28 ≤ monthLength month ∧ monthLength month ≤ 31 := by
  unfold monthLength
  split
  · split_ifs <;> decide
  all_goals decide

theorem le_monthStart (month : ℕ) : 28 * month ≤ monthStart month := by
  induction month with
  | zero => exact Nat.le_refl 0
  | succ month ih =>
    have hlength := (monthLength_bounds month).1
    rw [monthStart]
    omega

theorem monthOf_spec (day : ℕ) :
    monthStart (monthOf day) ≤ day ∧ day < monthStart (monthOf day + 1) := by
  refine ⟨Nat.findGreatest_spec (P := fun month => monthStart month ≤ day) (Nat.zero_le _)
    (Nat.zero_le day), Nat.lt_of_not_le fun hle => ?_⟩
  have hfits := le_monthStart (monthOf day + 1)
  have hnext := Nat.le_findGreatest (P := fun month => monthStart month ≤ day)
    (show monthOf day + 1 ≤ day / 28 by omega) hle
  exact absurd hnext (Nat.not_succ_le_self _)

theorem mday_le (day : ℕ) : day - monthStart (monthOf day) ≤ 30 := by
  obtain ⟨-, hlt⟩ := monthOf_spec day
  have hlength := (monthLength_bounds (monthOf day)).2
  rw [monthStart] at hlt
  omega

/-- `mktime` undoes `localtime`, but for the seconds. -/
theorem mktime_localtime (h : timezone ≤ time) :
    mktime timezone { localtime timezone time with sec := 0, wday := 0 } =
      minute timezone time := by
  unfold mktime localtime minute
  dsimp only
  obtain ⟨secs, hsecs⟩ := Int.eq_ofNat_of_zero_le (show 0 ≤ time - timezone by omega)
  rw [hsecs, Int.toNat_natCast]
  obtain ⟨hle, -⟩ := monthOf_spec (secs / 86400)
  generalize hmonth : monthOf (secs / 86400) = month at hle
  rw [show 12 * (70 + month / 12 - 70) + month % 12 = month by omega]
  omega

/-! ### The fields of the word -/

theorem or_shift (a i j : ℕ) {b : ℕ} (h : b < 2 ^ j) :
    a <<< (i + j) ||| b <<< i = (a * 2 ^ j + b) <<< i := by
  rw [Nat.add_comm i j, Nat.shiftLeft_add, ← Nat.shiftLeft_or_distrib, Nat.shiftLeft_eq a,
    Nat.mul_comm a, Nat.two_pow_add_eq_or_of_lt h]

theorem word_eq (year : ℕ) {mon mday wday hour min : ℕ} (hmon : mon < 16) (hmday : mday < 64)
    (hwday : wday < 8) (hhour : hour < 32) (hmin : min < 64) :
    year <<< 24 ||| mon <<< 20 ||| mday <<< 14 ||| wday <<< 11 ||| hour <<< 6 ||| min =
      ((((year * 16 + mon) * 64 + mday) * 8 + wday) * 32 + hour) * 64 + min := by
  have hdate : year <<< 24 ||| mon <<< 20 = (year * 16 + mon) <<< 20 := or_shift _ 20 4 hmon
  have hday (a : ℕ) : a <<< 20 ||| mday <<< 14 = (a * 64 + mday) <<< 14 := or_shift a 14 6 hmday
  have hweek (a : ℕ) : a <<< 14 ||| wday <<< 11 = (a * 8 + wday) <<< 11 := or_shift a 11 3 hwday
  have htime (a : ℕ) : a <<< 11 ||| hour <<< 6 = (a * 32 + hour) <<< 6 := or_shift a 6 5 hhour
  rw [hdate, hday, hweek, htime]
  exact or_shift _ 0 6 hmin

/-- **The fields are read as they are written.** -/
theorem readFields_append (h : InRange timezone time) :
    readFields (appendPackedTime timezone time) =
      { localtime timezone time with sec := 0, wday := 0 } := by
  obtain ⟨-, hfrom, hto⟩ := h
  unfold localtime at hfrom hto
  unfold readFields appendPackedTime localtime
  dsimp only at hfrom hto ⊢
  generalize (time - timezone).toNat = secs at hfrom hto ⊢
  have hmday := mday_le (secs / 86400)
  generalize secs / 86400 - monthStart (monthOf (secs / 86400)) = mday at hmday ⊢
  generalize monthOf (secs / 86400) = month at hfrom hto ⊢
  have hmask (n : ℕ) : n &&& 0x3F = n % 64 := Nat.and_two_pow_sub_one_eq_mod n 6
  rw [word_eq _ (by omega) (by omega) (by omega) (by omega) (by omega), hmask, hmask,
    Nat.and_two_pow_sub_one_eq_mod _ 5, Nat.and_two_pow_sub_one_eq_mod _ 5,
    Nat.and_two_pow_sub_one_eq_mod _ 4]
  congr 1 <;> omega

/-- **Packed times are right exactly in a zone without an offset**: elsewhere each time that is
read is off by it.  Times of different minutes never make the same word. -/
theorem packedTime_right_iff (timezone : ℤ) :
    (∀ time, InRange timezone time →
      (readPackedTime timezone (appendPackedTime timezone time) = minute timezone time % 2 ^ 32 ↔
        timezone % 2 ^ 32 = 0)) ∧
      ∀ time time', InRange timezone time → InRange timezone time' →
        minute timezone time ≠ minute timezone time' →
          appendPackedTime timezone time ≠ appendPackedTime timezone time' := by
  have hback (time : ℤ) (h : InRange timezone time) :
      mktime timezone (readFields (appendPackedTime timezone time)) = minute timezone time := by
    rw [readFields_append h, mktime_localtime h.1]
  refine ⟨fun time h => ?_, fun time time' h h' hne hsame => hne ?_⟩
  · rw [readPackedTime, hback time h]
    omega
  · rw [← hback time h, hsame, hback time' h']

/-- An hour east of Greenwich, 2000 is read as an hour earlier. -/
theorem new_year_in_paris : ¬∀ time, InRange (-3600) time →
    readPackedTime (-3600) (appendPackedTime (-3600) time) = minute (-3600) time % 2 ^ 32 := by
  intro h
  exact absurd (h 946681200 ⟨by decide, by decide +kernel, by decide +kernel⟩) (by decide +kernel)

end ZerosCore.Packets.PackedTime
