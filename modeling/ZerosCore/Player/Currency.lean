/-
# Currencies

`ModifyCurrency`, `ResetCurrencyWeekCap`, `GetCurrencyWeekCap` and
`GetCurrencyTotalCap` (`src/server/game/Entities/Player/Player.cpp`).

A currency has a total and a count for the week, each with a cap that `0` turns off.
Conquest points are earned through two meta currencies, for arenas and for rated
battlegrounds: a change of a meta currency is passed on to the points.  The cap of
the points is the larger one of the two, but points that do not come from rated
battlegrounds stop at the cap for arenas.

Amounts are `uint32` and `int32` of 32 bits; here they are numbers, with the
conversions `u32` and `i32` where the source has them.  The multipliers of auras are
left out.  The entries of `CurrencyTypes.dbc` and the settings of the world are
parameters; an id without an entry fails an assertion, so every id has one here.

`gained` records what was gained since the last weekly reset, refunds apart; no
operation reads it.
-/

import Mathlib.Algebra.Order.Ring.Int

namespace ZerosCore.Currency

/-- `uint32(x)`. -/
def u32 (x : ℤ) : ℤ := x % 2 ^ 32

/-- `int32(x)`. -/
def i32 (x : ℤ) : ℤ := (x + 2 ^ 31) % 2 ^ 32 - 2 ^ 31

/-! ### Currencies and their caps -/

/-- `CURRENCY_TYPE_CONQUEST_POINTS`. -/
def conquestPoints : UInt32 := 390
/-- `CURRENCY_TYPE_HONOR_POINTS`. -/
def honorPoints : UInt32 := 392
/-- `CURRENCY_TYPE_JUSTICE_POINTS`. -/
def justicePoints : UInt32 := 395
/-- `CURRENCY_TYPE_CONQUEST_META_ARENA`. -/
def conquestMetaArena : UInt32 := 483
/-- `CURRENCY_TYPE_CONQUEST_META_RBG`. -/
def conquestMetaRbg : UInt32 := 484
/-- `CURRENCY_CATEGORY_META_CONQUEST`. -/
def categoryMetaConquest : UInt32 := 89
def currencyPrecision : ℕ := 100

/-- The kinds of fragments whose cap is fixed; those of the trolls are missing in the source. -/
def archaeology : List UInt32 := [384, 398, 393, 400, 394, 397, 401, 399]

structure CurrencyTypesEntry where
  category : UInt32 := 0
  totalCap : UInt32 := 0
  weekCap : UInt32 := 0

/-- The entries of the client's table and the settings `Currency.MaxHonorPoints` and
`Currency.MaxJusticePoints`.  Conquest points are no meta currency of themselves. -/
structure Config where
  entry : UInt32 → CurrencyTypesEntry
  maxHonorPoints : UInt32 := 0
  maxJusticePoints : UInt32 := 0
  conquest_plain : (entry conquestPoints).category ≠ categoryMetaConquest

structure PlayerCurrency where
  totalCount : ℕ := 0
  weekCount : ℕ := 0
  seasonCount : ℕ := 0

/-- The currencies of a player. -/
structure Wallet where
  storage : UInt32 → Option PlayerCurrency
  /-- `m_conquestPointsWeekCap[CP_SOURCE_ARENA]`. -/
  arenaCap : UInt16 := 1350
  /-- `m_conquestPointsWeekCap[CP_SOURCE_RATED_BG]`. -/
  ratedBgCap : UInt16 := 1650
  gained : UInt32 → ℕ := fun _ => 0

variable (cfg : Config)

def getCurrencyTotalCap (id : UInt32) : ℕ :=
  if id = honorPoints ∧ cfg.maxHonorPoints > 0 then cfg.maxHonorPoints.toNat
  else if id = justicePoints ∧ cfg.maxJusticePoints > 0 then cfg.maxJusticePoints.toNat
  else if id ∈ archaeology then 1500
  else (cfg.entry id).totalCap.toNat

namespace Wallet

variable (w : Wallet)

/-- The amounts of a currency, none if it is not stored. -/
def get (id : UInt32) : PlayerCurrency := (w.storage id).getD {}

def getCurrencyWeekCap (id : UInt32) : ℕ :=
  if id = conquestPoints then
    max (w.arenaCap.toNat * currencyPrecision) (w.ratedBgCap.toNat * currencyPrecision)
  else if id = conquestMetaArena then w.arenaCap.toNat * currencyPrecision
  else if id = conquestMetaRbg then w.ratedBgCap.toNat * currencyPrecision
  else (cfg.entry id).weekCap.toNat

end Wallet

/-! ### `ModifyCurrency` -/

/-- A total and a week count on the way. -/
structure Counts where
  total : ℤ
  week : ℤ

/-- No single amount is above a cap. -/
def clampCount (weekCap totalCap : ℕ) (ignoreCap : Bool) (count : ℤ) : ℤ :=
  let count := if !ignoreCap ∧ weekCap ≠ 0 ∧ count > i32 weekCap then i32 weekCap else count
  if totalCap ≠ 0 ∧ count > i32 totalCap then i32 totalCap else count

def addCount (old : PlayerCurrency) (refund : Bool) (count : ℤ) : Counts where
  total := max 0 (i32 (i32 old.totalCount + count))
  week := max 0 (i32 (i32 old.weekCount + if refund then 0 else max 0 count))

/-- "if we get more then weekCap just set to limit". -/
def clampWeek (weekCap : ℕ) (ignoreCap : Bool) (old : PlayerCurrency) (new : Counts) : Counts :=
  if weekCap ≠ 0 ∧ i32 weekCap < new.week then
    { total := if ignoreCap then new.total else i32 (old.totalCount + (weekCap - old.weekCount))
      week := i32 weekCap }
  else new

/-- "if we get more then totalCap set to maximum". -/
def clampTotal (weekCap totalCap : ℕ) (new : Counts) : Counts :=
  if totalCap ≠ 0 ∧ i32 totalCap < new.total then { total := i32 totalCap, week := i32 weekCap }
  else new

/-- Conquest points that do not come from rated battlegrounds stop at the cap for arenas, which is
`weekCapSmall`. -/
def clampConquest (weekCapSmall : ℕ) (id bycurrency : UInt32) (refund : Bool) (old : PlayerCurrency)
    (new : Counts) : Counts :=
  if id = conquestPoints ∧ !refund ∧ u32 new.week > weekCapSmall ∧ bycurrency ≠ conquestMetaRbg then
    { total := i32 (i32 (weekCapSmall - old.weekCount) + old.totalCount), week := weekCapSmall }
  else new

/-- The arena currency does not change once the conquest points of the week, `onWeek`, are at the
cap for arenas. -/
def clampArena (weekCapSmall : ℕ) (id : UInt32) (onWeek : ℕ) (old : PlayerCurrency) (new : Counts) :
    Counts :=
  if id = conquestMetaArena ∧ onWeek ≥ weekCapSmall then
    { total := old.totalCount, week := old.weekCount }
  else new

namespace Wallet

variable (w : Wallet)

/-- The counts that `ModifyCurrency` arrives at before it looks whether the total changes. -/
def newCounts (id : UInt32) (count : ℤ) (refund ignoreCap : Bool) : Counts :=
  let old := w.get id
  let weekCap := w.getCurrencyWeekCap cfg id
  let totalCap := getCurrencyTotalCap cfg id
  clampTotal weekCap totalCap (clampWeek weekCap ignoreCap old
    (addCount old refund (clampCount weekCap totalCap ignoreCap count)))

def put (id : UInt32) (cur : PlayerCurrency) : Wallet :=
  { w with storage := fun i => if i = id then some cur else w.storage i }

/-- The counts with the limits of the conquest points. -/
def finalCounts (id : UInt32) (count : ℤ) (bycurrency : UInt32) (refund ignoreCap : Bool) : Counts :=
  let old := w.get id
  let weekCapSmall := w.getCurrencyWeekCap cfg conquestMetaArena
  clampArena weekCapSmall id (w.get conquestPoints).weekCount old
    (clampConquest weekCapSmall id bycurrency refund old (w.newCounts cfg id count refund ignoreCap))

/-- The counts are stored; the number is `diff`. -/
def record (id : UInt32) (refund : Bool) (new : Counts) : Wallet × ℤ :=
  let old := w.get id
  let diff := i32 (new.total - old.totalCount)
  let earned := if refund then 0 else max 0 diff
  let cur : PlayerCurrency :=
    { totalCount := (u32 new.total).toNat, weekCount := (u32 new.week).toNat
      seasonCount := (u32 (old.seasonCount + earned)).toNat }
  ({ w.put id cur with
     gained := fun i => if i = id then w.gained i + earned.toNat else w.gained i }, diff)

/-- `ModifyCurrency` without the call for the conquest points, and `diff`. -/
def modifyOne (id : UInt32) (count : ℤ) (bycurrency : UInt32) (refund ignoreCap : Bool) :
    Wallet × ℤ :=
  if u32 (w.newCounts cfg id count refund ignoreCap).total = (w.get id).totalCount then
    (w.put id (w.get id), 0)
  else w.record id refund (w.finalCounts cfg id count bycurrency refund ignoreCap)

/-- What the conquest points are told the change comes from. -/
def byCurr (id : UInt32) : UInt32 :=
  if id = conquestMetaRbg then conquestMetaRbg else conquestMetaArena

def modifyCurrency (id : UInt32) (count : ℤ) (bycurrency : UInt32) (refund ignoreCap : Bool) :
    Wallet :=
  if count = 0 then w
  else
    let (w, diff) := w.modifyOne cfg id count bycurrency refund ignoreCap
    if (cfg.entry id).category = categoryMetaConquest ∧ diff ≠ 0 then
      (w.modifyOne cfg conquestPoints diff (byCurr id) false false).1
    else w

/-- `ResetCurrencyWeekCap`, with the cap that the rating of the week gives. -/
def resetCurrencyWeekCap (newCap : UInt16) : Wallet where
  storage id := (w.storage id).map fun cur => { cur with weekCount := 0 }
  arenaCap := newCap
  ratedBgCap := w.ratedBgCap
  gained _ := 0

end Wallet

/-- A call of `ModifyCurrency` or a weekly reset. -/
inductive Event
  | modifyCurrency (id : UInt32) (count : ℤ) (bycurrency : UInt32) (refund ignoreCap : Bool)
  | resetCurrencyWeekCap (newCap : UInt16)

def step (w : Wallet) : Event → Wallet
  | .modifyCurrency id count bycurrency refund ignoreCap =>
    w.modifyCurrency cfg id count bycurrency refund ignoreCap
  | .resetCurrencyWeekCap newCap => w.resetCurrencyWeekCap newCap

end ZerosCore.Currency
