/-
# Items as the handlers name them

`src/server/game/Entities/Item/Item.h` and `ObjectDefines.h`: the guid of an item
and the codes by which the inventory refuses one.
-/

import Mathlib.Logic.Basic

namespace ZerosCore.Player

/-- `MAKE_NEW_GUID(low, 0, HIGHGUID_ITEM)`. -/
def itemGuid (low : UInt32) : UInt64 := low.toUInt64 ||| ((0x400 : UInt64) <<< 52)

/-- `InventoryResult`, the codes the modelled functions return. -/
inductive InventoryResult where
  | ok | itemNotFound | cantSwap | cantStack | wrongBagType | lootGone | notOwner | clientLockedOut
  | itemMaxCount | itemMaxLimitCategoryCountExceededIs | destroyNonemptyBag | dropBoundItem
  | bagInBag | invFull | bankFull | mailBoundItem | notSameAccount | notEquippable | notInCombat
  | notDuringArenaMatch | wrongSlot | noBankSlot | playerDead | splitFailed | tooFewToSplit
  deriving DecidableEq

end ZerosCore.Player
