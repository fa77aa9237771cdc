/-
# The inventory of a player

`src/server/game/Entities/Player/Player.cpp` (`GetItemByPos` … `CanStoreItem`,
`StoreItem`, `RemoveItem`), `src/server/game/Entities/Item/Item.cpp`
(`ItemCanGoIntoBag`, `CanBeMergedPartlyWith`, `CanBeTraded`, `IsBindedNotWith`).

The slots of a player and those of the bags in the bag slots are one table of
positions: bag `255` is the player, another bag number is the bag in that slot of
the player.  A bag with something in it never leaves the bag slots, so what is
in a bag is found by the number of its slot.

`CanStoreItem` is a sequence of attempts to find room (`attempts`), each adding
slots to a plan until nothing is left to place; `StoreItem` carries the plan out.
-/

import ZerosCore.Lib.Stacks
import ZerosCore.Player.Item

namespace ZerosCore.Player

open Lib Stacks

/-! ### Positions -/

def nullBag : ℕ := 0
def nullSlot : ℕ := 255
/-- `INVENTORY_SLOT_BAG_0`, the player itself. -/
def inventorySlotBag0 : ℕ := 255
def equipmentSlotEnd : ℕ := 19
def inventorySlotBagStart : ℕ := 19
def inventorySlotBagEnd : ℕ := 23
def inventorySlotItemStart : ℕ := 23
def inventorySlotItemEnd : ℕ := 39
def bankSlotBagStart : ℕ := 67
def bankSlotBagEnd : ℕ := 74
def buybackSlotStart : ℕ := 74
def buybackSlotEnd : ℕ := 86
def playerSlotEnd : ℕ := 86

/-- A position: a bag and a slot in it. -/
structure Pos where
  bag : ℕ
  slot : ℕ
  deriving DecidableEq

namespace Pos

/-- The slot can hold a bag: `bag >= INVENTORY_SLOT_BAG_START && …`. -/
def isBagSlot (slot : ℕ) : Bool :=
  (inventorySlotBagStart ≤ slot && slot < inventorySlotBagEnd) ||
    (bankSlotBagStart ≤ slot && slot < bankSlotBagEnd)

def isBagPos (p : Pos) : Bool := p.bag = inventorySlotBag0 && isBagSlot p.slot

def isEquipmentPos (p : Pos) : Bool :=
  (p.bag = inventorySlotBag0 && p.slot < equipmentSlotEnd) ||
  (p.bag = inventorySlotBag0 && inventorySlotBagStart ≤ p.slot && p.slot < inventorySlotBagEnd)

end Pos

/-! ### Items and their templates -/

/-- `ItemBondingType`. -/
inductive Bonding where
  | noBind | whenPickedUp | whenEquiped | whenUse | questItem

/-- `ItemTemplate`, what storing an item reads of it. -/
structure ItemTemplate where
  itemClass : ℕ := 0
  subClass : ℕ := 0
  inventoryType : ℕ := 0
  bonding : Bonding := .noBind
  stackable : ℤ := 1
  maxCount : ℤ := 0
  itemLimitCategory : ℕ := 0
  bagFamily : ℕ := 0
  containerSlots : ℕ := 0
  /-- `GemProperties != 0`. -/
  isGem : Bool := false
  /-- `Socket[0].Color != 0`. -/
  hasSockets : Bool := false
  /-- `IsBoundAccountWide`. -/
  boundAccountWide : Bool := false
  canChangeEquipStateInCombat : Bool := false

namespace ItemTemplate

/-- `INVTYPE_BAG`. -/
def isBag (t : ItemTemplate) : Bool := t.inventoryType = 18

def getMaxStackSize (t : ItemTemplate) : ℕ :=
  if t.stackable = 2147483647 ∨ t.stackable ≤ 0 then 0x7FFFFFFE else t.stackable.toNat

/-- The bag is no special one: `ITEM_CLASS_CONTAINER` and `ITEM_SUBCLASS_CONTAINER`. -/
def isPlainContainer (t : ItemTemplate) : Bool := t.itemClass = 1 && t.subClass = 0

/-- `ItemCanGoIntoBag`. -/
def canGoIntoBag (t bag : ItemTemplate) : Bool :=
  match bag.itemClass, bag.subClass with
  | 1, 0 => true
  | 1, 1 => t.bagFamily &&& 0x4 ≠ 0
  | 1, 2 => t.bagFamily &&& 0x20 ≠ 0
  | 1, 3 => t.bagFamily &&& 0x40 ≠ 0
  | 1, 4 => t.bagFamily &&& 0x80 ≠ 0
  | 1, 5 => t.bagFamily &&& 0x200 ≠ 0
  | 1, 6 => t.bagFamily &&& 0x400 ≠ 0
  | 1, 7 => t.bagFamily &&& 0x8 ≠ 0
  | 1, 8 => t.bagFamily &&& 0x10 ≠ 0
  | 1, 9 => t.bagFamily &&& 0x8000 ≠ 0
  | 11, 2 => t.bagFamily &&& 0x1 ≠ 0
  | 11, 3 => t.bagFamily &&& 0x2 ≠ 0
  | _, _ => false

end ItemTemplate

/-- `ItemLimitCategoryEntry`. -/
structure LimitCategory where
  /-- `mode == ITEM_LIMIT_CATEGORY_MODE_HAVE`. -/
  modeHave : Bool
  maxCount : ℕ

/-- The item templates and limit categories of the server.  Items whose template is
missing do not get past loading. -/
structure ItemStore where
  template : ℕ → ItemTemplate
  limitCategory : ℕ → Option LimitCategory

structure Item where
  guid : ℕ
  entry : ℕ
  count : ℕ
  /-- The low guid of the owner, `0` for none. -/
  owner : ℕ := 0
  soulBound : Bool := false
  lootGenerated : Bool := false
  /-- `ITEM_FLAG_BOP_TRADEABLE`. -/
  bopTradeable : Bool := false
  allowedGuids : List ℕ := []
  boundByEnchant : Bool := false
  /-- The gems in its sockets, by entry. -/
  gems : List ℕ := []
  deriving DecidableEq

/-- Items stack by entry; `CloneItem` makes a new item without enchantments, gems and loot, and
drops the flags of refundable and tradeable items. -/
instance : Stackable Item ℕ where
  kind := Item.entry
  ident := Item.guid
  count := Item.count
  setCount it n := { it with count := n }
  clone g it :=
    { it with
      guid := g, lootGenerated := false, bopTradeable := false, allowedGuids := []
      boundByEnchant := false, gems := [] }
  kind_setCount _ _ := rfl
  ident_setCount _ _ := rfl
  count_setCount _ _ := rfl
  kind_clone _ _ := rfl
  ident_clone _ _ := rfl

namespace ItemStore

variable (db : ItemStore)

/-- `Item::GetMaxStackCount`. -/
def maxStack (entry : ℕ) : ℕ := (db.template entry).getMaxStackSize

def isBag (it : Item) : Bool := (db.template it.entry).isBag

def canBeMergedPartlyWith (it : Item) (entry : ℕ) : InventoryResult :=
  if it.lootGenerated then .lootGone
  else if it.entry ≠ entry then .cantStack
  else if it.count ≥ db.maxStack entry then .cantStack
  else .ok

end ItemStore

/-! ### The inventory -/

/-- A player as far as the inventory goes. -/
structure Inventory where
  /-- The low guid of the player. -/
  guid : ℕ
  slots : Slots Pos Item
  isInCombat : Bool := false
  /-- In an arena match that is in progress. -/
  inArenaMatch : Bool := false
  /-- `GetLootGUID`. -/
  lootGuid : ℕ := 0

namespace Inventory

variable (db : ItemStore) (inv : Inventory)

def getBagByPos (bag : ℕ) : Option Item :=
  if Pos.isBagSlot bag then
    (inv.slots.stackAt ⟨inventorySlotBag0, bag⟩).filter db.isBag
  else none

/-- `Bag::GetBagSize`. -/
def bagSize (bag : Item) : ℕ := (db.template bag.entry).containerSlots

def getItemByPos (p : Pos) : Option Item :=
  if p.bag = inventorySlotBag0 ∧ p.slot < bankSlotBagEnd then inv.slots.stackAt p
  else match inv.getBagByPos db p.bag with
    | some bag => if p.slot < bagSize db bag then inv.slots.stackAt p else none
    | none => none

/-- The items the loops over all slots and bags visit. -/
def cells : List (Cell Pos Item) :=
  inv.slots.rows.filter fun c => (inv.getItemByPos db c.pos).isSome

def isNotEmptyBag (it : Item) : Bool :=
  db.isBag it && (inv.cells db).any fun c =>
    c.pos.bag ≠ inventorySlotBag0 && (inv.getBagByPos db c.pos.bag).any fun b => b.guid = it.guid

def isBindedNotWith (it : Item) : Bool :=
  it.soulBound && it.owner ≠ inv.guid &&
    !(it.bopTradeable && it.allowedGuids.contains inv.guid) &&
    !(db.template it.entry).boundAccountWide

def canUnequipItem (p : Pos) (swap : Bool) : InventoryResult :=
  if !p.isEquipmentPos && !p.isBagPos then .ok
  else match inv.getItemByPos db p with
    | none => .ok
    | some it =>
      if it.lootGenerated then .lootGone
      else if !(db.template it.entry).canChangeEquipStateInCombat && inv.isInCombat then .notInCombat
      else if !(db.template it.entry).canChangeEquipStateInCombat && inv.inArenaMatch then
        .notDuringArenaMatch
      else if !swap && inv.isNotEmptyBag db it then .destroyNonemptyBag
      else .ok

/-- `CanBeTraded`, of an item of this player at `p`. -/
def canBeTraded (p : Pos) (it : Item) (trade : Bool) : Bool :=
  !it.lootGenerated && !(it.soulBound && (!it.bopTradeable || !trade)) &&
    !(db.isBag it && (p.isBagPos || inv.isNotEmptyBag db it)) &&
    inv.canUnequipItem db p false = .ok && inv.lootGuid ≠ it.guid && !it.boundByEnchant

/-! ### Limits -/

/-- `GetItemCount`, in the bank also; a `uint32`. -/
def getItemCount (entry : ℕ) (skip : Option Item) : ℕ :=
  let others := (inv.cells db).filter fun c => skip.all fun s => s.guid ≠ c.stack.guid
  let similar := others.filter fun c => c.stack.entry = entry
  let sockets := others.filter fun c => (db.template c.stack.entry).hasSockets &&
    !(c.pos.bag = inventorySlotBag0 && bankSlotBagStart ≤ c.pos.slot)
  let gems := if skip.any fun s => (db.template s.entry).isGem then
    (sockets.map fun c => c.stack.gems.count entry).sum else 0
  ((similar.map fun c => c.stack.count).sum + gems) % 2 ^ 32

/-- `GetItemCountWithLimitCategory`; a `uint32`. -/
def getItemCountWithLimitCategory (category : ℕ) (skip : Option Item) : ℕ :=
  let others := (inv.cells db).filter fun c => skip.all fun s => s.guid ≠ c.stack.guid
  let similar := others.filter fun c => (db.template c.stack.entry).itemLimitCategory = category
  (similar.map fun c => c.stack.count).sum % 2 ^ 32

/-- `CanTakeMoreSimilarItems`, with the number of items that are too many. -/
def canTakeMoreSimilarItems (entry count : ℕ) (src : Option Item) : InventoryResult × ℕ :=
  let proto := db.template entry
  if src.any fun it => it.lootGenerated then (.lootGone, 0)
  else if (proto.maxCount ≤ 0 && proto.itemLimitCategory = 0) || proto.maxCount = 2147483647 then
    (.ok, 0)
  else
    let cur := inv.getItemCount db entry src
    if proto.maxCount > 0 && (cur + count) % 2 ^ 32 > proto.maxCount.toNat then
      (.itemMaxCount, (count + cur - proto.maxCount.toNat) % 2 ^ 32)
    else if proto.itemLimitCategory = 0 then (.ok, 0)
    else match db.limitCategory proto.itemLimitCategory with
      | none => (.notEquippable, count)
      | some limit =>
        let cur := inv.getItemCountWithLimitCategory db proto.itemLimitCategory src
        if limit.modeHave && (cur + count) % 2 ^ 32 > limit.maxCount then
          (.itemMaxLimitCategoryCountExceededIs, (count + cur - limit.maxCount) % 2 ^ 32)
        else (.ok, 0)

/-! ### Finding room -/

/-- What is in a slot, the item that moves aside. -/
def otherItem (p : Pos) (src : Option Item) : Option Item :=
  (inv.getItemByPos db p).filter fun it => src.all fun s => s.guid ≠ it.guid

def canStoreItemInSpecificSlot (p : Pos) (entry : ℕ) (swap : Bool) (src : Option Item) (pl : Plan Pos) :
    Except InventoryResult (Plan Pos) :=
  if (src.any fun s => inv.isNotEmptyBag db s) && !p.isBagPos then .error .destroyNonemptyBag
  else match inv.otherItem db p src, swap with
    | some it, false =>
      match db.canBeMergedPartlyWith it entry with
      | .ok => .ok (pl.add p (db.maxStack entry - it.count))
      | msg => .error msg
    | _, _ =>
      if p.bag = inventorySlotBag0 then
        if (buybackSlotStart ≤ p.slot ∧ p.slot < buybackSlotEnd) ∨ playerSlotEnd ≤ p.slot then
          .error .wrongBagType
        else .ok (pl.add p (db.maxStack entry))
      else match inv.getBagByPos db p.bag with
        | none => .error .wrongBagType
        | some bag =>
          if p.slot ≥ (db.template bag.entry).containerSlots ||
              !(db.template entry).canGoIntoBag (db.template bag.entry) then .error .wrongBagType
          else .ok (pl.add p (db.maxStack entry))

/-- The space of a slot for the item; `none` if the loop passes over it. -/
def spaceAt (entry : ℕ) (merge : Bool) (src : Option Item) (p : Pos) : Option ℕ :=
  match inv.otherItem db p src, merge with
  | some it, true =>
    if db.canBeMergedPartlyWith it entry = .ok then some (db.maxStack entry - it.count) else none
  | none, false => some (db.maxStack entry)
  | _, _ => none

/-- The loop of `CanStoreItem_InBag` and `CanStoreItem_InInventorySlots`. -/
def scan (entry : ℕ) (merge : Bool) (src : Option Item) : List Pos → Plan Pos → Plan Pos
  | [], pl => pl
  | p :: rest, pl =>
    match inv.spaceAt db entry merge src p with
    | none => scan entry merge src rest pl
    | some space =>
      if p ∈ pl.dest.map Prod.fst then scan entry merge src rest pl
      else if (pl.push p space).count = 0 then pl.push p space
      else scan entry merge src rest (pl.push p space)

def canStoreItemInBag (bag entry : ℕ) (merge nonSpecialized : Bool) (src : Option Item)
    (skip : Pos) (pl : Plan Pos) : Except InventoryResult (Plan Pos) :=
  if bag = skip.bag then .error .wrongBagType
  else match inv.getBagByPos db bag with
    | none => .error .wrongBagType
    | some b =>
      if src.any fun s => s.guid = b.guid then .error .wrongBagType
      else if src.any fun s => inv.isNotEmptyBag db s then .error .destroyNonemptyBag
      else if nonSpecialized ≠ (db.template b.entry).isPlainContainer then .error .wrongBagType
      else if !(db.template entry).canGoIntoBag (db.template b.entry) then .error .wrongBagType
      else .ok (inv.scan db entry merge src
        (((List.range (bagSize db b)).filter fun j => j ≠ skip.slot).map fun j => ⟨bag, j⟩) pl)

def canStoreItemInInventorySlots (first last entry : ℕ) (merge : Bool) (src : Option Item)
    (skip : Pos) (pl : Plan Pos) : Except InventoryResult (Plan Pos) :=
  if src.any fun s => inv.isNotEmptyBag db s then .error .destroyNonemptyBag
  else .ok (inv.scan db entry merge src (((List.range' first (last - first)).filter fun j =>
      !(inventorySlotBag0 = skip.bag && j = skip.slot)).map fun j => ⟨inventorySlotBag0, j⟩) pl)

/-- How one attempt ends: the search is off, nothing was tried, or a plan to go on with. -/
inductive Attempt where
  | refuse (msg : InventoryResult)
  | skip
  | found (pl : Plan Pos)

/-- An attempt whose failure ends the search: `if (res != EQUIP_ERR_OK) return res`. -/
def must : Except InventoryResult (Plan Pos) → Attempt
  | .error msg => .refuse msg
  | .ok pl => .found pl

/-- An attempt whose failure is passed over: `if (res != EQUIP_ERR_OK) continue`. -/
def may : Except InventoryResult (Plan Pos) → Attempt
  | .error _ => .skip
  | .ok pl => .found pl

/-- The attempts in turn, until one fails or nothing is left to place. -/
def search (full : InventoryResult) : List (Plan Pos → Attempt) → Plan Pos → InventoryResult × Plan Pos
  | [], pl => (full, pl)
  | f :: fs, pl =>
    match f pl with
    | .refuse msg => (msg, pl)
    | .skip => search full fs pl
    | .found pl => if pl.count = 0 then (.ok, pl) else search full fs pl

/-- One bag, first as a special one, then as a plain one. -/
def inThisBag (bag entry : ℕ) (merge : Bool) (src : Option Item) (slot : ℕ) (pl : Plan Pos) :
    Except InventoryResult (Plan Pos) :=
  match inv.canStoreItemInBag db bag entry merge false src ⟨nullBag, slot⟩ pl with
  | .ok pl => .ok pl
  | .error _ => inv.canStoreItemInBag db bag entry merge true src ⟨nullBag, slot⟩ pl

/-- The slots of a side of the inventory: the player's own, and the bags. -/
structure Side where
  itemStart : ℕ
  itemEnd : ℕ
  bagStart : ℕ
  bagEnd : ℕ

/-- The backpack and the bags. -/
def carried : Side where
  itemStart := inventorySlotItemStart
  itemEnd := inventorySlotItemEnd
  bagStart := inventorySlotBagStart
  bagEnd := inventorySlotBagEnd

def inBags (side : Side) (entry : ℕ) (merge nonSpecialized : Bool) (src : Option Item) (skip : Pos) :
    List (Plan Pos → Attempt) :=
  (List.range' side.bagStart (side.bagEnd - side.bagStart)).map fun i pl =>
    may (inv.canStoreItemInBag db i entry merge nonSpecialized src skip pl)

/-- The player's own slots of a side. -/
def inSlots (side : Side) (entry : ℕ) (merge : Bool) (src : Option Item) (skip : Pos) :
    Plan Pos → Attempt :=
  fun pl => must (inv.canStoreItemInInventorySlots db side.itemStart side.itemEnd entry merge src
    skip pl)

def inAskedBag (side : Side) (p : Pos) (entry : ℕ) (merge : Bool) (src : Option Item) :
    Plan Pos → Attempt :=
  if p.bag = inventorySlotBag0 then inv.inSlots db side entry merge src p
  else fun pl => must (inv.inThisBag db p.bag entry merge src p.slot pl)

/-- **The attempts of `CanStoreItem`**, in the order of the source: the slot asked for,
the bag asked for, stacks to merge with, special bags, free slots. -/
def attempts (side : Side) (p : Pos) (entry : ℕ) (swap : Bool) (src : Option Item) :
    List (Plan Pos → Attempt) :=
  let stacked := (db.template entry).stackable ≠ 1
  let family := (db.template entry).bagFamily ≠ 0
  (if p.bag ≠ nullBag ∧ p.slot ≠ nullSlot then
    [fun pl => must (inv.canStoreItemInSpecificSlot db p entry swap src pl)] else []) ++
  (if p.bag ≠ nullBag then
    (if stacked then [inv.inAskedBag db side p entry true src] else []) ++
    [inv.inAskedBag db side p entry false src] else []) ++
  (if stacked then
    [inv.inSlots db side entry true src p] ++
    (if family then inv.inBags db side entry true false src p else []) ++
    inv.inBags db side entry true true src p else []) ++
  (if family then inv.inBags db side entry false false src p else []) ++
  (if src.any fun s => inv.isNotEmptyBag db s then [fun _ => .refuse .bagInBag] else []) ++
  [inv.inSlots db side entry false src p] ++
  inv.inBags db side entry false true src p

/-- `count -= no_similar_count` on a `uint32`. -/
def sub32 (a b : ℕ) : ℕ := if b ≤ a then a - b else a + 2 ^ 32 - b

/-- `CanStoreItem`, and the positions it found. -/
def canStoreItem (p : Pos) (entry count : ℕ) (src : Option Item) (swap : Bool) :
    InventoryResult × List (Pos × ℕ) :=
  if src.any fun s => s.lootGenerated then (.lootGone, [])
  else if src.any fun s => inv.isBindedNotWith db s then (.notOwner, [])
  else
    let (res, noSimilarCount) := inv.canTakeMoreSimilarItems db entry count src
    if res ≠ .ok ∧ count = noSimilarCount then (res, [])
    else
      let (msg, pl) := search .invFull (inv.attempts db carried p entry swap src)
        { count := if res = .ok then count else sub32 count noSimilarCount }
      if msg = .ok ∧ res ≠ .ok ∧ noSimilarCount ≠ 0 then (.itemMaxCount, pl.dest) else (msg, pl.dest)

/-! ### Storing -/

/-- A stack is bound by where it is put. -/
def bindsAt (p : Pos) (it : Item) : Bool :=
  match (db.template it.entry).bonding with
  | .whenPickedUp | .questItem => true
  | .whenEquiped => p.isBagPos
  | _ => false

/-- What a stack gets in its slot: the binding, and the owner if it is new there. -/
def mark : Slots.Mark Pos Item where
  merged p it := { it with soulBound := it.soulBound || bindsAt db p it }
  placed p it := { it with owner := inv.guid, soulBound := it.soulBound || bindsAt db p it }
  kind_merged _ _ := rfl
  ident_merged _ _ := rfl
  count_merged _ _ := rfl
  kind_placed _ _ := rfl
  ident_placed _ _ := rfl
  count_placed _ _ := rfl

/-- The number by which a bag that is in no bag slot names what is in it. -/
def held (guid : ℕ) : ℕ := 256 + guid

/-- A position under the other of two bag numbers. -/
def carry (a b : ℕ) (p : Pos) : Pos :=
  { p with bag := if p.bag = a then b else if p.bag = b then a else p.bag }

theorem carry_carry (a b : ℕ) : Function.Involutive (carry a b) := by
  rintro ⟨bag, slot⟩
  unfold carry
  congr 1
  dsimp only
  split_ifs <;> omega

/-- What is in a bag goes with it, out of a bag slot of the player or into one. -/
def withContents (slots : Slots Pos Item) (p : Pos) (it : Item) : Slots Pos Item :=
  if db.isBag it ∧ p.isBagPos then Slots.rekey slots _ (carry_carry p.slot (held it.guid))
  else slots

/-- Where a stack goes: if there is no such bag, to the slot of the player. -/
def storedAt (p : Pos) : Pos :=
  if p.bag = inventorySlotBag0 ∨ (inv.getBagByPos db p.bag).isNone then ⟨inventorySlotBag0, p.slot⟩
  else p

/-- `_StoreItem`, with the next free item guid; `clone` unless it is the last of a plan. -/
def storeOne (guid : ℕ) (it : Item) (p : Pos) (count : ℕ) (clone : Bool) : Inventory × ℕ :=
  match inv.getItemByPos db p with
  | some it2 =>
    let it2 := (inv.mark db).merged p { it2 with count := it2.count + count }
    ({ inv with slots := inv.slots.putAt p it2 }, guid)
  | none =>
    let it := { (if clone then Stackable.clone guid it else it) with count := count }
    let it := (inv.mark db).placed p it
    let at' := inv.storedAt db p
    ({ inv with slots := (withContents db inv.slots at' it).putAt at' it },
      if clone then guid + 1 else guid)

/-- `StoreItem`: the plan is carried out. -/
def storeItem (inv : Inventory) (guid : ℕ) (it : Item) : List (Pos × ℕ) → Inventory × ℕ
  | [] => (inv, guid)
  | [(p, count)] => inv.storeOne db guid it p count false
  | (p, count) :: x :: dest =>
    let (inv, guid) := inv.storeOne db guid it p count true
    storeItem inv guid it (x :: dest)

def removeItem (p : Pos) : Inventory :=
  match inv.getItemByPos db p with
  | none => inv
  | some it => { inv with slots := withContents db (inv.slots.eraseAt p) p it }

end Inventory
end ZerosCore.Player
