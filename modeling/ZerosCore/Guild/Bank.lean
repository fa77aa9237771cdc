/-
# Moving items in and out of the guild bank

`MoveItemData`, `PlayerMoveItemData`, `BankMoveItemData`, `SwapItems`,
`SwapItemsWithInventory`, `_MoveItems` and `_DoItemsMove`
(`src/server/game/Guilds/Guild.cpp`).  The packet handler `HandleGuildBankSwapItems`
passes on some of the requests served here: those that name a slot of the inventory,
or none.

A move has a source and a destination, each of them a slot of the bank or of the
player.  The destination is asked for room first, which gives a plan of slots and
amounts; then the item is taken from its source and stored by the plan.  When
that fails for a whole stack, the two items are swapped, each being asked for
room in the slot of the other.

The slots of the bank and those of the player are one table here, and the
inventory that `CanStoreItem` reads is the player's part of it.  Item objects are
told apart by their guids; `guid` is the next one that `GenerateLowGuid` gives.
-/

import ZerosCore.Guild.Treasury
import ZerosCore.Player.Inventory

namespace ZerosCore.Guild

open Lib Stacks Player

def guildBankMaxSlots : ℕ := 98
def guildBankRightDepositItem : UInt8 := 0x03

structure TabSlot where
  tab : UInt8
  slot : ℕ
  deriving DecidableEq

/-- A slot of the bank or of the player. -/
inductive Place
  | bank (p : TabSlot)
  | char (p : Pos)
  deriving DecidableEq

namespace Place

def isBank : Place → Bool
  | .bank _ => true
  | .char _ => false

/-- `pOther->IsBank() && pOther->GetContainer() == m_container`: two slots of one tab. -/
def sameTab : Place → Place → Bool
  | .bank p, .bank q => p.tab = q.tab
  | _, _ => false

/-- The position of the player. -/
def pos? : Place → Option Pos
  | .bank _ => none
  | .char p => some p

end Place

/-- A guild with its bank, and the player that moves items. -/
structure Vault where
  treasury : Treasury
  player : UInt32
  isInCombat : Bool := false
  inArenaMatch : Bool := false
  lootGuid : ℕ := 0
  slots : Slots Place Item
  guid : ℕ

def charSlots (s : Slots Place Item) : Slots Pos Item where
  rows := s.rows.filterMap fun c => c.pos.pos?.map fun p => ⟨p, c.stack⟩
  distinct := by
    have hkeys : (s.rows.filterMap fun c => c.pos.pos?.map fun p =>
        (⟨p, c.stack⟩ : Cell Pos Item)).map Cell.pos = (s.rows.map Cell.pos).filterMap Place.pos? := by
      rw [List.map_filterMap, List.filterMap_map]
      congr 1
      funext c
      obtain ⟨q, it⟩ := c
      cases q with
      | bank p => rfl
      | char p => rfl
    have hnodup : (s.rows.map Cell.pos).Nodup := s.distinct
    rw [Keyed.Distinct, hkeys]
    refine List.Nodup.filterMap (fun a a' b hb hb' => ?_) hnodup
    cases a with
    | bank p => cases hb
    | char p =>
      cases a' with
      | bank p => cases hb'
      | char p' =>
        obtain rfl := Option.some.inj hb
        obtain rfl := Option.some.inj hb'
        rfl

namespace Vault

variable (db : ItemStore) (v : Vault)

def inventory : Inventory where
  guid := v.player.toNat
  slots := charSlots v.slots
  isInCombat := v.isInCombat
  inArenaMatch := v.inArenaMatch
  lootGuid := v.lootGuid

/-- `_GetItem` and `GetItemByPos`. -/
def getItem : Place → Option Item
  | .bank p =>
    if p.tab < v.treasury.guild.purchasedTabs ∧ p.slot < guildBankMaxSlots then
      v.slots.stackAt (.bank p)
    else none
  | .char p => v.inventory.getItemByPos db p

/-- `InitItem`.  A bag with something in it and an item that cannot be traded stay with the
player. -/
def initItem : Place → Option Item
  | .bank p => v.getItem db (.bank p)
  | .char p => (v.getItem db (.char p)).filter fun it =>
    !v.inventory.isNotEmptyBag db it && v.inventory.canBeTraded db p it false

/-! ### Rights -/

def memberHasTabRights (tabId rights : UInt8) : Bool :=
  match v.treasury.guild.members.get? v.player with
  | some member =>
    member.rankId = grGuildmaster || v.treasury.guild.leader = v.player ||
      v.treasury.guild.getRankBankTabRights member.rankId tabId &&& rights = rights
  | none => false

def hasStoreRights (place other : Place) : Bool :=
  match place with
  | .bank p => place.sameTab other || v.memberHasTabRights p.tab guildBankRightDepositItem
  | .char _ => true

def hasWithdrawRights (place other : Place) : Bool :=
  match place with
  | .bank p => place.sameTab other ||
      match v.treasury.guild.members.get? v.player with
      | some member => v.treasury.guild.getMemberRemainingSlots member.rankId p.tab
          (v.treasury.withdrawnSlots v.player p.tab) ≠ 0
      | none => false
  | .char _ => true

/-! ### Finding room -/

/-- What is in a slot of the bank, the item that moves aside. -/
def otherItem (p : TabSlot) (it : Item) : Option Item :=
  (v.getItem db (.bank p)).filter fun d => d.guid ≠ it.guid

def reserveSpace (p : TabSlot) (it : Item) (dest : Option Item) (pl : Plan Place) :
    Option (Plan Place) :=
  match dest with
  | some d =>
    if d.entry ≠ it.entry ∨ d.count ≥ db.maxStack it.entry then none
    else some (pl.add (.bank p) (db.maxStack it.entry - d.count))
  | none => some (pl.add (.bank p) (db.maxStack it.entry))

/-- The loop of `CanStoreItemInTab`. -/
def canStoreItemInTab (tab : UInt8) (it : Item) (skipSlotId : ℕ) (merge : Bool) :
    List ℕ → Plan Place → Plan Place
  | [], pl => pl
  | slotId :: rest, pl =>
    if pl.count = 0 then pl
    else if slotId = skipSlotId then canStoreItemInTab tab it skipSlotId merge rest pl
    else
      let dest := v.otherItem db ⟨tab, slotId⟩ it
      if dest.isSome ≠ merge then canStoreItemInTab tab it skipSlotId merge rest pl
      else canStoreItemInTab tab it skipSlotId merge rest
        ((reserveSpace db ⟨tab, slotId⟩ it dest pl).getD pl)

/-- The search of `BankMoveItemData::CanStore` once the slot asked for is settled. -/
def canStoreInTab (p : TabSlot) (it : Item) (pl : Plan Place) :
    InventoryResult × List (Place × ℕ) :=
  let slots := List.range guildBankMaxSlots
  let merged :=
    if 1 < db.maxStack it.entry then v.canStoreItemInTab db p.tab it p.slot true slots pl else pl
  if 1 < db.maxStack it.entry ∧ merged.count = 0 then (.ok, merged.dest)
  else
    let placed := v.canStoreItemInTab db p.tab it p.slot false slots merged
    if placed.count = 0 then (.ok, placed.dest) else (.bankFull, [])

/-- `BankMoveItemData::CanStore`. -/
def bankCanStore (p : TabSlot) (it : Item) (swap : Bool) : InventoryResult × List (Place × ℕ) :=
  if it.soulBound then (.dropBoundItem, [])
  else if v.treasury.guild.purchasedTabs ≤ p.tab then (.wrongBagType, [])
  else if p.slot ≠ nullSlot then
    let dest := if swap then none else v.otherItem db p it
    match reserveSpace db p it dest { count := it.count } with
    | none => (.cantStack, [])
    | some pl => if pl.count = 0 then (.ok, pl.dest) else v.canStoreInTab db p it pl
  else v.canStoreInTab db p it { count := it.count }

/-- `CanStore`, with the plan if there is room. -/
def canStore (place : Place) (it : Item) (swap : Bool) : Option (List (Place × ℕ)) :=
  match place with
  | .bank p =>
    match v.bankCanStore db p it swap with
    | (.ok, dest) => some dest
    | _ => none
  | .char p =>
    match v.inventory.canStoreItem db p it.entry it.count (some it) swap with
    | (.ok, dest) => some (dest.map fun x => (.char x.1, x.2))
    | _ => none

/-! ### Moving -/

/-- What a stack gets in its slot: in the bank it has no owner. -/
def mark : Slots.Mark Place Item where
  merged
    | .bank _, it => it
    | .char p, it => (v.inventory.mark db).merged p it
  placed
    | .bank _, it => { it with owner := 0 }
    | .char p, it => (v.inventory.mark db).placed p it
  kind_merged p it := by cases p <;> rfl
  ident_merged p it := by cases p <;> rfl
  count_merged p it := by cases p <;> rfl
  kind_placed p it := by cases p <;> rfl
  ident_placed p it := by cases p <;> rfl
  count_placed p it := by cases p <;> rfl

def storeItem (it : Item) (dest : List (Place × ℕ)) : Vault :=
  let stored := v.slots.store (v.mark db) v.guid it dest
  { v with slots := stored.1, guid := stored.2 }

/-- `RemoveItem`: a part of the stack, or all of it.  A withdrawal from a tab is counted. -/
def removeItem (place other : Place) (it : Item) (splitedAmount : ℕ) : Vault :=
  { v with
    slots :=
      if splitedAmount ≠ 0 then
        v.slots.putAt place { it with count := it.count - splitedAmount }
      else v.slots.eraseAt place
    treasury :=
      match place with
      | .bank p =>
        if place.sameTab other then v.treasury else v.treasury.withdrawItem v.player p.tab
      | .char _ => v.treasury }

/-- `_DoItemsMove`: `it` is in the source, `moved` is that item or the part split off, `dest` the
item it is swapped with. -/
def doItemsMove (src dst : Place) (it moved : Item) (dest : Option Item) (splitedAmount : ℕ) :
    Option Vault := do
  let plan ← v.canStore db dst moved dest.isSome
  match dest with
  | none => some ((v.removeItem src dst it splitedAmount).storeItem db moved plan)
  | some d =>
    let back ← v.canStore db src d true
    let v := (v.removeItem src dst it splitedAmount).removeItem dst src d 0
    some ((v.storeItem db moved plan).storeItem db d back)

def cloneItem (it : Item) (count : ℕ) : Item :=
  { Stackable.clone v.guid it with count := min count (db.maxStack it.entry) }

def moveItems (src dst : Place) (splitedAmount : ℕ) : Vault :=
  match v.initItem db src with
  | none => v
  | some it =>
    if it.count < splitedAmount then v
    else
      let splitedAmount := if splitedAmount = it.count then 0 else splitedAmount
      if !v.hasStoreRights dst src then v
      else if !v.hasWithdrawRights src dst then v
      else if splitedAmount ≠ 0 then
        let cloned := v.cloneItem db it splitedAmount
        let v := { v with guid := v.guid + 1 }
        (v.doItemsMove db src dst it cloned none splitedAmount).getD v
      else
        match v.doItemsMove db src dst it it none 0 with
        | some v => v
        | none =>
          match v.initItem db dst with
          | none => v
          | some d =>
            if !v.hasStoreRights src dst then v
            else if !v.hasWithdrawRights dst src then v
            else (v.doItemsMove db src dst it it (some d) 0).getD v

def swapItems (p q : TabSlot) (splitedAmount : ℕ) : Vault :=
  let tabs := v.treasury.guild.purchasedTabs
  if tabs ≤ p.tab ∨ guildBankMaxSlots ≤ p.slot ∨ tabs ≤ q.tab ∨ guildBankMaxSlots ≤ q.slot then v
  else if p = q then v
  else v.moveItems db (.bank p) (.bank q) splitedAmount

def swapItemsWithInventory (toChar : Bool) (p : TabSlot) (q : Pos) (splitedAmount : ℕ) : Vault :=
  if (guildBankMaxSlots ≤ p.slot ∧ p.slot ≠ nullSlot) ∨ v.treasury.guild.purchasedTabs ≤ p.tab then v
  else if toChar then v.moveItems db (.bank p) (.char q) splitedAmount
  else v.moveItems db (.char q) (.bank p) splitedAmount

/-- A request: `SwapItems`, or `SwapItemsWithInventory`, with the numbers of the packet. -/
inductive Request
  | swapItems (tabId slotId destTabId destSlotId : UInt8) (splitedAmount : UInt32)
  | swapItemsWithInventory (toChar : Bool) (tabId slotId playerBag playerSlotId : UInt8)
      (splitedAmount : UInt32)

/-- Where the item comes from, and where it goes. -/
def Request.source : Request → Place
  | .swapItems tabId slotId _ _ _ => .bank ⟨tabId, slotId.toNat⟩
  | .swapItemsWithInventory toChar tabId slotId playerBag playerSlotId _ =>
    if toChar then .bank ⟨tabId, slotId.toNat⟩ else .char ⟨playerBag.toNat, playerSlotId.toNat⟩
def Request.destination : Request → Place
  | .swapItems _ _ destTabId destSlotId _ => .bank ⟨destTabId, destSlotId.toNat⟩
  | .swapItemsWithInventory toChar tabId slotId playerBag playerSlotId _ =>
    if toChar then .char ⟨playerBag.toNat, playerSlotId.toNat⟩ else .bank ⟨tabId, slotId.toNat⟩

def serve : Request → Vault
  | .swapItems tabId slotId destTabId destSlotId splitedAmount =>
    v.swapItems db ⟨tabId, slotId.toNat⟩ ⟨destTabId, destSlotId.toNat⟩ splitedAmount.toNat
  | .swapItemsWithInventory toChar tabId slotId playerBag playerSlotId splitedAmount =>
    v.swapItemsWithInventory db toChar ⟨tabId, slotId.toNat⟩
      ⟨playerBag.toNat, playerSlotId.toNat⟩ splitedAmount.toNat

end Vault
end ZerosCore.Guild
