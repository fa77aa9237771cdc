/-
# Loot

`src/server/game/Loot/LootMgr.h`, `LootMgr.cpp`, `Player::StoreLootItem`
(`src/server/game/Entities/Player/Player.cpp`), `HandleLootMasterGiveOpcode`
(`src/server/game/Handlers/LootHandler.cpp`) and the end of a roll,
`Group::CountTheRoll` (`src/server/game/Groups/Group.cpp`).

A `Loot` holds the dropped items, the quest drops, and for each player up to three
lists of indices into them with flags of their own: the quest drops the player
sees, the free-for-all items, and the conditional items.  The lists of one player
are one `View` here; an empty list is an absent map entry, for the source stores
none.  Four paths hand items out, and one 8-bit counter says how much is left.

The awards are not in the source: `awards` is the history of what was handed out.
Nothing reads it.
-/

import ZerosCore.Lib.Keyed
import ZerosCore.Player.Item

namespace ZerosCore.Loots

open Lib Player

/-! ### Data -/

def maxNrLootItems : ℕ := 16
def maxNrQuestItems : ℕ := 32

inductive LootMethod where
  | freeForAll | roundRobin | masterLoot | groupLoot | needBeforeGreed
  deriving DecidableEq

/-- `LootStoreItem` and what the constructor of `LootItem` reads of the template:
what a drop is, before anybody looks at it. -/
structure LootStoreItem where
  itemid : UInt32
  /-- The conditions of the row, `0` for none. -/
  conditions : UInt32 := 0
  needsQuest : Bool := false
  /-- `ITEM_PROTO_FLAG_PARTY_LOOT`. -/
  partyLoot : Bool := false
  /-- `ITEM_FLAGS_CU_FOLLOW_LOOT_RULES`. -/
  followLootRules : Bool := false
  /-- `ItemTemplate::IsCurrencyToken`. -/
  currencyToken : Bool := false
  /-- The count drawn. -/
  count : UInt8 := 1
  deriving DecidableEq

structure LootItem where
  store : LootStoreItem
  count : UInt8
  isLooted : Bool := false
  isBlocked : Bool := false
  isCounted : Bool := false
  deriving DecidableEq

namespace LootItem

/-- `LootItem::LootItem`. -/
def ofStore (li : LootStoreItem) : LootItem := { store := li, count := li.count }

def freeforall (it : LootItem) : Bool := it.store.partyLoot

def conditional (it : LootItem) : Bool := it.store.conditions ≠ 0

end LootItem

structure QuestItem where
  index : ℕ
  isLooted : Bool := false
  deriving DecidableEq

/-- The lists of one player. -/
structure View where
  guid : UInt32
  questItems : List QuestItem := []
  ffaItems : List QuestItem := []
  condItems : List QuestItem := []
  deriving DecidableEq

/-- A place in `items` or in `quest_items`. -/
inductive Ref where
  | item (i : ℕ)
  | quest (j : ℕ)
  deriving DecidableEq

/-- The index of a place in its list. -/
def Ref.index : Ref → ℕ
  | .item i => i
  | .quest j => j

/-- An item handed out. -/
structure Award where
  ref : Ref
  player : UInt32
  count : UInt8
  deriving DecidableEq

/-- `Loot`, and the slots being rolled for. -/
structure Loot where
  items : List LootItem := []
  questItems : List LootItem := []
  gold : UInt32 := 0
  unlootedCount : UInt8 := 0
  views : Keyed.Table View.guid := .empty _
  rolls : List ℕ := []
  awards : List Award := []
  deriving DecidableEq

structure Group where
  lootMethod : LootMethod
  looterGuid : UInt32

/-- What the loot code asks of the rest of the server. -/
structure Env where
  allowedForPlayer : UInt32 → LootStoreItem → Bool
  group : UInt32 → Option Group
  /-- `CanStoreNewItem(NULL_BAG, NULL_SLOT, dest, itemid, count)`. -/
  canStoreNewItem : UInt32 → UInt32 → UInt8 → InventoryResult
  /-- The group, target and loot guid checks of `HandleLootMasterGiveOpcode`. -/
  masterMayGive : Bool

namespace Loot

/-! ### Lookups -/

def itemAt (l : Loot) : Ref → Option LootItem
  | .item i => l.items[i]?
  | .quest j => l.questItems[j]?

/-- The place of a slot as `HandleLootMasterGiveOpcode` and `CountTheRoll` read it. -/
def refOfSlot (l : Loot) (slot : ℕ) : Ref :=
  if slot ≥ l.items.length then .quest (slot - l.items.length) else .item slot

/-- The lists of a player, empty if there are none. -/
def view (l : Loot) (player : UInt32) : View := (l.views.get? player).getD { guid := player }

def getMaxSlotInLootFor (l : Loot) (player : UInt32) : ℕ :=
  l.items.length + (l.view player).questItems.length

def isLooted (l : Loot) : Bool := l.gold = 0 && l.unlootedCount = 0

/-! ### Writes -/

/-- A write through the item at a place. -/
def modifyAt (l : Loot) (r : Ref) (f : LootItem → LootItem) : Loot :=
  match r with
  | .item i => { l with items := l.items.modify i f }
  | .quest j => { l with questItems := l.questItems.modify j f }

/-- The lists of a player, replaced. -/
def setView (l : Loot) (v : View) : Loot := { l with views := l.views.put v }

/-- The new list of a player is stored, unless it is empty. -/
def storeList (l : Loot) (ql : List QuestItem) (v : View) : Loot :=
  if ql.isEmpty then l else l.setView v

def markLooted (index : ℕ) (entries : List QuestItem) : List QuestItem :=
  entries.map fun e => if e.index = index then { e with isLooted := true } else e

/-- What every path does when it hands an item out: the counter goes down. -/
def award (l : Loot) (r : Ref) (player : UInt32) (count : UInt8) : Loot :=
  { l with unlootedCount := l.unlootedCount - 1, awards := l.awards ++ [⟨r, player, count⟩] }

/-! ### Filling -/

def addItem (l : Loot) (li : LootStoreItem) : Loot :=
  if li.needsQuest then
    if l.questItems.length < maxNrQuestItems then
      { l with questItems := l.questItems ++ [.ofStore li] }
    else l
  else if l.items.length < maxNrLootItems then
    { l with
      items := l.items ++ [.ofStore li]
      unlootedCount :=
        if li.conditions = 0 && !li.partyLoot then l.unlootedCount + 1 else l.unlootedCount }
  else l

/-- What `LootTemplate::Process` leaves of the drops it makes. -/
def ofDrops (gold : UInt32) (drops : List LootStoreItem) : Loot := drops.foldl addItem { gold }

/-- The second way to see an item: it follows the loot rules of the player's group. -/
def followsRules (env : Env) (player : UInt32) (it : LootItem) : Bool :=
  it.store.followLootRules && (env.group player).any fun g =>
    (g.lootMethod = .masterLoot && g.looterGuid = player) || g.lootMethod ≠ .masterLoot

/-- The item is shown to the player, as a quest drop or as a conditional item. -/
def shows (env : Env) (player : UInt32) (it : LootItem) : Bool :=
  !it.isLooted && (env.allowedForPlayer player it.store || followsRules env player it)

/-- Quest drops are blocked when they first appear, but under these two methods. -/
def blocksQuest (env : Env) (player : UInt32) : Bool :=
  (env.group player).all fun g => g.lootMethod ≠ .groupLoot && g.lootMethod ≠ .roundRobin

/-- The loop of `FillQuestLoot` from the drop `i` on: `n` items, the list and the
counter so far. -/
def fillQuestLoop (env : Env) (player : UInt32) (n : ℕ) :
    ℕ → List LootItem → List QuestItem → UInt8 → List LootItem × List QuestItem × UInt8
  | _, [], ql, count => ([], ql, count)
  | i, it :: rest, ql, count =>
    if shows env player it then
      let ql := ql ++ [{ index := i }]
      let count := if it.freeforall || !it.isBlocked then count + 1 else count
      let it := if blocksQuest env player then { it with isBlocked := true } else it
      if n + ql.length = maxNrLootItems then (it :: rest, ql, count)
      else
        let (rest, out) := fillQuestLoop env player n (i + 1) rest ql count
        (it :: rest, out)
    else
      let (rest, out) := fillQuestLoop env player n (i + 1) rest ql count
      (it :: rest, out)

def fillQuestLoot (l : Loot) (env : Env) (player : UInt32) : Loot :=
  if l.items.length = maxNrLootItems then l
  else
    let (questItems, ql, count) :=
      fillQuestLoop env player l.items.length 0 l.questItems [] l.unlootedCount
    let l := { l with questItems, unlootedCount := count }
    l.storeList ql { l.view player with questItems := ql }

def indicesOf (P : LootItem → Bool) (items : List LootItem) : List ℕ :=
  (items.zipIdx.filter fun x => P x.1).map Prod.snd

/-- The item is free for all and the player may have it. -/
def offersFFA (env : Env) (player : UInt32) (it : LootItem) : Bool :=
  !it.isLooted && it.freeforall && env.allowedForPlayer player it.store

def fillFFALoot (l : Loot) (env : Env) (player : UInt32) : Loot :=
  let ql := (indicesOf (offersFFA env player) l.items).map fun i => ({ index := i } : QuestItem)
  let l := { l with unlootedCount := l.unlootedCount + UInt8.ofNat ql.length }
  l.storeList ql { l.view player with ffaItems := ql }

/-- The item is conditional, not free for all, and shown to the player. -/
def offersConditional (env : Env) (player : UInt32) (it : LootItem) : Bool :=
  !it.freeforall && it.conditional && shows env player it

def fillNonQuestNonFFAConditionalLoot (l : Loot) (env : Env) (player : UInt32) : Loot :=
  let ql := (indicesOf (offersConditional env player) l.items).map
    fun i => ({ index := i } : QuestItem)
  let fresh := l.items.countP fun it => offersConditional env player it && !it.isCounted
  let l := { l with
    items := l.items.map fun it =>
      if offersConditional env player it then { it with isCounted := true } else it
    unlootedCount := l.unlootedCount + UInt8.ofNat fresh }
  l.storeList ql { l.view player with condItems := ql }

/-- The three lists of `FillNotNormalLootFor`, each filled if it is not there. -/
def fillLists (l : Loot) (env : Env) (player : UInt32) : Loot :=
  let l := if (l.view player).questItems.isEmpty then l.fillQuestLoot env player else l
  let l := if (l.view player).ffaItems.isEmpty then l.fillFFALoot env player else l
  if (l.view player).condItems.isEmpty then l.fillNonQuestNonFFAConditionalLoot env player else l

/-! ### Taking -/

/-- The list whose flag decides whether a player may take an item. -/
inductive Kind where
  | quest | ffa | cond | shared
  deriving DecidableEq

/-- The flag of the entry for an index, if there is one, else the flag of the item. -/
def flagOf (entries : List QuestItem) (index : ℕ) (it : LootItem) (kind : Kind) : Bool × Kind :=
  match entries.find? fun e => e.index = index with
  | some e => (e.isLooted, kind)
  | none => (it.isLooted, .shared)

/-- The flag that decides about an item of `items`, and the list it is in. -/
def lookedAt (l : Loot) (player : UInt32) (slot : ℕ) (it : LootItem) : Bool × Kind :=
  if it.freeforall then flagOf (l.view player).ffaItems slot it .ffa
  else if it.conditional then flagOf (l.view player).condItems slot it .cond
  else (it.isLooted, .shared)

/-- `LootItemInSlot`: the place, the item and the list that was looked at. -/
def lootItemInSlot (l : Loot) (player : UInt32) (slot : ℕ) : Option (Ref × LootItem × Kind) :=
  if slot ≥ l.items.length then
    match (l.view player).questItems[slot - l.items.length]? with
    | none => none
    | some e =>
      match l.questItems[e.index]? with
      | none => none
      | some it => if e.isLooted then none else some (.quest e.index, it, .quest)
  else match l.items[slot]? with
    | none => none
    | some it =>
      if (l.lookedAt player slot it).1 then none
      else some (.item slot, it, (l.lookedAt player slot it).2)

/-- The flag of the list that was looked at is set. -/
def markEntry (l : Loot) (player : UInt32) (r : Ref) (kind : Kind) : Loot :=
  let v := l.view player
  match kind with
  | .quest => l.setView { v with questItems := markLooted r.index v.questItems }
  | .ffa => l.setView { v with ffaItems := markLooted r.index v.ffaItems }
  | .cond => l.setView { v with condItems := markLooted r.index v.condItems }
  | .shared => l

/-- What `StoreLootItem` tells the player. -/
inductive StoreResult where
  | lootGone | released | equipError (msg : InventoryResult) | ok

/-- The accepted branch of `StoreLootItem`. -/
def take (l : Loot) (player : UInt32) (r : Ref) (it : LootItem) (kind : Kind) : Loot :=
  let l := l.markEntry player r kind
  let l := if it.freeforall then l else l.modifyAt r fun it => { it with isLooted := true }
  l.award r player it.count

/-- `StoreLootItem`.  Quest items use the blocked flag for another purpose. -/
def storeLootItem (l : Loot) (env : Env) (player : UInt32) (slot : ℕ) : Loot × StoreResult :=
  match l.lootItemInSlot player slot with
  | none => (l, .lootGone)
  | some (r, it, kind) =>
    if kind ≠ .quest && it.isBlocked then (l, .released)
    else
      let msg := env.canStoreNewItem player it.store.itemid it.count
      if msg = .ok then (l.take player r it kind, .ok) else (l, .equipError msg)

/-- One pass of the loop of `FillNotNormalLootFor` that hands out currency. -/
def autoStore (l : Loot) (env : Env) (player : UInt32) (slot : ℕ) : Loot :=
  match l.itemAt (l.refOfSlot slot) with
  | none => l
  | some it =>
    if !it.isLooted && it.freeforall && env.allowedForPlayer player it.store &&
        it.store.currencyToken then (l.storeLootItem env player slot).1
    else l

def autoSlots (l : Loot) (env : Env) (player : UInt32) : List ℕ :=
  List.range ((l.fillLists env player).getMaxSlotInLootFor player)

def fillNotNormalLootFor (l : Loot) (env : Env) (player : UInt32) (presentAtLooting : Bool) :
    Loot :=
  if !presentAtLooting then l.fillLists env player
  else (l.autoSlots env player).foldl (fun l slot => l.autoStore env player slot)
    (l.fillLists env player)

/-- `HandleLootMoneyOpcode`, as far as the loot goes. -/
def takeGold (l : Loot) : Loot := { l with gold := 0 }

/-! ### Giving and rolling -/

/-- `HandleLootMasterGiveOpcode`.  Neither the flags of the item nor any list is
looked at. -/
def handleLootMasterGive (l : Loot) (env : Env) (target : UInt32) (slot : ℕ) : Loot :=
  if !env.masterMayGive then l
  else match l.itemAt (l.refOfSlot slot) with
    | none => l
    | some it =>
      if env.canStoreNewItem target it.store.itemid it.count ≠ .ok ||
          (it.store.followLootRules && !env.allowedForPlayer target it.store) then l
      else
        let r := l.refOfSlot slot
        (l.modifyAt r fun it => { it with count := 0, isLooted := true }).award r target it.count

/-- A slot is rolled for: `GroupLoot` and `NeedBeforeGreed` skip free-for-all items and
quest drops that do not follow the loot rules. -/
def startRoll (l : Loot) (slot : ℕ) : Loot :=
  match l.itemAt (l.refOfSlot slot) with
  | none => l
  | some it =>
    let rolled := if slot < l.items.length then !it.freeforall else it.store.followLootRules
    if rolled then
      { l.modifyAt (l.refOfSlot slot) (fun it => { it with isBlocked := true }) with
        rolls := l.rolls ++ [slot] }
    else l

/-- How a roll ends: somebody wins it by need or greed, or by disenchanting; the
winner is not in the world; or everybody passes. -/
inductive RollEnd where
  | won (player : UInt32) | disenchanted (player : UInt32) | winnerGone | allPassed

def countTheRoll (l : Loot) (env : Env) (slot : ℕ) (how : RollEnd) : Loot :=
  if slot ∉ l.rolls then l
  else
    let r := l.refOfSlot slot
    let l := { l with rolls := l.rolls.erase slot }
    match l.itemAt r with
    | none => l
    | some it =>
      match how with
      | .won player =>
        if env.canStoreNewItem player it.store.itemid it.count = .ok then
          (l.modifyAt r fun it => { it with isLooted := true }).award r player it.count
        else l.modifyAt r fun it => { it with isBlocked := false }
      | .disenchanted player =>
        (l.modifyAt r fun it => { it with isLooted := true }).award r player it.count
      | .winnerGone => l
      | .allPassed => l.modifyAt r fun it => { it with isBlocked := false }

end Loot

/-! ### Steps -/

/-- What can happen to a loot. -/
inductive Step where
  | fill (player : UInt32) (presentAtLooting : Bool)
  | store (player : UInt32) (slot : UInt8)
  | money
  | masterGive (target : UInt32) (slot : UInt8)
  | startRoll (slot : ℕ)
  | endRoll (slot : ℕ) (how : Loot.RollEnd)

def Loot.step (l : Loot) : Env × Step → Loot
  | (env, .fill player present) => l.fillNotNormalLootFor env player present
  | (env, .store player slot) => (l.storeLootItem env player slot.toNat).1
  | (_, .money) => l.takeGold
  | (env, .masterGive target slot) => l.handleLootMasterGive env target slot.toNat
  | (_, .startRoll slot) => l.startRoll slot
  | (env, .endRoll slot how) => l.countTheRoll env slot how

end ZerosCore.Loots
