/-
# The void storage of a player

`src/server/game/Handlers/VoidStorageHandler.cpp` (`HandleVoidStorageUnlock`,
`HandleVoidStorageTransfer`) and the void storage of
`src/server/game/Entities/Player/Player.cpp`.

A deposit writes a record of the entry of an item and destroys the item, whatever its count is and
whatever is in it; a withdrawal makes one new item of the entry.  Units are kept exactly if every
item that is deposited is a single one with nothing in it, and unlocking takes the price exactly if
the player has it, which nobody asks (`serve_right_iff`).
-/

import ZerosCore.Lib.Run
import ZerosCore.Player.Money
import ZerosCore.Player.Storing

namespace ZerosCore.Player

open Lib Stacks List Option Slots

/-! ### The storage -/

/-- `GOLD`, in copper. -/
def gold : ℕ := 10000
def voidStorageUnlock : ℕ := 100 * gold
def voidStorageStoreItem : ℕ := 25 * gold
def voidStorageMaxDeposit : ℕ := 9
def voidStorageMaxWithdraw : ℕ := 9
def voidStorageMaxSlot : ℕ := 80
def maxBagSize : ℕ := 36

structure VoidStorageItem where
  itemId : ℕ
  itemEntry : ℕ
  deriving DecidableEq

/-- `_voidStorageItems`. -/
structure VoidStorage where
  items : List (Option VoidStorageItem)
  size : items.length = voidStorageMaxSlot

namespace VoidStorage

variable (v : VoidStorage)

def put (slot : ℕ) (x : Option VoidStorageItem) : VoidStorage where
  items := v.items.set slot x
  size := List.length_set.trans v.size

def getNextVoidStorageFreeSlot : ℕ := v.items.findIdx Option.isNone

def getNumOfVoidStorageFreeSlots : ℕ := v.items.countP Option.isNone

/-- `AddVoidStorageItem`, and the slot. -/
def addVoidStorageItem (item : VoidStorageItem) : VoidStorage × ℕ :=
  let slot := v.getNextVoidStorageFreeSlot
  if slot ≥ voidStorageMaxSlot then (v, 255) else (v.put slot (some item), slot)

def deleteVoidStorageItem (slot : ℕ) : VoidStorage :=
  if slot ≥ voidStorageMaxSlot then v else v.put slot none

/-- `GetVoidStorageItem` by an id, and the slot. -/
def getVoidStorageItem (id : ℕ) : Option (VoidStorageItem × ℕ) :=
  let slot := v.items.findIdx fun x => x.any fun item => item.itemId = id
  match v.items[slot]? with
  | some (some item) => some (item, slot)
  | _ => none

/-- How many items of an entry are stored. -/
def units (entry : ℕ) : ℕ := v.items.countP fun x => x.any fun item => item.itemEntry = entry

end VoidStorage

namespace Inventory

variable (db : ItemStore) (inv : Inventory)

/-- `GetItemByGuid`, with where the item is. -/
def cellByGuid (guid : ℕ) : Option (Cell Pos Item) :=
  (inv.cells db).find? fun c => c.stack.guid = guid

/-- The loop of `DestroyItem` over what is in a bag. -/
def destroyContents (slot : ℕ) (is : List ℕ) : Inventory :=
  is.foldl (fun inv i => inv.removeItem db ⟨slot, i⟩) inv

/-- `DestroyItem`.  What is in a bag is no bag with something in it. -/
def destroyItem (p : Pos) : Inventory :=
  match inv.getItemByPos db p with
  | none => inv
  | some it =>
    (if inv.isNotEmptyBag db it then inv.destroyContents db p.slot (List.range maxBagSize)
      else inv).removeItem db p

/-- `Bag::GetFreeSlots`, of the bag in a slot. -/
def getFreeSlots (i : ℕ) : ℕ :=
  match inv.getBagByPos db i with
  | some bag => (List.range (bagSize db bag)).countP fun j => (inv.slots.stackAt ⟨i, j⟩).isNone
  | none => 0

/-- The free slots that are counted for withdrawals. -/
def freeBagSlots : ℕ :=
  ((List.range' inventorySlotBagStart (inventorySlotBagEnd - inventorySlotBagStart)).map
    (inv.getFreeSlots db)).sum +
  (List.range' inventorySlotItemStart (inventorySlotItemEnd - inventorySlotItemStart)).countP
    fun i => (inv.getItemByPos db ⟨inventorySlotBag0, i⟩).isNone

/-- `SetBinding(true)` of what is at a position. -/
def setBinding (p : Pos) : Inventory :=
  match inv.getItemByPos db p with
  | some it => { inv with slots := inv.slots.putAt p { it with soulBound := true } }
  | none => inv

/-- `StoreNewItem`, and where the item is that it returns. -/
def storeNewItem (guid : ℕ) (dest : List (Pos × ℕ)) (entry : ℕ) : (Inventory × ℕ) × Option Pos :=
  let count := min (dest.map Prod.snd).sum (db.maxStack entry)
  (inv.storeItem db (guid + 1) { guid := guid, entry := entry, count := count } dest,
    dest.getLast?.map Prod.fst)

end Inventory

/-! ### The handlers -/

/-- A player with a void storage. -/
structure Depositor where
  inventory : Inventory
  money : ℕ
  voidStorageUnlocked : Bool
  voidStorage : VoidStorage
  /-- The next item guid. -/
  guid : ℕ
  voidItemId : ℕ

/-- `VoidTransferError`, those that are sent. -/
inductive VoidTransferError where
  | full | inventoryFull | notEnoughMoney
  deriving DecidableEq

/-- What the client is sent. -/
inductive TransferReply where
  | silent
  | result (error : VoidTransferError)
  | changes (deposited : List (VoidStorageItem × ℕ)) (withdrawn : List VoidStorageItem)
  deriving DecidableEq

/-- How a transfer ends: the player, what was deposited, and what the client is sent. -/
structure Transfer where
  player : Depositor
  deposited : List (VoidStorageItem × ℕ) := []
  reply : TransferReply := .silent

namespace Depositor

variable (db : ItemStore) (s : Depositor)

/-- `HandleVoidStorageUnlock`; `npc` if the player can interact with the vaultkeeper. -/
def handleVoidStorageUnlock (npc : Bool) : Depositor :=
  if !npc then s
  else if s.voidStorageUnlocked then s
  else
    { s with
      money := modifyMoney s.money (-(voidStorageUnlock : ℤ))
      voidStorageUnlocked := true }

def deposit (guid : ℕ) : Depositor × Option (VoidStorageItem × ℕ) :=
  match s.inventory.cellByGuid db guid with
  | none => (s, none)
  | some c =>
    let itemVS := ⟨s.voidItemId + 1, c.stack.entry⟩
    let (voidStorage, slot) := s.voidStorage.addVoidStorageItem itemVS
    ({ s with
        inventory := s.inventory.destroyItem db c.pos
        voidStorage := voidStorage
        voidItemId := s.voidItemId + 1 },
      some (itemVS, slot))

def deposits : List ℕ → Depositor → List (VoidStorageItem × ℕ) →
    Depositor × List (VoidStorageItem × ℕ)
  | [], s, done => (s, done)
  | guid :: rest, s, done =>
    deposits rest (s.deposit db guid).1 (done ++ (s.deposit db guid).2.toList)

/-- An item is withdrawn to where there is room. -/
def withdrawTo (dest : List (Pos × ℕ)) (item : VoidStorageItem) (slot : ℕ) : Depositor :=
  let (stored, p) := s.inventory.storeNewItem db s.guid dest item.itemEntry
  { s with
    inventory := (match p with
      | some p => stored.1.setBinding db p
      | none => stored.1)
    guid := stored.2
    voidStorage := s.voidStorage.deleteVoidStorageItem slot }

/-- The loop over the items to withdraw; `none` if it ends before its time. -/
def withdrawals : List ℕ → Depositor → List VoidStorageItem →
    Depositor × Option (List VoidStorageItem)
  | [], s, done => (s, some done)
  | id :: rest, s, done =>
    match s.voidStorage.getVoidStorageItem id with
    | none => withdrawals rest s done
    | some (item, slot) =>
      let (msg, dest) :=
        s.inventory.canStoreItem db ⟨nullBag, nullSlot⟩ item.itemEntry 1 none false
      if msg ≠ .ok then (s, none)
      else withdrawals rest (s.withdrawTo db dest item slot) (done ++ [item])

/-- The checks of `HandleVoidStorageTransfer`, and what is sent if one fails. -/
def transferRefusal (npc : Bool) (itemGuids itemIds : List ℕ) : Option TransferReply :=
  if itemGuids.length > voidStorageMaxDeposit ∨ itemIds.length > voidStorageMaxWithdraw ∨
      npc = false ∨ s.voidStorageUnlocked = false then some .silent
  else if itemGuids.length > s.voidStorage.getNumOfVoidStorageFreeSlots then some (.result .full)
  else if itemIds.length > (if itemIds.length ≠ 0 then s.inventory.freeBagSlots db else 0) then
    some (.result .inventoryFull)
  else if !hasEnoughMoney s.money (UInt64.ofNat (itemGuids.length * voidStorageStoreItem)) then
    some (.result .notEnoughMoney)
  else none

def handleVoidStorageTransfer (npc : Bool) (itemGuids itemIds : List ℕ) : Transfer :=
  match s.transferRefusal db npc itemGuids itemIds with
  | some reply => { player := s, reply := reply }
  | none =>
    let (s, deposited) := deposits db itemGuids s []
    let cost : ℕ := deposited.length * voidStorageStoreItem
    let s := { s with money := modifyMoney s.money (-(cost : ℤ)) }
    let (s, withdrawn) := withdrawals db itemIds s []
    { player := s, deposited := deposited, reply := (match withdrawn with
        | some withdrawn => .changes deposited withdrawn
        | none => .result .inventoryFull) }

end Depositor

/-! ### Slots of the storage -/

namespace VoidStorage

variable {v : VoidStorage} {slot id k : ℕ} {item : VoidStorageItem} {x : Option VoidStorageItem}

/-- No id is in two slots. -/
def Distinct (v : VoidStorage) : Prop :=
  ∀ (i j : ℕ) (a b : VoidStorageItem), v.items[i]? = some (some a) → v.items[j]? = some (some b) →
    a.itemId = b.itemId → i = j

theorem getElem?_put (h : slot < voidStorageMaxSlot) (i : ℕ) :
    (v.put slot x).items[i]? = if slot = i then some x else v.items[i]? := by
  have hlt : slot < v.items.length := v.size ▸ h
  unfold put
  rw [getElem?_set]
  split_ifs with heq <;> rfl

theorem countP_put (p : Option VoidStorageItem → Bool) {old : Option VoidStorageItem}
    (hold : v.items[slot]? = some old) : (v.put slot x).items.countP p + (if p old then 1 else 0) =
      v.items.countP p + if p x then 1 else 0 := by
  obtain ⟨hlt, rfl⟩ := List.getElem?_eq_some_iff.mp hold
  have hset : (v.put slot x).items.countP p = _ := countP_set hlt
  have hle := boole_getElem_le_countP (p := p) hlt
  omega

theorem units_put_some (hnone : v.items[slot]? = some none) (k : ℕ) :
    (v.put slot (some item)).units k = v.units k + if item.itemEntry = k then 1 else 0 := by
  have hcount := countP_put (x := some item) (fun x => x.any fun item => item.itemEntry = k) hnone
  unfold units
  simpa using hcount

theorem units_put_none (hat : v.items[slot]? = some (some item)) (k : ℕ) :
    (v.put slot none).units k + (if item.itemEntry = k then 1 else 0) = v.units k := by
  have hcount := countP_put (x := none) (fun x => x.any fun item => item.itemEntry = k) hat
  unfold units
  simpa using hcount

theorem freeSlots_put_some (hnone : v.items[slot]? = some none) :
    (v.put slot (some item)).getNumOfVoidStorageFreeSlots + 1 = v.getNumOfVoidStorageFreeSlots := by
  have hcount := countP_put (x := some item) isNone hnone
  unfold getNumOfVoidStorageFreeSlots
  simpa using hcount

theorem addVoidStorageItem_spec (hfree : 0 < v.getNumOfVoidStorageFreeSlots) :
    ∃ slot, v.items[slot]? = some none ∧
      v.addVoidStorageItem item = (v.put slot (some item), slot) := by
  have hlt : v.items.findIdx isNone < v.items.length := by
    rw [findIdx_lt_length]
    exact countP_pos_iff.mp hfree
  have hnone := findIdx_getElem (w := hlt)
  refine ⟨v.getNextVoidStorageFreeSlot, ?_, ?_⟩
  · unfold getNextVoidStorageFreeSlot
    rw [getElem?_eq_getElem hlt, isNone_iff_eq_none.mp hnone]
  unfold addVoidStorageItem getNextVoidStorageFreeSlot
  rw [v.size] at hlt
  exact if_neg (not_le.mpr hlt)

theorem getVoidStorageItem_spec (h : v.getVoidStorageItem id = some (item, slot)) :
    v.items[slot]? = some (some item) := by
  unfold getVoidStorageItem at h
  dsimp only at h
  split at h
  · rename_i hat
    cases h
    exact hat
  · cases h

theorem lt_of_getElem? (h : v.items[slot]? = some x) : slot < voidStorageMaxSlot := by
  obtain ⟨hlt, -⟩ := List.getElem?_eq_some_iff.mp h
  exact v.size ▸ hlt

theorem Distinct.put_some (h : v.Distinct) (hslot : slot < voidStorageMaxSlot)
    (hnew : ∀ (i : ℕ) (a : VoidStorageItem), v.items[i]? = some (some a) → a.itemId ≠ item.itemId) :
    (v.put slot (some item)).Distinct := by
  intro i j a b ha hb hid
  rw [getElem?_put hslot] at ha hb
  by_cases hi : slot = i
  · rw [if_pos hi] at ha
    cases ha
    by_cases hj : slot = j
    · exact hi.symm.trans hj
    rw [if_neg hj] at hb
    exact absurd hid.symm (hnew j b hb)
  rw [if_neg hi] at ha
  by_cases hj : slot = j
  · rw [if_pos hj] at hb
    cases hb
    exact absurd hid (hnew i a ha)
  rw [if_neg hj] at hb
  exact h i j a b ha hb hid

theorem of_put_none (hslot : slot < voidStorageMaxSlot) {i : ℕ}
    (h : (v.put slot none).items[i]? = some (some item)) : v.items[i]? = some (some item) := by
  rw [getElem?_put hslot] at h
  split_ifs at h with hi
  · cases h
  · exact h

theorem Distinct.put_none (h : v.Distinct) (hslot : slot < voidStorageMaxSlot) :
    (v.put slot none).Distinct :=
  fun i j a b ha hb => h i j a b (of_put_none hslot ha) (of_put_none hslot hb)

end VoidStorage

/-! ### Destroying -/

namespace Inventory

variable {db : ItemStore} {inv : Inventory} {p q : Pos} {it : Item} {slot i k : ℕ}

def Filled (slots : Slots Pos Item) : Prop := ∀ c ∈ slots.rows, 0 < c.stack.count

theorem Filled.removeItem (h : Filled inv.slots) : Filled (inv.removeItem db p).slots := by
  unfold Inventory.removeItem
  split
  · exact h
  rename_i it _
  have herase : Filled (inv.slots.eraseAt p) := fun c hc => h c (mem_rows_eraseAt.mp hc).1
  unfold withContents
  dsimp only
  split
  · intro c hc
    have hfilled := herase _ (mem_rows_rekey.mp hc)
    exact hfilled
  · exact herase

theorem apart_removeItem (h : inv.slots.Apart) : (inv.removeItem db p).slots.Apart := by
  unfold removeItem
  split
  · exact h
  unfold withContents
  dsimp only
  split
  · exact h.eraseAt.rekey _
  · exact h.eraseAt

/-- **An item that is taken out** takes its units along. -/
theorem total_removeItem (hat : inv.getItemByPos db p = some it) (k : ℕ) :
    inv.slots.total k = weight k it + (inv.removeItem db p).slots.total k := by
  unfold removeItem
  rw [hat, total_eraseAt (exists_of_getItemByPos hat).2]
  dsimp only
  rw [total_withContents]

theorem total_removeItem_le (k : ℕ) : (inv.removeItem db p).slots.total k ≤ inv.slots.total k := by
  cases hat : inv.getItemByPos db p with
  | none =>
    unfold removeItem
    rw [hat]
  | some it =>
    rw [total_removeItem hat k]
    exact Nat.le_add_left _ _

theorem stackAt_removeItem_inner (hslot : slot ≠ inventorySlotBag0) (hne : q ≠ ⟨slot, i⟩) :
    (inv.removeItem db ⟨slot, i⟩).slots.stackAt q = inv.slots.stackAt q := by
  unfold removeItem
  split
  · rfl
  unfold withContents
  dsimp only
  rw [if_neg fun h => hslot (isBagPos_iff.mp h.2).1, stackAt_eraseAt, if_neg hne]

theorem getItemByPos_congr {inv' : Inventory} (hat : inv'.slots.stackAt q = inv.slots.stackAt q)
    (hbag : inv'.slots.stackAt ⟨inventorySlotBag0, q.bag⟩ =
      inv.slots.stackAt ⟨inventorySlotBag0, q.bag⟩) :
    inv'.getItemByPos db q = inv.getItemByPos db q := by
  unfold getItemByPos getBagByPos
  rw [hat, hbag]

theorem getItemByPos_removeItem_inner (hslot : slot ≠ inventorySlotBag0) (hne : q ≠ ⟨slot, i⟩) :
    (inv.removeItem db ⟨slot, i⟩).getItemByPos db q = inv.getItemByPos db q := by
  refine getItemByPos_congr (stackAt_removeItem_inner hslot hne) ?_
  refine stackAt_removeItem_inner hslot fun heq => hslot ?_
  exact (congrArg Pos.bag heq).symm

/-- **The contents of a bag are destroyed**: no total grows, what is destroyed is missing, and the
slots of the player stay. -/
theorem destroyContents_spec (hslot : slot ≠ inventorySlotBag0) (is : List ℕ) :
    (∀ k, (inv.destroyContents db slot is).slots.total k ≤ inv.slots.total k) ∧
      (∀ i ∈ is, ∀ it, inv.getItemByPos db ⟨slot, i⟩ = some it →
        (inv.destroyContents db slot is).slots.total it.entry + it.count ≤
          inv.slots.total it.entry) ∧ ∀ q, q.bag = inventorySlotBag0 →
        (inv.destroyContents db slot is).getItemByPos db q = inv.getItemByPos db q := by
  induction is generalizing inv with
  | nil =>
    refine ⟨fun k => le_refl _, fun i hi => ?_, fun q hq => rfl⟩
    cases hi
  | cons j is ih =>
    obtain ⟨hle, hgone, hmain⟩ := @ih (inv.removeItem db ⟨slot, j⟩)
    have hstep : inv.destroyContents db slot (j :: is) =
        (inv.removeItem db ⟨slot, j⟩).destroyContents db slot is := rfl
    rw [hstep]
    refine ⟨fun k => (hle k).trans (total_removeItem_le k), fun i hi it hat => ?_, fun q hq => ?_⟩
    · by_cases hij : i = j
      · subst hij
        have htotal := total_removeItem hat it.entry
        have hweight : weight it.entry it = it.count := if_pos rfl
        have hrest := hle it.entry
        omega
      have hne : (⟨slot, i⟩ : Pos) ≠ ⟨slot, j⟩ := fun heq => hij (congrArg Pos.slot heq)
      have hmem : i ∈ is := (mem_cons.mp hi).resolve_left hij
      have hrest := hgone i hmem it ((getItemByPos_removeItem_inner hslot hne).trans hat)
      exact hrest.trans (total_removeItem_le it.entry)
    rw [hmain q hq]
    refine getItemByPos_removeItem_inner hslot fun heq => hslot ?_
    rw [← hq, heq]

theorem destroyContents_keeps (is : List ℕ) (hapart : inv.slots.Apart)
    (hfilled : Filled inv.slots) : (inv.destroyContents db slot is).slots.Apart ∧
      Filled (inv.destroyContents db slot is).slots := by
  induction is generalizing inv with
  | nil => exact ⟨hapart, hfilled⟩
  | cons j is ih => exact ih (apart_removeItem hapart) hfilled.removeItem

theorem isNotEmptyBag_spec (hapart : inv.slots.Apart) (hat : inv.getItemByPos db p = some it)
    (hbag : inv.isNotEmptyBag db it = true) : p.bag = inventorySlotBag0 ∧ p.slot < bankSlotBagEnd ∧
      ∃ i it', i < bagSize db it ∧ inv.getItemByPos db ⟨p.slot, i⟩ = some it' := by
  unfold isNotEmptyBag at hbag
  rw [Bool.and_eq_true, List.any_eq_true] at hbag
  obtain ⟨-, c, hc, hin⟩ := hbag
  rw [Bool.and_eq_true, decide_eq_true_eq, Option.any_eq_true] at hin
  obtain ⟨hmain, bag, hbag, hguid⟩ := hin
  obtain ⟨hslot, hatbag, -⟩ := isBagSlot_of_getBagByPos hbag
  have hatp := (exists_of_getItemByPos hat).2
  have hpos := hapart ⟨_, bag⟩ (stackAt_eq_some.mp hatbag) ⟨p, it⟩
    (stackAt_eq_some.mp hatp) (of_decide_eq_true hguid)
  dsimp only at hpos
  subst hpos
  rw [hatbag] at hatp
  cases hatp
  obtain ⟨it', hit'⟩ := isSome_iff_exists.mp (mem_filter.mp hc).2
  refine ⟨rfl, (isBagSlot_bounds hslot).2, c.pos.slot, it', ?_, hit'⟩
  rcases (exists_of_getItemByPos hit').1 with ⟨hmain', -⟩ | ⟨bag', hbag', hlt⟩
  · exact absurd hmain' hmain
  rw [hbag] at hbag'
  cases hbag'
  exact hlt

/-- **What destroying an item takes**: its units if nothing is in it, more of some entry
otherwise. -/
theorem destroyItem_spec (hapart : inv.slots.Apart) (hfilled : Filled inv.slots)
    (hbags : ∀ entry, (db.template entry).containerSlots ≤ maxBagSize)
    (hat : inv.getItemByPos db p = some it) :
    (∀ k, (inv.destroyItem db p).slots.total k + weight k it ≤ inv.slots.total k) ∧
      ((∀ k, (inv.destroyItem db p).slots.total k + weight k it = inv.slots.total k) ↔
        inv.isNotEmptyBag db it = false) := by
  unfold destroyItem
  rw [hat]
  dsimp only
  cases hbag : inv.isNotEmptyBag db it with
  | false =>
    have htotal (k : ℕ) :
        (inv.removeItem db p).slots.total k + weight k it = inv.slots.total k := by
      rw [total_removeItem hat k, Nat.add_comm]
    rw [if_neg Bool.false_ne_true]
    exact ⟨fun k => (htotal k).le, iff_of_true htotal rfl⟩
  | true =>
    rw [if_pos rfl]
    obtain ⟨hmain, hlt, i, it', hi, hat'⟩ := isNotEmptyBag_spec hapart hat hbag
    have hslot : p.slot ≠ inventorySlotBag0 := by
      unfold bankSlotBagEnd at hlt
      unfold inventorySlotBag0
      omega
    obtain ⟨hle, hgone, hkeep⟩ :=
      @destroyContents_spec db inv p.slot hslot (List.range maxBagSize)
    have htotal (k : ℕ) := total_removeItem ((hkeep p hmain).trans hat) k
    refine ⟨fun k => ?_, iff_of_false (fun hall => ?_) Bool.true_eq_false.mp⟩
    · have hk := htotal k
      have hk' := hle k
      omega
    have hin : i < maxBagSize := lt_of_lt_of_le hi (hbags it.entry)
    have hless := hgone i (mem_range.mpr hin) it' hat'
    have hcount := hfilled ⟨_, it'⟩ (stackAt_eq_some.mp (exists_of_getItemByPos hat').2)
    have hk := htotal it'.entry
    have hk' := hall it'.entry
    dsimp only at hcount
    omega

theorem destroyItem_keeps (hapart : inv.slots.Apart) (hfilled : Filled inv.slots) :
    (inv.destroyItem db p).slots.Apart ∧ Filled (inv.destroyItem db p).slots := by
  unfold destroyItem
  split
  · exact ⟨hapart, hfilled⟩
  split_ifs
  · obtain ⟨hapart', hfilled'⟩ :=
      @destroyContents_keeps db inv p.slot (List.range maxBagSize) hapart hfilled
    exact ⟨apart_removeItem hapart', hfilled'.removeItem⟩
  · exact ⟨apart_removeItem hapart, hfilled.removeItem⟩

end Inventory

/-! ### Deposits -/

namespace Depositor

open Inventory

variable {db : ItemStore} {s s' s'' : Depositor} {guid k : ℕ} {guids ids : List ℕ} {npc : Bool}

def units (s : Depositor) (k : ℕ) : ℕ := s.inventory.slots.total k + s.voidStorage.units k

/-- The ids of the storage: none twice, and those that follow are free. -/
structure Ids (s : Depositor) : Prop where
  distinct : s.voidStorage.Distinct
  below : ∀ (slot : ℕ) (item : VoidStorageItem),
    s.voidStorage.items[slot]? = some (some item) → item.itemId ≤ s.voidItemId

/-- A player as it is loaded: no guid is in two slots, no stack is empty, no bag has more slots than
a bag can have, and money is below its limit. -/
structure Wf (db : ItemStore) (s : Depositor) : Prop extends Ids s where
  apart : s.inventory.slots.Apart
  filled : Filled s.inventory.slots
  bags : ∀ entry, (db.template entry).containerSlots ≤ maxBagSize
  money : s.money ≤ maxMoneyAmount

/-- Money is left alone, and what is new in the storage has a fresh id. -/
structure Kept (s s' : Depositor) : Prop where
  money : s'.money = s.money
  later : s.voidItemId ≤ s'.voidItemId
  fresh : ∀ (slot : ℕ) (item : VoidStorageItem), s'.voidStorage.items[slot]? = some (some item) →
      s.voidStorage.items[slot]? = some (some item) ∨ s.voidItemId < item.itemId

theorem Kept.refl : Kept s s := ⟨rfl, le_refl _, fun _ _ h => .inl h⟩

theorem Kept.trans (h : Kept s s') (h' : Kept s' s'') : Kept s s'' := by
  refine ⟨h'.money.trans h.money, h.later.trans h'.later, fun slot item hat => ?_⟩
  rcases h'.fresh slot item hat with hold | hnew
  · exact h.fresh slot item hold
  · exact .inr (lt_of_le_of_lt h.later hnew)

/-- The item is a single one with nothing in it, if the player has it. -/
def Single (db : ItemStore) (s : Depositor) (guid : ℕ) : Prop :=
  ∀ c ∈ s.inventory.cellByGuid db guid,
    c.stack.count = 1 ∧ s.inventory.isNotEmptyBag db c.stack = false

theorem cellByGuid_spec {inv : Inventory} {c : Cell Pos Item}
    (h : inv.cellByGuid db guid = some c) : inv.getItemByPos db c.pos = some c.stack := by
  have hcell := mem_filter.mp (mem_of_find?_eq_some h)
  obtain ⟨it, hit⟩ := isSome_iff_exists.mp hcell.2
  have hat : inv.slots.stackAt c.pos = some c.stack := stackAt_eq_some.mpr hcell.1
  rw [(exists_of_getItemByPos hit).2] at hat
  rw [hit, hat]

/-- **One deposit.** -/
theorem deposit_spec (hs : s.Wf db) (hfree : 0 < s.voidStorage.getNumOfVoidStorageFreeSlots) :
    (s.deposit db guid).1.Wf db ∧ Kept s (s.deposit db guid).1 ∧
      s.voidStorage.getNumOfVoidStorageFreeSlots ≤
        (s.deposit db guid).1.voidStorage.getNumOfVoidStorageFreeSlots + 1 ∧
      (∀ k, (s.deposit db guid).1.units k ≤ s.units k) ∧
      ((∀ k, (s.deposit db guid).1.units k = s.units k) ↔ Single db s guid) := by
  unfold deposit Single
  cases hcell : s.inventory.cellByGuid db guid with
  | none =>
    refine ⟨hs, Kept.refl, Nat.le_succ _, fun k => le_refl _, fun _ c hc => ?_, fun _ k => rfl⟩
    cases hc
  | some c =>
    have hat := cellByGuid_spec hcell
    obtain ⟨hle, hiff⟩ := destroyItem_spec hs.apart hs.filled hs.bags hat
    obtain ⟨hapart, hfilled⟩ := @destroyItem_keeps db s.inventory c.pos hs.apart hs.filled
    have hpos : 0 < c.stack.count :=
      hs.filled ⟨_, c.stack⟩ (stackAt_eq_some.mp (exists_of_getItemByPos hat).2)
    obtain ⟨slot, hslot, hadd⟩ :=
      @VoidStorage.addVoidStorageItem_spec _ ⟨s.voidItemId + 1, c.stack.entry⟩ hfree
    have hlt := VoidStorage.lt_of_getElem? hslot
    have hunits (k : ℕ) :
        (s.voidStorage.put slot (some ⟨s.voidItemId + 1, c.stack.entry⟩)).units k =
          s.voidStorage.units k + if c.stack.entry = k then 1 else 0 :=
      VoidStorage.units_put_some hslot k
    have hweight (k : ℕ) :
        weight k c.stack = if c.stack.entry = k then c.stack.count else 0 := rfl
    dsimp only
    rw [hadd]
    dsimp only
    refine ⟨⟨⟨?_, fun i a ha => ?_⟩, hapart, hfilled, hs.bags, hs.money⟩,
      ⟨rfl, Nat.le_succ _, fun i a ha => ?_⟩, ?_, fun k => ?_, ?_, ?_⟩
    · refine hs.distinct.put_some hlt fun i a ha heq => ?_
      have hbelow := hs.below i a ha
      dsimp only at heq
      omega
    · dsimp only at ha ⊢
      rw [VoidStorage.getElem?_put hlt] at ha
      split_ifs at ha
      · cases ha
        exact le_refl _
      · exact (hs.below i a ha).trans (Nat.le_succ _)
    · dsimp only at ha ⊢
      rw [VoidStorage.getElem?_put hlt] at ha
      split_ifs at ha
      · cases ha
        exact .inr (Nat.lt_succ_self _)
      · exact .inl ha
    · exact (VoidStorage.freeSlots_put_some hslot).ge
    · have hk := hle k
      have hw := hweight k
      unfold units
      dsimp only
      rw [hunits k]
      split_ifs at hw ⊢ <;> omega
    · intro hall c' hc'
      cases hc'
      have hkept (k : ℕ) := hall k
      unfold units at hkept
      dsimp only at hkept
      have hnot : s.inventory.isNotEmptyBag db c.stack = false := by
        refine hiff.mp fun k => ?_
        have hk := hkept k
        have hle' := hle k
        have hw := hweight k
        rw [hunits k] at hk
        split_ifs at hw hk <;> omega
      refine ⟨?_, hnot⟩
      have hk := hkept c.stack.entry
      have hw := hiff.mpr hnot c.stack.entry
      rw [hunits, if_pos rfl] at hk
      rw [hweight, if_pos rfl] at hw
      omega
    intro hsingle k
    obtain ⟨hone, hnot⟩ := hsingle c rfl
    have hw := hiff.mpr hnot k
    rw [hweight, hone] at hw
    unfold units
    dsimp only
    rw [hunits k]
    omega

/-- **The loop over the deposits.** -/
theorem deposits_spec (hs : s.Wf db)
    (hfree : guids.length ≤ s.voidStorage.getNumOfVoidStorageFreeSlots)
    (done : List (VoidStorageItem × ℕ)) :
    (deposits db guids s done).1.Wf db ∧ Kept s (deposits db guids s done).1 ∧
      (deposits db guids s done).2.length ≤ done.length + guids.length ∧
      (∀ k, (deposits db guids s done).1.units k ≤ s.units k) ∧
      ((∀ k, (deposits db guids s done).1.units k = s.units k) ↔
        Along (fun s guid => (s.deposit db guid).1) (Single db) s guids) := by
  induction guids generalizing s done with
  | nil => exact ⟨hs, Kept.refl, le_refl _, fun k => le_refl _, fun _ => trivial, fun _ k => rfl⟩
  | cons guid guids ih =>
    rw [length_cons] at hfree
    obtain ⟨hwf, hkept, hroom, hle, hiff⟩ := @deposit_spec db s guid hs (by omega)
    obtain ⟨hwf', hkept', hlength, hle', hiff'⟩ :=
      ih hwf (by omega) (done ++ (s.deposit db guid).2.toList)
    have hone : (s.deposit db guid).2.toList.length ≤ 1 := by
      cases (s.deposit db guid).2 with
      | none => exact Nat.zero_le _
      | some x => exact le_refl _
    rw [length_append] at hlength
    refine ⟨hwf', hkept.trans hkept', ?_, fun k => (hle' k).trans (hle k), fun hall => ?_,
      fun hall k => ?_⟩
    · rw [length_cons]
      exact hlength.trans (by omega)
    · -- Nothing that is lost by one deposit comes back by the others.
      have hsame (k : ℕ) : (s.deposit db guid).1.units k = s.units k :=
        le_antisymm (hle k) ((hall k).ge.trans (hle' k))
      exact ⟨hiff.mp hsame, hiff'.mp fun k => (hall k).trans (hsame k).symm⟩
    · exact (hiff'.mpr hall.2 k).trans (hiff.mpr hall.1 k)

/-! ### Withdrawals -/

theorem total_setBinding {inv : Inventory} (p : Pos) (k : ℕ) :
    (inv.setBinding db p).slots.total k = inv.slots.total k := by
  unfold setBinding
  split
  · rename_i it hat
    have htotal := total_putAt_some (a := { it with soulBound := true }) (k := k)
      (exists_of_getItemByPos hat).2
    have hweight : weight k { it with soulBound := true } = weight k it := rfl
    rw [hweight] at htotal
    exact Nat.add_right_cancel htotal
  · rfl

/-- **One withdrawal.** -/
theorem withdrawTo_spec {dest : List (Pos × ℕ)} {item : VoidStorageItem} {slot : ℕ} (hs : s.Ids)
    (hat : s.voidStorage.items[slot]? = some (some item))
    (hok : s.inventory.canStoreItem db ⟨nullBag, nullSlot⟩ item.itemEntry 1 none false =
      (.ok, dest)) :
    (s.withdrawTo db dest item slot).Ids ∧ Kept s (s.withdrawTo db dest item slot) ∧
      ∀ k, (s.withdrawTo db dest item slot).units k = s.units k := by
  have hlt := VoidStorage.lt_of_getElem? hat
  have hdelete : s.voidStorage.deleteVoidStorageItem slot = s.voidStorage.put slot none :=
    if_neg (not_le.mpr hlt)
  have hvoid : (s.withdrawTo db dest item slot).voidStorage = s.voidStorage.put slot none := hdelete
  refine ⟨⟨?_, fun i a ha => ?_⟩, ⟨rfl, le_refl _, fun i a ha => ?_⟩, fun k => ?_⟩
  · rw [hvoid]
    exact hs.distinct.put_none hlt
  · rw [hvoid] at ha
    exact hs.below i a (VoidStorage.of_put_none hlt ha)
  · rw [hvoid] at ha
    exact .inl (VoidStorage.of_put_none hlt ha)
  have hstored (it : Item) (hentry : it.entry = item.itemEntry) : Stored db s.inventory it.entry 1
      (dest.map Prod.fst) (s.inventory.storeItem db (s.guid + 1) it dest).1 := by
    rw [← hentry] at hok
    exact stored_of_canStoreItem_none hok (s.guid + 1)
  have htotal := (hstored {
    guid := s.guid
    entry := item.itemEntry
    count := min (dest.map Prod.snd).sum (db.maxStack item.itemEntry) } rfl).total k
  have hunits := VoidStorage.units_put_none hat k
  have hinventory : (s.withdrawTo db dest item slot).inventory.slots.total k =
      s.inventory.slots.total k + if item.itemEntry = k then 1 else 0 := by
    rw [← htotal]
    unfold withdrawTo storeNewItem
    dsimp only
    split
    · exact total_setBinding _ k
    · rfl
  unfold units
  rw [hvoid, hinventory]
  omega

theorem withdrawals_spec (hs : s.Ids) (done : List VoidStorageItem) :
    (withdrawals db ids s done).1.Ids ∧ Kept s (withdrawals db ids s done).1 ∧
      ∀ k, (withdrawals db ids s done).1.units k = s.units k := by
  induction ids generalizing s done with
  | nil => exact ⟨hs, Kept.refl, fun k => rfl⟩
  | cons id ids ih =>
    unfold withdrawals
    cases hitem : s.voidStorage.getVoidStorageItem id with
    | none => exact ih hs done
    | some found =>
      obtain ⟨item, slot⟩ := found
      have hat := VoidStorage.getVoidStorageItem_spec hitem
      dsimp only
      by_cases hok : (s.inventory.canStoreItem db ⟨nullBag, nullSlot⟩ item.itemEntry 1 none
          false).1 = .ok
      · rw [if_neg (not_not.mpr hok)]
        obtain ⟨hids, hkept, hunits⟩ := withdrawTo_spec hs hat (Prod.ext hok rfl)
        obtain ⟨hids', hkept', hunits'⟩ := ih hids (done ++ [item])
        exact ⟨hids', hkept.trans hkept', fun k => (hunits' k).trans (hunits k)⟩
      rw [if_pos hok]
      exact ⟨hs, Kept.refl, fun k => rfl⟩

/-! ### Requests -/

/-- What is asked of a vaultkeeper; `npc` if the player can interact with it. -/
inductive VoidRequest where
  | unlock (npc : Bool)
  | transfer (npc : Bool) (itemGuids itemIds : List ℕ)

/-- **A transfer is right**: the units of every entry are what they were, no slot shares its id with
another and what is new has a fresh one, and the price is paid for each item deposited. -/
structure TransferRight (s : Depositor) (t : Transfer) : Prop where
  units : ∀ k, t.player.units k = s.units k
  distinct : t.player.voidStorage.Distinct
  fresh : ∀ (slot : ℕ) (item : VoidStorageItem),
    t.player.voidStorage.items[slot]? = some (some item) →
      s.voidStorage.items[slot]? = some (some item) ∨ s.voidItemId < item.itemId
  money : t.player.money + t.deposited.length * voidStorageStoreItem = s.money

/-- **A request is served right**: an unlocking takes its price or is refused. -/
def ServedRight (db : ItemStore) (s : Depositor) : VoidRequest → Prop
  | .unlock npc => s.handleVoidStorageUnlock npc = s ∨
      (s.handleVoidStorageUnlock npc).money + voidStorageUnlock = s.money
  | .transfer npc itemGuids itemIds =>
    TransferRight s (s.handleVoidStorageTransfer db npc itemGuids itemIds)

/-- What a request must be: the player has the money, and every item that is deposited is a single
one with nothing in it. -/
def Sound (db : ItemStore) (s : Depositor) : VoidRequest → Prop
  | .unlock npc => npc = false ∨ s.voidStorageUnlocked = true ∨ voidStorageUnlock ≤ s.money
  | .transfer npc itemGuids itemIds =>
    (s.transferRefusal db npc itemGuids itemIds).isSome = true ∨
      Along (fun s guid => (s.deposit db guid).1) (Single db) s itemGuids

theorem unlock_right_iff : ServedRight db s (.unlock npc) ↔ Sound db s (.unlock npc) := by
  unfold ServedRight Sound handleVoidStorageUnlock
  cases npc with
  | false => exact iff_of_true (.inl rfl) (.inl rfl)
  | true =>
    dsimp only
    cases hunlocked : s.voidStorageUnlocked with
    | true => exact iff_of_true (.inl rfl) (.inr (.inl rfl))
    | false =>
      have hmoney :
          modifyMoney s.money (-(voidStorageUnlock : ℤ)) + voidStorageUnlock = s.money ↔
            voidStorageUnlock ≤ s.money := by
        unfold modifyMoney voidStorageUnlock gold
        split_ifs <;> omega
      simp only [Bool.not_true, Bool.false_eq_true, if_false, false_or, reduceCtorEq]
      rw [← hmoney]
      refine ⟨fun h => h.resolve_left fun heq => ?_, .inr⟩
      have hflag := congrArg voidStorageUnlocked heq
      rw [hunlocked] at hflag
      cases hflag

theorem ite_eq_none {α : Type*} {c : Prop} [Decidable c] {x : α} {y : Option α}
    (h : (if c then some x else y) = none) : ¬c ∧ y = none := by
  split_ifs at h with hc
  exact ⟨hc, h⟩

theorem of_transferRefusal_eq_none (h : s.transferRefusal db npc guids ids = none) :
    guids.length ≤ s.voidStorage.getNumOfVoidStorageFreeSlots ∧
      guids.length * voidStorageStoreItem ≤ s.money := by
  unfold transferRefusal at h
  obtain ⟨hasked, h⟩ := ite_eq_none h
  obtain ⟨hfull, h⟩ := ite_eq_none h
  obtain ⟨-, h⟩ := ite_eq_none h
  obtain ⟨hpoor, -⟩ := ite_eq_none h
  rw [not_or, not_lt] at hasked
  have hcount : guids.length ≤ 9 := hasked.1
  refine ⟨not_lt.mp hfull, ?_⟩
  rw [Bool.not_eq_true', Bool.not_eq_false] at hpoor
  unfold hasEnoughMoney at hpoor
  have hle := of_decide_eq_true hpoor
  unfold voidStorageStoreItem gold at hle ⊢
  have hsmall : guids.length * (25 * 10000) < UInt64.size := by
    unfold UInt64.size
    omega
  rw [UInt64.toNat_ofNat_of_lt' hsmall] at hle
  exact hle

/-- Money is neither stored nor an id. -/
theorem units_setMoney (s : Depositor) (money k : ℕ) :
    ({ s with money := money } : Depositor).units k = s.units k := rfl

theorem Ids.setMoney (hs : s.Ids) (money : ℕ) : Ids { s with money := money } :=
  ⟨hs.distinct, hs.below⟩

theorem transfer_right_iff (hs : s.Wf db) :
    TransferRight s (s.handleVoidStorageTransfer db npc guids ids) ↔
      (s.transferRefusal db npc guids ids).isSome = true ∨
        Along (fun s guid => (s.deposit db guid).1) (Single db) s guids := by
  unfold handleVoidStorageTransfer
  cases hrefusal : s.transferRefusal db npc guids ids with
  | some reply =>
    refine iff_of_true ⟨fun k => rfl, hs.distinct, fun _ _ h => .inl h, ?_⟩ (.inl rfl)
    dsimp only
    rw [length_nil, Nat.zero_mul, Nat.add_zero]
  | none =>
    obtain ⟨hfree, hmoney⟩ := of_transferRefusal_eq_none hrefusal
    obtain ⟨hwf, hkept, hlength, -, hiff⟩ := deposits_spec hs hfree []
    generalize deposits db guids s [] = d at hwf hkept hlength hiff
    obtain ⟨s1, deposited⟩ := d
    dsimp only at hwf hkept hlength hiff ⊢
    have hcost : deposited.length * voidStorageStoreItem ≤ s.money := by
      rw [length_nil, Nat.zero_add] at hlength
      exact (Nat.mul_le_mul_right _ hlength).trans hmoney
    have hpaid := modifyMoney_neg hcost hs.money
    rw [hkept.money]
    generalize modifyMoney s.money _ = money at hpaid
    obtain ⟨hids', hkept', hunits⟩ := @withdrawals_spec db _ ids (hwf.toIds.setMoney money) []
    generalize withdrawals db ids _ [] = w at hids' hkept' hunits
    obtain ⟨s2, withdrawn⟩ := w
    dsimp only at hids' hkept' hunits ⊢
    have hsame (k : ℕ) : s2.units k = s1.units k := (hunits k).trans (units_setMoney s1 money k)
    constructor
    · intro hright
      exact .inr (hiff.mp fun k => (hsame k).symm.trans (hright.units k))
    rintro (hrefused | hsingle)
    · cases hrefused
    refine ⟨fun k => (hsame k).trans (hiff.mpr hsingle k), hids'.distinct,
      fun slot item hat => ?_, ?_⟩
    · rcases hkept'.fresh slot item hat with hold | hnew
      · exact hkept.fresh slot item hold
      · exact .inr (lt_of_le_of_lt hkept.later hnew)
    have hmoney' : s2.money = money := hkept'.money
    dsimp only
    rw [hmoney', hpaid]
    exact Nat.sub_add_cancel hcost

/-- **Units are kept exactly if single things are deposited, and a price is paid exactly if the
player has it.** -/
theorem serve_right_iff (hs : s.Wf db) (r : VoidRequest) : ServedRight db s r ↔ Sound db s r := by
  cases r with
  | unlock npc => exact unlock_right_iff
  | transfer npc guids ids => exact transfer_right_iff hs

/-- A player with a helmet, a bag in a bag slot and 15 pieces of cloth, whose void storage is
empty. -/
def dressedDepositor (money : ℕ) (voidStorageUnlocked : Bool) : Depositor where
  inventory := dressed
  money := money
  voidStorageUnlocked := voidStorageUnlocked
  voidStorage := ⟨List.replicate voidStorageMaxSlot none, List.length_replicate⟩
  guid := 14
  voidItemId := 1

/-- A helmet and a bag with nothing in it are kept, and 50 gold is paid. -/
theorem serve_right_helmet : TransferRight (dressedDepositor 600000 true)
      ((dressedDepositor 600000 true).handleVoidStorageTransfer wardrobe true [11, 12] []) := by
  have hs : (dressedDepositor 600000 true).Wf wardrobe := by
    refine ⟨⟨fun i j a b ha => ?_, fun i a ha => ?_⟩, ?_, ?_, fun entry => ?_, by decide⟩
    · exact absurd (eq_of_mem_replicate (mem_of_getElem? ha)) nofun
    · exact absurd (eq_of_mem_replicate (mem_of_getElem? ha)) nofun
    · unfold Slots.Apart
      decide
    · unfold Filled
      decide
    dsimp only [wardrobe]
    split_ifs <;> decide
  refine (serve_right_iff hs (.transfer true [11, 12] [])).mpr (.inr ⟨?_, ?_, trivial⟩)
  all_goals
    unfold Single
    decide +kernel

/-- **A stack of 15 becomes one piece**, and a player without money unlocks the storage. -/
theorem stack_deposited :
    let s := dressedDepositor 600000 true
    let t := s.handleVoidStorageTransfer wardrobe true [13] []
    s.units 3 = 15 ∧ t.player.units 3 = 1 ∧ t.reply = .changes [(⟨2, 3⟩, 0)] [] ∧
      ¬ServedRight wardrobe s (.transfer true [13] []) ∧
      ((dressedDepositor 0 false).handleVoidStorageUnlock true).voidStorageUnlocked = true ∧
      ¬ServedRight wardrobe (dressedDepositor 0 false) (.unlock true) := by
  intro s t
  have hbefore : s.units 3 = 15 := by decide +kernel
  have hafter : t.player.units 3 = 1 := by decide +kernel
  refine ⟨hbefore, hafter, by decide +kernel, fun hright => ?_, rfl, ?_⟩
  · have hunits : t.player.units 3 = s.units 3 := TransferRight.units hright 3
    rw [hbefore, hafter] at hunits
    exact absurd hunits (by decide)
  rintro (hrefused | hpaid)
  · exact absurd (congrArg voidStorageUnlocked hrefused) (by decide)
  · exact absurd hpaid (by decide)

end Depositor
end ZerosCore.Player
