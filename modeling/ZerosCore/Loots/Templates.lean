/-
# Loot templates

`LootStoreItem`, `LootTemplate` and `LootTemplate::LootGroup` of
`src/server/game/Loot/LootMgr.h` and `LootMgr.cpp`: how the rows of a loot table become
templates, and how a template is rolled into a loot.

A row with a negative `mincountOrRef` refers to a template of the reference table, which is
rolled as often as the row says, so that the recursion is bounded by nothing but what the
tables contain.  The functions that recurse take fuel here and are `none` when it is used
up; a call of the source returns if some fuel is enough.

Chances are rationals.  Each random number is a draw of its own, taken in order from a
sequence that is given.  The drops of a run are kept as a history that nothing reads.
-/

import ZerosCore.Loots.Basic
import Mathlib.Data.Rat.Floor

namespace ZerosCore.Loots.Templates

/-! ### Rows and templates -/

/-- What is read of an `ItemTemplate`, with `getRate(qualityToRate[Quality])`. -/
structure ItemTemplate where
  inventoryType : ℕ
  rateQuality : ℚ := 1
  partyLoot : Bool := false
  followLootRules : Bool := false
  currencyToken : Bool := false

/-- The item templates, `RATE_DROP_ITEM_REFERENCED` and `RATE_DROP_ITEM_REFERENCED_AMOUNT`. -/
structure World where
  getItemTemplate : UInt32 → Option ItemTemplate
  rateReferenced : ℚ := 1
  rateReferencedAmount : ℚ := 1

/-- A row of a loot table as it is read. -/
structure Row where
  entry : ℕ
  item : UInt32
  chanceOrQuestChance : ℚ
  lootmode : UInt16
  groupid : UInt8
  mincountOrRef : ℤ
  maxcount : UInt8

structure LootStoreItem where
  itemid : UInt32
  chance : ℚ
  mincountOrRef : ℤ
  lootmode : UInt16
  group : ℕ
  needsQuest : Bool
  maxcount : ℕ
  conditions : UInt32 := 0
  deriving DecidableEq

/-- The constructor: a negative chance is that of a quest drop, and the group has seven bits. -/
def LootStoreItem.ofRow (row : Row) : LootStoreItem :=
  { itemid := row.item, chance := |row.chanceOrQuestChance|, mincountOrRef := row.mincountOrRef
    lootmode := row.lootmode
    group := row.groupid.toNat % 2 ^ 7
    needsQuest := row.chanceOrQuestChance < 0
    maxcount := row.maxcount.toNat }

def LootStoreItem.isValid (w : World) (i : LootStoreItem) : Bool :=
  if i.group ≥ 2 ^ 7 then false
  else if i.mincountOrRef = 0 then false
  else if i.mincountOrRef > 0 then
    if (w.getItemTemplate i.itemid).isNone then false
    else if i.chance = 0 ∧ i.group = 0 then false
    else if i.chance ≠ 0 ∧ i.chance < 1 / 1000000 then false
    else if (i.maxcount : ℤ) < i.mincountOrRef then false
    else true
  else if i.needsQuest then true
  else if i.chance = 0 then false
  else true

structure LootGroup where
  explicitlyChanced : List LootStoreItem := []
  equalChanced : List LootStoreItem := []
  deriving DecidableEq

def LootGroup.addEntry (g : LootGroup) (item : LootStoreItem) : LootGroup :=
  if item.chance ≠ 0 then { g with explicitlyChanced := g.explicitlyChanced ++ [item] }
  else { g with equalChanced := g.equalChanced ++ [item] }

structure LootTemplate where
  entries : List LootStoreItem := []
  groups : List LootGroup := []
  deriving DecidableEq

/-- `LootTemplate::AddEntry`: references are never grouped. -/
def LootTemplate.addEntry (t : LootTemplate) (item : LootStoreItem) : LootTemplate :=
  if item.group > 0 ∧ item.mincountOrRef > 0 then
    let groups := t.groups ++ List.replicate (item.group - t.groups.length) ⟨[], []⟩
    { t with groups := groups.modify (item.group - 1) fun g => g.addEntry item }
  else { t with entries := t.entries ++ [item] }

abbrev LootTemplateMap := List (ℕ × LootTemplate)

def addRow (store : LootTemplateMap) (row : Row) : LootTemplateMap :=
  match store.lookup row.entry with
  | none => store ++ [(row.entry, LootTemplate.addEntry ⟨[], []⟩ (.ofRow row))]
  | some _ => store.map fun e => if e.1 = row.entry then (e.1, e.2.addEntry (.ofRow row)) else e

def loadLootTable (w : World) (rows : List Row) : LootTemplateMap :=
  (rows.filter fun row => (LootStoreItem.ofRow row).isValid w).foldl addRow []

/-- The number of the template a reference refers to. -/
def LootStoreItem.reference (i : LootStoreItem) : ℕ := (-i.mincountOrRef).toNat

/-! ### Rolling -/

/-- A random number: what `rand_chance` gives, and what a draw from a range is taken of. -/
structure Draw where
  chance : ℚ
  pick : ℕ
  nonneg : 0 ≤ chance
  below : chance < 100

/-- What `AddItem` was called with: an entry of its own or one of a group, and the item. -/
structure Drop where
  grouped : Bool
  item : LootStoreItem
  count : UInt8
  deriving DecidableEq

/-- A loot that is filled, the random numbers drawn and the drops made so far. -/
structure Fill where
  loot : Loot := {}
  drawn : ℕ := 0
  drops : List Drop := []
  deriving DecidableEq

section Roll

variable (w : World) (dice : ℕ → Draw)

/-- `roll_chance_f`. -/
def rollChance (chance : ℚ) (s : Fill) : Bool × Fill :=
  (chance > (dice s.drawn).chance, { s with drawn := s.drawn + 1 })

def LootStoreItem.roll (i : LootStoreItem) (rate : Bool) (s : Fill) : Bool × Fill :=
  if i.chance ≥ 100 then (true, s)
  else if i.mincountOrRef < 0 then
    rollChance dice (i.chance * if rate then w.rateReferenced else 1) s
  else
    rollChance dice
      (i.chance * if rate then ((w.getItemTemplate i.itemid).elim 1 ItemTemplate.rateQuality) else 1)
      s

def Drop.stored (d : Drop) : Loots.LootStoreItem :=
  { itemid := d.item.itemid, conditions := d.item.conditions, needsQuest := d.item.needsQuest
    partyLoot := (w.getItemTemplate d.item.itemid).elim false ItemTemplate.partyLoot
    followLootRules := (w.getItemTemplate d.item.itemid).elim false ItemTemplate.followLootRules
    currencyToken := (w.getItemTemplate d.item.itemid).elim false ItemTemplate.currencyToken
    count := d.count }

/-- `Loot::AddItem`, which draws the count. -/
def Fill.addItem (s : Fill) (grouped : Bool) (item : LootStoreItem) : Fill :=
  let mincount := item.mincountOrRef.toNat
  let count := mincount + (dice s.drawn).pick % (item.maxcount - mincount + 1)
  let d : Drop := ⟨grouped, item, UInt8.ofNat count⟩
  { loot := s.loot.addItem (d.stored w), drawn := s.drawn + 1, drops := s.drops ++ [d] }

/-! ### Groups -/

/-- The list of explicitly chanced entries from the selected one on; those before it are erased. -/
def rollExplicit : ℚ → List LootStoreItem → List LootStoreItem
  | _, [] => []
  | roll, i :: rest =>
    if i.chance ≥ 100 then i :: rest
    else if roll - i.chance < 0 then i :: rest
    else rollExplicit (roll - i.chance) rest

/-- The search for items of a group that have dropped: the counter, and whether the item is a
duplicate. -/
def findDuplicate (proto : ItemTemplate) (itemid : UInt32) (items : List LootItem) : ℕ × Bool :=
  items.foldl
    (fun s it =>
      if it.store.itemid = itemid then
        let counter := s.1 + 1
        if proto.inventoryType = 0 ∧ counter = 3 then (counter, true)
        else if proto.inventoryType ≠ 0 ∧ counter = 1 then (counter, true)
        else (counter, s.2)
      else s)
    (0, false)

/-- The item has dropped as often as it may, as a group sees it. -/
def duplicate (s : Fill) (itemid : UInt32) : Bool :=
  match w.getItemTemplate itemid with
  | none => false
  | some proto => (findDuplicate proto itemid s.loot.items).2

/-- The loop of `LootGroup::Process`, with the attempts that are left and the possible drops. -/
def processDrops (lootMode : UInt16) :
    ℕ → List LootStoreItem → List LootStoreItem → Fill → Fill
  | 0, _, _, s => s
  | left + 1, explicit, equal, s =>
    let s1 := if explicit.isEmpty then s else { s with drawn := s.drawn + 1 }
    match rollExplicit (dice s.drawn).chance explicit with
    | item :: rest =>
      if item.lootmode &&& lootMode ≠ 0 then
        if duplicate w s1 item.itemid then processDrops lootMode left rest equal s1
        else s1.addItem w dice true item
      else processDrops lootMode left (item :: rest) equal s1
    | [] =>
      let index := (dice s1.drawn).pick % equal.length
      match equal[index]? with
      | none => s1
      | some item =>
        let s2 := { s1 with drawn := s1.drawn + 1 }
        if item.lootmode &&& lootMode ≠ 0 then
          if duplicate w s2 item.itemid then
            processDrops lootMode left [] (equal.eraseIdx index) s2
          else s2.addItem w dice true item
        else processDrops lootMode left [] equal s2

/-- `LootGroup::Process`; the attempts are counted in eight bits. -/
def LootGroup.process (g : LootGroup) (lootMode : UInt16) (s : Fill) : Fill :=
  processDrops w dice lootMode ((g.explicitlyChanced.length + g.equalChanced.length) % 2 ^ 8)
    g.explicitlyChanced g.equalChanced s

/-! ### Templates -/

/-- The search for items that have dropped of `LootTemplate::Process`: what is left of the list
where it ends.  Each `continue` in it goes on with the search. -/
def searchDropped (proto : ItemTemplate) (itemid : UInt32) : ℕ → List LootItem → List LootItem
  | _, [] => []
  | counter, it :: items =>
    if it.store.itemid = itemid then
      if proto.inventoryType = 0 ∧ counter + 1 = 3 then searchDropped proto itemid (counter + 1) items
      else if proto.inventoryType ≠ 0 ∧ counter + 1 = 1 then
        searchDropped proto itemid (counter + 1) items
      else searchDropped proto itemid (counter + 1) items
    else searchDropped proto itemid counter items

/-- A loop that runs a number of times. -/
def times (f : Fill → Option Fill) : ℕ → Fill → Option Fill
  | 0, s => some s
  | n + 1, s => f s >>= times f n

/-- How often a reference is rolled. -/
def LootStoreItem.multiplicity (i : LootStoreItem) : ℕ :=
  ⌊(i.maxcount : ℚ) * w.rateReferencedAmount⌋₊

/-- One turn of the loop of `LootTemplate::Process` over the entries, which are not grouped. -/
def processEntry (references : LootTemplateMap) (process : LootTemplate → ℕ → Fill → Option Fill)
    (rate : Bool) (lootMode : UInt16) (s : Fill) (i : LootStoreItem) : Option Fill :=
  if i.lootmode &&& ~~~lootMode ≠ 0 then some s
  else
    let (rolled, s) := i.roll w dice rate s
    if !rolled then some s
    else
      let dropped := (w.getItemTemplate i.itemid).elim []
        fun proto => searchDropped proto i.itemid 0 s.loot.items
      if dropped ≠ [] then some s
      else if i.mincountOrRef < 0 then
        match references.lookup i.reference with
        | none => some s
        | some referenced => times (process referenced i.group) (i.multiplicity w) s
      else some (s.addItem w dice false i)

def LootTemplate.process (references : LootTemplateMap) (rate : Bool) (lootMode : UInt16) :
    ℕ → LootTemplate → ℕ → Fill → Option Fill
  | 0, _, _, _ => none
  | fuel + 1, t, groupId, s =>
    if groupId ≠ 0 then
      match t.groups[groupId - 1]? with
      | none => some s
      | some g => some (g.process w dice lootMode s)
    else
      (t.entries.foldlM
          (processEntry w dice references (LootTemplate.process references rate lootMode fuel) rate
            lootMode) s).map
        fun s => t.groups.foldl (fun s g => g.process w dice lootMode s) s

end Roll

/-! ### Quest drops -/

/-- `LootGroup::HasQuestDrop` and `HasQuestDropForPlayer`, which differ in the entries that they
look for. -/
def LootGroup.hasDrop (wanted : LootStoreItem → Bool) (g : LootGroup) : Bool :=
  g.explicitlyChanced.any wanted || g.equalChanced.any wanted

/-- The loop over the entries: the search ends with the first that is found. -/
def anyEntry (wanted : LootStoreItem → Bool) (store : LootTemplateMap)
    (search : LootTemplate → ℕ → Option Bool) : List LootStoreItem → Option Bool
  | [] => some false
  | i :: rest =>
    if i.mincountOrRef < 0 then
      match store.lookup i.reference with
      | none => anyEntry wanted store search rest
      | some referenced =>
        search referenced i.group >>= fun found =>
          if found then some true else anyEntry wanted store search rest
    else if wanted i then some true
    else anyEntry wanted store search rest

/-- `LootTemplate::HasQuestDrop` and `HasQuestDropForPlayer`. -/
def LootTemplate.hasDrop (wanted : LootStoreItem → Bool) (store : LootTemplateMap) :
    ℕ → LootTemplate → ℕ → Option Bool
  | 0, _, _ => none
  | fuel + 1, t, groupId =>
    if groupId ≠ 0 then some (t.groups[groupId - 1]?.elim false fun g => g.hasDrop wanted)
    else
      (anyEntry wanted store (LootTemplate.hasDrop wanted store fuel) t.entries).map
        fun found => found || t.groups.any fun g => g.hasDrop wanted

def LootTemplate.hasQuestDrop (store : LootTemplateMap) : ℕ → LootTemplate → ℕ → Option Bool :=
  LootTemplate.hasDrop LootStoreItem.needsQuest store

/-- `LootTemplate::HasQuestDropForPlayer`, of a player with quests for some items. -/
def LootTemplate.hasQuestDropForPlayer (store : LootTemplateMap) (hasQuestForItem : UInt32 → Bool) :
    ℕ → LootTemplate → ℕ → Option Bool :=
  LootTemplate.hasDrop (fun i => hasQuestForItem i.itemid) store

end ZerosCore.Loots.Templates
