/-
# Rolls for the loot of a group

`Group::GroupLoot`, `NeedBeforeGreed`, `CountRollVote`, `EndRoll`, `CountTheRoll` and what
`RemoveMember` does to the rolls, of `src/server/game/Groups/Group.cpp` and `Group.h`.

A roll has the votes of the players in a map and their tallies beside it, on unsigned bytes.
The two ways to start rolls differ in packets and masks only.  A loot is numbered anew each
time it is filled; `SendLoot` starts its rolls once.  Packets, masks, timers, achievements
and the bags of the winners are left out: whether somebody can store an item is asked of
the world, and so is what the dice say.
-/

import Mathlib.Data.List.Nodup

namespace ZerosCore.Groups.LootRolls

def maxRaidSize : ℕ := 40

inductive RollVote where
  | pass
  | need
  | greed
  | disenchant
  | notEmitedYet
  | notValid
deriving DecidableEq

/-- An item of a loot; `quality` is that of its template, and `allowed` is
`AllowedForPlayer`. -/
structure LootItem where
  itemid : ℕ
  quality : ℕ
  freeforall : Bool
  followLootRules : Bool
  allowed : ℕ → Bool
  isBlocked : Bool
  isLooted : Bool

/-- A loot, and whether its rolls have been started. -/
structure Loot where
  items : List LootItem
  questItems : List LootItem
  rolled : Bool

/-- A roll; `loot` is the link to the loot, which is cut when the loot is cleared. -/
structure Roll where
  itemGUID : ℕ
  itemid : ℕ
  loot : Option ℕ
  itemSlot : ℕ
  playerVote : List (ℕ × RollVote)
  totalPlayersRolling : ℕ
  totalNeed : ℕ
  totalGreed : ℕ
  totalPass : ℕ
deriving DecidableEq

/-- A member whose object is linked to the group, and whether he has a session, is near the
looted object and passes on group loot. -/
structure RollMember where
  guid : ℕ
  session : Bool
  near : Bool
  passOnGroupLoot : Bool

/-- The linked members of a group: each is linked once, and there are no more than a raid
has. -/
structure Party where
  members : List RollMember
  nodup : (members.map RollMember.guid).Nodup
  few : members.length ≤ maxRaidSize

/-- Who is found with a session, what they can store, and what the dice say. -/
structure World where
  session : ℕ → Bool
  canStore : ℕ → ℕ → Bool
  urand : ℕ → ℕ

/-- A roll that was counted: the roll as it was then, who is told to have won, and who got
the item. -/
structure Counted where
  roll : Roll
  won : Option ℕ
  awarded : Option ℕ
deriving DecidableEq

/-- The rolls of a group, the loots, and the rolls that were counted. -/
structure State where
  lootThreshold : ℕ
  nextGUID : ℕ
  loots : List Loot
  rolls : List Roll
  counted : List Counted

namespace Roll

def vote (roll : Roll) (guid : ℕ) : Option RollVote :=
  (roll.playerVote.find? fun e => e.1 = guid).map Prod.snd

def insertVote (guid : ℕ) (vote : RollVote) : List (ℕ × RollVote) → List (ℕ × RollVote)
  | [] => [(guid, vote)]
  | e :: votes =>
    if guid < e.1 then (guid, vote) :: e :: votes
    else if guid = e.1 then (guid, vote) :: votes
    else e :: insertVote guid vote votes

/-- `itr->second = vote`. -/
def setVote (guid : ℕ) (vote : RollVote) : List (ℕ × RollVote) → List (ℕ × RollVote)
  | [] => []
  | e :: votes => if e.1 = guid then (guid, vote) :: votes else e :: setVote guid vote votes

/-- A member takes part in the roll: he passes, or will be asked. -/
def enter (roll : Roll) (member : RollMember) (pass : Bool) : Roll :=
  { roll with
    totalPlayersRolling := (roll.totalPlayersRolling + 1) % 256
    totalPass := if pass then (roll.totalPass + 1) % 256 else roll.totalPass
    playerVote := insertVote member.guid (if pass then .pass else .notEmitedYet)
      roll.playerVote }

/-- The vote of a player who leaves the group is taken back. -/
def drop (roll : Roll) (guid : ℕ) : Roll :=
  match roll.vote guid with
  | none => roll
  | some v =>
    { roll with
      totalGreed := if v = .greed ∨ v = .disenchant then (roll.totalGreed + 255) % 256
        else roll.totalGreed
      totalNeed := if v = .need then (roll.totalNeed + 255) % 256 else roll.totalNeed
      totalPass := if v = .pass then (roll.totalPass + 255) % 256 else roll.totalPass
      totalPlayersRolling := if v ≠ .notValid then (roll.totalPlayersRolling + 255) % 256
        else roll.totalPlayersRolling
      playerVote := roll.playerVote.eraseP fun e => e.1 = guid }

/-- What `CountRollVote` makes of a choice of a player who takes part; other choices change
nothing. -/
def choose (roll : Roll) (guid choice : ℕ) : Roll :=
  match choice with
  | 0 =>
    { roll with
      totalPass := (roll.totalPass + 1) % 256
      playerVote := setVote guid .pass roll.playerVote }
  | 1 =>
    { roll with
      totalNeed := (roll.totalNeed + 1) % 256
      playerVote := setVote guid .need roll.playerVote }
  | 2 =>
    { roll with
      totalGreed := (roll.totalGreed + 1) % 256
      playerVote := setVote guid .greed roll.playerVote }
  | 3 =>
    { roll with
      totalGreed := (roll.totalGreed + 1) % 256
      playerVote := setVote guid .disenchant roll.playerVote }
  | _ => roll

/-- One vote in the loop of `CountTheRoll`, after the best player so far, his result and his
vote. -/
def throwDice (w : World) (counts : RollVote → Bool) (b : ℕ × ℕ × RollVote) (e : ℕ × RollVote) :
    ℕ × ℕ × RollVote :=
  if counts e.2 then
    let randomN := w.urand e.1 % 100 + 1
    if b.2.1 < randomN then (e.1, randomN, e.2) else b
  else b

/-- The loop of `CountTheRoll`, which starts with the first player, who has thrown nothing. -/
def best (w : World) (counts : RollVote → Bool) (first : ℕ) (votes : List (ℕ × RollVote)) :
    ℕ × ℕ × RollVote :=
  votes.foldl (throwDice w counts) (first, 0, .notValid)

end Roll

def RollVote.isGreed (v : RollVote) : Bool := v = .greed || v = .disenchant

namespace Loot

/-- An item of the loot by its slot; the quest items come after the others. -/
def modify (loot : Loot) (slot : ℕ) (f : LootItem → LootItem) : Loot :=
  if slot ≥ loot.items.length then
    { loot with questItems := loot.questItems.modify (slot - loot.items.length) f }
  else { loot with items := loot.items.modify slot f }

end Loot

namespace State

def getLoot (s : State) (roll : Roll) : Option Loot := roll.loot.bind fun id => s.loots[id]?

/-- `Group::GetRoll`: the first roll for the item whose loot is still there. -/
def getRoll (s : State) (itemGUID : ℕ) : Option Roll :=
  s.rolls.find? fun roll => roll.itemGUID = itemGUID && roll.loot.isSome

def setRoll (s : State) (roll : Roll) : State :=
  { s with rolls := s.rolls.map fun r => if r.itemGUID = roll.itemGUID then roll else r }

def modifyItem (s : State) (roll : Roll) (f : LootItem → LootItem) : State :=
  match roll.loot with
  | none => s
  | some id => { s with loots := s.loots.modify id fun loot => loot.modify roll.itemSlot f }

/-- The item is given to a player, or can be looted by everybody. -/
def award (s : State) (roll : Roll) (won : Option ℕ) (given : Bool) : State :=
  let s := s.modifyItem roll fun item =>
    if given then { item with isLooted := true } else { item with isBlocked := false }
  { s with counted := s.counted ++ [⟨roll, won, if given then won else none⟩] }

/-- The roll is over without a word about the item. -/
def close (s : State) (roll : Roll) (won : Option ℕ) : State :=
  { s with counted := s.counted ++ [⟨roll, won, none⟩] }

def countNeed (s : State) (w : World) (roll : Roll) : State :=
  match roll.playerVote with
  | [] => s.close roll none
  | first :: _ =>
    let b := Roll.best w (· = .need) first.1 roll.playerVote
    if w.session b.1 then s.award roll (some b.1) (w.canStore b.1 roll.itemid)
    else s.close roll (some b.1)

def countGreed (s : State) (w : World) (roll : Roll) : State :=
  match roll.playerVote with
  | [] => s.close roll none
  | first :: _ =>
    let b := Roll.best w RollVote.isGreed first.1 roll.playerVote
    if w.session b.1 then
      match b.2.2 with
      | .greed => s.award roll (some b.1) (w.canStore b.1 roll.itemid)
      | .disenchant => s.award roll (some b.1) true
      | _ => s.close roll (some b.1)
    else s.close roll (some b.1)

def countTheRoll (s : State) (w : World) (roll : Roll) : State :=
  let s : State := { s with rolls := s.rolls.filter fun r => r.itemGUID ≠ roll.itemGUID }
  if roll.loot = none then s
  else if roll.totalNeed > 0 then s.countNeed w roll
  else if roll.totalGreed > 0 then s.countGreed w roll
  else s.award roll none false

def countRollVote (s : State) (w : World) (player itemGUID choice : ℕ) : State :=
  match s.getRoll itemGUID with
  | none => s
  | some roll =>
    if roll.vote player = none then s
    else if ∃ loot ∈ s.getLoot roll, loot.items = [] then s
    else
      let roll := roll.choose player choice
      let s := s.setRoll roll
      if roll.totalPass + roll.totalNeed + roll.totalGreed ≥ roll.totalPlayersRolling then
        s.countTheRoll w roll
      else s

def endRoll (s : State) (w : World) (loot : ℕ) : State :=
  (s.rolls.filter fun roll => roll.loot = some loot).foldl (fun s roll => s.countTheRoll w roll) s

/-- The rolls in `Group::RemoveMember`; `CountRollVote` is called with `MAX_ROLL_TYPE`. -/
def removeMember (s : State) (w : World) (guid : ℕ) : State :=
  s.rolls.foldl
    (fun s roll =>
      if roll.vote guid = none then s
      else (s.setRoll (roll.drop guid)).countRollVote w guid roll.itemGUID 4)
    s

/-- A roll is started for an item if anybody takes part. -/
def startRoll (s : State) (party : Party) (loot slot : ℕ) (item : LootItem) (mayPass : Bool) :
    State :=
  let roll : Roll :=
    { itemGUID := s.nextGUID, itemid := item.itemid, loot := some loot, itemSlot := slot
      playerVote := []
      totalPlayersRolling := 0
      totalNeed := 0
      totalGreed := 0
      totalPass := 0 }
  let roll := (party.members.filter fun m => m.session && item.allowed m.guid && m.near).foldl
    (fun roll m => roll.enter m (mayPass && m.passOnGroupLoot)) roll
  let s : State := { s with nextGUID := s.nextGUID + 1 }
  if roll.totalPlayersRolling > 0 then
    { s.modifyItem roll fun item => { item with isBlocked := true } with
      rolls := s.rolls ++ [roll] }
  else s

/-- An item of the loot in `Group::GroupLoot` and `Group::NeedBeforeGreed`. -/
def lootItem (party : Party) (loot : ℕ) (s : State) (e : LootItem × ℕ) : State :=
  if e.1.freeforall then s
  else if e.1.quality ≥ s.lootThreshold then s.startRoll party loot e.2 e.1 true
  else s

/-- A quest item of the loot, for which nobody passes. -/
def lootQuestItem (party : Party) (loot : ℕ) (s : State) (e : LootItem × ℕ) : State :=
  if e.1.followLootRules then s.startRoll party loot e.2 e.1 false else s

/-- `Group::GroupLoot` and `Group::NeedBeforeGreed`. -/
def groupLoot (s : State) (party : Party) (id : ℕ) : State :=
  match s.loots[id]? with
  | none => s
  | some loot =>
    if loot.rolled then s
    else
      let s : State := { s with loots := s.loots.modify id fun loot => { loot with rolled := true } }
      let s := (loot.items.zipIdx 0).foldl (lootItem party id) s
      (loot.questItems.zipIdx loot.items.length).foldl (lootQuestItem party id) s

def fill (s : State) (items questItems : List LootItem) : State :=
  { s with loots := s.loots ++ [⟨items, questItems, false⟩] }

/-- `Loot::clear`: the items are gone, and the links of the rolls are cut. -/
def clear (s : State) (id : ℕ) : State :=
  { s with
    loots := s.loots.modify id fun loot => ⟨[], [], loot.rolled⟩
    rolls := s.rolls.map fun roll => if roll.loot = some id then { roll with loot := none } else roll }

end State

inductive Request where
  | fill (items questItems : List LootItem)
  | groupLoot (party : Party) (loot : ℕ)
  | vote (w : World) (player itemGUID choice : ℕ)
  | removeMember (w : World) (guid : ℕ)
  | endRoll (w : World) (loot : ℕ)
  | clear (loot : ℕ)

def step (s : State) : Request → State
  | .fill items questItems => s.fill items questItems
  | .groupLoot party loot => s.groupLoot party loot
  | .vote w player itemGUID choice => s.countRollVote w player itemGUID choice
  | .removeMember w guid => s.removeMember w guid
  | .endRoll w loot => s.endRoll w loot
  | .clear loot => s.clear loot

/-- A group without rolls. -/
def start (lootThreshold : ℕ) : State := ⟨lootThreshold, 0, [], [], []⟩

end ZerosCore.Groups.LootRolls
