/-
# A group and its members

`Group::Create`, `AddMember`, `RemoveMember`, `ChangeLeader` and `Disband` of
`src/server/game/Groups/Group.cpp`.

A group knows its members twice.  `m_memberSlots` has a slot for everyone, online or not;
`m_memberMgr` links the player objects, so it has those who are online.  A third notion
decides who can lead: `ObjectAccessor::FindPlayer` finds a player who is in the world,
which one who is being teleported is not, although his object is linked.

Instance binds, loot rolls, difficulties, enchanters, packets and the database are left out.
-/

import Mathlib.Data.List.Nodup

namespace ZerosCore.Groups

def maxGroupSize : ℕ := 5

def maxRaidSubgroups : ℕ := 8

inductive RemoveMethod where
  | default
  | kick
  | leave
  | kickLfg
deriving DecidableEq

structure MemberSlot where
  guid : ℕ
  group : ℕ
deriving DecidableEq

/-- What a group is made for; a group of a battleground or a battlefield is a raid. -/
structure GroupKind where
  isLFGGroup : Bool
  isBGGroup : Bool
  isBFGroup : Bool
  isRaidGroup : Bool
deriving DecidableEq

/-- A group; `memberMgr` are the guids of the players whose objects are linked to it, and
`subGroupsCounts` are the counters of a raid, which other groups do not have. -/
structure Group where
  kind : GroupKind
  memberSlots : List MemberSlot
  memberMgr : List ℕ
  subGroupsCounts : Option (List ℕ)
  leaderGuid : ℕ
deriving DecidableEq

/-- The players around the group: who is found in the world, who is alive, where everyone
is, and the map of the dungeon that the group finder has for the group (`0` if none). -/
structure World where
  findPlayer : ℕ → Bool
  isAlive : ℕ → Bool
  mapId : ℕ → ℕ
  dungeonMapId : ℕ

namespace Group

def members (g : Group) : List ℕ := g.memberSlots.map MemberSlot.guid

def getMembersCount (g : Group) : ℕ := g.memberSlots.length

/-- `isBGGroup() || isBFGroup()`. -/
def ofBattle (g : Group) : Bool := g.kind.isBGGroup || g.kind.isBFGroup

/-- The object of a player is linked to the group. -/
def link (g : Group) (guid : ℕ) : Group :=
  { g with memberMgr := guid :: g.memberMgr.filter (· ≠ guid) }

/-- The object of a player is unlinked from the group. -/
def unlink (g : Group) (guid : ℕ) : Group := { g with memberMgr := g.memberMgr.filter (· ≠ guid) }

/-- The first subgroup with room; other groups than raids have one subgroup. -/
def freeSubGroup (g : Group) : Option ℕ :=
  match g.subGroupsCounts with
  | none => some 0
  | some counts => counts.findIdx? (· < maxGroupSize)

/-- `SubGroupCounterIncrease` and `SubGroupCounterDecrease` on an unsigned byte. -/
def countSubGroup (g : Group) (subGroup : ℕ) (f : ℕ → ℕ) : Group :=
  { g with subGroupsCounts := g.subGroupsCounts.map fun counts => counts.modify subGroup f }

def addMember (g : Group) (player : ℕ) : Bool × Group :=
  match g.freeSubGroup with
  | none => (false, g)
  | some subGroup =>
    let g : Group := { g with memberSlots := g.memberSlots ++ [⟨player, subGroup⟩] }
    (true, (g.countSubGroup subGroup fun n => (n + 1) % 256).link player)

/-- A group that nobody has joined yet; `GROUPTYPE_BGRAID` is a raid. -/
def newGroup (kind : GroupKind) (leader : ℕ) : Group where
  kind := { kind with isRaidGroup := kind.isRaidGroup || kind.isBGGroup || kind.isBFGroup }
  memberSlots := []
  memberMgr := []
  subGroupsCounts :=
    if kind.isRaidGroup || kind.isBGGroup || kind.isBFGroup then
      some (List.replicate maxRaidSubgroups 0) else none
  leaderGuid := leader

/-- `Group::Create`: its answer, and the group. -/
def create (kind : GroupKind) (leader : ℕ) : Bool × Group := (newGroup kind leader).addMember leader

def changeLeader (g : Group) (w : World) (guid : ℕ) : Group :=
  match g.memberSlots.find? (fun slot => slot.guid = guid) with
  | none => g
  | some slot => if w.findPlayer slot.guid then { g with leaderGuid := slot.guid } else g

/-- The member is taken out: his object is unlinked, and his slot is gone.  The object of
a player who is not in the world stays linked to a group of a battle. -/
def takeOut (g : Group) (w : World) (guid : ℕ) : Group :=
  let g := if w.findPlayer guid || !g.ofBattle then g.unlink guid else g
  match g.memberSlots.find? (fun slot => slot.guid = guid) with
  | none => g
  | some slot =>
    { g.countSubGroup slot.group (fun n => (n + 255) % 256) with
      memberSlots := g.memberSlots.eraseP fun slot => slot.guid = guid }

/-- The first member in the world takes over from a leader who is gone. -/
def pickLeader (g : Group) (w : World) (guid : ℕ) : Group :=
  if g.leaderGuid = guid then
    match g.memberSlots.find? (fun slot => w.findPlayer slot.guid) with
    | none => g
    | some slot => g.changeLeader w slot.guid
  else g

/-- A group of the group finder that is down to a leader who is not in its dungeon. -/
def lfgOver (g : Group) (w : World) : Bool :=
  g.kind.isLFGGroup && g.getMembersCount == 1 &&
    (w.dungeonMapId == 0 || !w.findPlayer g.leaderGuid ||
      w.isAlive g.leaderGuid && w.mapId g.leaderGuid != w.dungeonMapId)

/-- The number of members below which nobody is taken out any more. -/
def leastMembers (g : Group) : ℕ := if g.ofBattle then 1 else 2

/-- The number of linked players below which the group is disbanded. -/
def leastLinked (g : Group) : ℕ := if g.kind.isLFGGroup || g.kind.isBGGroup then 1 else 2

/-- `Group::RemoveMember`: its answer, and the group, if it was not disbanded. -/
def removeMember (g : Group) (w : World) (guid : ℕ) (method : RemoveMethod) :
    Bool × Option Group :=
  if g.kind.isLFGGroup ∧ method = .kick then (decide (g.getMembersCount ≠ 0), some g)
  else if g.getMembersCount > g.leastMembers then
    let g := (g.takeOut w guid).pickLeader w guid
    if g.lfgOver w then (false, none)
    else if g.memberMgr.length < g.leastLinked then (true, none)
    else (true, some g)
  else (false, none)

end Group

/-- The group, as long as it exists, and the players around it. -/
structure State where
  group : Option Group
  world : World

inductive Request where
  | create (kind : GroupKind) (leader : ℕ)
  | addMember (player : ℕ)
  | removeMember (guid : ℕ) (method : RemoveMethod)
  | changeLeader (guid : ℕ)
  /-- A player logs in: if he is a member, his object is linked to the group. -/
  | logIn (guid : ℕ)
  /-- A player logs out: his object is gone, and with it the link. -/
  | logOut (guid : ℕ)
  /-- Players come into the world and leave it, die and travel. -/
  | surroundings (w : World)

/-- Serves a request.  There is one group at a time; without it there is nothing to ask. -/
def step (s : State) : Request → State
  | .create kind leader =>
    match s.group with
    | some _ => s
    | none =>
      let r := Group.create kind leader
      { s with group := if r.1 then some r.2 else none }
  | .addMember player => { s with group := s.group.map fun g => (g.addMember player).2 }
  | .removeMember guid method =>
    { s with group := s.group.bind fun g => (g.removeMember s.world guid method).2 }
  | .changeLeader guid => { s with group := s.group.map fun g => g.changeLeader s.world guid }
  | .logIn guid =>
    { group := s.group.map fun g => if guid ∈ g.members then g.link guid else g
      world := { s.world with findPlayer := fun p => p == guid || s.world.findPlayer p } }
  | .logOut guid =>
    { group := s.group.map fun g => g.unlink guid
      world := { s.world with findPlayer := fun p => p != guid && s.world.findPlayer p } }
  | .surroundings w => { s with world := w }

end ZerosCore.Groups
