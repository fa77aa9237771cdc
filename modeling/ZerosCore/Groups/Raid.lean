/-
# Raids and their subgroups

`Group::LoadGroupFromDB`, `LoadMemberFromDB`, `ConvertToRaid`, `ConvertToGroup`,
`ConvertToLFG`, `ChangeMembersGroup` and `HasFreeSlotSubGroup` of
`src/server/game/Groups/Group.cpp`.

A raid has a counter for each of its eight subgroups, which repeats what the slots of the
members say; the operations change the one and the other.  A counter is an unsigned byte,
and a subgroup beyond the eighth has none: there the code would write past the array, and
here nothing is counted.
-/

import ZerosCore.Groups.Group

namespace ZerosCore.Groups

namespace Group

def initRaidSubGroupsCounter (g : Group) : Group :=
  { g with
    subGroupsCounts := some <| g.memberSlots.foldl
      (fun counts slot => counts.modify slot.group fun n => (n + 1) % 256)
      (List.replicate maxRaidSubgroups 0) }

/-- `Group::LoadGroupFromDB`; `known` says whether the leader exists, and `groupType` is the
mask of `GroupType`. -/
def loadGroupFromDB (leader : ℕ) (known : Bool) (groupType : ℕ) : Group :=
  let g : Group :=
    { kind := ⟨false, false, false, false⟩, memberSlots := [], memberMgr := [], subGroupsCounts := none
      leaderGuid := leader }
  if known then
    let g : Group :=
      { g with kind := ⟨groupType.testBit 3, false, false, groupType.testBit 1⟩ }
    if g.kind.isRaidGroup then g.initRaidSubGroupsCounter else g
  else g

/-- `Group::LoadMemberFromDB`; `known` says whether the member exists. -/
def loadMemberFromDB (g : Group) (known : Bool) (guid subgroup : ℕ) : Group :=
  if known then
    let g : Group := { g with memberSlots := g.memberSlots ++ [⟨guid, subgroup⟩] }
    (g.countSubGroup subgroup fun n => (n + 1) % 256).countSubGroup subgroup fun n =>
      (n + 1) % 256
  else g

def convertToLFG (g : Group) : Group := { g with kind := { g.kind with isLFGGroup := true } }

def convertToRaid (g : Group) : Group :=
  { g with kind := { g.kind with isRaidGroup := true } }.initRaidSubGroupsCounter

def convertToGroup (g : Group) : Group :=
  if g.getMembersCount > maxGroupSize then g
  else
    { g with
      kind := { g.kind with isLFGGroup := false, isRaidGroup := false }
      subGroupsCounts := none }

def hasFreeSlotSubGroup (g : Group) (subgroup : ℕ) : Bool :=
  match g.subGroupsCounts.bind fun counts => counts[subgroup]? with
  | none => false
  | some n => n < maxGroupSize

/-- The first slot of a player gets another subgroup. -/
def setSubGroup (guid group : ℕ) : List MemberSlot → List MemberSlot
  | [] => []
  | slot :: slots =>
    if slot.guid = guid then { slot with group := group } :: slots
    else slot :: setSubGroup guid group slots

def changeMembersGroup (g : Group) (guid group : ℕ) : Group :=
  if g.kind.isRaidGroup then
    match g.memberSlots.find? (fun slot => slot.guid = guid) with
    | none => g
    | some slot =>
      if slot.group = group then g
      else
        let t : Group := { g with memberSlots := setSubGroup guid group g.memberSlots }
        (t.countSubGroup group fun n => (n + 1) % 256).countSubGroup slot.group fun n =>
          (n + 255) % 256
  else g

end Group

/-- What can happen to a group, with the loading and the conversions. -/
inductive Command where
  | ask (r : Request)
  | loadGroup (leader : ℕ) (known : Bool) (groupType : ℕ)
  | loadMember (known : Bool) (guid subgroup : ℕ)
  | convertToLFG
  | convertToRaid
  | convertToGroup
  | changeMembersGroup (guid group : ℕ)

def perform (s : State) : Command → State
  | .ask r => step s r
  | .loadGroup leader known groupType =>
    match s.group with
    | some _ => s
    | none => { s with group := some (Group.loadGroupFromDB leader known groupType) }
  | .loadMember known guid subgroup =>
    { s with group := s.group.map fun g => g.loadMemberFromDB known guid subgroup }
  | .convertToLFG => { s with group := s.group.map Group.convertToLFG }
  | .convertToRaid => { s with group := s.group.map Group.convertToRaid }
  | .convertToGroup => { s with group := s.group.map Group.convertToGroup }
  | .changeMembersGroup guid group =>
    { s with group := s.group.map fun g => g.changeMembersGroup guid group }

end ZerosCore.Groups
