/-
# Alterac Valley

`BattlegroundAV` of `src/server/game/Battlegrounds/Zones/BattlegroundAV.cpp` and
`BattlegroundAV.h`, while the match is in progress: the nodes with their banners, the
mines and the reinforcements.

A node is a graveyard or a tower.  Its banner is one of several game objects, and the
number of the object says to whom the node belongs and whether it is contested:

| objects | banner |
| ---: | --- |
| 0 to 10 | of the alliance, at the graveyards and the alliance towers |
| 11 to 21 | contested by the alliance, at the graveyards and the horde towers |
| 22 to 32 | contested by the horde, at the graveyards and the alliance towers |
| 33 to 43 | of the horde, at the graveyards and the horde towers |
| 44 | neutral, at Snowfall |

The auras, fires, big flags and creatures that go with a banner, the buffs of the
captains, quests, honor and packets are left out; `notices` keeps what a change of the
reinforcements and the end of the match were.  A failed `ASSERT` ends the server.
-/

import ZerosCore.Battlegrounds.Battleground

namespace ZerosCore.Battlegrounds.AlteracValley

/-! ### Nodes and banners -/

/-- `BG_AV_Nodes`: graveyards up to 6, alliance towers up to 10, horde towers up to 14. -/
abbrev Node := Fin 15

/-- `BG_AV_NODES_SNOWFALL_GRAVE`. -/
def snowfallGrave : Node := 3

/-- `BG_AV_States`. -/
inductive PointState where
  | neutral
  | assaulted
  | destroyed
  | controled
deriving DecidableEq

/-- `BG_AV_NodeInfo`; `none` is `AV_NEUTRAL_TEAM`. -/
structure NodeInfo where
  state : PointState
  prevState : PointState
  timer : ℕ
  totalOwner : Option Team
  owner : Option Team
  prevOwner : Option Team
  tower : Bool

/-- `BG_AV_CAPTIME`. -/
def captime : ℕ := 240000

/-- `BG_AV_SNOWFALL_FIRSTCAP`. -/
def snowfallFirstcap : ℕ := 300000

/-- `BattlegroundAV::GetNodeThroughObject`; `none` for the assertion. -/
def getNodeThroughObject (object : ℕ) : Option Node :=
  if object ≤ 10 then some (Fin.ofNat 15 object)
  else if object ≤ 17 then some (Fin.ofNat 15 (object - 11))
  else if object ≤ 21 then some (Fin.ofNat 15 (object - 7))
  else if object ≤ 32 then some (Fin.ofNat 15 (object - 22))
  else if object ≤ 39 then some (Fin.ofNat 15 (object - 33))
  else if object ≤ 43 then some (Fin.ofNat 15 (object - 29))
  else if object = 44 then some snowfallGrave
  else none

/-- `BattlegroundAV::GetObjectThroughNode`, from the owner and the state of the node;
`none` for the assertion. -/
def getObjectThroughNode (node : Node) (owner : Option Team) (state : PointState) : Option ℕ :=
  match owner with
  | some .alliance =>
    match state with
    | .assaulted =>
      if node.val ≤ 6 then some (node + 11)
      else if 11 ≤ node.val then some (node + 7) else none
    | .controled => if node.val ≤ 10 then some node else none
    | _ => none
  | some .horde =>
    match state with
    | .assaulted => if node.val ≤ 10 then some (node + 22) else none
    | .controled =>
      if node.val ≤ 6 then some (node + 33)
      else if 11 ≤ node.val then some (node + 29) else none
    | _ => none
  | none => some 44

/-- `BattlegroundAV::GetWorldStateType`; `none` for the assertion and for the index that
is out of range. -/
def getWorldStateType (state : PointState) (team : Option Team) : Option ℕ :=
  match team, state with
  | some .alliance, .controled => some 0
  | some .alliance, .destroyed => some 0
  | some .alliance, .assaulted => some 1
  | some .horde, .controled => some 2
  | some .horde, .destroyed => some 2
  | some .horde, .assaulted => some 3
  | _, _ => none

/-- `BattlegroundAV::UpdateNodeWorldState` finds the world states of the node. -/
def NodeInfo.worldStates (i : NodeInfo) : Bool :=
  (getWorldStateType i.state i.owner).isSome &&
    (i.prevOwner.isNone || (getWorldStateType i.prevState i.prevOwner).isSome)

def initNode (team : Option Team) (tower : Bool) : NodeInfo :=
  ⟨.controled, .controled, 0, team, team, none, tower⟩

/-- `BattlegroundAV::AssaultNode`; `none` for the assertions. -/
def NodeInfo.assaultNode (i : NodeInfo) (team : Team) : Option NodeInfo :=
  if i.totalOwner = some team then none
  else if i.owner = some team then none
  else if i.state = .destroyed then none
  else if i.state = .assaulted ∧ i.totalOwner ≠ none then none
  else some
    { i with
      timer := if i.prevOwner ≠ none then captime else snowfallFirstcap
      prevOwner := i.owner
      owner := some team
      prevState := i.state
      state := .assaulted }

/-- `BattlegroundAV::DestroyNode`; `none` for the assertion. -/
def NodeInfo.destroyNode (i : NodeInfo) : Option NodeInfo :=
  if i.state ≠ .assaulted then none
  else some
    { i with
      totalOwner := i.owner
      prevOwner := i.owner
      prevState := i.state
      state := if i.tower then .destroyed else .controled
      timer := 0 }

/-- `BattlegroundAV::DefendNode`; `none` for the assertions. -/
def NodeInfo.defendNode (i : NodeInfo) (team : Team) : Option NodeInfo :=
  if i.totalOwner ≠ some team then none
  else if i.owner = some team then none
  else if i.state = .controled ∨ i.state = .destroyed then none
  else some
    { i with
      prevOwner := i.owner
      owner := some team
      prevState := i.state
      state := .controled
      timer := 0 }

/-! ### The battleground -/

/-- `m_Team_Scores`. -/
structure Scores where
  alliance : ℤ
  horde : ℤ
deriving DecidableEq

def Scores.of (s : Scores) : Team → ℤ
  | .alliance => s.alliance
  | .horde => s.horde

def Scores.set (s : Scores) (team : Team) (n : ℤ) : Scores :=
  match team with
  | .alliance => { s with alliance := n }
  | .horde => { s with horde := n }

/-- What was made known: `UpdateScore` was called for a team and some points and took the
scores from `before` to `after`, or the match ended with these scores, perhaps with the
death of the general of a team. -/
inductive Notice where
  | score (team : Team) (points : ℤ) (before after : Scores)
  | ended (winner : Team) (scores : Scores) (general : Option Team)

inductive Mine where
  | north
  | south
deriving DecidableEq

/-- `AV_MINE_TICK_TIMER`. -/
def mineTickTimer : ℤ := 45000

/-- `AV_MINE_RECLAIM_TIMER`. -/
def mineReclaimTime : ℕ := 1200000

def sendMsgNearLose : ℤ := 120

/-- `BG_AV_RES_TOWER`. -/
def resTower : ℤ := 75

/-- `BG_AV_RES_CAPTAIN`. -/
def resCaptain : ℤ := 100

/-- A match in Alterac Valley; `spawned` says which of the banners are spawned, and
`failed` that an assertion failed. -/
structure State where
  status : Status
  nodes : Node → NodeInfo
  spawned : ℕ → Bool
  teamScores : Scores
  isInformedNearVictory : Team → Bool
  captainAlive : Team → Bool
  mineOwner : Mine → Option Team
  minePrevOwner : Mine → Option Team
  mineTimer : ℤ
  mineReclaimTimer : Mine → ℕ
  notices : List Notice
  failed : Bool

/-- The node as `ResetBGSubclass` leaves it. -/
def firstNode (node : Node) : NodeInfo :=
  if node.val ≤ 2 then initNode (some .alliance) false
  else if node.val = 3 then initNode none false
  else if node.val ≤ 6 then initNode (some .horde) false
  else if node.val ≤ 10 then initNode (some .alliance) true
  else initNode (some .horde) true

/-- The match begins: `ResetBGSubclass`, and the banners that `SetupBattleground` spawns. -/
def start : State where
  status := .inProgress
  nodes := firstNode
  spawned := fun object => decide (object ≤ 2 ∨ 7 ≤ object ∧ object ≤ 10 ∨
    37 ≤ object ∧ object ≤ 43 ∨ object = 44)
  teamScores := ⟨600, 600⟩
  isInformedNearVictory := fun _ => false
  captainAlive := fun _ => true
  mineOwner := fun _ => none
  minePrevOwner := fun _ => none
  mineTimer := mineTickTimer
  mineReclaimTimer := fun _ => 0
  notices := []
  failed := false

namespace State

def fail (s : State) : State := { s with failed := true }

/-- `SpawnBGObject` of a banner. -/
def spawnBGObject (s : State) (object : ℕ) (on : Bool) : State :=
  { s with spawned := fun o => if o = object then on else s.spawned o }

def setNode (s : State) (node : Node) (i : NodeInfo) : State :=
  { s with nodes := fun n => if n = node then i else s.nodes n }

def updateNodeWorldState (s : State) (node : Node) : State :=
  if (s.nodes node).worldStates then s else s.fail

def endBattleground (s : State) (winner : Team) (general : Option Team) : State :=
  { s with
    status := .waitLeave
    notices := s.notices ++ [.ended winner s.teamScores general] }

def updateScore (s : State) (team : Team) (points : ℤ) : State :=
  let teamindex := team.other
  let score := s.teamScores.of teamindex + points
  if points < 0 ∧ score < 1 then
    let after := s.teamScores.set teamindex 0
    let s : State :=
      { s with
        teamScores := after
        notices := s.notices ++ [.score team points s.teamScores after] }
    s.endBattleground teamindex.other none
  else
    let after := s.teamScores.set teamindex score
    { s with
      teamScores := after
      isInformedNearVictory := fun t =>
        s.isInformedNearVictory t || decide (t = teamindex ∧ points < 0 ∧ score < sendMsgNearLose)
      notices := s.notices ++ [.score team points s.teamScores after] }

/-- `BattlegroundAV::EventPlayerDestroyedPoint`: the time of the defenders is up. -/
def eventPlayerDestroyedPoint (s : State) (node : Node) : State :=
  let i := s.nodes node
  match getObjectThroughNode node i.owner i.state with
  | none => s.fail
  | some object =>
    let s := s.spawnBGObject object false
    match i.destroyNode with
    | none => s.fail
    | some i' =>
      let s := (s.setNode node i').updateNodeWorldState node
      if i'.tower then
        s.updateScore (if i'.owner = some .alliance then .horde else .alliance) (-1 * resTower)
      else if i'.owner = some .alliance then s.spawnBGObject (object - 11) true
      else if i'.owner = none then s.fail
      else s.spawnBGObject (object + 11) true

def eventPlayerAssaultsPoint (s : State) (team : Team) (object : ℕ) : State :=
  match getNodeThroughObject object with
  | none => s.fail
  | some node =>
    let i := s.nodes node
    if i.owner = some team ∨ i.totalOwner = some team then s
    else if node = snowfallGrave ∧ object = 44 ∧ ¬(i.owner = none ∧ i.totalOwner = none) then s
    else if node = snowfallGrave ∧ object ≠ 44 ∧ i.totalOwner = none ∧ i.state = .controled then s
    else if i.totalOwner ≠ none ∧ i.owner = none then s.fail
    else
      let s :=
        if node = snowfallGrave ∧ object = 44 then
          s.spawnBGObject (if team = .alliance then 14 else 25) true
        else if node = snowfallGrave ∧ i.totalOwner = none then
          s.spawnBGObject (if team = .alliance then object - 11 else object + 11) true
        else s
      let s :=
        if i.totalOwner ≠ none then
          s.spawnBGObject (if team = .alliance then object - 22 else object + 22) true
        else s
      let s := s.spawnBGObject object false
      match i.assaultNode team with
      | none => s.fail
      | some i' => (s.setNode node i').updateNodeWorldState node

def eventPlayerDefendsPoint (s : State) (team : Team) (object : ℕ) : State :=
  match getNodeThroughObject object with
  | none => s.fail
  | some node =>
    let i := s.nodes node
    if i.owner = some team ∨ i.state ≠ .assaulted then s
    else if i.totalOwner = none then
      if node = snowfallGrave then s.eventPlayerAssaultsPoint team object else s.fail
    else if i.prevOwner ≠ some team then s
    else
      let s := s.spawnBGObject
        (if i.owner = some .alliance then object + 22 else object - 22) true
      let s := s.spawnBGObject object false
      match i.defendNode team with
      | none => s.fail
      | some i' => (s.setNode node i').updateNodeWorldState node

/-- `BattlegroundAV::EventPlayerClickedOnFlag`: the entry of the banner says whether it is
contested. -/
def eventPlayerClickedOnFlag (s : State) (team : Team) (object : ℕ) : State :=
  if 11 ≤ object ∧ object ≤ 32 then s.eventPlayerDefendsPoint team object
  else s.eventPlayerAssaultsPoint team object

/-- `BattlegroundAV::ChangeMineOwner`, after the match has begun. -/
def changeMineOwner (s : State) (mine : Mine) (team : Option Team) : State :=
  if s.mineOwner mine = team then s
  else
    { s with
      minePrevOwner := fun m => if m = mine then s.mineOwner mine else s.minePrevOwner m
      mineOwner := fun m => if m = mine then team else s.mineOwner m
      mineReclaimTimer := fun m =>
        if m = mine ∧ team ≠ none then mineReclaimTime else s.mineReclaimTimer m }

/-- The owner of a mine gets a point when the timer is up. -/
def mineTick (s : State) (team : Team) : State :=
  if s.mineTimer ≤ 0 then s.updateScore team 1 else s

/-- The mine goes back to its neutral owners when its time is up. -/
def mineReclaim (s : State) (diff : ℕ) (mine : Mine) : State :=
  if s.mineReclaimTimer mine > diff then
    { s with mineReclaimTimer := fun m =>
        if m = mine then s.mineReclaimTimer mine - diff else s.mineReclaimTimer m }
  else s.changeMineOwner mine none

/-- A mine in `PostUpdateImpl`. -/
def mineUpdate (diff : ℕ) (s : State) (mine : Mine) : State :=
  match s.mineOwner mine with
  | none => s
  | some team => (s.mineTick team).mineReclaim diff mine

/-- A node in `PostUpdateImpl`. -/
def nodeUpdate (diff : ℕ) (s : State) (node : Node) : State :=
  let i := s.nodes node
  if i.state = .assaulted then
    if i.timer > diff then s.setNode node { i with timer := i.timer - diff }
    else s.eventPlayerDestroyedPoint node
  else s

/-- `m_Mine_Timer -= diff` on a signed 32-bit number. -/
def nextMineTimer (s : State) (diff : ℕ) : ℤ := (s.mineTimer - diff).bmod (2 ^ 32)

/-- The mines in `PostUpdateImpl`. -/
def minesUpdate (s : State) (diff : ℕ) : State :=
  let s := [Mine.north, Mine.south].foldl (mineUpdate diff)
    { s with mineTimer := s.nextMineTimer diff }
  if s.mineTimer ≤ 0 then { s with mineTimer := mineTickTimer } else s

def postUpdateImpl (s : State) (diff : ℕ) : State :=
  (List.finRange 15).foldl (nodeUpdate diff) (s.minesUpdate diff)

/-- `BattlegroundAV::HandleKillUnit` for the captain of a team. -/
def killCaptain (s : State) (team : Team) : State :=
  if s.captainAlive team then
    { s with captainAlive := fun t => if t = team then false else s.captainAlive t }.updateScore
      team (-1 * resCaptain)
  else s

end State

inductive Request where
  /-- A player of a team clicks on a banner. -/
  | click (team : Team) (object : ℕ)
  | postUpdate (diff : ℕ)
  /-- A player of a team dies. -/
  | killPlayer (team : Team)
  /-- The general of a team dies. -/
  | killGeneral (team : Team)
  /-- The captain of a team dies. -/
  | killCaptain (team : Team)
  /-- The boss of a mine is killed by a player of a team. -/
  | killMineBoss (mine : Mine) (killer : Team)

/-- Serves a request of a match that is in progress; a banner must be spawned to be
clicked on. -/
def serve (s : State) : Request → State
  | .click team object =>
    if object ≤ 44 ∧ s.spawned object then s.eventPlayerClickedOnFlag team object else s
  | .postUpdate diff => s.postUpdateImpl diff
  | .killPlayer team => s.updateScore team (-1)
  | .killGeneral team => s.endBattleground team.other (some team)
  | .killCaptain team => s.killCaptain team
  | .killMineBoss mine killer => s.changeMineOwner mine (some killer)

/-- Every handler looks at the status first. -/
def step (s : State) (r : Request) : State :=
  if s.failed = true ∨ s.status ≠ .inProgress then s else serve s r

end ZerosCore.Battlegrounds.AlteracValley
