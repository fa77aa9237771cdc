/-
# Arathi Basin

`BattlegroundAB` of `src/server/game/Battlegrounds/Zones/BattlegroundAB.cpp` and
`BattlegroundAB.h`: the five nodes with their capture timers and banners, and the points
the teams get for them.

The status of a node is a number:

| `m_Nodes` | status |
| ---: | --- |
| 0 | neutral |
| 1, 2 | contested by the alliance, by the horde |
| 3, 4 | occupied by the alliance, by the horde |

A node has eight game objects, from `node * 8` on: a banner for each status, under the
number of the status, the auras 5 and 6 of the two occupied statuses, and the aura 7 that
both contested statuses share.

`notices` keeps the indices used on `m_Nodes` and what the match makes of the nodes: the
spells cast on a team, with the nodes the team occupies at that moment, the rewards of a
score tick and the end.  Spirit guides, resurrections, buffs, player scores, achievements
of single players and packets are left out.
-/

import ZerosCore.Battlegrounds.Battleground

namespace ZerosCore.Battlegrounds

/-- `GetTeamIndexByTeamId`: `TEAM_ALLIANCE` and `TEAM_HORDE`. -/
def Team.index : Team → ℕ
  | .alliance => 0
  | .horde => 1

/-- `ALLIANCE` and `HORDE` of `Team`. -/
def Team.id : Team → ℕ
  | .alliance => 469
  | .horde => 67

namespace ArathiBasin

/-! ### Constants -/

/-- `BG_AB_DYNAMIC_NODES_COUNT`. -/
def dynamicNodesCount : ℕ := 5

/-- `BG_AB_SPIRIT_ALIANCE`. -/
def spiritAlliance : ℕ := 5

/-- `BG_AB_SPIRIT_HORDE`. -/
def spiritHorde : ℕ := 6

/-- `BG_AB_NODE_TYPE_NEUTRAL`. -/
def typeNeutral : ℕ := 0

/-- `BG_AB_NODE_TYPE_CONTESTED`. -/
def typeContested : ℕ := 1

/-- `BG_AB_NODE_TYPE_OCCUPIED`. -/
def typeOccupied : ℕ := 3

/-- `BG_AB_FLAG_CAPTURING_TIME`. -/
def flagCapturingTime : ℕ := 60000

/-- `BG_AB_MAX_TEAM_SCORE`. -/
def maxTeamScore : ℕ := 1600

/-- `BG_AB_WARNING_NEAR_VICTORY_SCORE`. -/
def warningNearVictoryScore : ℕ := 1400

/-- `BG_AB_TickIntervals`. -/
def tickIntervals (points : ℕ) : ℕ := [0, 12000, 9000, 6000, 3000, 1000].getD points 0

/-- `BG_AB_TickPoints`. -/
def tickPoints (points : ℕ) : ℕ := [0, 10, 10, 10, 10, 30].getD points 0

/-! ### The battleground -/

/-- `BG_AB_BannerTimer`. -/
structure BannerTimer where
  timer : ℕ
  type : ℕ
  teamIndex : ℕ

/-- The entries of `m_Nodes`, `m_prevNodes`, `m_BannerTimers` and `m_NodeTimers` for one
node. -/
structure Point where
  node : ℕ
  prevNode : ℕ
  bannerTimer : BannerTimer
  nodeTimer : ℕ

inductive Notice where
  /-- `m_Nodes` is read or written at an index. -/
  | nodesIndex (i : ℕ)
  /-- The spell for so many bases is cast on a team that occupies `held` of them. -/
  | castSpell (bases : ℕ) (team : Team) (held : ℕ)
  /-- The reward for the reputation of a team's ticks goes to a team. -/
  | reputation (scorer rewarded : Team)
  /-- The reward for the honor of a team's ticks goes to a team. -/
  | honor (scorer rewarded : Team)
  /-- `EndBattleground`, with the score of the winner. -/
  | ended (winner : Team) (score : ℕ)
deriving DecidableEq

/-- A match in Arathi Basin; `spawned` says which of the game objects of the nodes are
spawned. -/
structure State where
  status : Status
  points : ℕ → Point
  spawned : ℕ → Bool
  teamScores : Team → ℕ
  lastTick : Team → ℕ
  honorScoreTics : Team → ℕ
  reputationScoreTics : Team → ℕ
  isInformedNearVictory : Bool
  honorTics : ℕ
  reputationTics : ℕ
  teamScores500Disadvantage : Team → Bool
  notices : List Notice

/-- `BattlegroundAB::Reset`, in a weekend of this battleground or not. -/
def reset (isBGWeekend : Bool) : State where
  status := .waitJoin
  points := fun _ => ⟨0, 0, ⟨0, 0, 0⟩, 0⟩
  spawned := fun _ => false
  teamScores := fun _ => 0
  lastTick := fun _ => 0
  honorScoreTics := fun _ => 0
  reputationScoreTics := fun _ => 0
  isInformedNearVictory := false
  honorTics := if isBGWeekend then 160 else 260
  reputationTics := if isBGWeekend then 120 else 160
  teamScores500Disadvantage := fun _ => false
  notices := []

namespace State

def note (s : State) (e : Notice) : State := { s with notices := s.notices ++ [e] }

def spawnBGObject (s : State) (obj : ℕ) (on : Bool) : State :=
  { s with spawned := fun o => if o = obj then on else s.spawned o }

def setPoint (s : State) (node : ℕ) (p : Point) : State :=
  { s with points := fun n => if n = node then p else s.points n }

/-- The number in `m_Nodes` at an index.  Behind the array lies `m_prevNodes`. -/
def nodeAt (s : State) (i : ℕ) : ℕ :=
  if i < dynamicNodesCount then (s.points i).node
  else (s.points (i - dynamicNodesCount)).prevNode

/-- The nodes a team occupies. -/
def teamPoints (s : State) (team : Team) : ℕ :=
  (List.range dynamicNodesCount).countP fun i =>
    decide ((s.points i).node = team.index + typeOccupied)

/-- The object that goes with a banner. -/
def auraOf (node type teamIndex : ℕ) : ℕ :=
  node * 8 + if type = typeOccupied then 5 + teamIndex else 7

/-- A banner and the aura that goes with it are spawned or despawned. -/
def spawnBanner (s : State) (node type teamIndex : ℕ) (on : Bool) : State :=
  let s := s.spawnBGObject (node * 8 + type + teamIndex) on
  if type = typeNeutral then s else s.spawnBGObject (auraOf node type teamIndex) on

/-- `BattlegroundAB::_CreateBanner` without delay. -/
def createBannerNow (s : State) (node type teamIndex : ℕ) : State :=
  s.spawnBanner node type teamIndex true

/-- `BattlegroundAB::_CreateBanner` with a delay. -/
def createBanner (s : State) (node type teamIndex : ℕ) : State :=
  s.setPoint node { s.points node with bannerTimer := ⟨2000, type, teamIndex⟩ }

def delBanner (s : State) (node type teamIndex : ℕ) : State :=
  s.spawnBanner node type teamIndex false

/-- The loop of `_NodeOccupied` over all nodes, which looks at the same node each time. -/
def capturedNodes (s : State) (node : ℕ) (team : Team) : ℕ :=
  (List.range dynamicNodesCount).countP fun i =>
    decide (s.nodeAt node = team.index + typeOccupied ∧ (s.points i).nodeTimer = 0)

def nodeOccupied (s : State) (node : ℕ) (team : Team) : State :=
  let captured := s.capturedNodes node team
  let held := s.teamPoints team
  let s := s.note (.nodesIndex node)
  let s := if 5 ≤ captured then s.note (.castSpell 5 team held) else s
  if 4 ≤ captured then s.note (.castSpell 4 team held) else s

/-- A node gets a new status and remembers the one it had; the banner of `type` is burnt,
and the one of `newType` is put into the queue. -/
def turnNode (s : State) (node value nodeTimer type teamIndex newType newTeamIndex : ℕ) : State :=
  let s := s.setPoint node
    { s.points node with prevNode := (s.points node).node, node := value, nodeTimer := nodeTimer }
  (s.delBanner node type teamIndex).createBanner node newType newTeamIndex

/-- The delay of a banner in `PostUpdateImpl`. -/
def bannerUpdate (diff : ℕ) (s : State) (node : ℕ) : State :=
  let b := (s.points node).bannerTimer
  if b.timer = 0 then s
  else if b.timer > diff then
    s.setPoint node { s.points node with bannerTimer := { b with timer := b.timer - diff } }
  else
    let s := s.setPoint node { s.points node with bannerTimer := { b with timer := 0 } }
    s.createBannerNow node b.type b.teamIndex

/-- The capture timer of a node in `PostUpdateImpl`. -/
def captureUpdate (diff : ℕ) (s : State) (node : ℕ) : State :=
  let p := s.points node
  if p.nodeTimer = 0 then s
  else if p.nodeTimer > diff then s.setPoint node { p with nodeTimer := p.nodeTimer - diff }
  else
    let teamIndex := p.node - 1
    let s := s.turnNode node (p.node + 2) 0 typeContested teamIndex typeOccupied teamIndex
    s.nodeOccupied node (if teamIndex = 0 then .alliance else .horde)

/-- A node in `PostUpdateImpl`. -/
def nodeUpdate (diff : ℕ) (s : State) (node : ℕ) : State :=
  captureUpdate diff (bannerUpdate diff (s.note (.nodesIndex node)) node) node

/-- The points of a tick, with the rewards and the warning that go with them. -/
def scoreTick (s : State) (team : Team) (points : ℕ) : State :=
  let score := s.teamScores team + tickPoints points
  let honor := s.honorScoreTics team + tickPoints points
  let reputation := s.reputationScoreTics team + tickPoints points
  let rewards :=
    -- the index of the team is compared with the id of one
    (if s.reputationTics ≤ reputation then
      [Notice.reputation team (if team.index = Team.alliance.id then .alliance else .horde)]
      else []) ++
    if s.honorTics ≤ honor then
      [Notice.honor team (if team.index = Team.alliance.index then .alliance else .horde)] else []
  let capped := min score maxTeamScore
  { s with
    teamScores := fun t => if t = team then capped else s.teamScores t
    honorScoreTics := fun t =>
      if t = team then if s.honorTics ≤ honor then honor - s.honorTics else honor
      else s.honorScoreTics t
    reputationScoreTics := fun t =>
      if t = team then
        if s.reputationTics ≤ reputation then reputation - s.reputationTics else reputation
      else s.reputationScoreTics t
    isInformedNearVictory :=
      s.isInformedNearVictory || decide (warningNearVictoryScore < score)
    teamScores500Disadvantage := fun t => s.teamScores500Disadvantage t ||
      decide (t = team.other ∧ s.teamScores team.other + 500 < capped)
    notices := s.notices ++ rewards }

/-- A team in `PostUpdateImpl`; `m_lastTick` is a 32-bit number. -/
def teamUpdate (diff : ℕ) (s : State) (team : Team) : State :=
  let points := s.teamPoints team
  if points = 0 then s
  else
    let last := (s.lastTick team + diff) % 2 ^ 32
    let setLast (n : ℕ) : State :=
      { s with lastTick := fun t => if t = team then n else s.lastTick t }
    if tickIntervals points < last then
      (setLast (last - tickIntervals points)).scoreTick team points
    else setLast last

def endBattleground (s : State) (winner : Team) : State :=
  { s with
    status := .waitLeave
    notices := s.notices ++ [.ended winner (s.teamScores winner)] }

/-- One of the two win conditions in `PostUpdateImpl`. -/
def testWin (s : State) (team : Team) : State :=
  if maxTeamScore ≤ s.teamScores team then s.endBattleground team else s

/-- `BattlegroundAB::PostUpdateImpl`.  A node is not changed after it was counted for the
points of its team. -/
def postUpdateImpl (s : State) (diff : ℕ) : State :=
  if s.status = .inProgress then
    let s := (List.range dynamicNodesCount).foldl (nodeUpdate diff) s
    let s := teamUpdate diff (teamUpdate diff s .alliance) .horde
    (s.testWin .alliance).testWin .horde
  else s

def startingEventCloseDoors (s : State) : State :=
  let s := { s with spawned := fun o =>
    if o < dynamicNodesCount * 8 then false else s.spawned o }
  (s.nodeOccupied spiritAlliance .alliance).nodeOccupied spiritHorde .horde

/-- `BattlegroundAB::StartingEventOpenDoors`, with which the match begins. -/
def startingEventOpenDoors (s : State) : State :=
  { s with
    status := .inProgress
    spawned := fun o =>
      if o < dynamicNodesCount * 8 ∧ o % 8 = 0 then true else s.spawned o }

end State

/-- The loop of `EventPlayerClickedOnFlag`: the first node the player is near to. -/
def nearNode (near : ℕ → Bool) : ℕ :=
  ((List.range dynamicNodesCount).find? near).getD dynamicNodesCount

def State.eventPlayerClickedOnFlag (s : State) (team : Team) (near : ℕ → Bool) : State :=
  if s.status ≠ .inProgress then s
  else
    let node := nearNode near
    if node = dynamicNodesCount then s
    else
      let s := s.note (.nodesIndex node)
      let p := s.points node
      if ¬(p.node = 0 ∨ team.index = p.node % 2) then s
      else if p.node = typeNeutral then
        s.turnNode node (team.index + 1) flagCapturingTime typeNeutral 0 typeContested team.index
      else if p.node = 1 ∨ p.node = 2 then
        if p.prevNode < typeOccupied then
          s.turnNode node (team.index + typeContested) flagCapturingTime
            typeContested team.other.index typeContested team.index
        else
          (s.turnNode node (team.index + typeOccupied) 0
            typeContested team.other.index typeOccupied team.index).nodeOccupied node team
      else
        s.turnNode node (team.index + typeContested) flagCapturingTime
          typeOccupied team.other.index typeContested team.index

inductive Request where
  /-- The doors are closed when the battleground is set up. -/
  | closeDoors
  /-- The doors are opened. -/
  | openDoors
  /-- A player of a team clicks on a banner, within ten yards of these nodes. -/
  | click (team : Team) (near : ℕ → Bool)
  | postUpdate (diff : ℕ)

def step (s : State) : Request → State
  | .closeDoors => if s.status = .waitJoin then s.startingEventCloseDoors else s
  | .openDoors => if s.status = .waitJoin then s.startingEventOpenDoors else s
  | .click team near => s.eventPlayerClickedOnFlag team near
  | .postUpdate diff => s.postUpdateImpl diff

end ArathiBasin
end ZerosCore.Battlegrounds
