/-
# Eye of the Storm

`BattlegroundEY` of `src/server/game/Battlegrounds/Zones/BattlegroundEY.cpp` and
`BattlegroundEY.h`: the four points with their progress bars, the lists of the players
near them, and the flag.

Every participant is in one of five lists, one for each point and the last one for the
players out of all points.  An update every two seconds moves the players between the lists, counts
those near a point, moves its progress bar towards the team with more of them, and lets
the players near it take or lose it.

What a request sees of the world comes with it: `found` is `ObjectAccessor::FindPlayer`,
`near` says that a player can capture and is within the radius of a point, and `atFlag`
that he stands where the flag is delivered at the Fel Reaver ruins.  Game objects, spirit
guides, auras, player scores and packets are left out; `notices` keeps the indices used
on the tables of points, the moves of the progress bars, the honor and the end.
-/

import ZerosCore.Battlegrounds.Battleground

namespace ZerosCore.Battlegrounds.EyeOfTheStorm

/-! ### Constants -/

/-- `EY_POINTS_MAX`. -/
def pointsMax : ℕ := 4

/-- `EY_PLAYERS_OUT_OF_POINTS`. -/
def playersOutOfPoints : ℕ := 4

def felReaver : ℕ := 0

/-- `BG_EY_POINT_MAX_CAPTURERS_COUNT`. -/
def pointMaxCapturersCount : ℤ := 5

/-- `BG_EY_PROGRESS_BAR_STATE_MIDDLE`. -/
def progressBarStateMiddle : ℤ := 50

/-- `BG_EY_PROGRESS_BAR_HORDE_CONTROLLED`. -/
def progressBarHordeControlled : ℤ := 0

/-- `BG_EY_PROGRESS_BAR_NEUTRAL_LOW`. -/
def progressBarNeutralLow : ℤ := 30

/-- `BG_EY_PROGRESS_BAR_NEUTRAL_HIGH`. -/
def progressBarNeutralHigh : ℤ := 70

/-- `BG_EY_PROGRESS_BAR_ALI_CONTROLLED`. -/
def progressBarAliControlled : ℤ := 100

/-- `BG_EY_FLAG_RESPAWN_TIME`. -/
def flagRespawnTime : ℤ := 8000

/-- `BG_EY_FPOINTS_TICK_TIME`. -/
def fpointsTickTime : ℤ := 2000

/-- `BG_EY_MAX_TEAM_SCORE`. -/
def maxTeamScore : ℕ := 1600

/-- `BG_EY_TickPoints`. -/
def tickPoints (i : ℕ) : ℕ := [1, 2, 5, 10].getD i 0

/-- `BG_EY_FlagPoints`. -/
def flagPoints (i : ℕ) : ℕ := [75, 85, 100, 500].getD i 0

/-! ### The battleground -/

/-- The states of the flag. -/
inductive FlagState where
  | onBase
  | waitRespawn
  | onPlayer
  | onGround
deriving DecidableEq

/-- A participant: `OfflineRemoveTime` is zero or not. -/
inductive Presence where
  | online
  | offline
deriving DecidableEq

inductive Notice where
  /-- One of the two tables of points is read at an index. -/
  | tableIndex (i : ℕ)
  /-- A check takes the progress bar of a point from `before` to `after`. -/
  | bar (point : ℕ) (before after : ℤ)
  | honor (team : Team)
  /-- `EndBattleground`. -/
  | ended (winner : Team)

/-- A match in Eye of the Storm.  `team` is `GetTeam` of the players; for a point that has
no owner `pointOwnedByTeam` is `none`, and `underControl` is its `m_PointState`. -/
structure State where
  status : Status
  team : Guid → Team
  players : Guid → Option Presence
  playersNearPoint : ℕ → List Guid
  currentPointPlayersCount : ℕ → Team → ℕ
  pointOwnedByTeam : ℕ → Option Team
  underControl : ℕ → Bool
  pointBarStatus : ℕ → ℤ
  teamPointsCount : Team → ℕ
  teamScores : Team → ℕ
  honorScoreTics : Team → ℕ
  honorTics : ℕ
  flagState : FlagState
  flagKeeper : Option Guid
  flagsTimer : ℤ
  towerCapCheckTimer : ℤ
  pointAddingTimer : ℤ
  notices : List Notice

/-- `BattlegroundEY::Reset`, in a weekend of this battleground or not. -/
def reset (team : Guid → Team) (isBGWeekend : Bool) : State where
  status := .waitJoin
  team := team
  players := fun _ => none
  playersNearPoint := fun _ => []
  currentPointPlayersCount := fun _ _ => 0
  pointOwnedByTeam := fun _ => none
  underControl := fun _ => false
  pointBarStatus := fun _ => progressBarStateMiddle
  teamPointsCount := fun _ => 0
  teamScores := fun _ => 0
  honorScoreTics := fun _ => 0
  honorTics := if isBGWeekend then 160 else 260
  flagState := .onBase
  flagKeeper := none
  flagsTimer := 0
  towerCapCheckTimer := 0
  pointAddingTimer := 0
  notices := []

/-- What an update sees of the players. -/
structure View where
  found : Guid → Bool
  near : ℕ → Guid → Bool
  atFlag : Guid → Bool

def View.at (v : View) (point : ℕ) (guid : Guid) : Bool := v.found guid && v.near point guid

namespace State

def note (s : State) (e : Notice) : State := { s with notices := s.notices ++ [e] }

/-- Writes one of the five lists. -/
def setNear (s : State) (i : ℕ) (l : List Guid) : State :=
  { s with playersNearPoint := fun j => if j = i then l else s.playersNearPoint j }

/-! ### The score -/

def endBattleground (s : State) (winner : Team) : State :=
  { s with
    status := .waitLeave
    notices := s.notices ++ [.ended winner] }

def updateTeamScore (s : State) (team : Team) : State :=
  if maxTeamScore ≤ s.teamScores team then s.endBattleground team else s

def addPoints (s : State) (team : Team) (points : ℕ) : State :=
  let honor := s.honorScoreTics team + points
  let s : State :=
    { s with
      teamScores := fun t => if t = team then s.teamScores team + points else s.teamScores t
      honorScoreTics := fun t =>
        if t = team then if s.honorTics ≤ honor then honor - s.honorTics else honor
        else s.honorScoreTics t
      notices := if s.honorTics ≤ honor then s.notices ++ [.honor team] else s.notices }
  s.updateTeamScore team

/-- Points from one of the two tables, for a team that controls a point. -/
def addTablePoints (s : State) (team : Team) (table : ℕ → ℕ) : State :=
  let count := s.teamPointsCount team
  if 0 < count then (s.note (.tableIndex (count - 1))).addPoints team (table (count - 1)) else s

/-! ### The flag -/

def setFlagPicker (s : State) (keeper : Option Guid) : State := { s with flagKeeper := keeper }

def respawnFlag (s : State) : State := { s with flagState := .onBase }

def eventPlayerDroppedFlag (s : State) (source : Guid) : State :=
  if s.status ≠ .inProgress then
    if s.flagKeeper = some source then s.setFlagPicker none else s
  else if s.flagKeeper ≠ some source then s
  else
    { s.setFlagPicker none with flagState := .onGround, flagsTimer := flagRespawnTime }

/-- `BattlegroundEY::EventPlayerClickedOnFlag`, within ten yards. -/
def eventPlayerClickedOnFlag (s : State) (source : Guid) : State :=
  if s.status ≠ .inProgress ∨ s.flagKeeper ≠ none then s
  else { s.setFlagPicker (some source) with flagState := .onPlayer }

def eventPlayerCapturedFlag (s : State) (source : Guid) : State :=
  if s.status ≠ .inProgress ∨ s.flagKeeper ≠ some source then s
  else
    let s : State :=
      { s.setFlagPicker none with flagState := .waitRespawn, flagsTimer := flagRespawnTime }
    s.addTablePoints (s.team source) flagPoints

/-- `BattlegroundEY::HandleAreaTrigger` for a point. -/
def handleAreaTrigger (s : State) (source : Guid) (point : ℕ) : State :=
  if s.status ≠ .inProgress then s
  else if s.underControl point ∧ s.pointOwnedByTeam point = some (s.team source) ∧
      s.flagState ≠ .onBase ∧ s.flagKeeper = some source then
    s.eventPlayerCapturedFlag source
  else s

/-! ### The points -/

/-- `BattlegroundEY::EventTeamLostPoint`; the counter is a 32-bit number. -/
def eventTeamLostPoint (s : State) (point : ℕ) : State :=
  if s.status ≠ .inProgress then s
  else match s.pointOwnedByTeam point with
    | none => s
    | some team =>
      { s with
        teamPointsCount := fun t =>
          if t = team then (s.teamPointsCount team + (2 ^ 32 - 1)) % 2 ^ 32
          else s.teamPointsCount t
        pointOwnedByTeam := fun p => if p = point then none else s.pointOwnedByTeam p
        underControl := fun p => if p = point then false else s.underControl p }

def eventTeamCapturedPoint (s : State) (team : Team) (point : ℕ) : State :=
  if s.status ≠ .inProgress then s
  else
    { s with
      teamPointsCount := fun t =>
        if t = team then (s.teamPointsCount team + 1) % 2 ^ 32 else s.teamPointsCount t
      pointOwnedByTeam := fun p => if p = point then some team else s.pointOwnedByTeam p
      underControl := fun p => if p = point then true else s.underControl p }

/-- A point in `CheckSomeoneJoinedPoint`: the loop erases the players it moves from the
list of those out of all points. -/
def joinPoint (v : View) (s : State) (point : ℕ) : State :=
  let out := s.playersNearPoint playersOutOfPoints
  (s.setNear point (s.playersNearPoint point ++ out.filter (v.at point))).setNear
    playersOutOfPoints (out.filter fun guid => !v.at point guid)

def checkSomeoneJoinedPoint (s : State) (v : View) : State :=
  (List.range pointsMax).foldl (joinPoint v) s

/-- A point in `CheckSomeoneLeftPoint`: those who stay are counted, on 8-bit counters. -/
def leavePoint (v : View) (s : State) (point : ℕ) : State :=
  let players := s.playersNearPoint point
  let stay := players.filter (v.at point)
  let s := (s.setNear playersOutOfPoints (s.playersNearPoint playersOutOfPoints ++
    players.filter fun guid => !v.at point guid)).setNear point stay
  { s with currentPointPlayersCount := fun i team =>
      if i = point then (stay.countP fun guid => decide (s.team guid = team)) % 2 ^ 8
      else s.currentPointPlayersCount i team }

def checkSomeoneLeftPoint (s : State) (v : View) : State :=
  (List.range pointsMax).foldl (leavePoint v) { s with currentPointPlayersCount := fun _ _ => 0 }

def pointOwnerTeam (bar : ℤ) : Option Team :=
  if bar ≤ progressBarNeutralLow then some .horde
  else if progressBarNeutralHigh ≤ bar then some .alliance
  else none

/-- The next status of a progress bar; only what the alliance is ahead is bounded. -/
def nextBar (bar : ℤ) (alliance horde : ℕ) : ℤ :=
  let bar := bar + if (alliance : ℤ) - horde < pointMaxCapturersCount then (alliance : ℤ) - horde
    else pointMaxCapturersCount
  let bar := if progressBarAliControlled < bar then progressBarAliControlled else bar
  if bar < progressBarHordeControlled then progressBarHordeControlled else bar

/-- A player near a point in `UpdatePointStatuses`, with the team that should own it. -/
def visit (v : View) (point : ℕ) (owner : Option Team) (s : State) (guid : Guid) : State :=
  if v.found guid then
    let team := s.team guid
    let s :=
      if owner ≠ s.pointOwnedByTeam point then
        let s := if s.underControl point = false ∧ owner = some team then
            s.eventTeamCapturedPoint team point else s
        if s.underControl point ∧ s.pointOwnedByTeam point ≠ some team then
          s.eventTeamLostPoint point else s
      else s
    if point = felReaver ∧ s.pointOwnedByTeam point = some team ∧ s.flagState ≠ .onBase ∧
        s.flagKeeper = some guid ∧ v.atFlag guid then
      s.eventPlayerCapturedFlag guid
    else s
  else s

/-- A point in `UpdatePointStatuses`. -/
def updatePointStatus (v : View) (s : State) (point : ℕ) : State :=
  if s.playersNearPoint point = [] then s
  else
    let before := s.pointBarStatus point
    let after := nextBar before (s.currentPointPlayersCount point .alliance)
      (s.currentPointPlayersCount point .horde)
    let s := { s with pointBarStatus := fun p =>
      if p = point then after else s.pointBarStatus p }.note (.bar point before after)
    (s.playersNearPoint point).foldl (visit v point (pointOwnerTeam after)) s

def updatePointStatuses (s : State) (v : View) : State :=
  (List.range pointsMax).foldl (updatePointStatus v) s

/-- The points of a tick in `PostUpdateImpl`; the timers are signed 32-bit numbers. -/
def pointsUpdate (s : State) (diff : ℕ) : State :=
  let timer := (s.pointAddingTimer - diff).bmod (2 ^ 32)
  if timer ≤ 0 then
    ({ s with pointAddingTimer := fpointsTickTime }.addTablePoints .alliance
      tickPoints).addTablePoints .horde tickPoints
  else { s with pointAddingTimer := timer }

/-- The flag in `PostUpdateImpl`. -/
def flagUpdate (s : State) (diff : ℕ) : State :=
  if s.flagState = .waitRespawn ∨ s.flagState = .onGround then
    let timer := (s.flagsTimer - diff).bmod (2 ^ 32)
    if timer < 0 then { s with flagsTimer := 0 }.respawnFlag else { s with flagsTimer := timer }
  else s

/-- The check of the points in `PostUpdateImpl`. -/
def towerUpdate (s : State) (diff : ℕ) (v : View) : State :=
  let timer := (s.towerCapCheckTimer - diff).bmod (2 ^ 32)
  if timer ≤ 0 then
    { ((s.checkSomeoneJoinedPoint v).checkSomeoneLeftPoint v).updatePointStatuses v with
      towerCapCheckTimer := fpointsTickTime }
  else { s with towerCapCheckTimer := timer }

def postUpdateImpl (s : State) (diff : ℕ) (v : View) : State :=
  if s.status = .inProgress then ((s.pointsUpdate diff).flagUpdate diff).towerUpdate diff v else s

/-! ### The players -/

def addPlayer (s : State) (guid : Guid) : State :=
  { s with players := fun g => if g = guid then some .online else s.players g }.setNear
    playersOutOfPoints (s.playersNearPoint playersOutOfPoints ++ [guid])

/-- The loop of `RemovePlayer` over a list: behind an entry it erases, the next one is not
looked at. -/
def eraseLoop (guid : Guid) : List Guid → List Guid
  | [] => []
  | [g] => if g = guid then [] else [g]
  | g :: h :: l => if g = guid then h :: eraseLoop guid l else g :: eraseLoop guid (h :: l)

/-- `BattlegroundEY::RemovePlayer`; the pointer to the player is null or not. -/
def removePlayer (s : State) (found : Bool) (guid : Guid) : State :=
  let s : State :=
    { s with playersNearPoint := fun i => if i ≤ pointsMax then
        eraseLoop guid (s.playersNearPoint i) else s.playersNearPoint i }
  if s.flagKeeper = some guid then
    if found then s.eventPlayerDroppedFlag guid
    else (s.setFlagPicker none).respawnFlag
  else s

/-- `Battleground::EventPlayerLoggedOut` of a participant. -/
def eventPlayerLoggedOut (s : State) (guid : Guid) : State :=
  let s : State := { s with players := fun g => if g = guid then some .offline else s.players g }
  if s.status = .inProgress then s.removePlayer true guid else s

/-- `Battleground::EventPlayerLoggedIn` of a participant. -/
def eventPlayerLoggedIn (s : State) (guid : Guid) : State :=
  { s with players := fun g => if g = guid then some .online else s.players g }

/-- `Battleground::RemovePlayerAtLeave` of a participant. -/
def removePlayerAtLeave (s : State) (found : Bool) (guid : Guid) : State :=
  { s with players := fun g => if g = guid then none else s.players g }.removePlayer found guid

end State

inductive Request where
  /-- The match begins. -/
  | start
  | join (guid : Guid)
  | logOut (guid : Guid)
  | logIn (guid : Guid)
  | leave (found : Bool) (guid : Guid)
  | click (guid : Guid)
  | drop (guid : Guid)
  | areaTrigger (guid : Guid) (point : ℕ)
  | postUpdate (diff : ℕ) (view : View)

/-- Serves a request.  Only who is no participant joins, and only participants that are
online log out, click, carry the flag and set off triggers. -/
def step (s : State) : Request → State
  | .start => if s.status = .waitJoin then { s with status := .inProgress } else s
  | .join guid => if s.players guid = none then s.addPlayer guid else s
  | .logOut guid => if s.players guid = some .online then s.eventPlayerLoggedOut guid else s
  | .logIn guid => if s.players guid = some .offline then s.eventPlayerLoggedIn guid else s
  | .leave found guid => if s.players guid = none then s else s.removePlayerAtLeave found guid
  | .click guid => if s.players guid = some .online then s.eventPlayerClickedOnFlag guid else s
  | .drop guid => s.eventPlayerDroppedFlag guid
  | .areaTrigger guid point =>
    if s.players guid = some .online ∧ point < pointsMax then s.handleAreaTrigger guid point
    else s
  | .postUpdate diff view => s.postUpdateImpl diff view

end ZerosCore.Battlegrounds.EyeOfTheStorm
