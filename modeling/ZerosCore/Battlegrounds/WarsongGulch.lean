/-
# Warsong Gulch

`BattlegroundWS` of `src/server/game/Battlegrounds/Zones/BattlegroundWS.cpp` and
`BattlegroundWS.h`: the two flags, who carries them, and the captures.

The source writes each path twice, once for the flag of either team; here a path has the
team of the flag as a parameter.  A flag has an object at its base, and `spawned` says
whether it is there; the object of a flag on the ground comes with the click.

A player of a match is a participant that is online or not.  One that is online is in the
world, since a teleport to another map leaves the battleground first, so that
`RemovePlayerAtLeave` finds just those.  The spells on the carriers with their timers, world
states, honor, player scores and messages are left out; `notices` keeps the end.
-/

import ZerosCore.Battlegrounds.Battleground

namespace ZerosCore.Battlegrounds.WarsongGulch

/-- `BG_WS_MAX_TEAM_SCORE`. -/
def maxTeamScore : ℕ := 3

/-- `BG_WS_FLAG_RESPAWN_TIME`. -/
def flagRespawnTime : ℤ := 23000

/-- `BG_WS_FLAG_DROP_TIME`. -/
def flagDropTime : ℤ := 10000

/-- `27*MINUTE*IN_MILLISECONDS`. -/
def matchTime : ℕ := 1620000

/-- `BG_WS_FlagState`. -/
inductive FlagState where
  | onBase
  | waitRespawn
  | onPlayer
  | onGround
deriving DecidableEq

/-- A participant, and whether he is online. -/
structure Member where
  team : Team
  online : Bool

/-- `EndBattleground` with its winner, the scores and the team that captured last. -/
structure Ended where
  winner : Option Team
  alliance : ℕ
  horde : ℕ
  lastFlagCaptureTeam : Option Team

/-- A match in Warsong Gulch; `flagKeepers`, `flagState`, `spawned` and the timers are
those of the flag of a team. -/
structure State where
  status : Status
  players : Guid → Option Member
  flagKeepers : Team → Option Guid
  flagState : Team → FlagState
  spawned : Team → Bool
  flagsTimer : Team → ℤ
  flagsDropTimer : Team → ℤ
  teamScores : Team → ℕ
  lastFlagCaptureTeam : Option Team
  notices : List Ended

/-- `BattlegroundWS::Reset`, with the flags despawned as the doors are closed. -/
def reset : State where
  status := .waitJoin
  players := fun _ => none
  flagKeepers := fun _ => none
  flagState := fun _ => .onBase
  spawned := fun _ => false
  flagsTimer := fun _ => 0
  flagsDropTimer := fun _ => 0
  teamScores := fun _ => 0
  lastFlagCaptureTeam := none
  notices := []

namespace State

/-- `SpawnBGObject` of the flag at the base of a team. -/
def spawnFlag (s : State) (flag : Team) (on : Bool) : State :=
  { s with spawned := fun t => if t = flag then on else s.spawned t }

/-- `SetAllianceFlagPicker` and `SetHordeFlagPicker`. -/
def setFlagPicker (s : State) (flag : Team) (guid : Option Guid) : State :=
  { s with flagKeepers := fun t => if t = flag then guid else s.flagKeepers t }

def setFlagState (s : State) (flag : Team) (state : FlagState) : State :=
  { s with flagState := fun t => if t = flag then state else s.flagState t }

def endBattleground (s : State) (winner : Option Team) : State :=
  { s with
    status := .waitLeave
    notices := s.notices ++
      [⟨winner, s.teamScores .alliance, s.teamScores .horde, s.lastFlagCaptureTeam⟩] }

def respawnFlag (s : State) (flag : Team) (captured : Bool) : State :=
  let s := s.setFlagState flag .onBase
  if captured then (s.spawnFlag .horde true).spawnFlag .alliance true else s

def respawnFlagAfterDrop (s : State) (flag : Team) : State :=
  if s.status ≠ .inProgress then s else (s.respawnFlag flag false).spawnFlag flag true

/-- The end of `EventPlayerCapturedFlag`. -/
def testWin (s : State) (team : Team) : State :=
  let winner := if s.teamScores .horde = maxTeamScore then some Team.horde
    else if s.teamScores .alliance = maxTeamScore then some Team.alliance else none
  if winner ≠ none then s.endBattleground winner
  else { s with flagsTimer := fun t =>
    if t = team.other then flagRespawnTime else s.flagsTimer t }

/-- The flag and the scores in `EventPlayerCapturedFlag`. -/
def capture (s : State) (team : Team) : State :=
  let s := (s.setFlagPicker team.other none).setFlagState team.other .waitRespawn
  let s : State :=
    { s with teamScores := fun t =>
        if t = team ∧ s.teamScores team < maxTeamScore then s.teamScores team + 1
        else s.teamScores t }
  let s := (s.spawnFlag .horde false).spawnFlag .alliance false
  { s with lastFlagCaptureTeam := some team }

/-- `BattlegroundWS::EventPlayerCapturedFlag` by a player of a team. -/
def eventPlayerCapturedFlag (s : State) (team : Team) : State :=
  if s.status ≠ .inProgress then s
  else if s.flagKeepers team.other = none then s
  else (s.capture team).testWin team

/-- `BattlegroundWS::EventPlayerDroppedFlag` by a player of a team. -/
def eventPlayerDroppedFlag (s : State) (source : Guid) (team : Team) : State :=
  if s.flagKeepers team.other ≠ some source then s
  else
    let t := s.setFlagPicker team.other none
    if s.status ≠ .inProgress then t
    else { t.setFlagState team.other .onGround with
      flagsDropTimer := fun t => if t = team.other then flagDropTime else s.flagsDropTimer t }

def pickUp (s : State) (flag : Team) (source : Guid) : State :=
  ((s.spawnFlag flag false).setFlagPicker flag (some source)).setFlagState flag .onPlayer

/-- What a player clicks on: the flag at a base, or the one on the ground. -/
inductive Target where
  | base (flag : Team)
  | ground (flag : Team)
deriving DecidableEq

/-- A flag in `EventPlayerClickedOnFlag` that is picked up from its base. -/
def clickedOnBase (s : State) (source : Guid) (team : Team) (target : Target) (flag : Team) :
    State :=
  if team = flag.other ∧ s.flagState flag = .onBase ∧ target = .base flag then
    s.pickUp flag source
  else s

/-- A flag in `EventPlayerClickedOnFlag` that is returned or picked up from the ground,
within ten yards. -/
def clickedOnGround (s : State) (source : Guid) (team : Team) (target : Target) (flag : Team) :
    State :=
  if s.flagState flag = .onGround ∧ target = .ground flag then
    if team = flag then (s.respawnFlag flag false).spawnFlag flag true else s.pickUp flag source
  else s

/-- `BattlegroundWS::EventPlayerClickedOnFlag` by a player of a team. -/
def eventPlayerClickedOnFlag (s : State) (source : Guid) (team : Team) (target : Target) : State :=
  if s.status ≠ .inProgress then s
  else
    let s := s.clickedOnBase source team target .alliance
    let s := s.clickedOnBase source team target .horde
    let s := s.clickedOnGround source team target .alliance
    s.clickedOnGround source team target .horde

/-- `BattlegroundWS::RemovePlayer` for one flag; the pointer to the player is null or not. -/
def removeKeeper (found : Bool) (guid : Guid) (team : Team) (s : State) (flag : Team) : State :=
  if s.flagKeepers flag = some guid then
    if found then s.eventPlayerDroppedFlag guid team
    else (s.setFlagPicker flag none).respawnFlag flag false
  else s

def removePlayer (s : State) (found : Bool) (guid : Guid) (team : Team) : State :=
  [Team.alliance, Team.horde].foldl (removeKeeper found guid team) s

/-- `BattlegroundWS::HandleAreaTrigger` at the flag of a team. -/
def handleAreaTrigger (s : State) (source : Guid) (team flag : Team) : State :=
  if s.status ≠ .inProgress then s
  else if s.flagState flag.other ≠ .onBase ∧ s.flagState flag = .onBase ∧
      s.flagKeepers flag.other = some source then
    s.eventPlayerCapturedFlag team
  else s

/-- A captured flag in `PostUpdateImpl`; the timers are signed 32-bit numbers. -/
def waitUpdate (s : State) (diff : ℕ) (flag : Team) : State :=
  if s.flagState flag = .waitRespawn then
    let timer := (s.flagsTimer flag - diff).bmod (2 ^ 32)
    let t : State := { s with flagsTimer := fun t =>
      if t = flag then if timer < 0 then 0 else timer else s.flagsTimer t }
    if timer < 0 then t.respawnFlag flag true else t
  else s

/-- A flag on the ground in `PostUpdateImpl`. -/
def dropUpdate (s : State) (diff : ℕ) (flag : Team) : State :=
  if s.flagState flag = .onGround then
    let timer := (s.flagsDropTimer flag - diff).bmod (2 ^ 32)
    let t : State := { s with flagsDropTimer := fun t =>
      if t = flag then if timer < 0 then 0 else timer else s.flagsDropTimer t }
    if timer < 0 then t.respawnFlagAfterDrop flag else t
  else s

/-- A flag in `PostUpdateImpl`. -/
def flagUpdate (diff : ℕ) (s : State) (flag : Team) : State :=
  (s.waitUpdate diff flag).dropUpdate diff flag

def timeWinner (s : State) : Option Team :=
  if s.teamScores .alliance = 0 then
    if s.teamScores .horde = 0 then none else some .horde
  else if s.teamScores .horde = 0 then some .alliance
  else if s.teamScores .horde = s.teamScores .alliance then s.lastFlagCaptureTeam
  else if s.teamScores .alliance < s.teamScores .horde then some .horde
  else some .alliance

/-- `BattlegroundWS::PostUpdateImpl`; `elapsed` is `GetElapsedTime`. -/
def postUpdateImpl (s : State) (diff elapsed : ℕ) : State :=
  if s.status = .inProgress then
    let s := if matchTime ≤ elapsed then s.endBattleground s.timeWinner else s
    [Team.alliance, Team.horde].foldl (flagUpdate diff) s
  else s

end State

inductive Request where
  /-- The doors are opened and the match begins. -/
  | openDoors
  | join (guid : Guid) (team : Team)
  | logOut (guid : Guid)
  | logIn (guid : Guid)
  | leave (guid : Guid)
  | click (guid : Guid) (target : State.Target)
  /-- A player drops the flag, or dies. -/
  | drop (guid : Guid)
  /-- A player enters the area of the flag of a team. -/
  | areaTrigger (guid : Guid) (flag : Team)
  | postUpdate (diff elapsed : ℕ)

/-- A participant comes, goes, or goes away for a while. -/
def State.setPlayer (s : State) (guid : Guid) (m : Option Member) : State :=
  { s with players := fun g => if g = guid then m else s.players g }

/-- The object a player clicks on is there. -/
def State.shown (s : State) : State.Target → Bool
  | .base flag => s.spawned flag
  | .ground _ => true

def serve (s : State) (guid : Guid) (m : Member) : Request → State
  | .logOut _ =>
    if m.online then
      let t := s.setPlayer guid (some { m with online := false })
      if s.status = .inProgress then t.removePlayer true guid m.team else t
    else s
  | .logIn _ => s.setPlayer guid (some { m with online := true })
  | .leave _ => (s.setPlayer guid none).removePlayer m.online guid m.team
  | .click _ target =>
    if m.online ∧ s.shown target then
      s.eventPlayerClickedOnFlag guid m.team target
    else s
  | .drop _ => if m.online then s.eventPlayerDroppedFlag guid m.team else s
  | .areaTrigger _ flag => if m.online then s.handleAreaTrigger guid m.team flag else s
  | _ => s

/-- Who asks. -/
def Request.guid : Request → Option Guid
  | .logOut guid => some guid
  | .logIn guid => some guid
  | .leave guid => some guid
  | .click guid _ => some guid
  | .drop guid => some guid
  | .areaTrigger guid _ => some guid
  | _ => none

/-- Serves a request.  Only who is no participant joins. -/
def step (s : State) (r : Request) : State :=
  match r with
  | .openDoors =>
    if s.status = .waitJoin then
      { (s.spawnFlag .alliance true).spawnFlag .horde true with status := .inProgress }
    else s
  | .join guid team =>
    if s.players guid = none then s.setPlayer guid (some ⟨team, true⟩) else s
  | .postUpdate diff elapsed => s.postUpdateImpl diff elapsed
  | r =>
    match r.guid with
    | none => s
    | some guid =>
      match s.players guid with
      | none => s
      | some m => serve s guid m r

end ZerosCore.Battlegrounds.WarsongGulch
