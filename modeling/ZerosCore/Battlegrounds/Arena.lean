/-
# A rated arena match

The arena side of `Battleground` (`src/server/game/Battlegrounds/Battleground.cpp`):
`EndBattleground`, `RemovePlayerAtLeave`, `EventPlayerLoggedOut`,
`CheckArenaWinConditions`, `CheckArenaAfterTimerConditions` and `Update`, with the hooks
`RemovePlayer` and `HandleKillPlayer` that all arenas share (`Zones/BattlegroundNA.cpp`)
and the records of `ArenaTeam.cpp`.

The roster is the one of `Battlegrounds.Battleground`.  Ratings are not modelled, only
the numbers of games and wins on the records of the two teams and of their members;
`WeekGames` and `SeasonGames` always move together and are one number.  Three fields are
not fields of the source: `ends` records every call of `EndBattleground` with what was
true when it was made, `entered` everyone who came in, and the parameter `leaving` of
some functions is the player who is just logging out.
-/

import ZerosCore.Battlegrounds.Battleground

namespace ZerosCore.Battlegrounds

open Lib.Keyed

/-! ### Arena teams -/

structure ArenaTeamMember where
  guid : Guid
  games : ℕ
  wins : ℕ

structure ArenaTeam where
  games : ℕ
  wins : ℕ
  members : Table ArenaTeamMember.guid

namespace ArenaTeam

variable (team : ArenaTeam)

def isMember (guid : Guid) : Bool := (team.members.get? guid).isSome

def finishGame (draw : Bool) : ArenaTeam :=
  if draw then team else { team with games := team.games + 1 }

def wonAgainst : ArenaTeam := { team.finishGame false with wins := team.wins + 1 }

def lostAgainst : ArenaTeam := team.finishGame false

def memberLost (guid : Guid) : ArenaTeam :=
  { team with
    members := team.members.modify guid (fun m => { m with games := m.games + 1 }) fun _ => rfl }

/-- `OfflineMemberLost` moves the same numbers as `MemberLost`. -/
def offlineMemberLost (guid : Guid) : ArenaTeam := team.memberLost guid

def memberWon (guid : Guid) : ArenaTeam :=
  { team with
    members := team.members.modify guid
      (fun m => { m with games := m.games + 1, wins := m.wins + 1 }) fun _ => rfl }

end ArenaTeam

/-! ### The match -/

/-- A call of `EndBattleground`: the status it found, the winner it named, how many of
the other side were alive in the arena, apart from one who was just logging out, and who
of the winning side was online in it. -/
structure EndRecord where
  status : Status
  winner : Option Team
  othersAlive : ℕ
  onlineWinners : List Guid

structure Arena where
  bg : Battleground
  /-- not `isAlive()`, or in the spirit of redemption -/
  dead : Guid → Bool
  /-- `GetOTeam()`, the side of a player's race -/
  getOTeam : Guid → Team
  /-- `GetTeam()` of a player in the arena -/
  getTeam : Guid → Team
  /-- `GetElapsedTime()`, in milliseconds -/
  elapsedTime : ℕ
  arenaTeam : Team → ArenaTeam
  ends : List EndRecord
  entered : List (Guid × Team)

/-- 47 minutes. -/
def arenaTimeLimit : ℕ := 47 * 60 * 1000

/-- `GetTeamIndexByTeamId`: what is not `ALLIANCE`, so also `WINNER_NONE`, counts as
`HORDE`. -/
def teamIndex : Option Team → Team
  | some team => team
  | none => .horde

/-- `GetOtherTeam`: the other side of `WINNER_NONE` is `ALLIANCE`. -/
def otherTeamIndex : Option Team → Team
  | some team => team.other
  | none => .alliance

inductive ArenaRequest
  | addPlayer (guid : Guid) (team : Team)
  | eventPlayerLoggedIn (guid : Guid)
  | eventPlayerLoggedOut (guid : Guid)
  | removePlayerAtLeave (guid : Guid)
  /-- a player dies; `HandleKillPlayer` is called if a player of the arena killed him -/
  | kill (victim : Guid) (byPlayer : Bool)
  /-- a tick; `opens` says that the start delay is over -/
  | update (diff : ℕ) (opens : Bool)
  | pass (seconds : ℕ)
  | appear (guid : Guid)
  /-- a charm on the player or his game master mode ends -/
  | restoreFaction (guid : Guid)

namespace Arena

variable (s : Arena)

def isAlive (guid : Guid) : Bool := s.bg.inWorld guid && !s.dead guid

def getAlivePlayersCountByTeam (team : Team) : ℕ :=
  s.bg.players.rows.countP fun p => p.team = team ∧ s.isAlive p.guid

/-- What the end of the match does for one entry of `m_Players`. -/
def settle (winner : Option Team) (s : Arena) (p : BattlegroundPlayer) : Arena :=
  let winnerArenaTeam := teamIndex winner
  let loserArenaTeam := otherTeamIndex winner
  let change (team : Team) (f : ArenaTeam → ArenaTeam) (s : Arena) : Arena :=
    { s with arenaTeam := Function.update s.arenaTeam team (f (s.arenaTeam team)) }
  if p.offlineRemoveTime ≠ 0 then
    if some p.team = winner then change winnerArenaTeam (·.offlineMemberLost p.guid) s
    else change loserArenaTeam (·.offlineMemberLost p.guid) s
  else if s.bg.inWorld p.guid then
    let s := { s with dead := Function.update s.dead p.guid false }
    if some p.team = winner then change winnerArenaTeam (·.memberWon p.guid) s
    else if (s.arenaTeam winnerArenaTeam).isMember p.guid then
      change winnerArenaTeam (·.memberLost p.guid) s
    else if (s.arenaTeam loserArenaTeam).isMember p.guid then
      change loserArenaTeam (·.memberLost p.guid) s
    else s
  else s

/-- The records of the two teams at the end. -/
def finishGames (winner : Option Team) (teams : Team → ArenaTeam) : Team → ArenaTeam :=
  match winner with
  | some team =>
    let teams := Function.update teams team (teams team).wonAgainst
    Function.update teams team.other (teams team.other).lostAgainst
  | none =>
    let teams := Function.update teams .horde ((teams .horde).finishGame true)
    Function.update teams .alliance ((teams .alliance).finishGame true)

/-- What is true when `EndBattleground` is called. -/
def endRecord (winner : Option Team) (leaving : Option Guid) : EndRecord where
  status := s.bg.status
  winner := winner
  othersAlive := s.bg.players.rows.countP fun p =>
    some p.team ≠ winner ∧ s.isAlive p.guid ∧ some p.guid ≠ leaving
  onlineWinners := (s.bg.players.rows.filter fun p =>
    some p.team = winner ∧ p.offlineRemoveTime = 0 ∧ s.bg.inWorld p.guid).map
      BattlegroundPlayer.guid

def endBattleground (winner : Option Team) (leaving : Option Guid) : Arena :=
  let s := { s with
    bg := s.bg.step .endBattleground
    arenaTeam := finishGames winner s.arenaTeam
    ends := s.ends ++ [s.endRecord winner leaving] }
  s.bg.players.rows.foldl (settle winner) s

/-- The side `CheckArenaWinConditions` would name as the winner. -/
def arenaWinner : Option Team :=
  if s.getAlivePlayersCountByTeam .alliance = 0 ∧ s.bg.playersCount .horde ≠ 0 then some .horde
  else if s.bg.playersCount .alliance ≠ 0 ∧ s.getAlivePlayersCountByTeam .horde = 0 then
    some .alliance
  else none

def checkArenaWinConditions (leaving : Option Guid) : Arena :=
  match s.arenaWinner with
  | some team => s.endBattleground (some team) leaving
  | none => s

/-- `RemovePlayer` of the arenas. -/
def removePlayer (leaving : Option Guid) : Arena :=
  if s.bg.status = .waitLeave then s else s.checkArenaWinConditions leaving

def addPlayer (guid : Guid) (team : Team) : Arena :=
  { s with
    bg := s.bg.addPlayer guid team
    getTeam := Function.update s.getTeam guid team
    entered := (guid, team) :: s.entered }

/-- `setFactionForRace` with the player's own race. -/
def setFactionForRace (guid : Guid) : Arena :=
  { s with getTeam := Function.update s.getTeam guid (s.getOTeam guid) }

/-- The loss of one who leaves before the end. -/
def recordLeave (p : BattlegroundPlayer) : Arena :=
  let team := s.arenaTeam p.team
  if s.bg.inWorld p.guid then
    if s.bg.status ≠ .waitLeave then
      { s with arenaTeam := Function.update s.arenaTeam p.team (team.memberLost p.guid) }
    else s
  else if s.bg.status = .inProgress then
    { s with arenaTeam := Function.update s.arenaTeam p.team (team.offlineMemberLost p.guid) }
  else s

/-- `RemovePlayerAtLeave` up to the call of `RemovePlayer`. -/
def takeOut (guid : Guid) : Arena :=
  let entry := s.bg.players.get? guid
  let s := { s with bg := s.bg.removePlayerAtLeave guid }
  let s := if s.bg.inWorld guid then { s with dead := Function.update s.dead guid false } else s
  match entry with
  | some p => s.recordLeave p
  | none => s

def removePlayerAtLeave (guid : Guid) : Arena := (s.takeOut guid).removePlayer none

/-- `EventPlayerLoggedIn`, and the end of the login: in an arena `FitPlayerInTeam(false)`
gives the player the side of his race again, whichever side he is on. -/
def eventPlayerLoggedIn (guid : Guid) : Arena :=
  setFactionForRace { s with bg := s.bg.eventPlayerLoggedIn guid } guid

/-- The last lines of `EventPlayerLoggedOut`: one is logging out, and if he is the last
alive the arena ends.  His side is that of `GetTeam()`, not of his entry. -/
def endIfLast (guid : Guid) : Arena :=
  if s.getAlivePlayersCountByTeam (s.getTeam guid) ≤ 1 ∧
      s.bg.playersCount (s.getTeam guid).other ≠ 0 then
    s.endBattleground (some (s.getTeam guid).other) (some guid)
  else s

def eventPlayerLoggedOut (guid : Guid) : Arena :=
  let s : Arena := match s.bg.players.get? guid with
    | some _ =>
      let s : Arena := { s with bg := s.bg.queueOffline guid }
      if s.bg.status = .inProgress then (s.removePlayer (some guid)).endIfLast guid else s
    | none => s
  { s with bg := s.bg.vanish guid }

/-- A death, and `HandleKillPlayer`. -/
def kill (victim : Guid) (byPlayer : Bool) : Arena :=
  let s := { s with dead := Function.update s.dead victim true }
  if byPlayer ∧ s.bg.status = .inProgress then s.checkArenaWinConditions none else s

def processOfflineQueue : Arena :=
  match s.bg.offlineQueue with
  | [] => s
  | guid :: queue =>
    match s.bg.players.get? guid with
    | some p =>
      if p.offlineRemoveTime ≤ s.bg.gameTime then
        let s := s.removePlayerAtLeave guid
        { s with bg := { s.bg with offlineQueue := queue } }
      else s
    | none => s

def processLeave (diff : ℕ) : Arena :=
  let s := { s with bg := s.bg.countDown diff }
  if s.bg.remainingTime = 0 then
    (s.bg.players.rows.map BattlegroundPlayer.guid).foldl removePlayerAtLeave s
  else s

def update (diff : ℕ) (opens : Bool) : Arena :=
  let tick (s : Arena) : Arena := { s with elapsedTime := s.elapsedTime + diff }
  if s.bg.players.rows = [] then s
  else match s.bg.status with
    | .waitJoin =>
      if opens then tick (checkArenaWinConditions { s with bg := s.bg.step .start } none)
      else tick s
    | .inProgress =>
      let s := s.processOfflineQueue
      if arenaTimeLimit ≤ s.elapsedTime then s.endBattleground none none
      else tick s
    | .waitLeave => tick (s.processLeave diff)

def step : ArenaRequest → Arena
  | .addPlayer guid team => s.addPlayer guid team
  | .eventPlayerLoggedIn guid => s.eventPlayerLoggedIn guid
  | .eventPlayerLoggedOut guid => s.eventPlayerLoggedOut guid
  | .removePlayerAtLeave guid => s.removePlayerAtLeave guid
  | .kill victim byPlayer => s.kill victim byPlayer
  | .update diff opens => s.update diff opens
  | .pass seconds => { s with bg := s.bg.step (.pass seconds) }
  | .appear guid => { s with bg := s.bg.step (.appear guid) }
  | .restoreFaction guid => s.setFactionForRace guid

end Arena

/-- The two teams of a match.  A player is in one arena team of a size only. -/
structure Opponents where
  team : Team → ArenaTeam
  disjoint : ∀ guid, (team .alliance).isMember guid = true → (team .horde).isMember guid = false

/-- A match nobody has entered. -/
def Arena.fresh (teams : Opponents) (gameTime : ℕ) (inWorld dead : Guid → Bool)
    (getOTeam : Guid → Team) : Arena where
  bg := .fresh gameTime inWorld
  dead := dead
  getOTeam := getOTeam
  getTeam := getOTeam
  elapsedTime := 0
  arenaTeam := teams.team
  ends := []
  entered := []

end ZerosCore.Battlegrounds
