/-
# Who is in a battleground

The roster of `Battleground` (`src/server/game/Battlegrounds/Battleground.h` and
`Battleground.cpp`): `AddPlayer`, `EventPlayerLoggedIn`, `EventPlayerLoggedOut`,
`RemovePlayerAtLeave`, `_ProcessOfflineQueue`, `_ProcessLeave` and the parts of `Update`
and `EndBattleground` that decide which of them run.

Three stores speak of the members: the map `m_Players`, the counter `m_PlayersCount` of
each team, and the queue `m_OfflineQueue` of those who logged out.  A match starts in
`_ProcessJoin` and ends in `EndBattleground`, which the zones call from many places; none
of these calls reads or writes the three stores, so here they are requests of their own.
`inWorld` is `ObjectAccessor::FindPlayer`, and `gameTime` is `sWorld->GetGameTime()`.
-/

import ZerosCore.Lib.Keyed
import ZerosCore.Lib.Run

namespace ZerosCore.Battlegrounds

open Lib.Keyed

/-- `ALLIANCE` and `HORDE`, the two sides of a match. -/
inductive Team
  | alliance
  | horde
  deriving DecidableEq

/-- `GetOtherTeam` on a side. -/
def Team.other : Team → Team
  | .alliance => .horde
  | .horde => .alliance

inductive Status
  | waitJoin
  | inProgress
  | waitLeave
  deriving DecidableEq

/-- The guid of a player: its low part is a 32-bit number, and none of them is zero. -/
structure Guid where
  low : ℕ
  pos : 0 < low
  lt : low < 2 ^ 32
  deriving DecidableEq

/-- An entry of `m_Players`.  `offlineRemoveTime` is zero while the player is online. -/
structure BattlegroundPlayer where
  guid : Guid
  offlineRemoveTime : ℕ
  team : Team

/-- `m_Players[guid].OfflineRemoveTime = time`, for a member. -/
def setOfflineRemoveTime (players : Table BattlegroundPlayer.guid) (guid : Guid) (time : ℕ) :
    Table BattlegroundPlayer.guid :=
  players.modify guid (fun p => { p with offlineRemoveTime := time }) fun _ => rfl

/-- `MAX_OFFLINE_TIME`, in seconds. -/
def maxOfflineTime : ℕ := 300

/-- `TIME_AUTOCLOSE_BATTLEGROUND`, in milliseconds. -/
def timeAutocloseBattleground : ℕ := 120000

structure Battleground where
  status : Status
  players : Table BattlegroundPlayer.guid
  playersCount : Team → ℕ
  offlineQueue : List Guid
  remainingTime : ℕ
  gameTime : ℕ
  inWorld : Guid → Bool

inductive Request
  | addPlayer (guid : Guid) (team : Team)
  | eventPlayerLoggedIn (guid : Guid)
  | eventPlayerLoggedOut (guid : Guid)
  | removePlayerAtLeave (guid : Guid)
  | update (diff : ℕ)
  | start
  | endBattleground
  /-- seconds of game time pass -/
  | pass (seconds : ℕ)
  /-- a player who is no member comes into the world -/
  | appear (guid : Guid)

def Request.isUpdate : Request → Bool
  | .update _ => true
  | _ => false

namespace Battleground

variable (s : Battleground)

/-- `UpdatePlayersCountByTeam`, on 32-bit counters. -/
def updatePlayersCountByTeam (team : Team) (remove : Bool) : Battleground :=
  { s with playersCount := Function.update s.playersCount team <|
      if remove then (s.playersCount team + (2 ^ 32 - 1)) % 2 ^ 32
      else (s.playersCount team + 1) % 2 ^ 32 }

def addPlayer (guid : Guid) (team : Team) : Battleground :=
  updatePlayersCountByTeam { s with players := s.players.put ⟨guid, 0, team⟩ } team false

def eventPlayerLoggedIn (guid : Guid) : Battleground :=
  { s with
    offlineQueue := s.offlineQueue.erase guid
    players := setOfflineRemoveTime s.players guid 0
    inWorld := Function.update s.inWorld guid true }

/-- The first half of `EventPlayerLoggedOut`: a member is queued for removal. -/
def queueOffline (guid : Guid) : Battleground :=
  if (s.players.get? guid).isSome then
    { s with
      offlineQueue := s.offlineQueue ++ [guid]
      players := setOfflineRemoveTime s.players guid (s.gameTime + maxOfflineTime) }
  else s

/-- The player is found in the world until the event is over. -/
def vanish (guid : Guid) : Battleground :=
  { s with inWorld := Function.update s.inWorld guid false }

def eventPlayerLoggedOut (guid : Guid) : Battleground := (s.queueOffline guid).vanish guid

/-- `RemovePlayerAtLeave`, the part that keeps the roster. -/
def removePlayerAtLeave (guid : Guid) : Battleground :=
  match s.players.get? guid with
  | some p =>
    let s := s.updatePlayersCountByTeam p.team true
    { s with players := s.players.erase guid }
  | none => s

/-- `_ProcessOfflineQueue`: only the head of the queue is looked at. -/
def processOfflineQueue : Battleground :=
  match s.offlineQueue with
  | [] => s
  | guid :: queue =>
    match s.players.get? guid with
    | some p =>
      if p.offlineRemoveTime ≤ s.gameTime then
        { s.removePlayerAtLeave guid with offlineQueue := queue }
      else s
    | none => s

/-- `SetRemainingTime(GetRemainingTime() - diff)`, on 32 bits. -/
def countDown (diff : ℕ) : Battleground :=
  { s with remainingTime := (s.remainingTime + (2 ^ 32 - diff % 2 ^ 32)) % 2 ^ 32 }

/-- `_ProcessLeave`: when the time is over everyone is removed.  The time is unsigned, so
`<= 0` is true only of a tick that ends on zero; a tick that ends later wraps it. -/
def processLeave (diff : ℕ) : Battleground :=
  let s := s.countDown diff
  if s.remainingTime = 0 then
    (s.players.rows.map BattlegroundPlayer.guid).foldl removePlayerAtLeave s
  else s

def update (diff : ℕ) : Battleground :=
  if s.players.rows = [] then s
  else match s.status with
    | .waitJoin => s
    | .inProgress => s.processOfflineQueue
    | .waitLeave => s.processLeave diff

def step : Request → Battleground
  | .addPlayer guid team => s.addPlayer guid team
  | .eventPlayerLoggedIn guid => s.eventPlayerLoggedIn guid
  | .eventPlayerLoggedOut guid => s.eventPlayerLoggedOut guid
  | .removePlayerAtLeave guid => s.removePlayerAtLeave guid
  | .update diff => s.update diff
  | .start => if s.status = .waitJoin then { s with status := .inProgress } else s
  | .endBattleground => { s with status := .waitLeave, remainingTime := timeAutocloseBattleground }
  | .pass seconds => { s with gameTime := s.gameTime + seconds }
  | .appear guid => { s with inWorld := Function.update s.inWorld guid true }

/-- A battleground nobody has entered. -/
def fresh (gameTime : ℕ) (inWorld : Guid → Bool) : Battleground where
  status := .waitJoin
  players := Table.empty _
  playersCount _ := 0
  offlineQueue := []
  remainingTime := 0
  gameTime := gameTime
  inWorld := inWorld

end Battleground
end ZerosCore.Battlegrounds
