/-
# Battlefields

`Battlefield` of `src/server/game/Battlefield/Battlefield.cpp` and `Battlefield.h`, with what
`BattlefieldMgr.cpp` asks before it passes a zone change on, the answers of the clients in
`Handlers/BattlefieldHandler.cpp`, and what `OnBattleEnd` of `Zones/BattlefieldWG.cpp` and
`Zones/BattlefieldTB.cpp` does to the players in the war.

A set or a map is a list in the order of the guids.  What is asked of the players, which
changes from request to request, is a `World`.  `KickPlayerFromBattlefield` teleports a player
within the map or nowhere at all (`KickPosition` is on the map of Wintergrasp, and never set
for Tol Barad), so that the roster learns of it when he leaves the zone; the kick itself changes
nothing.  Packets, graveyards, capture points and raid groups are left out, the clock does not
run out, and the erase from the queue in `InvitePlayerToWar`, which the loop over the queue runs
into, leaves the rest of the loop as it is.
-/

import ZerosCore.Battlegrounds.Battleground
import Mathlib.Data.List.Sort

namespace ZerosCore.Battlefields

open Battlegrounds (Team)

/-- What a battlefield is set up with. -/
structure Config where
  guid : ℕ
  maxPlayer : ℕ
  minLevel : ℕ
  battleTime : ℕ
  noWarBattleTime : ℕ
  startGroupingTimer : ℕ

/-- What is asked of the players. -/
structure World where
  now : ℕ
  /-- `GetTeamId()`, in a battleground the side the player is on there. -/
  team : ℕ → Team
  level : ℕ → ℕ
  findPlayer : ℕ → Bool
  isInWorld : ℕ → Bool
  isInFlight : ℕ → Bool
  /-- In an arena or a battleground. -/
  inBattleground : ℕ → Bool

structure Battlefield where
  timer : ℕ
  isActive : Bool
  startGrouping : Bool
  kickAfkPlayersTimer : ℕ
  kickDontAcceptTimer : ℕ
  players : Team → List ℕ
  playersInQueue : Team → List ℕ
  playersInWar : Team → List ℕ
  /-- The players and the seconds their invitations run out at. -/
  invitedPlayers : Team → List (ℕ × ℕ)
  playersWillBeKick : Team → List (ℕ × ℕ)

/-- `m_TimeForAcceptInvite`, in seconds. -/
def timeForAcceptInvite : ℕ := 20

/-- `set::insert`. -/
def insertGuid (l : List ℕ) (guid : ℕ) : List ℕ :=
  if guid ∈ l then l else l.orderedInsert (· ≤ ·) guid

def keys (l : List (ℕ × ℕ)) : List ℕ := l.map Prod.fst

/-- `map::erase`. -/
def eraseKey (l : List (ℕ × ℕ)) (guid : ℕ) : List (ℕ × ℕ) := l.filter fun e => e.1 ≠ guid

/-- `map::operator[]`, assigned to. -/
def setKey (l : List (ℕ × ℕ)) (guid time : ℕ) : List (ℕ × ℕ) :=
  (eraseKey l guid).orderedInsert (fun a b => a.1 ≤ b.1) (guid, time)

namespace Battlefield

variable (c : Config) (w : World)

/-- `f[team] = f(f[team])`. -/
def modify {α : Type} (f : Team → α) (team : Team) (g : α → α) : Team → α :=
  Function.update f team (g (f team))

/-- Before the first battle. -/
def initial (timer : ℕ) : Battlefield where
  timer := timer
  isActive := false
  startGrouping := false
  kickAfkPlayersTimer := 1000
  kickDontAcceptTimer := 1000
  players := fun _ => []
  playersInQueue := fun _ => []
  playersInWar := fun _ => []
  invitedPlayers := fun _ => []
  playersWillBeKick := fun _ => []

/-- The player will be kicked in ten seconds. -/
def willKick (s : Battlefield) (guid : ℕ) : Battlefield :=
  { s with
    playersWillBeKick := modify s.playersWillBeKick (w.team guid) fun l =>
      setKey l guid (w.now + 10) }

/-- The test for a vacant place. -/
def hasVacancy (s : Battlefield) (team : Team) : Bool :=
  (s.playersInWar team).length + (s.invitedPlayers team).length < c.maxPlayer

def invitePlayerToWar (s : Battlefield) (guid : ℕ) : Battlefield :=
  let team := w.team guid
  if w.isInFlight guid then s
  else if w.inBattleground guid then
    { s with playersInQueue := modify s.playersInQueue team fun l => l.erase guid }
  else if w.level guid < c.minLevel then
    if guid ∈ keys (s.playersWillBeKick team) then s else s.willKick w guid
  else if guid ∈ s.playersInWar team ∨ guid ∈ keys (s.invitedPlayers team) then s
  else
    { s with
      playersWillBeKick := modify s.playersWillBeKick team fun l => eraseKey l guid
      invitedPlayers := modify s.invitedPlayers team fun l =>
        setKey l guid (w.now + timeForAcceptInvite) }

/-- `Battlefield::HandlePlayerEnterZone`, for players that are not in the zone yet. -/
def handlePlayerEnterZone (s : Battlefield) (guid : ℕ) : Battlefield :=
  let team := w.team guid
  if guid ∈ s.players team then s
  else
    let s :=
      if s.isActive then
        if s.hasVacancy c team then s.invitePlayerToWar c w guid else s.willKick w guid
      else s
    { s with players := modify s.players team fun l => insertGuid l guid }

/-- `Battlefield::HandlePlayerLeaveZone`, for players that are in the zone. -/
def handlePlayerLeaveZone (s : Battlefield) (guid : ℕ) : Battlefield :=
  let team := w.team guid
  if guid ∈ s.players team then
    { s with
      playersInWar :=
        if s.isActive then modify s.playersInWar team fun l => l.filter (· ≠ guid)
        else s.playersInWar
      invitedPlayers := modify s.invitedPlayers team fun l => eraseKey l guid
      playersWillBeKick := modify s.playersWillBeKick team fun l => eraseKey l guid
      players := modify s.players team fun l => l.filter (· ≠ guid) }
  else s

/-- The loop of `InvitePlayersInZoneToWar`. -/
def inviteFromZone (s : Battlefield) (guid : ℕ) : Battlefield :=
  let team := w.team guid
  if w.findPlayer guid then
    if guid ∈ s.playersInWar team ∨ guid ∈ keys (s.invitedPlayers team) then s
    else if s.hasVacancy c team then s.invitePlayerToWar c w guid
    else s.willKick w guid
  else s

def invitePlayersInZoneToWar (s : Battlefield) : Battlefield :=
  [Team.alliance, .horde].foldl (fun s team => (s.players team).foldl (inviteFromZone c w) s) s

/-- The loop of `InvitePlayersInQueueToWar`. -/
def inviteFromQueue (s : Battlefield) (guid : ℕ) : Battlefield :=
  if w.findPlayer guid && s.hasVacancy c (w.team guid) then s.invitePlayerToWar c w guid else s

def invitePlayersInQueueToWar (s : Battlefield) : Battlefield :=
  [Team.alliance, .horde].foldl
    (fun s team =>
      let s := (s.playersInQueue team).foldl (inviteFromQueue c w) s
      { s with playersInQueue := modify s.playersInQueue team fun _ => [] })
    s

def startBattle (s : Battlefield) : Battlefield :=
  if s.isActive then s
  else
    let s := { s with playersInWar := fun _ => [], timer := c.battleTime, isActive := true }
    (s.invitePlayersInZoneToWar c w).invitePlayersInQueueToWar c w

def endBattle (s : Battlefield) : Battlefield :=
  if s.isActive then
    { s with
      isActive := false
      startGrouping := false
      playersInWar := fun _ => []
      timer := c.noWarBattleTime }
  else s

/-- The passes of `Update` while a battle lasts; to kick players changes nothing. -/
def updateWar (s : Battlefield) (diff : ℕ) : Battlefield :=
  let s :=
    { s with
      kickAfkPlayersTimer :=
        if s.kickAfkPlayersTimer ≤ diff then 1000 else s.kickAfkPlayersTimer - diff }
  if s.kickDontAcceptTimer ≤ diff then
    { s.invitePlayersInZoneToWar c w with kickDontAcceptTimer := 1000 }
  else { s with kickDontAcceptTimer := s.kickDontAcceptTimer - diff }

/-- A battle starts or ends in time. -/
def updateTimer (s : Battlefield) (diff : ℕ) : Battlefield :=
  if s.timer ≤ diff then if s.isActive then s.endBattle c else s.startBattle c w
  else { s with timer := s.timer - diff }

def update (s : Battlefield) (diff : ℕ) : Battlefield :=
  let s := s.updateTimer c w diff
  let s :=
    if !s.isActive && !s.startGrouping && s.timer ≤ c.startGroupingTimer then
      { s with startGrouping := true }
    else s
  if s.isActive then s.updateWar c w diff else s

def playerAcceptInviteToQueue (s : Battlefield) (guid : ℕ) : Battlefield :=
  { s with playersInQueue := modify s.playersInQueue (w.team guid) fun l => insertGuid l guid }

def askToLeaveQueue (s : Battlefield) (guid : ℕ) : Battlefield :=
  { s with playersInQueue := modify s.playersInQueue (w.team guid) fun l => l.erase guid }

/-- `Battlefield::PlayerAcceptInviteToWar`; a player in the world gets a group. -/
def playerAcceptInviteToWar (s : Battlefield) (guid : ℕ) : Battlefield :=
  if s.isActive && w.isInWorld guid then
    { s with
      playersInWar := modify s.playersInWar (w.team guid) fun l => insertGuid l guid
      invitedPlayers := modify s.invitedPlayers (w.team guid) fun l => eraseKey l guid }
  else s

end Battlefield

inductive Request where
  | enterZone (guid : ℕ)
  | leaveZone (guid : ℕ)
  | queueInviteResponse (guid battlefield : ℕ) (accepted : Bool)
  | entryInviteResponse (guid battlefield : ℕ) (accepted : Bool)
  | exitRequest (guid battlefield : ℕ)
  | update (diff : ℕ)
  /-- The objective is taken before the time is up. -/
  | endBattle
  | setTimer (timer : ℕ)

/-- Serves a request; one for another battlefield is not for this one. -/
def step (c : Config) (s : Battlefield) : World × Request → Battlefield
  | (w, .enterZone guid) => s.handlePlayerEnterZone c w guid
  | (w, .leaveZone guid) => s.handlePlayerLeaveZone w guid
  | (w, .queueInviteResponse guid battlefield accepted) =>
    if battlefield = c.guid ∧ accepted then s.playerAcceptInviteToQueue w guid else s
  | (w, .entryInviteResponse guid battlefield accepted) =>
    if battlefield = c.guid ∧ accepted then s.playerAcceptInviteToWar w guid else s
  | (w, .exitRequest guid battlefield) =>
    if battlefield = c.guid then s.askToLeaveQueue w guid else s
  | (w, .update diff) => s.update c w diff
  | (_, .endBattle) => s.endBattle c
  | (_, .setTimer timer) => { s with timer := timer }

end ZerosCore.Battlefields
