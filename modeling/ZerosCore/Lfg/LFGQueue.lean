/-
# The queue of the dungeon finder

`LFGQueue` of `src/server/game/DungeonFinding/LFGQueue.cpp`: the entries that wait, the
cache of compatibilities, `CheckCompatibility`, `FindNewGroups` and `FindGroups`.

An entry is a player or a group.  What the queue asks of the manager is a parameter: the
states of the entries, who ignores whom, the time and the dice.  A proposal that is made is
added to a list, from which the manager numbers them.  The search takes its candidates out of
a list that all levels of the recursion share: `findNewGroups` gives back what is left of it.
Its fuel is the depth; a level takes at least one candidate.

Wait times, the best compatible combination that is shown to players, the leader of a
proposal and the log are left out.
-/

import ZerosCore.Lfg.Roles
import ZerosCore.Lib.Joined
import Mathlib.Data.List.Sort

namespace ZerosCore.Lfg

open Lib

def maxGroupSize : ℕ := 5

/-- `LFG_TIME_PROPOSAL`, in seconds. -/
def lfgTimeProposal : ℕ := 45

def isGroupGuid (guid : ℕ) : Bool := guid / 2 ^ 52 % 2 ^ 12 = 0x1F5

inductive LfgState where
  | none
  | rolecheck
  | queued
  | proposal
  | boot
  | dungeon
  | finishedDungeon
  | raidbrowser
deriving DecidableEq

inductive LfgAnswer where
  | pending
  | deny
  | agree
deriving DecidableEq

inductive LfgCompatibility where
  | pending
  | wrongGroupSize
  | tooMuchPlayers
  | multipleLfgGroups
  | hasIgnores
  | noRoles
  | noDungeons
  | withLessPlayers
  | badStates
  | matched
deriving DecidableEq

/-- The value is under `LFG_COMPATIBLES_WITH_LESS_PLAYERS`, that is not compatible. -/
def LfgCompatibility.isIncompatible : LfgCompatibility → Bool
  | .withLessPlayers | .badStates | .matched => false
  | _ => true

/-- `LfgQueueData`: the dungeons and the roles an entry is queued for. -/
structure LfgQueueData where
  dungeons : List ℕ
  roles : RolesMap

structure LfgProposalPlayer where
  role : RoleMask
  accept : LfgAnswer
  group : ℕ

/-- `LfgProposal`; one that is stored is always being initiated. -/
structure LfgProposal where
  dungeonId : ℕ
  group : ℕ
  cancelTime : ℕ
  isNew : Bool
  queues : List ℕ
  players : List (ℕ × LfgProposalPlayer)

/-- What is asked of the world: who is online and ignores whom, the time, and what the dice
say for a proposal of some entries. -/
structure Env where
  online : ℕ → Bool
  ignores : ℕ → ℕ → Bool
  now : ℕ
  urand : List ℕ → ℕ

/-- What a queue asks of the manager too: the states of players and groups. -/
structure World extends Env where
  state : ℕ → LfgState
  oldState : ℕ → LfgState

namespace World

def isLfgGroup (w : World) (guid : ℕ) : Bool :=
  guid ≠ 0 && isGroupGuid guid && w.oldState guid ≠ .none

def hasIgnore (w : World) (guid1 guid2 : ℕ) : Bool :=
  w.online guid1 && w.online guid2 && (w.ignores guid1 guid2 || w.ignores guid2 guid1)

def allQueued (w : World) (check : List ℕ) : Bool :=
  check ≠ [] && check.all fun guid => w.state guid = .queued

end World

def decimal (guid : ℕ) : List Char := Nat.toDigits 10 guid

/-- The guids in order, each once. -/
def guidSet (check : List ℕ) : List ℕ := check.dedup.insertionSort (· ≤ ·)

def concatenateGuids (check : List ℕ) : List Char := joined '|' ((guidSet check).map decimal)

structure LFGQueue where
  queueData : ℕ → Option LfgQueueData
  compatibles : List Char → Option LfgCompatibility
  currentQueue : List ℕ
  newToQueue : List ℕ

namespace LFGQueue

def empty : LFGQueue := ⟨fun _ => none, fun _ => none, [], []⟩

/-- `QueueDataStore[guid].roles` and `.dungeons`. -/
def roles (q : LFGQueue) (guid : ℕ) : RolesMap := (q.queueData guid).elim [] LfgQueueData.roles

def dungeons (q : LFGQueue) (guid : ℕ) : List ℕ := (q.queueData guid).elim [] LfgQueueData.dungeons

def addToNewQueue (q : LFGQueue) (guid : ℕ) : LFGQueue :=
  { q with newToQueue := q.newToQueue ++ [guid] }

def addToCurrentQueue (q : LFGQueue) (guid : ℕ) : LFGQueue :=
  { q with currentQueue := q.currentQueue ++ [guid] }

def removeFromNewQueue (q : LFGQueue) (guid : ℕ) : LFGQueue :=
  { q with newToQueue := q.newToQueue.filter (· ≠ guid) }

def removeFromCurrentQueue (q : LFGQueue) (guid : ℕ) : LFGQueue :=
  { q with currentQueue := q.currentQueue.filter (· ≠ guid) }

def addToQueue (q : LFGQueue) (guid : ℕ) : LFGQueue :=
  match q.queueData guid with
  | none => q
  | some _ => q.addToNewQueue guid

def addQueueData (q : LFGQueue) (guid : ℕ) (data : LfgQueueData) : LFGQueue :=
  addToQueue { q with queueData := fun g => if g = guid then some data else q.queueData g } guid

/-- `LFGQueue::RemoveFromCompatibles`: keys in which the guid is found as text. -/
def removeFromCompatibles (q : LFGQueue) (guid : ℕ) : LFGQueue :=
  { q with
    compatibles := fun key => if decimal guid <:+: key then none else q.compatibles key }

def removeFromQueue (q : LFGQueue) (guid : ℕ) : LFGQueue :=
  let q := ((q.removeFromNewQueue guid).removeFromCurrentQueue guid).removeFromCompatibles guid
  { q with queueData := fun g => if g = guid then none else q.queueData g }

/-- `LFGQueue::SetCompatibles` and `SetCompatibilityData`. -/
def setCompatibles (q : LFGQueue) (check : List ℕ) (c : LfgCompatibility) : LFGQueue :=
  { q with
    compatibles := fun key => if key = concatenateGuids check then some c else q.compatibles key }

def getCompatibles (q : LFGQueue) (check : List ℕ) : LfgCompatibility :=
  (q.compatibles (concatenateGuids check)).getD .pending

end LFGQueue

/-- A queue that is searched, and the proposals that were made. -/
structure Search where
  queue : LFGQueue
  made : List LfgProposal

namespace Search

def setCompatibles (s : Search) (check : List ℕ) (c : LfgCompatibility) : Search :=
  { s with queue := s.queue.setCompatibles check c }

/-- What is counted of the entries of a list: the players, the LFG groups and the first of
them, and the group each player comes from. -/
structure Tally where
  numPlayers : ℕ
  numLfgGroups : ℕ
  group : ℕ
  proposalGroups : List (ℕ × ℕ)

/-- The loop of `CheckCompatibility` that counts players and groups; an entry without data
ends it. -/
def countPlayers (w : World) (q : LFGQueue) : List ℕ → Tally → Except ℕ Tally
  | [], t => .ok t
  | guid :: check, t =>
    if t.numLfgGroups < 2 ∧ t.numPlayers ≤ maxGroupSize then
      match q.queueData guid with
      | none => .error guid
      | some data =>
        countPlayers w q check
          { numPlayers := (t.numPlayers + data.roles.length) % 256
            numLfgGroups := if w.isLfgGroup guid then t.numLfgGroups + 1 else t.numLfgGroups
            group := if w.isLfgGroup guid && t.numLfgGroups = 0 then guid else t.group
            proposalGroups :=
              (data.roles.map fun e => (e.1, if isGroupGuid guid then guid else 0)) ++
                t.proposalGroups }
    else .ok t

/-- `proposalRoles[guid] = role`, in a map by guid. -/
def setRole (e : ℕ × RoleMask) : RolesMap → RolesMap
  | [] => [e]
  | e' :: roles =>
    if e.1 < e'.1 then e :: e' :: roles
    else if e.1 = e'.1 then e :: roles
    else e' :: setRole e roles

/-- A player is added to the map unless he and another player of it ignore each other. -/
def addRole (w : World) (roles : RolesMap) (e : ℕ × RoleMask) : RolesMap :=
  if ∃ e' ∈ roles, e.1 ≠ e'.1 ∧ w.hasIgnore e.1 e'.1 then roles else setRole e roles

/-- The loop of `CheckCompatibility` that gathers the players of all entries. -/
def proposalRoles (w : World) (q : LFGQueue) (check : List ℕ) : RolesMap :=
  check.foldl (fun roles guid => (q.roles guid).foldl (addRole w) roles) []

/-- The dungeons that all entries are queued for. -/
def proposalDungeons (q : LFGQueue) : List ℕ → List ℕ
  | [] => []
  | guid :: check => check.foldl (fun ds g => ds.filter (· ∈ q.dungeons g)) (q.dungeons guid)

def proposal (w : World) (t : Tally) (check : List ℕ) (roles : RolesMap) (dungeons : List ℕ) :
    LfgProposal :=
  let isNew : Bool := t.numLfgGroups ≠ 1 || w.oldState (check.headD 0) ≠ .dungeon
  { dungeonId := dungeons.getD (w.urand check % dungeons.length) 0, group := t.group
    cancelTime := w.now + lfgTimeProposal
    isNew := isNew
    queues := check
    players := roles.map fun e =>
      let group := (t.proposalGroups.lookup e.1).getD 0
      (e.1, ⟨e.2, if !isNew && group ≠ 0 && group = t.group then .agree else .pending, group⟩) }

/-- The end of `CheckCompatibility`, with the roles and the dungeons for the list. -/
def propose (w : World) (s : Search) (t : Tally) (check : List ℕ) (roles : RolesMap)
    (dungeons : List ℕ) : Search × LfgCompatibility :=
  if t.numPlayers ≠ maxGroupSize then
    (s.setCompatibles check .withLessPlayers, .withLessPlayers)
  else if !w.allQueued check then (s.setCompatibles check .badStates, .badStates)
  else
    let queue := check.foldl
      (fun q guid => (q.removeFromNewQueue guid).removeFromCurrentQueue guid) s.queue
    let s : Search := ⟨queue, s.made ++ [proposal w t check roles dungeons]⟩
    (s.setCompatibles check .matched, .matched)

/-- `CheckCompatibility` for several entries, after they were counted. -/
def checkEntries (w : World) (s : Search) (t : Tally) (check : List ℕ) : Search × LfgCompatibility :=
  let roles := proposalRoles w s.queue check
  if (t.numPlayers + 256 - roles.length % 256) % 256 ≠ 0 then
    (s.setCompatibles check .hasIgnores, .hasIgnores)
  else
    let answer := checkGroupRoles roles
    if !answer.1 then (s.setCompatibles check .noRoles, .noRoles)
    else if proposalDungeons s.queue check = [] then
      (s.setCompatibles check .noDungeons, .noDungeons)
    else propose w s t check answer.2 (proposalDungeons s.queue check)

/-- `CheckCompatibility` for one entry, after it was counted. -/
def checkEntry (w : World) (s : Search) (t : Tally) (guid : ℕ) : Search × LfgCompatibility :=
  propose w s t [guid] (checkGroupRoles (s.queue.roles guid)).2 (s.queue.dungeons guid)

/-- `CheckCompatibility` after the check of all entries but the first. -/
def checkAll (w : World) (s : Search) (check : List ℕ) : Search × LfgCompatibility :=
  match countPlayers w s.queue check ⟨0, 0, 0, []⟩ with
  | .error guid => ({ s with queue := s.queue.removeFromQueue guid }, .pending)
  | .ok t =>
    if check.length = 1 ∧ t.numPlayers ≠ maxGroupSize then
      (s.setCompatibles check .withLessPlayers, .withLessPlayers)
    else if t.numLfgGroups > 1 then
      (s.setCompatibles check .multipleLfgGroups, .multipleLfgGroups)
    else if t.numPlayers > maxGroupSize then
      (s.setCompatibles check .tooMuchPlayers, .tooMuchPlayers)
    else
      match check with
      | [guid] => checkEntry w s t guid
      | check => checkEntries w s t check

def checkCompatibility (w : World) (s : Search) : List ℕ → Search × LfgCompatibility
  | [] => (s, .wrongGroupSize)
  | guid :: check =>
    if check.length + 1 > maxGroupSize then (s, .wrongGroupSize)
    else if check.length + 1 > 2 then
      let child := checkCompatibility w s check
      if child.2.isIncompatible then (child.1.setCompatibles (guid :: check) child.2, child.2)
      else checkAll w child.1 (guid :: check)
    else checkAll w s (guid :: check)

/-- The answer for a list in `FindNewGroups`: cached, or calculated; `BAD_STATES` becomes
`MATCH` when all are queued. -/
def getCompatibility (w : World) (s : Search) (check : List ℕ) : Search × LfgCompatibility :=
  let r := if s.queue.getCompatibles check = .pending then checkCompatibility w s check
    else (s, s.queue.getCompatibles check)
  if r.2 = .badStates ∧ w.allQueued check then (r.1.setCompatibles check .matched, .matched) else r

/-- The loop of `FindNewGroups` over the candidates that are left; it gives back those that
are left then. -/
def tryQueued (find : Search → List ℕ → List ℕ → Search × LfgCompatibility × List ℕ) :
    ℕ → Search → List ℕ → List ℕ → Search × LfgCompatibility × List ℕ
  | 0, s, _, all => (s, .withLessPlayers, all)
  | _ + 1, s, _, [] => (s, .withLessPlayers, [])
  | left + 1, s, check, guid :: all =>
    let r := find s (check ++ [guid]) all
    if r.2.1 = .matched then r else tryQueued find left r.1 check r.2.2

def findNewGroups (w : World) : ℕ → Search → List ℕ → List ℕ → Search × LfgCompatibility × List ℕ
  | 0, s, _, all => (s, .pending, all)
  | fuel + 1, s, check, all =>
    let r := getCompatibility w s check
    if r.2 ≠ .withLessPlayers then (r.1, r.2, all)
    else tryQueued (findNewGroups w fuel) all.length r.1 check all

/-- One turn of the loop of `FindGroups`. -/
def findGroup (w : World) (s : Search) (frontguid : ℕ) : Search :=
  let s : Search := { s with queue := s.queue.removeFromNewQueue frontguid }
  let r := findNewGroups w (s.queue.currentQueue.length + 1) s [frontguid] s.queue.currentQueue
  if r.2.1 = .matched then r.1
  else { r.1 with queue := r.1.queue.addToCurrentQueue frontguid }

/-- The loop of `FindGroups`, for as many turns as there are new entries. -/
def findGroupsFrom (w : World) : ℕ → Search → Search
  | 0, s => s
  | left + 1, s =>
    match s.queue.newToQueue with
    | [] => s
    | frontguid :: _ => findGroupsFrom w left (findGroup w s frontguid)

def findGroups (w : World) (s : Search) : Search :=
  findGroupsFrom w s.queue.newToQueue.length s

end Search
end ZerosCore.Lfg
