/-
# The queue of a battleground

`BattlegroundQueue` of `src/server/game/Battlegrounds/BattlegroundQueue.cpp` and
`BattlegroundQueue.h`, and its part in `src/server/game/Cfbg/Cfbg.cpp`, where players of both
sides wait in one list.

A `GroupQueueInfo *` is a number, under which `groups` keeps what it points to; the number of a
group that is deleted is not given out again.  `PlayerQueueInfo` is the number of the group, the
map of the players of a group is the set of its keys, and `begin` of it is the least one.  The
counts of players are natural numbers, times and ratings are 32 bits.  What the queue reads of
the world and of the battlegrounds, which changes from request to request, is a `World`; the
battlegrounds that are created while an update goes on are numbered.

Packets, announcements, waiting times, the counts of invited players of a battleground, and what
a match costs the ratings of a team are left out; the event that takes a player from the queue
when he does not answer is a request to remove him.
-/

import ZerosCore.Battlegrounds.Battleground
import ZerosCore.Lib.Multimap
import Mathlib.Data.Finset.Max
import Mathlib.Data.List.FinRange

namespace ZerosCore.Battlegrounds.Queues

open Lib

/-- `BattlegroundBracketId`, of which there are `MAX_BATTLEGROUND_BRACKETS`. -/
abbrev BracketId := Fin 16

/-- `BattlegroundQueueGroupTypes`. -/
inductive QueueGroupType
  | premade (team : Team)
  | normal (team : Team)
  | mixed
  deriving DecidableEq

def queueGroupTypes : List QueueGroupType :=
  [.premade .alliance, .premade .horde, .normal .alliance, .normal .horde, .mixed]

structure GroupQueueInfo where
  players : Finset ℕ
  team : Team
  /-- `OTeam == ALLIANCE`, which nobody sets. -/
  oAlliance : Bool
  isRated : Bool
  arenaTeamId : ℕ
  joinTime : UInt32
  isInvitedToBGInstanceGUID : ℕ
  arenaMatchmakerRating : UInt32
  ratingRange : UInt32
  ratingRangeIncreaseCounter : UInt32

instance : Inhabited GroupQueueInfo := ⟨⟨∅, .alliance, false, false, 0, 0, 0, 0, 0, 0⟩⟩

structure SelectionPool where
  selectedGroups : List ℕ
  playerCount : ℕ

/-- What the queue asks of a `Battleground`. -/
structure Place where
  instanceID : ℕ
  typeID : ℕ
  bracketId : BracketId
  status : ℕ
  isArena : Bool
  isRated : Bool
  freeSlotsForTeam : Team → ℕ
  minPlayersPerTeam : ℕ
  maxPlayersPerTeam : ℕ

def statusWaitQueue : ℕ := 1

def statusWaitLeave : ℕ := 4

structure World where
  now : UInt32
  crossfactionEnabled : Bool
  invitationType : ℕ
  premadeGroupWaitForMatch : UInt32
  isTesting : Bool
  isArenaTesting : Bool
  maxRatingDifference : UInt32
  ratingDiscardTimer : UInt32
  /-- What a new `GroupQueueInfo` has for `OTeam`. -/
  oAlliance : Bool
  bgFreeSlotQueue : ℕ → List Place
  battlegroundTemplate : ℕ → Option Place
  hasBracketEntry : Bool
  createNewBattleground : ℕ → Option Place

/-- A world without battlegrounds, where nothing is configured. -/
def noBattlegrounds : World where
  now := 0
  crossfactionEnabled := false
  invitationType := 0
  premadeGroupWaitForMatch := 0
  isTesting := false
  isArenaTesting := false
  maxRatingDifference := 0
  ratingDiscardTimer := 0
  oAlliance := false
  bgFreeSlotQueue := fun _ => []
  battlegroundTemplate := fun _ => none
  hasBracketEntry := false
  createNewBattleground := fun _ => none

structure BattlegroundQueue where
  groups : ℕ → GroupQueueInfo
  /-- The number of the next group. -/
  next : ℕ
  queuedPlayers : ℕ → Option ℕ
  queuedGroups : BracketId → QueueGroupType → List ℕ
  selectionPools : Team → SelectionPool

/-- A queue at the start of the server. -/
def BattlegroundQueue.initial : BattlegroundQueue where
  groups := fun _ => default
  next := 0
  queuedPlayers := fun _ => none
  queuedGroups := fun _ _ => []
  selectionPools := fun _ => ⟨[], 0⟩

/-! ### Selection pools -/

def SelectionPool.addGroup (pool : SelectionPool) (id : ℕ) (ginfo : GroupQueueInfo)
    (desiredCount : ℕ) : SelectionPool × Bool :=
  if ginfo.isInvitedToBGInstanceGUID = 0 ∧
      pool.playerCount + ginfo.players.card ≤ desiredCount then
    (⟨pool.selectedGroups ++ [id], pool.playerCount + ginfo.players.card⟩, true)
  else (pool, pool.playerCount < desiredCount)

/-- The loop of `SelectionPool::KickGroup`. -/
def groupToKick (card : ℕ → ℕ) (size first : ℕ) (selected : List ℕ) : ℕ :=
  (selected.foldl (fun kick id =>
      if ((card id : ℤ) - size).natAbs ≤ 1 then (id, true)
      else if kick.2 = false ∧ card kick.1 ≤ card id then (id, false)
      else kick)
    (first, false)).1

def SelectionPool.kickGroup (pool : SelectionPool) (card : ℕ → ℕ) (size : ℕ) :
    SelectionPool × Bool :=
  match pool.selectedGroups with
  | [] => (pool, true)
  | first :: _ =>
    if pool.playerCount = 0 then (pool, true)
    else
      let kick := groupToKick card size first pool.selectedGroups
      (⟨pool.selectedGroups.erase kick, pool.playerCount - card kick⟩, size + 1 < card kick)

namespace BattlegroundQueue

variable (w : World)

def playerCount (s : BattlegroundQueue) (team : Team) : ℕ := (s.selectionPools team).playerCount

def size (s : BattlegroundQueue) (id : ℕ) : ℕ := (s.groups id).players.card

def isInvited (s : BattlegroundQueue) (id : ℕ) : Bool :=
  (s.groups id).isInvitedToBGInstanceGUID ≠ 0

def setPool (s : BattlegroundQueue) (team : Team) (pool : SelectionPool) : BattlegroundQueue :=
  { s with selectionPools := Function.update s.selectionPools team pool }

/-- `SelectionPool::Init`. -/
def initPool (s : BattlegroundQueue) (team : Team) : BattlegroundQueue := s.setPool team ⟨[], 0⟩

def initPools (s : BattlegroundQueue) : BattlegroundQueue := (s.initPool .alliance).initPool .horde

/-- `m_SelectionPools[team].AddGroup(id, desiredCount)`. -/
def select (s : BattlegroundQueue) (team : Team) (id desiredCount : ℕ) :
    BattlegroundQueue × Bool :=
  let added := (s.selectionPools team).addGroup id (s.groups id) desiredCount
  (s.setPool team added.1, added.2)

/-- `m_SelectionPools[team].KickGroup(size)`. -/
def kick (s : BattlegroundQueue) (team : Team) (size : ℕ) : BattlegroundQueue × Bool :=
  let kicked := (s.selectionPools team).kickGroup s.size size
  (s.setPool team kicked.1, kicked.2)

/-- What a pointer points to is changed. -/
def modifyGroup (s : BattlegroundQueue) (id : ℕ) (f : GroupQueueInfo → GroupQueueInfo) :
    BattlegroundQueue :=
  { s with groups := Function.update s.groups id (f (s.groups id)) }

def modifyList (s : BattlegroundQueue) (bracketId : BracketId) (index : QueueGroupType)
    (f : List ℕ → List ℕ) : BattlegroundQueue :=
  { s with
    queuedGroups := Function.update s.queuedGroups bracketId
      (Function.update (s.queuedGroups bracketId) index (f (s.queuedGroups bracketId index))) }

/-! ### Players come and go -/

def addGroup (s : BattlegroundQueue) (leader : ℕ) (team : Team) (grp : Option (List ℕ))
    (bracketId : BracketId) (arenaType : ℕ) (isRated isPremade : Bool) (matchmakerRating : UInt32)
    (arenaTeamId : ℕ) : BattlegroundQueue :=
  let index : QueueGroupType :=
    if w.crossfactionEnabled ∧ arenaType = 0 then .mixed
    else if !isRated && !isPremade then .normal team
    else .premade team
  let members := grp.getD [leader]
  let id := s.next
  let s :=
    { s with
      groups := Function.update s.groups id
        { players := members.toFinset, team := team, oAlliance := w.oAlliance, isRated := isRated
          arenaTeamId := arenaTeamId
          joinTime := w.now
          isInvitedToBGInstanceGUID := 0
          arenaMatchmakerRating := matchmakerRating
          ratingRange := 0
          ratingRangeIncreaseCounter := 0 }
      next := id + 1
      queuedPlayers := fun guid => if guid ∈ members then some id else s.queuedPlayers guid }
  s.modifyList bracketId index fun l => l ++ [id]

/-- The search of `RemovePlayer`: the brackets from the last one down, and the last list of a
bracket that has the group. -/
def findGroup (s : BattlegroundQueue) (id : ℕ) : Option (BracketId × QueueGroupType) :=
  (List.finRange 16).reverse.findSome? fun bracketId =>
    (queueGroupTypes.reverse.find? fun index => id ∈ s.queuedGroups bracketId index).map
      fun index => (bracketId, index)

/-- A player is taken out of the queue and of his group. -/
def takeOut (s : BattlegroundQueue) (guid id : ℕ) : BattlegroundQueue :=
  { s.modifyGroup id fun g => { g with players := g.players.erase guid } with
    queuedPlayers := Function.update s.queuedPlayers guid none }

/-- `RemovePlayer`, with a bound on the calls of itself. -/
def removePlayerFrom : ℕ → BattlegroundQueue → ℕ → BattlegroundQueue
  | n, s, guid =>
    match s.queuedPlayers guid with
    | none => s
    | some id =>
      match s.findGroup id with
      | none => s
      | some (bracketId, index) =>
        let s := s.takeOut guid id
        if (s.groups id).players = ∅ then s.modifyList bracketId index fun l => l.erase id
        else if !s.isInvited id && (s.groups id).isRated then
          match n, (s.groups id).players.min with
          | n + 1, (next : ℕ) => removePlayerFrom n s next
          | _, _ => s
        else s

/-- `BattlegroundQueue::RemovePlayer`: the calls go through the group. -/
def removePlayer (s : BattlegroundQueue) (guid : ℕ) : BattlegroundQueue :=
  s.removePlayerFrom ((s.queuedPlayers guid).elim 0 s.size) guid

/-! ### Invitations -/

def inviteGroupToBG (bg : Place) (s : BattlegroundQueue) (id : ℕ) (side : Team) :
    BattlegroundQueue :=
  s.modifyGroup id fun g =>
    { g with
      team := side
      isInvitedToBGInstanceGUID :=
        if g.isInvitedToBGInstanceGUID = 0 then bg.instanceID else g.isInvitedToBGInstanceGUID }

/-- The groups of a pool are invited, to their own sides. -/
def invitePool (bg : Place) (s : BattlegroundQueue) (team : Team) : BattlegroundQueue :=
  (s.selectionPools team).selectedGroups.foldl
    (fun s id => s.inviteGroupToBG bg id (s.groups id).team) s

def invitePools (bg : Place) (s : BattlegroundQueue) : BattlegroundQueue :=
  (s.invitePool bg .alliance).invitePool bg .horde

/-! ### Battlegrounds for both sides -/

/-- The groups by size, with the iterator that goes from the largest down. -/
def bySizeDown (s : BattlegroundQueue) (ids : List ℕ) : List ℕ :=
  (ids.foldl (fun m id => Multimap.insert s.size id m) []).reverse

def preAddPlayers (s : BattlegroundQueue) (ids : List ℕ) (maxAdd : ℤ) (maxInTeam : ℕ) :
    BattlegroundQueue × ℤ :=
  (s.bySizeDown ids).foldl
    (fun (s, leftToAdd) id =>
      if (s.size id : ℤ) ≤ leftToAdd then
        let (s, added) := s.select (if (s.groups id).oAlliance then .alliance else .horde) id
          maxInTeam
        (s, if added then leftToAdd - s.size id else leftToAdd)
      else (s, leftToAdd))
    (s, maxAdd)

/-- The last loop of `FillXPlayersToBG`, with the places that are left for the teams. -/
def fillXGroup (bg : Place) (free : Team → ℕ) :
    BattlegroundQueue × (Team → ℤ) → ℕ → BattlegroundQueue × (Team → ℤ)
  | (s, vfree), id =>
    if s.isInvited id ∨ id ∈ (s.selectionPools .alliance).selectedGroups ∨
        id ∈ (s.selectionPools .horde).selectedGroups ∨
        bg.minPlayersPerTeam ≤ s.playerCount .alliance ∧
          bg.minPlayersPerTeam ≤ s.playerCount .horde then
      (s, vfree)
    else
      let s :=
        if vfree .alliance = vfree .horde then s
        else s.modifyGroup id fun g =>
          { g with team := if vfree .alliance < vfree .horde then .horde else .alliance }
      let team := (s.groups id).team
      let (s, added) := s.select team id (free team)
      (s, if added then Function.update vfree team (vfree team - s.size id) else vfree)

def fillXPlayersToBG (s : BattlegroundQueue) (bracketId : BracketId) (bg : Place) (start : Bool) :
    BattlegroundQueue × Bool :=
  let queue := s.queuedGroups bracketId .mixed
  let waiting := queue.filter fun id => !s.isInvited id
  let queuedPeople := (waiting.map s.size).sum % 256
  if w.crossfactionEnabled ∧
      (w.isTesting ∨ bg.minPlayersPerTeam * 2 ≤ queuedPeople ∨ start = false) then
    let free : Team → ℕ := fun team =>
      if start then bg.maxPlayersPerTeam else bg.freeSlotsForTeam team
    let s := s.initPools
    let (s, vfree) : BattlegroundQueue × (Team → ℤ) :=
      if start then
        let alliance := waiting.filter fun id => (s.groups id).oAlliance
        let horde := waiting.filter fun id => !(s.groups id).oAlliance
        let smallestOfTeams := min (min (free .alliance) (alliance.map s.size).sum)
          (min (free .horde) (horde.map s.size).sum)
        let (s, leftAlliance) := s.preAddPlayers alliance smallestOfTeams (free .alliance)
        let (s, leftHorde) := s.preAddPlayers horde smallestOfTeams (free .horde)
        (s, fun team => free team - match team with | .alliance => leftAlliance | .horde => leftHorde)
      else (s, fun team => free team)
    (((s.bySizeDown queue).foldl (fillXGroup bg free) (s, vfree)).1, true)
  else (s, false)

def checkCrossFactionMatch (s : BattlegroundQueue) (bracketId : BracketId) (bg : Place) :
    BattlegroundQueue × Bool :=
  if !w.crossfactionEnabled || bg.isArena then (s, false)
  else
    let s := (s.fillXPlayersToBG w bracketId bg true).1
    if w.isTesting ∧ (0 < s.playerCount .alliance ∨ 0 < s.playerCount .horde) then (s, true)
    else
      (s, bg.minPlayersPerTeam % 256 ≤ s.playerCount .alliance ∧
        bg.minPlayersPerTeam % 256 ≤ s.playerCount .horde)

/-! ### Places in a battleground that goes on -/

/-- Groups are added to a pool from a list on as long as it takes them; what is left of the
list. -/
def selectWhile (team : Team) (desiredCount : ℕ) :
    List ℕ → BattlegroundQueue → List ℕ × BattlegroundQueue
  | [], s => ([], s)
  | id :: rest, s =>
    let (t, more) := s.select team id desiredCount
    if more then selectWhile team desiredCount rest t else (id :: rest, t)

/-- The places that a pool leaves free, `diffAli` and `diffHorde`. -/
def diff (free : Team → ℕ) (s : BattlegroundQueue) (team : Team) : ℤ :=
  (free team : ℤ) - s.playerCount team

def kickSide (free : Team → ℕ) (s : BattlegroundQueue) : Team :=
  if diff free s .alliance < diff free s .horde then .alliance else .horde

/-- A group is kicked of a pool, and new ones are added if needed; what is left of the list. -/
def kickAndFill (free : Team → ℕ) (s : BattlegroundQueue) (team : Team) (rest : List ℕ) :
    List ℕ × BattlegroundQueue :=
  let other := diff free s team.other
  let (t, kicked) := s.kick team (other - diff free s team).toNat
  if kicked then selectWhile team ((free team : ℤ) - other).toNat rest t else (rest, t)

/-- The last loop of `FillPlayersToBG`, with what is left of the lists; each turn takes a group
from a pool, so that `n` is not used up. -/
def balance (free : Team → ℕ) : ℕ → (Team → List ℕ) → BattlegroundQueue → BattlegroundQueue
  | 0, _, s => s
  | n + 1, rest, s =>
    if 1 < (diff free s .alliance - diff free s .horde).natAbs ∧
        (0 < s.playerCount .horde ∨ 0 < s.playerCount .alliance) then
      let team := s.kickSide free
      let other := diff free s team.other
      let (left, t) := s.kickAndFill free team (rest team)
      let rest := Function.update rest team left
      if t.playerCount team = 0 then
        if (free team : ℤ) ≤ other + 1 then t
        else balance free n rest (t.kick team.other (other - diff free s team).toNat).1
      else balance free n rest t
    else s

def fillPlayersToBG (s : BattlegroundQueue) (bg : Place) (bracketId : BracketId) :
    BattlegroundQueue :=
  let (s, filled) := if bg.isArena then (s, false) else s.fillXPlayersToBG w bracketId bg false
  if filled then s
  else
    let queue : Team → List ℕ := fun team => s.queuedGroups bracketId (.normal team)
    let (leftAlliance, s) :=
      selectWhile .alliance (bg.freeSlotsForTeam .alliance) (queue .alliance) s
    let (leftHorde, s) := selectWhile .horde (bg.freeSlotsForTeam .horde) (queue .horde) s
    if w.invitationType = 0 then s
    else
      balance bg.freeSlotsForTeam (2 * ((queue .alliance).length + (queue .horde).length) + 1)
        (fun team => match team with | .alliance => leftAlliance | .horde => leftHorde) s

/-- The loop over the battlegrounds with free slots. -/
def fillFreeSlots (bgTypeId : ℕ) (bracketId : BracketId) (s : BattlegroundQueue) (bg : Place) :
    BattlegroundQueue :=
  if bg.isRated = false ∧ bg.typeID = bgTypeId ∧ bg.bracketId = bracketId ∧
      statusWaitQueue < bg.status ∧ bg.status < statusWaitLeave then
    (s.initPools.fillPlayersToBG w bg bracketId).invitePools bg
  else s

/-! ### New battlegrounds -/

/-- Groups that are not invited are added to a pool as long as it takes them. -/
def selectUntil (team : Team) (desiredCount : ℕ) : List ℕ → BattlegroundQueue → BattlegroundQueue
  | [], s => s
  | id :: rest, s =>
    if s.isInvited id then selectUntil team desiredCount rest s
    else
      let (t, more) := s.select team id desiredCount
      if more then selectUntil team desiredCount rest t else t

/-- A group is put to the front of another list. -/
def moveFront (s : BattlegroundQueue) (bracketId : BracketId) (source target : QueueGroupType)
    (id : ℕ) : BattlegroundQueue :=
  (s.modifyList bracketId target fun l => id :: l).modifyList bracketId source fun l => l.erase id

/-- The first group of the premade queue goes to the normal one if it has waited long enough, or
has become too small. -/
def premadeToNormal (bracketId : BracketId) (minPlayersPerTeam : ℕ) (s : BattlegroundQueue)
    (team : Team) : BattlegroundQueue :=
  match s.queuedGroups bracketId (.premade team) with
  | [] => s
  | id :: _ =>
    if !s.isInvited id && ((s.groups id).joinTime < w.now - w.premadeGroupWaitForMatch ||
        s.size id < minPlayersPerTeam) then
      s.moveFront bracketId (.premade team) (.normal team) id
    else s

def checkPremadeMatch (s : BattlegroundQueue) (bracketId : BracketId)
    (minPlayersPerTeam maxPlayersPerTeam : ℕ) : BattlegroundQueue × Bool :=
  let first := fun team =>
    (s.queuedGroups bracketId (.premade team)).find? fun id => !s.isInvited id
  match first .alliance, first .horde with
  | some aliGroup, some hordeGroup =>
    let s := (s.select .alliance aliGroup maxPlayersPerTeam).1
    let s := (s.select .horde hordeGroup maxPlayersPerTeam).1
    let maxPlayers := min (s.playerCount .alliance) (s.playerCount .horde)
    ([Team.alliance, .horde].foldl (fun s team =>
        selectUntil team maxPlayers (s.queuedGroups bracketId (.normal team)) s) s, true)
  | _, _ =>
    ([Team.alliance, .horde].foldl (premadeToNormal w bracketId minPlayersPerTeam) s, false)

/-- The first loop of `CheckNormalMatch`: groups are added until there are enough players; the
list from the last one on. -/
def selectEnough (team : Team) (minPlayers maxPlayers : ℕ) :
    List ℕ → BattlegroundQueue → List ℕ × BattlegroundQueue
  | [], s => ([], s)
  | id :: rest, s =>
    if s.isInvited id then selectEnough team minPlayers maxPlayers rest s
    else
      let t := (s.select team id maxPlayers).1
      if minPlayers ≤ t.playerCount team then (id :: rest, t)
      else selectEnough team minPlayers maxPlayers rest t

/-- Groups are added to the side that has fewer players, from the next one on. -/
def selectMore (leftAlliance leftHorde : List ℕ) (s : BattlegroundQueue) : BattlegroundQueue :=
  if s.playerCount .horde < s.playerCount .alliance then
    selectUntil .horde (s.playerCount .alliance) leftHorde.tail s
  else selectUntil .alliance (s.playerCount .horde) leftAlliance.tail s

/-- What `CheckNormalMatch` returns in the end. -/
def hasPlayers (s : BattlegroundQueue) (minPlayers : ℕ) : Bool :=
  w.isTesting ∧ (0 < s.playerCount .alliance ∨ 0 < s.playerCount .horde) ∨
    minPlayers ≤ s.playerCount .alliance ∧ minPlayers ≤ s.playerCount .horde

def checkNormalMatch (s : BattlegroundQueue) (bracketId : BracketId)
    (minPlayers maxPlayers : ℕ) : BattlegroundQueue × Bool :=
  let (leftAlliance, s) := selectEnough .alliance minPlayers maxPlayers
    (s.queuedGroups bracketId (.normal .alliance)) s
  let (leftHorde, s) := selectEnough .horde minPlayers maxPlayers
    (s.queuedGroups bracketId (.normal .horde)) s
  if w.invitationType ≠ 0 ∧ minPlayers ≤ s.playerCount .horde ∧
      minPlayers ≤ s.playerCount .alliance then
    let s := selectMore leftAlliance leftHorde s
    if 2 < ((s.playerCount .horde : ℤ) - s.playerCount .alliance).natAbs then (s, false)
    else (s, s.hasPlayers w minPlayers)
  else (s, s.hasPlayers w minPlayers)

/-- An element is erased behind the first `ginfo`. -/
def eraseAfter (ginfo id : ℕ) : List ℕ → List ℕ
  | [] => []
  | a :: l => if a = ginfo then a :: l.erase id else a :: eraseAfter ginfo id l

/-- A group of the other pool gets the other side and goes to its queue. -/
def changeSide (bracketId : BracketId) (team : Team) (ginfo : ℕ) (s : BattlegroundQueue)
    (id : ℕ) : BattlegroundQueue :=
  ((s.modifyGroup id fun g => { g with team := team.other }).modifyList bracketId
    (.normal team.other) fun l => id :: l).modifyList bracketId (.normal team) (eraseAfter ginfo id)

/-- `BattlegroundQueue::CheckSkirmishForSameFaction`; `back` of an empty pool is an address that
is in no list. -/
def checkSkirmishForSameFaction (s : BattlegroundQueue) (bracketId : BracketId)
    (minPlayersPerTeam : ℕ) : BattlegroundQueue × Bool :=
  if s.playerCount .alliance < minPlayersPerTeam ∧ s.playerCount .horde < minPlayersPerTeam then
    (s, false)
  else
    let team := if s.playerCount .horde = minPlayersPerTeam then Team.horde else .alliance
    let s := s.initPool team.other
    match (s.selectionPools team).selectedGroups.getLast? with
    | none => (s, false)
    | some ginfo =>
      let queue := s.queuedGroups bracketId (.normal team)
      if ginfo ∈ queue then
        let s := selectUntil team.other minPlayersPerTeam (queue.dropWhile (· ≠ ginfo)).tail s
        if s.playerCount team.other = minPlayersPerTeam then
          ((s.selectionPools team.other).selectedGroups.foldl (changeSide bracketId team ginfo) s,
            true)
        else (s, false)
      else (s, false)

/-! ### Rated matches -/

def getMSTimeDiff (oldMSTime newMSTime : UInt32) : UInt32 :=
  if newMSTime < oldMSTime then 0xFFFFFFFF - oldMSTime + newMSTime else newMSTime - oldMSTime

def increaseTeamMMrRange (s : BattlegroundQueue) (id : ℕ) : BattlegroundQueue :=
  s.modifyGroup id fun g =>
    { g with
      ratingRange := if 0 < g.ratingRangeIncreaseCounter then g.ratingRange + 100 else g.ratingRange
      ratingRangeIncreaseCounter := g.ratingRangeIncreaseCounter + 1 }

/-- A team that has waited for another half a minute is matched with more teams. -/
def widenRange (s : BattlegroundQueue) (id : ℕ) : BattlegroundQueue :=
  if 30 * 1000 * ((s.groups id).ratingRangeIncreaseCounter + 1) <
      getMSTimeDiff (s.groups id).joinTime w.now then
    s.increaseTeamMMrRange id
  else s

def arenaMinRating (g : GroupQueueInfo) : UInt32 :=
  let rating := g.arenaMatchmakerRating
  let minRating := if rating ≤ w.maxRatingDifference then 0 else rating - w.maxRatingDifference
  let signed := (minRating - g.ratingRange).toInt32
  if signed < 0 then 0 else signed.toUInt32

def arenaMaxRating (g : GroupQueueInfo) : UInt32 :=
  let signed := (g.arenaMatchmakerRating + w.maxRatingDifference + g.ratingRange).toInt32
  if 4000 < signed then 4000 else signed.toUInt32

/-- The search for the second team. -/
def findOpponents (s : BattlegroundQueue) (bracketId : BracketId) (g : GroupQueueInfo) :
    Option ℕ :=
  [Team.alliance, .horde].findSome? fun team =>
    (s.queuedGroups bracketId (.premade team)).find? fun id =>
      !s.isInvited id &&
        (arenaMinRating w g ≤ (s.groups id).arenaMatchmakerRating &&
            (s.groups id).arenaMatchmakerRating ≤ arenaMaxRating w g ||
          (s.groups id).joinTime < w.now - w.ratingDiscardTimer) &&
        g.arenaTeamId ≠ (s.groups id).arenaTeamId

/-- A team goes to the queue of the side that it will play on. -/
def moveToSide (s : BattlegroundQueue) (bracketId : BracketId) (id : ℕ) (side : Team) :
    BattlegroundQueue :=
  if (s.groups id).team = side then s
  else s.moveFront bracketId (.premade side.other) (.premade side) id

/-- Two teams go to the queues of their new sides and are invited. -/
def startRatedMatch (bracketId : BracketId) (arena : Place) (s : BattlegroundQueue)
    (aTeam hTeam : ℕ) : BattlegroundQueue :=
  let s := (s.moveToSide bracketId aTeam .alliance).moveToSide bracketId hTeam .horde
  (s.inviteGroupToBG arena aTeam .alliance).inviteGroupToBG arena hTeam .horde

/-- The loop over the list from `citr` on, a turn for each group, with the number of
battlegrounds created; none where one could not be created. -/
def ratedLoop (bracketId : BracketId) :
    ℕ → ℕ → List ℕ → BattlegroundQueue → BattlegroundQueue × Option ℕ
  | 0, created, _, s => (s, some created)
  | _ + 1, created, [], s => (s, some created)
  | n + 1, created, front1 :: rest, s =>
    if s.isInvited front1 then ratedLoop bracketId n created rest s
    else
      let s := s.widenRange w front1
      match s.findOpponents w bracketId (s.groups front1) with
      | none => ratedLoop bracketId n created rest s
      | some hTeam =>
        match w.createNewBattleground created with
        | none => (s, none)
        | some arena =>
          let rest := if rest.head? = some hTeam then rest.tail else rest
          let rest := if (s.groups hTeam).team = .horde then rest else rest.erase hTeam
          ratedLoop bracketId n (created + 1) rest
            (s.startRatedMatch bracketId arena front1 hTeam)

def ratedUpdate (bracketId : BracketId) (created : ℕ) (s : BattlegroundQueue) :
    BattlegroundQueue :=
  let queue := s.queuedGroups bracketId (.premade .alliance)
  match ratedLoop w bracketId queue.length created queue s with
  | (s, none) => s
  | (s, some created) =>
    let queue := s.queuedGroups bracketId (.premade .horde)
    (ratedLoop w bracketId queue.length created queue s).1

/-! ### Updates -/

/-- Whether there are players for a new match. -/
def checkMatch (s : BattlegroundQueue) (bg : Place) (bracketId : BracketId)
    (minPlayersPerTeam maxPlayersPerTeam : ℕ) : BattlegroundQueue × Bool :=
  let (s, found) := s.checkNormalMatch w bracketId minPlayersPerTeam maxPlayersPerTeam
  if found then (s, true)
  else
    let (s, found) :=
      if bg.isArena then s.checkSkirmishForSameFaction bracketId minPlayersPerTeam else (s, false)
    if found then (s, true) else s.checkCrossFactionMatch w bracketId bg

/-- The part of an update after the premade match. -/
def updateMatches (s : BattlegroundQueue) (bg : Place) (bracketId : BracketId) (isRated : Bool)
    (arenaRating : UInt32) (minPlayersPerTeam maxPlayersPerTeam created : ℕ) :
    BattlegroundQueue :=
  if isRated = false then
    let (s, found) := s.checkMatch w bg bracketId minPlayersPerTeam maxPlayersPerTeam
    if found then
      match w.createNewBattleground created with
      | none => s
      | some bg2 => s.invitePools bg2
    else s
  else if bg.isArena ∧ arenaRating = 0 then s.ratedUpdate w bracketId created
  else s

/-- The part of an update after the battlegrounds that go on. -/
def newMatches (s : BattlegroundQueue) (bg : Place) (bracketId : BracketId) (isRated : Bool)
    (arenaRating : UInt32) (minPlayersPerTeam maxPlayersPerTeam : ℕ) : BattlegroundQueue :=
  let s := s.initPools
  let (s, found) :=
    if bg.isArena then (s, false)
    else s.checkPremadeMatch w bracketId minPlayersPerTeam maxPlayersPerTeam
  if found then
    match w.createNewBattleground 0 with
    | none => s
    | some bg2 =>
      (s.invitePools bg2).initPools.updateMatches w bg bracketId isRated arenaRating
        minPlayersPerTeam maxPlayersPerTeam 1
  else s.updateMatches w bg bracketId isRated arenaRating minPlayersPerTeam maxPlayersPerTeam 0

def battlegroundQueueUpdate (s : BattlegroundQueue) (bgTypeId : ℕ) (bracketId : BracketId)
    (arenaType : ℕ) (isRated : Bool) (arenaRating : UInt32) : BattlegroundQueue :=
  if ∀ index ∈ queueGroupTypes, s.queuedGroups bracketId index = [] then s
  else
    let s := (w.bgFreeSlotQueue bgTypeId).foldl (fillFreeSlots w bgTypeId bracketId) s
    match w.battlegroundTemplate bgTypeId with
    | none => s
    | some bg =>
      if w.hasBracketEntry then
        let maxPlayersPerTeam := if bg.isArena then arenaType else bg.maxPlayersPerTeam
        let minPlayersPerTeam :=
          if bg.isArena then if w.isArenaTesting then 1 else arenaType
          else if w.isTesting then 1
          else bg.minPlayersPerTeam
        s.newMatches w bg bracketId isRated arenaRating minPlayersPerTeam maxPlayersPerTeam
      else s

end BattlegroundQueue

inductive Request
  | addGroup (leader : ℕ) (team : Team) (grp : Option (List ℕ)) (bracketId : BracketId)
      (arenaType : ℕ) (isRated isPremade : Bool) (matchmakerRating : UInt32) (arenaTeamId : ℕ)
  | removePlayer (guid : ℕ)
  | update (bgTypeId : ℕ) (bracketId : BracketId) (arenaType : ℕ) (isRated : Bool)
      (arenaRating : UInt32)

def step (s : BattlegroundQueue) : World × Request → BattlegroundQueue
  | (w, .addGroup leader team grp bracketId arenaType isRated isPremade matchmakerRating
      arenaTeamId) =>
      s.addGroup w leader team grp bracketId arenaType isRated isPremade matchmakerRating
        arenaTeamId
  | (_, .removePlayer guid) => s.removePlayer guid
  | (w, .update bgTypeId bracketId arenaType isRated arenaRating) =>
    s.battlegroundQueueUpdate w bgTypeId bracketId arenaType isRated arenaRating

end ZerosCore.Battlegrounds.Queues
