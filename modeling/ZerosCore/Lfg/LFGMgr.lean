/-
# The manager of the dungeon finder

`LFGMgr` of `src/server/game/DungeonFinding/LFGMgr.cpp`, with `LfgPlayerData` and
`LfgGroupData`: the states of players and groups, the role checks, the queues of the teams
and the proposals.

Players and groups have guids of one kind and their states change in one way, so that one
table holds both.  There is a queue for each value `GetTeam` can have.  A request to join is
one that passed the checks of `JoinLfg`; the group that `MakeNewGroup` forms, with its leader,
comes with the answer that completes a proposal.  Votes to kick, rewards, teleports, messages
and what is shown of the queues are left out.
-/

import ZerosCore.Lfg.LFGQueue

namespace ZerosCore.Lfg

/-- `LFG_TIME_ROLECHECK`: milliseconds, which are added to a time in seconds. -/
def lfgTimeRolecheck : ℕ := 45 * 1000

/-- The state of a player or a group, and the one it goes back to: `SetState` keeps no
other. -/
structure StateData where
  state : LfgState
  oldState : LfgState
  settled : oldState = .none ∨ oldState = .finishedDungeon ∨ oldState = .dungeon

namespace StateData

def start : StateData := ⟨.none, .none, .inl rfl⟩

/-- `LfgPlayerData::SetState` and `LfgGroupData::SetState`. -/
def setState (d : StateData) (state : LfgState) : StateData :=
  if h : state = .none ∨ state = .finishedDungeon ∨ state = .dungeon then ⟨state, state, h⟩
  else { d with state := state }

def restoreState (d : StateData) : StateData := { d with state := d.oldState }

end StateData

/-- What `GetTeam` can give: both teams are one if they may be in one group. -/
inductive TeamId where
  | both
  | horde
  | alliance
deriving DecidableEq

structure LfgRoleCheck where
  cancelTime : ℕ
  roles : RolesMap
  dungeons : List ℕ

/-- `LfgRoleCheckState`, as far as a role check comes to it. -/
inductive LfgRoleCheckState where
  | initialiting
  | finished
  | wrongRoles
  | aborted
  | noRole

/-- `LfgUpdateType` of a proposal that is removed. -/
inductive LfgUpdateType where
  | proposalFailed
  | proposalDeclined
deriving DecidableEq

structure LFGMgr where
  data : ℕ → StateData
  team : ℕ → TeamId
  group : ℕ → ℕ
  leader : ℕ → ℕ
  players : ℕ → List ℕ
  roleChecks : List (ℕ × LfgRoleCheck)
  queues : TeamId → LFGQueue
  proposals : List (ℕ × LfgProposal)
  proposalId : ℕ

namespace LFGMgr

def state (s : LFGMgr) (guid : ℕ) : LfgState := (s.data guid).state

def setState (s : LFGMgr) (guid : ℕ) (state : LfgState) : LFGMgr :=
  { s with data := fun g => if g = guid then (s.data g).setState state else s.data g }

def restoreState (s : LFGMgr) (guid : ℕ) : LFGMgr :=
  { s with data := fun g => if g = guid then (s.data g).restoreState else s.data g }

/-- `LFGMgr::GetQueueId`: that of a group is the one of its first player. -/
def getQueueId (s : LFGMgr) (guid : ℕ) : TeamId :=
  if isGroupGuid guid then
    match s.players guid with
    | [] => s.team guid
    | player :: _ => if player ≠ 0 then s.team player else s.team guid
  else s.team guid

/-- `LFGMgr::GetQueue`, and what is done to it. -/
def modifyQueue (s : LFGMgr) (team : TeamId) (f : LFGQueue → LFGQueue) : LFGMgr :=
  { s with queues := fun t => if t = team then f (s.queues t) else s.queues t }

def world (s : LFGMgr) (env : Env) : World :=
  { env with
    state := fun guid => (s.data guid).state
    oldState := fun guid => (s.data guid).oldState }

def addProposal (s : LFGMgr) (p : LfgProposal) : LFGMgr :=
  { s with
    proposalId := s.proposalId + 1
    proposals := s.proposals ++ [(s.proposalId + 1, p)] }

/-! ### Proposals that end -/

def entryGuid (e : ℕ × LfgProposalPlayer) : ℕ := if e.2.group ≠ 0 then e.2.group else e.1

/-- Who has not answered is marked when the time is over. -/
def markAnswers (type : LfgUpdateType) (players : List (ℕ × LfgProposalPlayer)) :
    List (ℕ × LfgProposalPlayer) :=
  players.map fun e =>
    if type = .proposalFailed ∧ e.2.accept = .pending then (e.1, { e.2 with accept := .deny }) else e

/-- The entries that are removed: those of players who did not accept. -/
def toRemove (type : LfgUpdateType) (players : List (ℕ × LfgProposalPlayer)) : List ℕ :=
  guidSet ((players.filter fun e => e.2.accept ≠ .agree ∧
    (e.2.accept = .deny ∨ type = .proposalFailed)).map entryGuid)

/-- The states of a player of a proposal that ends, and of his group. -/
def notifyPlayer (removed : List ℕ) (s : LFGMgr) (e : ℕ × LfgProposalPlayer) : LFGMgr :=
  if entryGuid e ∈ removed then
    let s := s.restoreState e.1
    if entryGuid e ≠ e.1 then s.restoreState e.2.group else s
  else
    let s := s.setState e.1 .queued
    if entryGuid e ≠ e.1 then s.setState (entryGuid e) .queued else s

def removeProposal (s : LFGMgr) (id : ℕ) (p : LfgProposal) (type : LfgUpdateType) : LFGMgr :=
  let players := markAnswers type p.players
  let removed := toRemove type players
  let s := players.foldl (notifyPlayer removed) s
  let s := s.modifyQueue (s.getQueueId (players.headD (0, ⟨0, .pending, 0⟩)).1) fun queue =>
    (p.queues.filter (· ∉ removed)).foldl LFGQueue.addToQueue
      (removed.foldl LFGQueue.removeFromQueue queue)
  { s with proposals := s.proposals.filter fun e => e.1 ≠ id }

/-- The players of a proposal after one has answered. -/
def setAccept (guid : ℕ) (accept : LfgAnswer) (players : List (ℕ × LfgProposalPlayer)) :
    List (ℕ × LfgProposalPlayer) :=
  players.map fun e => if e.1 = guid then (e.1, { e.2 with accept := accept }) else e

/-- `LFGMgr::MakeNewGroup`, as far as the manager is told: the players are in the group, which
has gone to the dungeon. -/
def makeNewGroup (s : LFGMgr) (p : LfgProposal) (newGroup leader : ℕ) : LFGMgr :=
  let gguid := if p.group ≠ 0 then p.group else newGroup
  let guids := p.players.map Prod.fst
  setState
    { s with
      group := fun g => if g ∈ guids then gguid else s.group g
      leader := fun g => if g = gguid ∧ p.group = 0 then leader else s.leader g
      players := fun g => if g = gguid then guidSet (s.players g ++ guids)
        else (s.players g).filter (· ∉ guids) }
    gguid .dungeon

def updateProposal (s : LFGMgr) (id guid : ℕ) (accept : Bool) (newGroup leader : ℕ) : LFGMgr :=
  match s.proposals.lookup id with
  | none => s
  | some p =>
    if guid ∉ p.players.map Prod.fst then s
    else
      let p := { p with players := setAccept guid (if accept then .agree else .deny) p.players }
      let s := { s with proposals := s.proposals.map fun e => if e.1 = id then (id, p) else e }
      if !accept then s.removeProposal id p .proposalDeclined
      else if ∃ e ∈ p.players, e.2.accept ≠ .agree then s
      else
        let team := s.getQueueId guid
        let s := p.players.foldl (fun s e => s.setState e.1 .dungeon) s
        let s := s.modifyQueue team fun queue => p.queues.foldl LFGQueue.removeFromQueue queue
        let s := s.makeNewGroup p newGroup leader
        { s with proposals := s.proposals.filter fun e => e.1 ≠ id }

/-! ### Joining and leaving -/

/-- `LFGMgr::JoinLfg` of a player without a group. -/
def joinPlayer (s : LFGMgr) (guid : ℕ) (roles : RoleMask) (dungeons : List ℕ) : LFGMgr :=
  let s := if s.state guid = .queued then
      s.modifyQueue (s.getQueueId guid) fun queue => queue.removeFromQueue guid
    else s
  let s := s.modifyQueue (s.getQueueId guid) fun queue =>
    queue.addQueueData guid ⟨dungeons, [(guid, roles)]⟩
  s.setState guid .queued

/-- `LFGMgr::UpdateRoleCheck`; a guid of zero aborts the role check. -/
def updateRoleCheck (s : LFGMgr) (gguid guid : ℕ) (roles : RoleMask) : LFGMgr :=
  match s.roleChecks.lookup gguid with
  | none => s
  | some check =>
    let all := if guid = 0 ∨ roles < playerRoleTank then check.roles
      else Search.setRole (guid, roles) check.roles
    let state : LfgRoleCheckState :=
      if guid = 0 then .aborted
      else if roles < playerRoleTank then .noRole
      else if ∃ e ∈ all, e.2 = playerRoleNone then .initialiting
      else if (checkGroupRoles all).1 then .finished
      else .wrongRoles
    match state with
    | .initialiting =>
      { s with
        roleChecks := s.roleChecks.map fun e =>
          if e.1 = gguid then (gguid, { check with roles := all }) else e }
    | .finished =>
      let s := all.foldl (fun s e => s.setState e.1 .queued) s
      let s := s.setState gguid .queued
      let s := s.modifyQueue (s.getQueueId gguid) fun queue =>
        queue.addQueueData gguid ⟨check.dungeons, all⟩
      { s with roleChecks := s.roleChecks.filter fun e => e.1 ≠ gguid }
    | _ =>
      let s := all.foldl (fun s e => s.restoreState e.1) s
      let s := s.restoreState gguid
      { s with roleChecks := s.roleChecks.filter fun e => e.1 ≠ gguid }

/-- `LFGMgr::JoinLfg` of the leader of a group: a role check begins, with his roles. -/
def joinGroup (s : LFGMgr) (now gguid guid : ℕ) (members : List ℕ) (roles : RoleMask)
    (dungeons : List ℕ) : LFGMgr :=
  let s := if s.state gguid = .queued then
      s.modifyQueue (s.getQueueId gguid) fun queue => queue.removeFromQueue gguid
    else s
  let s := s.setState gguid .rolecheck
  let s := members.foldl (fun s g => s.setState g .rolecheck) s
  let old := (s.roleChecks.lookup gguid).elim [] LfgRoleCheck.roles
  let check : LfgRoleCheck :=
    { cancelTime := now + lfgTimeRolecheck
      roles := members.foldl (fun roles g => Search.setRole (g, playerRoleNone) roles) old
      dungeons := dungeons }
  updateRoleCheck
    { s with roleChecks := (s.roleChecks.filter fun e => e.1 ≠ gguid) ++ [(gguid, check)] }
    gguid guid roles

def leaveLfg (s : LFGMgr) (guid : ℕ) : LFGMgr :=
  let gguid := if isGroupGuid guid then guid else s.group guid
  match s.state guid with
  | .queued =>
    if gguid ≠ 0 then
      let s := s.modifyQueue (s.getQueueId gguid) fun queue => queue.removeFromQueue gguid
      let s := s.setState gguid .none
      (s.players gguid).foldl (fun s g => s.setState g .none) s
    else
      let s := s.modifyQueue (s.getQueueId guid) fun queue => queue.removeFromQueue guid
      s.setState guid .none
  | .rolecheck => if gguid ≠ 0 then s.updateRoleCheck gguid 0 playerRoleNone else s
  | .proposal =>
    let pguid := if gguid = guid then s.leader gguid else guid
    match s.proposals.find? fun e => pguid ∈ e.2.players.map Prod.fst with
    | none => s
    | some (id, p) =>
      s.removeProposal id { p with players := setAccept pguid .deny p.players } .proposalDeclined
  | .none | .raidbrowser => s
  | .dungeon | .finishedDungeon | .boot => if guid ≠ gguid then s.setState guid .none else s

/-! ### The tick -/

/-- The role checks whose time is over. -/
def removeObsoleteRoleChecks (s : LFGMgr) (now : ℕ) : LFGMgr :=
  (s.roleChecks.filter fun e => e.2.cancelTime ≤ now).foldl
    (fun s e =>
      let s := e.2.roles.foldl (fun s e => s.restoreState e.1) s
      let s := s.restoreState e.1
      { s with roleChecks := s.roleChecks.filter fun other => other.1 ≠ e.1 })
    s

/-- The proposals whose time is over. -/
def removeObsoleteProposals (s : LFGMgr) (now : ℕ) : LFGMgr :=
  (s.proposals.filter fun e => e.2.cancelTime < now).foldl
    (fun s e => s.removeProposal e.1 e.2 .proposalFailed) s

/-- `FindGroups` for the queue of a team. -/
def findGroups (env : Env) (s : LFGMgr) (team : TeamId) : LFGMgr :=
  let r := Search.findGroups (s.world env) ⟨s.queues team, []⟩
  r.made.foldl addProposal (s.modifyQueue team fun _ => r.queue)

/-- The players of a new proposal, and their groups, are told. -/
def notifyProposal (s : LFGMgr) (p : LfgProposal) : LFGMgr :=
  p.players.foldl
    (fun s e =>
      let s := s.setState e.1 .proposal
      if s.group e.1 ≠ 0 then s.setState (s.group e.1) .proposal else s)
    s

/-- `LFGMgr::Update`; of the new proposals those from `m_lfgProposalId` on are told. -/
def update (s : LFGMgr) (env : Env) : LFGMgr :=
  let s := (s.removeObsoleteRoleChecks env.now).removeObsoleteProposals env.now
  let lastProposalId := s.proposalId
  let s := [TeamId.both, TeamId.horde, TeamId.alliance].foldl (findGroups env) s
  if lastProposalId ≠ s.proposalId then
    (s.proposals.filter fun e => s.proposalId ≤ e.1).foldl (fun s e => s.notifyProposal e.2) s
  else s

end LFGMgr

/-- What the manager is asked to do. -/
inductive Request where
  | joinPlayer (guid : ℕ) (roles : RoleMask) (dungeons : List ℕ)
  | joinGroup (now gguid guid : ℕ) (members : List ℕ) (roles : RoleMask) (dungeons : List ℕ)
  | updateRoleCheck (gguid guid : ℕ) (roles : RoleMask)
  | leave (guid : ℕ)
  | updateProposal (id guid : ℕ) (accept : Bool) (newGroup leader : ℕ)
  | update (env : Env)

def step (s : LFGMgr) : Request → LFGMgr
  | .joinPlayer guid roles dungeons => s.joinPlayer guid roles dungeons
  | .joinGroup now gguid guid members roles dungeons =>
    s.joinGroup now gguid guid members roles dungeons
  | .updateRoleCheck gguid guid roles => s.updateRoleCheck gguid guid roles
  | .leave guid => s.leaveLfg guid
  | .updateProposal id guid accept newGroup leader => s.updateProposal id guid accept newGroup leader
  | .update env => s.update env

/-- A manager of players with their teams and groups, none of whom uses the dungeon finder. -/
def start (team : ℕ → TeamId) (group leader : ℕ → ℕ) (players : ℕ → List ℕ) : LFGMgr :=
  { data := fun _ => .start, team := team, group := group, leader := leader, players := players
    roleChecks := []
    queues := fun _ => .empty
    proposals := []
    proposalId := 1 }

end ZerosCore.Lfg
