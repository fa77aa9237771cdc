/-
# What a request does to the manager

For each request to the dungeon finder what it can come to: the queue it changes and how, the
role check or the proposal that ends, and whose states change.  The loops over players only
set states, so that they are told from the rest by `Told`; a search of a queue leaves the
data as they are (`findGroups_spec`).
-/

import ZerosCore.Lfg.Removal

namespace ZerosCore.Lfg

open List

variable {s s' s'' : LFGMgr} {q : LFGQueue} {p : LfgProposal} {type : LfgUpdateType} {env : Env}
  {id gguid guid g now : ℕ} {l l' : List ℕ} {roles : RoleMask} {dungeons : List ℕ} {team : TeamId}

theorem mem_of_lookup {β : Type*} {b : β} {m : List (ℕ × β)} (h : m.lookup id = some b) :
    (id, b) ∈ m := by
  obtain ⟨l1, l2, rfl, -⟩ := lookup_eq_some_iff.mp h
  exact mem_append_right _ mem_cons_self

namespace LFGMgr

/-! ### States -/

/-- Nothing but the states of some players and groups has changed. -/
def Told (l : List ℕ) (s s' : LFGMgr) : Prop :=
  ∃ data, s' = { s with data := data } ∧ ∀ g, g ∉ l → data g = s.data g

theorem Told.refl (l : List ℕ) (s : LFGMgr) : Told l s s := ⟨s.data, rfl, fun _ _ => rfl⟩

theorem told_setState (s : LFGMgr) (g : ℕ) (state : LfgState) : Told [g] s (s.setState g state) :=
  ⟨_, rfl, fun _ h => if_neg fun heq => h (mem_singleton.mpr heq)⟩

theorem told_restoreState (s : LFGMgr) (g : ℕ) : Told [g] s (s.restoreState g) :=
  ⟨_, rfl, fun _ h => if_neg fun heq => h (mem_singleton.mpr heq)⟩

theorem Told.mono (h : Told l s s') (hsub : l ⊆ l') : Told l' s s' := by
  obtain ⟨data, rfl, hdata⟩ := h
  exact ⟨data, rfl, fun g hg => hdata g fun hin => hg (hsub hin)⟩

theorem Told.trans (h : Told l s s') (h' : Told l s' s'') : Told l s s'' := by
  obtain ⟨data, rfl, hdata⟩ := h
  obtain ⟨data', rfl, hdata'⟩ := h'
  exact ⟨data', rfl, fun g hg => (hdata' g hg).trans (hdata g hg)⟩

theorem Told.foldl_at {α : Type*} {f : LFGMgr → α → LFGMgr} {xs : List α}
    (h : ∀ x ∈ xs, ∀ data, Told l { s with data := data } (f { s with data := data } x)) :
    Told l s (xs.foldl f s) := by
  have hall (data : ℕ → StateData) :
      Told l { s with data := data } (xs.foldl f { s with data := data }) := by
    induction xs generalizing data with
    | nil => exact Told.refl l _
    | cons x xs ih =>
      obtain ⟨data', heq, hdata⟩ := h x mem_cons_self data
      rw [foldl_cons, heq]
      exact Told.trans ⟨data', rfl, hdata⟩ (ih (fun y hy => h y (mem_cons_of_mem x hy)) data')
  exact hall s.data

theorem Told.foldl {α : Type*} {f : LFGMgr → α → LFGMgr} {xs : List α}
    (h : ∀ x ∈ xs, ∀ s, Told l s (f s x)) (s : LFGMgr) : Told l s (xs.foldl f s) :=
  Told.foldl_at fun x hx _ => h x hx _

theorem told_notifyPlayer {e : ℕ × LfgProposalPlayer} (removed : List ℕ) (s : LFGMgr)
    (hl : e.1 ∈ l) (hgroup : e.2.group ∈ l) : Told l s (notifyPlayer removed s e) := by
  have hentry : entryGuid e ∈ l := by
    unfold entryGuid
    split
    · exact hgroup
    · exact hl
  have hone (g : ℕ) (hg : g ∈ l) : [g] ⊆ l := cons_subset.mpr ⟨hg, nil_subset _⟩
  unfold notifyPlayer
  split
  · dsimp only
    split
    · exact ((told_restoreState s e.1).mono (hone _ hl)).trans
        ((told_restoreState _ _).mono (hone _ hgroup))
    · exact (told_restoreState s e.1).mono (hone _ hl)
  dsimp only
  split
  · exact ((told_setState s e.1 _).mono (hone _ hl)).trans
      ((told_setState _ _ _).mono (hone _ hentry))
  · exact (told_setState s e.1 _).mono (hone _ hl)

/-! ### Joining -/

theorem modifyQueue_modifyQueue (s : LFGMgr) (team : TeamId) (f f' : LFGQueue → LFGQueue) :
    (s.modifyQueue team f).modifyQueue team f' = s.modifyQueue team fun queue => f' (f queue) := by
  unfold modifyQueue
  congr 1
  funext t
  by_cases ht : t = team
  · simp only [if_pos ht]
  · simp only [if_neg ht]

def leaveQueue (s : LFGMgr) (guid : ℕ) (queue : LFGQueue) : LFGQueue :=
  if s.state guid = .queued then queue.removeFromQueue guid else queue

theorem modifyQueue_leaveQueue (s : LFGMgr) (guid : ℕ) : (if s.state guid = .queued then
        s.modifyQueue (s.getQueueId guid) fun queue => queue.removeFromQueue guid
      else s) = s.modifyQueue (s.getQueueId guid) (s.leaveQueue guid) := by
  unfold leaveQueue
  by_cases hqueued : s.state guid = .queued
  · simp only [if_pos hqueued]
  simp only [if_neg hqueued]
  unfold modifyQueue
  simp only [ite_self]

theorem joinPlayer_told (s : LFGMgr) (guid : ℕ) (roles : RoleMask) (dungeons : List ℕ) :
    Told [guid] (s.modifyQueue (s.getQueueId guid) fun queue =>
        (s.leaveQueue guid queue).addQueueData guid ⟨dungeons, [(guid, roles)]⟩)
      (s.joinPlayer guid roles dungeons) := by
  unfold joinPlayer
  rw [modifyQueue_leaveQueue]
  dsimp only
  have hid : (s.modifyQueue (s.getQueueId guid) (s.leaveQueue guid)).getQueueId guid =
      s.getQueueId guid := rfl
  rw [hid, modifyQueue_modifyQueue]
  exact told_setState _ _ _

def chosen (check : LfgRoleCheck) (guid : ℕ) (roles : RoleMask) : RolesMap :=
  Search.setRole (guid, roles) check.roles

/-- What a choice of roles comes to: there is no role check, others have to choose, the group is
queued, or the role check has failed. -/
inductive RoleChecked (s : LFGMgr) (gguid guid : ℕ) (roles : RoleMask) : LFGMgr → Prop
  | none (h : s.roleChecks.lookup gguid = none) : RoleChecked s gguid guid roles s
  | waits (check : LfgRoleCheck) (h : s.roleChecks.lookup gguid = some check) (hguid : guid ≠ 0) :
      RoleChecked s gguid guid roles
        { s with
          roleChecks := s.roleChecks.map fun e =>
            if e.1 = gguid then (gguid, { check with roles := chosen check guid roles }) else e }
  | finished (check : LfgRoleCheck) (h : s.roleChecks.lookup gguid = some check)
      (hsolved : (checkGroupRoles (chosen check guid roles)).1 = true) (hguid : guid ≠ 0)
      (data : ℕ → StateData)
      (hdata : ∀ g, g ≠ gguid → g ∉ (chosen check guid roles).map Prod.fst → data g = s.data g) :
      RoleChecked s gguid guid roles
        { s.modifyQueue (s.getQueueId gguid) fun queue =>
            queue.addQueueData gguid ⟨check.dungeons, chosen check guid roles⟩ with
          data := data
          roleChecks := s.roleChecks.filter fun e => e.1 ≠ gguid }
  | failed (check : LfgRoleCheck) (h : s.roleChecks.lookup gguid = some check)
      (data : ℕ → StateData)
      (hdata : ∀ g, g ≠ gguid → g ∉ check.roles.map Prod.fst →
        (guid ≠ 0 → g ≠ guid) → data g = s.data g) :
      RoleChecked s gguid guid roles
        { s with data := data, roleChecks := s.roleChecks.filter fun e => e.1 ≠ gguid }

theorem updateRoleCheck_cases (s : LFGMgr) (gguid guid : ℕ) (roles : RoleMask) :
    RoleChecked s gguid guid roles (s.updateRoleCheck gguid guid roles) := by
  unfold updateRoleCheck
  cases hcheck : s.roleChecks.lookup gguid with
  | none => exact .none hcheck
  | some check =>
    dsimp only
    have hfailed (all : RolesMap)
        (hall : ∀ e ∈ all, e.1 = guid ∧ guid ≠ 0 ∨ e.1 ∈ check.roles.map Prod.fst) :
        RoleChecked s gguid guid roles
          { (all.foldl (fun s e => s.restoreState e.1) s).restoreState gguid with
            roleChecks := ((all.foldl (fun s e => s.restoreState e.1) s).restoreState
              gguid).roleChecks.filter fun e => e.1 ≠ gguid } := by
      have htold : Told (gguid :: all.map Prod.fst) s
          ((all.foldl (fun s e => s.restoreState e.1) s).restoreState gguid) := by
        refine (Told.foldl (fun e he s => ?_) s).trans ((told_restoreState _ _).mono ?_)
        · refine (told_restoreState s e.1).mono (cons_subset.mpr ⟨?_, nil_subset _⟩)
          exact mem_cons_of_mem _ (mem_map_of_mem he)
        · exact cons_subset.mpr ⟨mem_cons_self, nil_subset _⟩
      obtain ⟨data, heq, hdata⟩ := htold
      rw [heq]
      refine .failed check hcheck data fun g hne hout hguid => hdata g fun hin => ?_
      rcases mem_cons.mp hin with rfl | hmem
      · exact hne rfl
      obtain ⟨e, he, rfl⟩ := mem_map.mp hmem
      rcases hall e he with ⟨heq, hzero⟩ | hold
      · exact hguid hzero heq
      · exact hout hold
    have hfinished (hsolved : (checkGroupRoles (chosen check guid roles)).1 = true)
        (hzero : guid ≠ 0) :
        RoleChecked s gguid guid roles
          (let s := (chosen check guid roles).foldl (fun s e => s.setState e.1 .queued) s
          let s := s.setState gguid .queued
          let s := s.modifyQueue (s.getQueueId gguid) fun queue =>
            queue.addQueueData gguid ⟨check.dungeons, chosen check guid roles⟩
          { s with roleChecks := s.roleChecks.filter fun e => e.1 ≠ gguid }) := by
      have htold : Told (gguid :: (chosen check guid roles).map Prod.fst) s
          (((chosen check guid roles).foldl (fun s e => s.setState e.1 .queued) s).setState gguid
            .queued) := by
        refine (Told.foldl (fun e he s => ?_) s).trans ((told_setState _ _ _).mono ?_)
        · refine (told_setState s e.1 _).mono (cons_subset.mpr ⟨?_, nil_subset _⟩)
          exact mem_cons_of_mem _ (mem_map_of_mem he)
        · exact cons_subset.mpr ⟨mem_cons_self, nil_subset _⟩
      obtain ⟨data, heq, hdata⟩ := htold
      dsimp only
      rw [heq]
      refine .finished check hcheck hsolved hzero data fun g hne hout => hdata g fun hin => ?_
      rcases mem_cons.mp hin with rfl | hmem
      · exact hne rfl
      · exact hout hmem
    by_cases hzero : guid = 0
    · rw [if_pos hzero, if_pos (show guid = 0 ∨ roles < playerRoleTank from .inl hzero)]
      exact hfailed _ fun e he => .inr (mem_map_of_mem he)
    rw [if_neg hzero]
    by_cases hnone : roles < playerRoleTank
    · rw [if_pos hnone, if_pos (show guid = 0 ∨ roles < playerRoleTank from .inr hnone)]
      exact hfailed _ fun e he => .inr (mem_map_of_mem he)
    rw [if_neg hnone,
      if_neg (show ¬(guid = 0 ∨ roles < playerRoleTank) from not_or.mpr ⟨hzero, hnone⟩)]
    by_cases hwait : ∃ e ∈ Search.setRole (guid, roles) check.roles, e.2 = playerRoleNone
    · rw [if_pos hwait]
      exact .waits check hcheck hzero
    rw [if_neg hwait]
    by_cases hsolved : (checkGroupRoles (Search.setRole (guid, roles) check.roles)).1 = true
    · rw [if_pos hsolved]
      exact hfinished hsolved hzero
    rw [if_neg hsolved]
    refine hfailed _ fun e he => ?_
    rcases Search.mem_setRole he with rfl | hmem
    · exact .inl ⟨rfl, hzero⟩
    · exact .inr (mem_map_of_mem hmem)

/-- The role check that begins when the leader of a group joins. -/
def newCheck (s : LFGMgr) (now gguid : ℕ) (members dungeons : List ℕ) : LfgRoleCheck :=
  { cancelTime := now + lfgTimeRolecheck
    roles := members.foldl (fun roles g => Search.setRole (g, playerRoleNone) roles)
      ((s.roleChecks.lookup gguid).elim [] LfgRoleCheck.roles)
    dungeons := dungeons }

theorem joinGroup_eq (s : LFGMgr) (now gguid guid : ℕ) (members : List ℕ) (roles : RoleMask)
    (dungeons : List ℕ) :
    ∃ s', Told (gguid :: members) (s.modifyQueue (s.getQueueId gguid) (s.leaveQueue gguid)) s' ∧
      s.joinGroup now gguid guid members roles dungeons = updateRoleCheck { s' with
            roleChecks := (s.roleChecks.filter fun e => e.1 ≠ gguid) ++
              [(gguid, s.newCheck now gguid members dungeons)] } gguid guid roles := by
  unfold joinGroup
  rw [modifyQueue_leaveQueue]
  have htold : Told (gguid :: members) (s.modifyQueue (s.getQueueId gguid) (s.leaveQueue gguid))
      (members.foldl (fun s g => s.setState g .rolecheck)
        ((s.modifyQueue (s.getQueueId gguid) (s.leaveQueue gguid)).setState gguid .rolecheck)) := by
    refine ((told_setState _ gguid _).mono ?_).trans (Told.foldl (fun g hg s => ?_) _)
    · exact cons_subset.mpr ⟨mem_cons_self, nil_subset _⟩
    refine (told_setState s g _).mono (cons_subset.mpr ⟨?_, nil_subset _⟩)
    exact mem_cons_of_mem _ hg
  refine ⟨_, htold, ?_⟩
  obtain ⟨data, heq, -⟩ := htold
  dsimp only
  rw [heq]
  rfl

/-! ### Proposals that end -/

theorem removeProposal_eq (s : LFGMgr) (id : ℕ) (p : LfgProposal) (type : LfgUpdateType) :
    ∃ data, s.removeProposal id p type = { s.modifyQueue (s.teamOf p) (putBack type p) with
          data := data, proposals := s.proposals.filter fun e => e.1 ≠ id } ∧
      ∀ g, g ∉ p.players.map Prod.fst → g ∉ p.players.map (·.2.group) →
        data g = s.data g := by
  have hmarked (e : ℕ × LfgProposalPlayer) (he : e ∈ markAnswers type p.players) :
      e.1 ∈ p.players.map Prod.fst ++ p.players.map (·.2.group) ∧
        e.2.group ∈ p.players.map Prod.fst ++ p.players.map (·.2.group) := by
    obtain ⟨a, ha, rfl⟩ := mem_map.mp he
    have hfst := mem_append_left (p.players.map fun e => e.2.group)
      (mem_map_of_mem (f := Prod.fst) ha)
    have hgroup := mem_append_right (p.players.map Prod.fst)
      (mem_map_of_mem (f := fun e : ℕ × LfgProposalPlayer => e.2.group) ha)
    split <;> exact ⟨hfst, hgroup⟩
  obtain ⟨data, heq, hdata⟩ := Told.foldl
    (f := notifyPlayer (toRemove type (markAnswers type p.players))) (fun e he s =>
      told_notifyPlayer (toRemove type (markAnswers type p.players)) s (hmarked e he).1
        (hmarked e he).2) s
  refine ⟨data, ?_, fun g hguid hgroup => hdata g fun hin => ?_⟩
  · unfold removeProposal
    dsimp only
    rw [heq, headD_markAnswers]
    rfl
  · exact (mem_append.mp hin).elim hguid hgroup

/-- A stored proposal with the answer of a player. -/
def answered (p : LfgProposal) (guid : ℕ) (accept : LfgAnswer) : LfgProposal :=
  { p with players := setAccept guid accept p.players }

theorem setAccept_guids (guid : ℕ) (accept : LfgAnswer) (players : List (ℕ × LfgProposalPlayer)) :
    (setAccept guid accept players).map Prod.fst = players.map Prod.fst := by
  unfold setAccept
  rw [map_map]
  refine map_congr_left fun e _ => ?_
  rw [Function.comp_apply]
  split <;> rfl

def storeAnswer (s : LFGMgr) (id : ℕ) (p : LfgProposal) : LFGMgr :=
  { s with proposals := s.proposals.map fun e => if e.1 = id then (id, p) else e }

theorem filter_storeAnswer (s : LFGMgr) (id : ℕ) (p : LfgProposal) :
    ((s.storeAnswer id p).proposals.filter fun e => e.1 ≠ id) =
      s.proposals.filter fun e => e.1 ≠ id := by
  unfold storeAnswer
  generalize s.proposals = proposals
  induction proposals with
  | nil => rfl
  | cons e proposals ih =>
    rw [map_cons, filter_cons, filter_cons, ih]
    by_cases heq : e.1 = id
    · rw [if_pos heq, heq, if_neg (by simp), if_neg (by simp)]
    · rw [if_neg heq]

/-- The group of the players of a proposal that all accept. -/
def formed (p : LfgProposal) (newGroup : ℕ) : ℕ := if p.group ≠ 0 then p.group else newGroup

/-- What an answer comes to: it is not asked for, others have to answer, the proposal is removed,
or the players go to the dungeon and their entries leave the queue. -/
inductive Answered (s : LFGMgr) (id guid newGroup : ℕ) : LFGMgr → Prop
  | none : Answered s id guid newGroup s
  | waits (p : LfgProposal) (hmem : (id, p) ∈ s.proposals) (accept : LfgAnswer) :
      Answered s id guid newGroup (s.storeAnswer id (answered p guid accept))
  | declined (p : LfgProposal) (hmem : (id, p) ∈ s.proposals) :
      Answered s id guid newGroup
        ((s.storeAnswer id (answered p guid .deny)).removeProposal id (answered p guid .deny)
          .proposalDeclined)
  | succeeded (p : LfgProposal) (hmem : (id, p) ∈ s.proposals)
      (hguid : guid ∈ p.players.map Prod.fst) (data : ℕ → StateData)
      (group leader : ℕ → ℕ) (players : ℕ → List ℕ)
      (hdata : ∀ g, g ≠ formed p newGroup → g ∉ p.players.map Prod.fst → data g = s.data g) :
      Answered s id guid newGroup
        { s.modifyQueue (s.getQueueId guid) fun queue => p.queues.foldl LFGQueue.removeFromQueue queue
          with
          data := data
          group := group
          leader := leader
          players := players
          proposals := s.proposals.filter fun e => e.1 ≠ id }

theorem updateProposal_cases (s : LFGMgr) (id guid : ℕ) (accept : Bool) (newGroup leader : ℕ) :
    Answered s id guid newGroup (s.updateProposal id guid accept newGroup leader) := by
  unfold updateProposal
  cases hlookup : s.proposals.lookup id with
  | none => exact .none
  | some p =>
    have hmem := mem_of_lookup hlookup
    dsimp only
    by_cases hin : guid ∉ p.players.map Prod.fst
    · rw [if_pos hin]
      exact .none
    rw [if_neg hin]
    rw [not_not] at hin
    cases accept with
    | false => exact .declined p hmem
    | true =>
      have hgo : ¬(!true) = true := by decide
      rw [if_neg hgo, if_pos rfl]
      by_cases hmore : ∃ e ∈ setAccept guid .agree p.players, e.2.accept ≠ .agree
      · rw [if_pos hmore]
        exact .waits p hmem .agree
      rw [if_neg hmore]
      have hguids := setAccept_guids guid .agree p.players
      have htold : Told (p.players.map Prod.fst) (s.storeAnswer id (answered p guid .agree))
          ((setAccept guid .agree p.players).foldl (fun s e => s.setState e.1 .dungeon)
            (s.storeAnswer id (answered p guid .agree))) :=
        Told.foldl (fun e he s => (told_setState s e.1 _).mono (cons_subset.mpr
          ⟨hguids ▸ mem_map_of_mem he, nil_subset _⟩)) _
      obtain ⟨data, heq, hdata⟩ := htold
      have hsucceeded : Answered s id guid newGroup _ := .succeeded p hmem hin
        (fun g => if g = (if p.group ≠ 0 then p.group else newGroup) then
          (data g).setState .dungeon else data g)
        (fun g => if g ∈ (setAccept guid .agree p.players).map Prod.fst then
          if p.group ≠ 0 then p.group else newGroup else s.group g)
        (fun g => if g = (if p.group ≠ 0 then p.group else newGroup) ∧ p.group = 0 then
          leader else s.leader g)
        (fun g => if g = (if p.group ≠ 0 then p.group else newGroup) then
            guidSet (s.players g ++ (setAccept guid .agree p.players).map Prod.fst)
          else (s.players g).filter (· ∉ (setAccept guid .agree p.players).map Prod.fst))
        fun g hne hout => by
          unfold formed at hne
          rw [if_neg hne]
          exact hdata g hout
      rw [← filter_storeAnswer s id (answered p guid .agree)] at hsucceeded
      unfold storeAnswer answered at heq
      rw [heq]
      exact hsucceeded

/-! ### Leaving -/

def groupOf (s : LFGMgr) (guid : ℕ) : ℕ := if isGroupGuid guid then guid else s.group guid

def entryOf (s : LFGMgr) (guid : ℕ) : ℕ := if s.groupOf guid ≠ 0 then s.groupOf guid else guid

/-- Who declines when a player or a group leaves. -/
def declining (s : LFGMgr) (guid : ℕ) : ℕ :=
  if s.groupOf guid = guid then s.leader (s.groupOf guid) else guid

/-- The proposal that ends when a player or a group leaves. -/
def proposalOf (s : LFGMgr) (guid : ℕ) : Option (ℕ × LfgProposal) :=
  s.proposals.find? fun e => s.declining guid ∈ e.2.players.map Prod.fst

/-- What leaving comes to: nothing, a player is out of the dungeon, an entry leaves its queue, a
role check is aborted, or a proposal is declined. -/
inductive Left (s : LFGMgr) (guid : ℕ) : LFGMgr → Prop
  | same : Left s guid s
  | out (hstate : s.state guid ≠ .proposal) : Left s guid (s.setState guid .none)
  | entry (hqueued : s.state guid = .queued) (s' : LFGMgr)
      (htold : Told (s.entryOf guid :: s.players (s.entryOf guid))
        (s.modifyQueue (s.getQueueId (s.entryOf guid)) fun queue =>
          queue.removeFromQueue (s.entryOf guid)) s') : Left s guid s'
  | roleCheck (hstate : s.state guid = .rolecheck) :
      Left s guid (s.updateRoleCheck (s.entryOf guid) 0 playerRoleNone)
  | proposal (id : ℕ) (p : LfgProposal) (hstate : s.state guid = .proposal)
      (hfind : s.proposalOf guid = some (id, p)) :
      Left s guid (s.removeProposal id (answered p (s.declining guid) .deny) .proposalDeclined)

theorem leaveLfg_cases (s : LFGMgr) (guid : ℕ) : Left s guid (s.leaveLfg guid) := by
  unfold leaveLfg
  have hgroup : (if isGroupGuid guid then guid else s.group guid) = s.groupOf guid := rfl
  rw [hgroup]
  have hout : ¬s.state guid = .proposal → Left s guid
      (if guid ≠ s.groupOf guid then s.setState guid .none else s) := by
    intro hstate
    split
    · exact .out hstate
    · exact .same
  cases hstate : s.state guid with
  | none | raidbrowser => exact .same
  | rolecheck =>
    dsimp only
    split
    · rename_i hne
      have hentry : s.entryOf guid = s.groupOf guid := if_pos hne
      exact hentry ▸ .roleCheck hstate
    · exact .same
  | queued =>
    dsimp only
    split
    · rename_i hne
      have hentry : s.entryOf guid = s.groupOf guid := if_pos hne
      rw [← hentry]
      refine .entry hstate _ (((told_setState _ (s.entryOf guid) _).mono ?_).trans
        (Told.foldl (fun g hg s => (told_setState s g _).mono ?_) _))
      · exact cons_subset.mpr ⟨mem_cons_self, nil_subset _⟩
      · exact cons_subset.mpr ⟨mem_cons_of_mem _ hg, nil_subset _⟩
    rename_i hzero
    have hentry : s.entryOf guid = guid := if_neg hzero
    refine .entry hstate _ ?_
    rw [hentry]
    refine (told_setState _ guid _).mono ?_
    exact cons_subset.mpr ⟨mem_cons_self, nil_subset _⟩
  | proposal =>
    dsimp only
    split
    · exact .same
    rename_i id p hfind
    exact .proposal id p hstate hfind
  | dungeon | finishedDungeon | boot => exact hout (by rw [hstate]; decide)

/-! ### The tick -/

theorem removeObsoleteRoleChecks_eq (s : LFGMgr) (now : ℕ) :
    ∃ data roleChecks, s.removeObsoleteRoleChecks now =
        { s with data := data, roleChecks := roleChecks } ∧ roleChecks.Sublist s.roleChecks ∧
      ∀ g, (∀ e ∈ s.roleChecks, e.2.cancelTime ≤ now → g ≠ e.1 ∧ g ∉ e.2.roles.map Prod.fst) →
        data g = s.data g := by
  have hfold (obsolete : List (ℕ × LfgRoleCheck)) (s : LFGMgr) :
      ∃ data roleChecks, obsolete.foldl (fun s e =>
            let s := e.2.roles.foldl (fun s e => s.restoreState e.1) s
            let s := s.restoreState e.1
            { s with roleChecks := s.roleChecks.filter fun other => other.1 ≠ e.1 }) s =
          { s with data := data, roleChecks := roleChecks } ∧ roleChecks.Sublist s.roleChecks ∧
        ∀ g, (∀ e ∈ obsolete, g ≠ e.1 ∧ g ∉ e.2.roles.map Prod.fst) → data g = s.data g := by
    induction obsolete generalizing s with
    | nil => exact ⟨s.data, s.roleChecks, rfl, Sublist.refl _, fun _ _ => rfl⟩
    | cons e obsolete ih =>
      have htold : Told (e.1 :: e.2.roles.map Prod.fst) s
          ((e.2.roles.foldl (fun s e => s.restoreState e.1) s).restoreState e.1) := by
        refine (Told.foldl (fun x hx s => (told_restoreState s x.1).mono ?_) s).trans
          ((told_restoreState _ e.1).mono ?_)
        · exact cons_subset.mpr ⟨mem_cons_of_mem _ (mem_map_of_mem hx), nil_subset _⟩
        · exact cons_subset.mpr ⟨mem_cons_self, nil_subset _⟩
      obtain ⟨data, heq, hdata⟩ := htold
      obtain ⟨data', roleChecks, heq', hsub, hdata'⟩ := ih
        { s with data := data, roleChecks := s.roleChecks.filter fun other => other.1 ≠ e.1 }
      refine ⟨data', roleChecks, ?_, hsub.trans filter_sublist, fun g hg => ?_⟩
      · rw [foldl_cons]
        dsimp only
        rw [heq]
        exact heq'
      obtain ⟨hne, hout⟩ := hg e mem_cons_self
      refine (hdata' g fun x hx => hg x (mem_cons_of_mem e hx)).trans (hdata g ?_)
      exact fun hin => (mem_cons.mp hin).elim hne hout
  obtain ⟨data, roleChecks, heq, hsub, hdata⟩ :=
    hfold (s.roleChecks.filter fun e => e.2.cancelTime ≤ now) s
  refine ⟨data, roleChecks, heq, hsub, fun g hg => hdata g fun e he => ?_⟩
  obtain ⟨hmem, hold⟩ := mem_filter.mp he
  exact hg e hmem (of_decide_eq_true hold)

/-- The new proposals with their numbers, from one on. -/
def numbered : ℕ → List LfgProposal → List (ℕ × LfgProposal)
  | _, [] => []
  | id, p :: ps => (id + 1, p) :: numbered (id + 1) ps

theorem foldl_addProposal (made : List LfgProposal) (s : LFGMgr) : made.foldl addProposal s =
      { s with
        proposals := s.proposals ++ numbered s.proposalId made
        proposalId := s.proposalId + made.length } := by
  induction made generalizing s with
  | nil =>
    unfold numbered
    rw [append_nil]
    rfl
  | cons p made ih =>
    rw [foldl_cons, ih]
    unfold addProposal
    dsimp only
    congr 1
    · rw [append_assoc]
      rfl
    rw [length_cons]
    omega

theorem findGroups_eq (env : Env) (s : LFGMgr) (team : TeamId) : findGroups env s team =
      { s.modifyQueue team fun _ => (Search.findGroups (s.world env) ⟨s.queues team, []⟩).queue with
        proposals := s.proposals ++
          numbered s.proposalId (Search.findGroups (s.world env) ⟨s.queues team, []⟩).made
        proposalId := s.proposalId +
          (Search.findGroups (s.world env) ⟨s.queues team, []⟩).made.length } :=
  foldl_addProposal _ _

theorem told_notifyProposal (s : LFGMgr) (p : LfgProposal) :
    Told (p.players.map Prod.fst ++ p.players.map fun e => s.group e.1) s (s.notifyProposal p) := by
  refine Told.foldl_at fun e he data => ?_
  have hone : [e.1] ⊆ p.players.map Prod.fst ++ p.players.map fun e => s.group e.1 :=
    cons_subset.mpr ⟨mem_append_left _ (mem_map_of_mem he), nil_subset _⟩
  have hgroup : [s.group e.1] ⊆ p.players.map Prod.fst ++ p.players.map fun e => s.group e.1 :=
    cons_subset.mpr ⟨mem_append_right _ (mem_map_of_mem he), nil_subset _⟩
  dsimp only
  split
  · exact ((told_setState _ e.1 _).mono hone).trans ((told_setState _ _ _).mono hgroup)
  · exact (told_setState _ e.1 _).mono hone

/-- The state in which a tick searches the queues. -/
def searched (s : LFGMgr) (now : ℕ) : LFGMgr :=
  (s.removeObsoleteRoleChecks now).removeObsoleteProposals now

/-- All queues are searched. -/
def findAll (env : Env) (s : LFGMgr) : LFGMgr :=
  [TeamId.both, TeamId.horde, TeamId.alliance].foldl (findGroups env) s

/-- The proposals from the last number on are told to their players. -/
def notifyNew (s : LFGMgr) : LFGMgr :=
  (s.proposals.filter fun e => s.proposalId ≤ e.1).foldl (fun s e => s.notifyProposal e.2) s

/-- The players of some proposals, and their groups. -/
def concerned (s : LFGMgr) (proposals : List (ℕ × LfgProposal)) : List ℕ :=
  proposals.flatMap fun e => e.2.players.map Prod.fst ++ e.2.players.map fun e => s.group e.1

theorem told_notifyNew (s : LFGMgr) :
    Told (s.concerned (s.proposals.filter fun e => s.proposalId ≤ e.1)) s s.notifyNew :=
  Told.foldl_at fun e he _ => (told_notifyProposal _ e.2).mono
    fun _ hg => mem_flatMap.mpr ⟨e, he, hg⟩

theorem update_eq (s : LFGMgr) (env : Env) :
    s.update env =
      if (s.searched env.now).proposalId ≠ (findAll env (s.searched env.now)).proposalId then
        (findAll env (s.searched env.now)).notifyNew
      else findAll env (s.searched env.now) := rfl

theorem update_data (s : LFGMgr) (env : Env) :
    ∃ data, s.update env = { findAll env (s.searched env.now) with data := data } := by
  rw [update_eq]
  generalize findAll env (s.searched env.now) = s'
  split
  · obtain ⟨data, heq, -⟩ := told_notifyNew s'
    exact ⟨data, heq⟩
  · exact ⟨s'.data, rfl⟩

end LFGMgr

/-! ### Searches -/

namespace Search

variable {s s' : Search} {w : World} {check all : List ℕ}

theorem getCompatibility_extends (hq : Entries s.queue) (check : List ℕ) :
    Extends w s (getCompatibility w s check).1 := by
  have hcheck : Extends w s (if s.queue.getCompatibles check = .pending then
      checkCompatibility w s check else (s, s.queue.getCompatibles check)).1 := by
    split
    · exact checkCompatibility_extends hq check
    · exact Extends.refl w s
  unfold getCompatibility
  generalize (if s.queue.getCompatibles check = .pending then
      checkCompatibility w s check else (s, s.queue.getCompatibles check)) = r at hcheck
  dsimp only
  split
  · exact hcheck.setCompatibles _ _
  · exact hcheck

theorem findNewGroups_extends (fuel : ℕ) (hq : Entries s.queue) :
    Extends w s (findNewGroups w fuel s check all).1 := by
  induction fuel generalizing s check all with
  | zero => exact Extends.refl w s
  | succ fuel ih =>
    have hone := getCompatibility_extends (w := w) hq check
    unfold findNewGroups
    dsimp only
    split
    · exact hone
    · refine hone.trans (tryQueued_rel (R := fun s s' => Entries s.queue → Extends w s s')
        (fun s _ => Extends.refl w s) (fun h h' hq => ?_) (fun _ _ _ => ih) _ _ _ _
        (hq.congr hone.queueData))
      exact (h hq).trans (h' (hq.congr (h hq).queueData))

theorem findGroups_queueData (hq : Entries s.queue) :
    (findGroups w s).queue.queueData = s.queue.queueData := by
  have hone (s : Search) (frontguid : ℕ) (hq : Entries s.queue) :
      (findGroup w s frontguid).queue.queueData = s.queue.queueData := by
    have hextends : Extends w { s with queue := s.queue.removeFromNewQueue frontguid }
        (findNewGroups w (s.queue.currentQueue.length + 1)
          { s with queue := s.queue.removeFromNewQueue frontguid } [frontguid]
          s.queue.currentQueue).1 := findNewGroups_extends _ hq
    unfold findGroup
    dsimp only
    split <;> exact hextends.queueData
  have hall (left : ℕ) (s : Search) (hq : Entries s.queue) :
      (findGroupsFrom w left s).queue.queueData = s.queue.queueData := by
    induction left generalizing s with
    | zero => rfl
    | succ left ih =>
      unfold findGroupsFrom
      split
      · rfl
      rename_i frontguid _ _
      have hdata := hone s frontguid hq
      exact (ih _ (hq.congr hdata)).trans hdata
  exact hall _ s hq

end Search
end ZerosCore.Lfg
