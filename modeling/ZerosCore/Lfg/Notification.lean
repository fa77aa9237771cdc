/-
# Who is told of a proposal

After the search of the queues `LFGMgr::Update` sets the players of the new proposals to the
state of a proposal.  It looks for them from `m_lfgProposalId` on, which is the number of the
last one (the comment there asks whether it should be the number before the search): of
several proposals of one tick only the last is told.

In every run whose ticks make at most one proposal, and whose other requests leave the players
of the stored proposals alone, all of these are in the state of a proposal (`covered_run`).  Two
proposals of one tick leave the players of the first queued (`first_not_told`).
-/

import ZerosCore.Lfg.Soundness

namespace ZerosCore.Lfg

open Lib LFGMgr List

variable {s s' : LFGMgr} {p : LfgProposal} {env : Env} {id guid g : ℕ} {l : List ℕ}
  {request : Request} {roles : RoleMask}

namespace LFGMgr

/-- Every player of every stored proposal is in the state of a proposal. -/
def Covered (s : LFGMgr) : Prop :=
  ∀ e ∈ s.proposals, ∀ guid ∈ e.2.players.map Prod.fst, s.state guid = .proposal

/-! ### What a request concerns -/

/-- The players of a proposal and the groups they come from. -/
def involved (p : LfgProposal) : List ℕ :=
  p.players.map Prod.fst ++ p.players.map fun e => e.2.group

/-- The players of the role check of a group. -/
def checked (s : LFGMgr) (gguid : ℕ) : List ℕ :=
  ((s.roleChecks.lookup gguid).elim [] LfgRoleCheck.roles).map Prod.fst

def ended (s : LFGMgr) : Request → List (ℕ × LfgProposal)
  | .leave guid => if s.state guid = .proposal then (s.proposalOf guid).toList else []
  | .updateProposal id .. => s.proposals.filter fun e => e.1 = id
  | .update env => s.proposals.filter fun e => e.2.cancelTime < env.now
  | _ => []

/-- Whose states a request may set, besides those of the proposals that it ends and of those that
it makes. -/
def touched (s : LFGMgr) : Request → List ℕ
  | .joinPlayer guid _ _ => [guid]
  | .joinGroup _ gguid guid members _ _ => gguid :: guid :: (members ++ s.checked gguid)
  | .updateRoleCheck gguid guid _ => gguid :: guid :: s.checked gguid
  | .leave guid =>
    match s.state guid with
    | .queued => s.entryOf guid :: s.players (s.entryOf guid)
    | .rolecheck => s.entryOf guid :: s.checked (s.entryOf guid)
    | _ => []
  | .updateProposal id _ _ newGroup _ =>
    (s.proposals.filter fun e => e.1 = id).map fun e => formed e.2 newGroup
  | .update env =>
    (s.roleChecks.filter fun e => e.2.cancelTime ≤ env.now).flatMap fun e =>
      e.1 :: e.2.roles.map Prod.fst

/-- A request leaves the players of a stored proposal alone, unless it ends the proposal. -/
def Undisturbed (s : LFGMgr) (request : Request) : Prop :=
  ∀ e ∈ s.proposals, e.1 ∉ (s.ended request).map Prod.fst → ∀ guid ∈ e.2.players.map Prod.fst,
      guid ∉ s.touched request ∧ guid ∉ (s.ended request).flatMap fun e => involved e.2

/-- How many proposals the searches of a tick make. -/
def made (s : LFGMgr) (env : Env) : ℕ :=
  (findAll env (s.searched env.now)).proposalId - s.proposalId

/-! ### States that stay -/

theorem Covered.frame (h : Covered s) (hstored : ∀ e' ∈ s'.proposals, ∃ e ∈ s.proposals,
      e'.2.players.map Prod.fst = e.2.players.map Prod.fst ∧
        ∀ guid ∈ e.2.players.map Prod.fst, s'.data guid = s.data guid) : Covered s' := by
  intro e' he' guid hguid
  obtain ⟨e, he, hguids, hdata⟩ := hstored e' he'
  rw [hguids] at hguid
  have hstate := h e he guid hguid
  unfold state at hstate ⊢
  rw [hdata guid hguid]
  exact hstate

/-- **A request that leaves the players alone**: the proposals that stay are those it does not end,
and only the states it touches have changed. -/
theorem Covered.undisturbed (h : Covered s) (hu : s.Undisturbed request)
    (hstored : ∀ e ∈ s'.proposals, e ∈ s.proposals ∧ e.1 ∉ (s.ended request).map Prod.fst)
    (hdata : ∀ g, g ∉ s.touched request →
      g ∉ ((s.ended request).flatMap fun e => involved e.2) → s'.data g = s.data g) :
    Covered s' := by
  refine h.frame fun e he => ?_
  obtain ⟨hmem, hstays⟩ := hstored e he
  refine ⟨e, hmem, rfl, fun guid hguid => ?_⟩
  obtain ⟨hout, hout'⟩ := hu e hmem hstays guid hguid
  exact hdata guid hout hout'

theorem updateRoleCheck_frame (s : LFGMgr) (gguid guid : ℕ) (roles : RoleMask) :
    (s.updateRoleCheck gguid guid roles).proposals = s.proposals ∧
      ∀ g, g ≠ gguid → (guid ≠ 0 → g ≠ guid) → g ∉ s.checked gguid →
        (s.updateRoleCheck gguid guid roles).data g = s.data g := by
  have hcases := s.updateRoleCheck_cases gguid guid roles
  generalize s.updateRoleCheck gguid guid roles = s' at hcases
  have hchecked (check : LfgRoleCheck) (h : s.roleChecks.lookup gguid = some check) :
      s.checked gguid = check.roles.map Prod.fst := by
    unfold checked
    rw [h]
    rfl
  cases hcases with
  | none _ | waits check hcheck hguid => exact ⟨rfl, fun _ _ _ _ => rfl⟩
  | finished check hcheck hsolved hguid data hdata =>
    refine ⟨rfl, fun g hgroup hne hout => hdata g hgroup fun hin => ?_⟩
    obtain ⟨e, he, rfl⟩ := mem_map.mp hin
    rcases Search.mem_setRole he with rfl | hmem
    · exact hne hguid rfl
    rw [hchecked check hcheck] at hout
    exact hout (mem_map_of_mem hmem)
  | failed check hcheck data hdata =>
    refine ⟨rfl, fun g hgroup hne hout => hdata g hgroup ?_ hne⟩
    rwa [hchecked check hcheck] at hout

variable {gguid : ℕ} {dungeons : List ℕ}
variable {now : ℕ} {members : List ℕ}

theorem mem_newCheck (h : g ∈ (s.newCheck now gguid members dungeons).roles.map Prod.fst) :
    g ∈ members ∨ g ∈ s.checked gguid := by
  have hfold (members : List ℕ) (roles : RolesMap)
      (h : g ∈ (members.foldl (fun roles g => Search.setRole (g, playerRoleNone) roles) roles).map
        Prod.fst) : g ∈ members ∨ g ∈ roles.map Prod.fst := by
    induction members generalizing roles with
    | nil => exact .inr h
    | cons m members ih =>
      rcases ih _ h with hin | hin
      · exact .inl (mem_cons_of_mem m hin)
      obtain ⟨e, he, rfl⟩ := mem_map.mp hin
      rcases Search.mem_setRole he with rfl | hmem
      · exact .inl mem_cons_self
      · exact .inr (mem_map_of_mem hmem)
  exact hfold members _ h

theorem Covered.joinPlayer (h : Covered s) (hu : s.Undisturbed (.joinPlayer guid roles dungeons)) :
    Covered (s.joinPlayer guid roles dungeons) := by
  obtain ⟨data, heq, hdata⟩ := s.joinPlayer_told guid roles dungeons
  rw [heq]
  exact h.undisturbed hu (fun e he => ⟨he, not_mem_nil⟩) fun g hout _ => hdata g hout

theorem Covered.joinGroup (h : Covered s)
    (hu : s.Undisturbed (.joinGroup now gguid guid members roles dungeons)) :
    Covered (s.joinGroup now gguid guid members roles dungeons) := by
  obtain ⟨s1, ⟨data, rfl, hdata⟩, heq⟩ := s.joinGroup_eq now gguid guid members roles dungeons
  rw [heq]
  obtain ⟨hproposals, hframe⟩ := updateRoleCheck_frame
    { s.modifyQueue (s.getQueueId gguid) (s.leaveQueue gguid) with
      data := data
      roleChecks := (s.roleChecks.filter fun e => e.1 ≠ gguid) ++
        [(gguid, s.newCheck now gguid members dungeons)] } gguid guid roles
  refine h.undisturbed hu (fun e he => ?_) fun g hout _ => ?_
  · rw [hproposals] at he
    exact ⟨he, not_mem_nil⟩
  have htouched : g ∉ gguid :: guid :: (members ++ s.checked gguid) := hout
  rw [mem_cons, mem_cons, mem_append, not_or, not_or, not_or] at htouched
  obtain ⟨hgroup, hguid, hmembers, hchecked⟩ := htouched
  rw [hframe g hgroup (fun _ => hguid) fun hin => ?_]
  · refine hdata g fun hin => ?_
    exact (mem_cons.mp hin).elim hgroup hmembers
  unfold checked at hin
  rw [lookup_newCheck] at hin
  exact (mem_newCheck hin).elim hmembers hchecked

theorem Covered.updateRoleCheck (h : Covered s)
    (hu : s.Undisturbed (.updateRoleCheck gguid guid roles)) :
    Covered (s.updateRoleCheck gguid guid roles) := by
  obtain ⟨hproposals, hframe⟩ := s.updateRoleCheck_frame gguid guid roles
  refine h.undisturbed hu (fun e he => ?_) fun g hout _ => ?_
  · rw [hproposals] at he
    exact ⟨he, not_mem_nil⟩
  have htouched : g ∉ gguid :: guid :: s.checked gguid := hout
  rw [mem_cons, mem_cons, not_or, not_or] at htouched
  obtain ⟨hgroup, hguid, hchecked⟩ := htouched
  exact hframe g hgroup (fun _ => hguid) hchecked

/-- A proposal that is removed is no longer stored, and the states of its players and their groups
are set. -/
theorem removeProposal_frame (s : LFGMgr) (id : ℕ) (p : LfgProposal) (type : LfgUpdateType) :
    (s.removeProposal id p type).proposals = (s.proposals.filter fun e => e.1 ≠ id) ∧
      ∀ g, g ∉ involved p → (s.removeProposal id p type).data g = s.data g := by
  obtain ⟨data, heq, hdata⟩ := s.removeProposal_eq id p type
  rw [heq]
  refine ⟨rfl, fun g hout => ?_⟩
  unfold involved at hout
  rw [mem_append, not_or] at hout
  exact hdata g hout.1 hout.2

theorem involved_answered (p : LfgProposal) (guid : ℕ) (accept : LfgAnswer) :
    involved (answered p guid accept) = involved p := by
  have hgroups : ((setAccept guid accept p.players).map fun e => e.2.group) =
      p.players.map fun e => e.2.group := by
    unfold setAccept
    rw [map_map]
    refine map_congr_left fun e _ => ?_
    rw [Function.comp_apply]
    split <;> rfl
  unfold involved answered
  rw [setAccept_guids, hgroups]

theorem Covered.leaveLfg (h : Covered s) (hu : s.Undisturbed (.leave guid)) :
    Covered (s.leaveLfg guid) := by
  have hcases := s.leaveLfg_cases guid
  generalize s.leaveLfg guid = s' at hcases
  cases hcases with
  | same => exact h
  | out hstate =>
    obtain ⟨data, heq, hdata⟩ := told_setState s guid .none
    rw [heq]
    refine h.frame fun e he => ⟨e, he, rfl, fun g hg => hdata g fun hin => hstate ?_⟩
    rw [← mem_singleton.mp hin]
    exact h e he g hg
  | entry hqueued _ htold =>
    obtain ⟨data, rfl, hdata⟩ := htold
    have htouched : s.touched (.leave guid) = s.entryOf guid :: s.players (s.entryOf guid) := by
      unfold touched
      simp only [hqueued]
    have hended : s.ended (.leave guid) = [] := if_neg (by rw [hqueued]; decide)
    refine h.undisturbed hu (fun e he => ⟨he, ?_⟩) fun g hout _ => hdata g ?_
    · rw [hended]
      exact not_mem_nil
    · rwa [htouched] at hout
  | roleCheck hstate =>
    obtain ⟨hproposals, hframe⟩ := s.updateRoleCheck_frame (s.entryOf guid) 0 playerRoleNone
    have htouched : s.touched (.leave guid) = s.entryOf guid :: s.checked (s.entryOf guid) := by
      unfold touched
      simp only [hstate]
    have hended : s.ended (.leave guid) = [] := if_neg (by rw [hstate]; decide)
    refine h.undisturbed hu (fun e he => ?_) fun g hout _ => ?_
    · rw [hproposals] at he
      rw [hended]
      exact ⟨he, not_mem_nil⟩
    rw [htouched, mem_cons, not_or] at hout
    exact hframe g hout.1 (fun hne => absurd rfl hne) hout.2
  | proposal id p hstate hfind =>
    obtain ⟨hproposals, hframe⟩ :=
      s.removeProposal_frame id (answered p (s.declining guid) .deny) .proposalDeclined
    have hended : s.ended (.leave guid) = [(id, p)] := by
      have hfound : s.ended (.leave guid) = (s.proposalOf guid).toList := if_pos hstate
      rw [hfound, hfind]
      rfl
    refine h.undisturbed hu (fun e he => ?_) fun g _ hout => ?_
    · rw [hproposals, mem_filter] at he
      rw [hended]
      exact ⟨he.1, fun hin => (of_decide_eq_true he.2) (mem_singleton.mp hin)⟩
    rw [hended, flatMap_singleton] at hout
    rw [← involved_answered p (s.declining guid) .deny] at hout
    exact hframe g hout

theorem Covered.updateProposal {accept : Bool} {newGroup leader : ℕ} (h : Covered s)
    (hu : s.Undisturbed (.updateProposal id guid accept newGroup leader)) :
    Covered (s.updateProposal id guid accept newGroup leader) := by
  have hcases := s.updateProposal_cases id guid accept newGroup leader
  generalize s.updateProposal id guid accept newGroup leader = s' at hcases
  have hin {p : LfgProposal} (hmem : (id, p) ∈ s.proposals) :
      (id, p) ∈ s.proposals.filter fun e => e.1 = id :=
    mem_filter.mpr ⟨hmem, decide_eq_true rfl⟩
  have hstored (e : ℕ × LfgProposal) (he : e ∈ s.proposals.filter fun e => e.1 ≠ id) :
      e ∈ s.proposals ∧
        e.1 ∉ (s.ended (.updateProposal id guid accept newGroup leader)).map Prod.fst := by
    obtain ⟨hmem, hne⟩ := mem_filter.mp he
    refine ⟨hmem, fun hid => ?_⟩
    obtain ⟨x, hx, heq⟩ := mem_map.mp hid
    have hxid : x.1 = id := of_decide_eq_true (mem_filter.mp hx).2
    exact (of_decide_eq_true hne) (heq.symm.trans hxid)
  have hinvolved {p : LfgProposal} (hmem : (id, p) ∈ s.proposals) {g : ℕ}
      (hout : g ∉ (s.ended (.updateProposal id guid accept newGroup leader)).flatMap
        fun e => involved e.2) : g ∉ involved p := fun hg =>
    hout (mem_flatMap.mpr ⟨(id, p), hin hmem, hg⟩)
  cases hcases with
  | none => exact h
  | waits p hmem accept =>
    refine h.frame fun e' he' => ?_
    obtain ⟨e, he, rfl⟩ := mem_map.mp he'
    split
    · exact ⟨(id, p), hmem, setAccept_guids guid accept p.players, fun _ _ => rfl⟩
    · exact ⟨e, he, rfl, fun _ _ => rfl⟩
  | declined p hmem =>
    obtain ⟨hproposals, hframe⟩ := (s.storeAnswer id (answered p guid .deny)).removeProposal_frame
      id (answered p guid .deny) .proposalDeclined
    rw [filter_storeAnswer] at hproposals
    refine h.undisturbed hu (fun e he => hstored e (hproposals ▸ he)) fun g _ hout => ?_
    have hg := hinvolved hmem hout
    rw [← involved_answered p guid .deny] at hg
    exact hframe g hg
  | succeeded p hmem hguid data group leader' players hdata =>
    refine h.undisturbed hu hstored fun g hout hout' => hdata g (fun heq => hout ?_) fun hg => ?_
    · rw [heq]
      exact mem_map_of_mem (f := fun e => formed e.2 newGroup) (hin hmem)
    · exact hinvolved hmem hout' (mem_append_left _ hg)

/-! ### The tick -/

theorem removeObsoleteProposals_frame (s : LFGMgr) (now : ℕ) :
    let obsolete := s.proposals.filter fun e => e.2.cancelTime < now
    (s.removeObsoleteProposals now).proposalId = s.proposalId ∧
      (∀ e ∈ (s.removeObsoleteProposals now).proposals,
        e ∈ s.proposals ∧ e.1 ∉ obsolete.map Prod.fst) ∧
      ∀ g, g ∉ (obsolete.flatMap fun e => involved e.2) →
        (s.removeObsoleteProposals now).data g = s.data g := by
  have hfold (obsolete : List (ℕ × LfgProposal)) (s : LFGMgr) :
      let s' := obsolete.foldl (fun s e => s.removeProposal e.1 e.2 .proposalFailed) s
      s'.proposalId = s.proposalId ∧
        (∀ e ∈ s'.proposals, e ∈ s.proposals ∧ e.1 ∉ obsolete.map Prod.fst) ∧
        ∀ g, g ∉ (obsolete.flatMap fun e => involved e.2) → s'.data g = s.data g := by
    induction obsolete generalizing s with
    | nil => exact ⟨rfl, fun e he => ⟨he, not_mem_nil⟩, fun _ _ => rfl⟩
    | cons x obsolete ih =>
      obtain ⟨hid, hstored, hdata⟩ := ih (s.removeProposal x.1 x.2 .proposalFailed)
      obtain ⟨hproposals, hframe⟩ := s.removeProposal_frame x.1 x.2 .proposalFailed
      have hsame : (s.removeProposal x.1 x.2 .proposalFailed).proposalId = s.proposalId := by
        obtain ⟨data, heq, -⟩ := s.removeProposal_eq x.1 x.2 .proposalFailed
        rw [heq]
        rfl
      refine ⟨hid.trans hsame, fun e he => ?_, fun g hout => ?_⟩
      · obtain ⟨hmem, hne⟩ := hstored e he
        rw [hproposals, mem_filter] at hmem
        refine ⟨hmem.1, fun hin => ?_⟩
        rcases mem_cons.mp hin with heq | hin
        · exact (of_decide_eq_true hmem.2) heq
        · exact hne hin
      rw [flatMap_cons, mem_append, not_or] at hout
      exact (hdata g hout.2).trans (hframe g hout.1)
  exact hfold _ s

theorem Covered.searched (h : Covered s) (hu : s.Undisturbed (.update env)) :
    Covered (s.searched env.now) ∧ (s.searched env.now).proposalId = s.proposalId := by
  obtain ⟨data, roleChecks, heq, -, hdata⟩ := s.removeObsoleteRoleChecks_eq env.now
  obtain ⟨hid, hstored, hframe⟩ := (s.removeObsoleteRoleChecks env.now).removeObsoleteProposals_frame
    env.now
  rw [heq] at hid hstored hframe
  have hsearched : s.searched env.now =
      removeObsoleteProposals { s with data := data, roleChecks := roleChecks } env.now := by
    rw [← heq]
    rfl
  rw [hsearched]
  refine ⟨h.undisturbed hu hstored fun g hout hout' => (hframe g hout').trans (hdata g ?_), hid⟩
  intro e he hover
  refine not_or.mp fun hin => hout (mem_flatMap.mpr ⟨e, ?_, mem_cons.mpr hin⟩)
  exact mem_filter.mpr ⟨he, decide_eq_true hover⟩

theorem numbered_append (ps ps' : List LfgProposal) (id : ℕ) :
    numbered id (ps ++ ps') = numbered id ps ++ numbered (id + ps.length) ps' := by
  induction ps generalizing id with
  | nil => rfl
  | cons p ps ih =>
    have hnext : id + (p :: ps).length = id + 1 + ps.length := by
      rw [length_cons]
      omega
    rw [cons_append, hnext]
    exact congrArg ((id + 1, p) :: ·) (ih (id + 1))

theorem findAll_frame (env : Env) (s : LFGMgr) :
    ∃ made, (findAll env s).proposals = s.proposals ++ numbered s.proposalId made ∧
      (findAll env s).proposalId = s.proposalId + made.length ∧ (findAll env s).data = s.data := by
  have hfold (teams : List TeamId) (s : LFGMgr) :
      ∃ made, (teams.foldl (findGroups env) s).proposals =
          s.proposals ++ numbered s.proposalId made ∧
        (teams.foldl (findGroups env) s).proposalId = s.proposalId + made.length ∧
          (teams.foldl (findGroups env) s).data = s.data := by
    induction teams generalizing s with
    | nil => exact ⟨[], (append_nil _).symm, rfl, rfl⟩
    | cons t teams ih =>
      obtain ⟨made', hproposals, hid, hdata⟩ := ih (LFGMgr.findGroups env s t)
      have heq := findGroups_eq env s t
      generalize (Search.findGroups (s.world env) ⟨s.queues t, []⟩).made = made at heq
      rw [foldl_cons]
      rw [heq] at hproposals hid hdata ⊢
      refine ⟨made ++ made', ?_, ?_, hdata⟩
      · rw [numbered_append, ← append_assoc]
        exact hproposals
      rw [length_append, ← Nat.add_assoc]
      exact hid
  exact hfold _ s

theorem notifyProposal_state (s : LFGMgr) (p : LfgProposal)
    (h : s.state g = .proposal ∨ g ∈ p.players.map Prod.fst) :
    (s.notifyProposal p).state g = .proposal := by
  have hset (s : LFGMgr) (g g' : ℕ) (h : s.state g = .proposal ∨ g = g') :
      (s.setState g' .proposal).state g = .proposal := by
    unfold setState state
    dsimp only
    split
    · rfl
    rename_i hne
    exact h.resolve_right hne
  have hfold (players : List (ℕ × LfgProposalPlayer)) (s : LFGMgr)
      (h : s.state g = .proposal ∨ g ∈ players.map Prod.fst) :
      (players.foldl (fun s e =>
        let s := s.setState e.1 .proposal
        if s.group e.1 ≠ 0 then s.setState (s.group e.1) .proposal else s) s).state g =
          .proposal := by
    induction players generalizing s with
    | nil => exact h.resolve_right not_mem_nil
    | cons e players ih =>
      refine ih _ ?_
      have hone : s.state g = .proposal ∨ g = e.1 →
          (if (s.setState e.1 .proposal).group e.1 ≠ 0 then
            (s.setState e.1 .proposal).setState ((s.setState e.1 .proposal).group e.1) .proposal
          else s.setState e.1 .proposal).state g = .proposal := by
        intro h
        split
        · exact hset _ g _ (.inl (hset s g e.1 h))
        · exact hset s g e.1 h
      rcases h with h | h
      · exact .inl (hone (.inl h))
      rw [map_cons, mem_cons] at h
      exact h.imp (fun heq => hone (.inr heq)) id
  exact hfold p.players s h

theorem notifyNew_state (s : LFGMgr) (h : s.state g = .proposal ∨
      ∃ e ∈ s.proposals, s.proposalId ≤ e.1 ∧ g ∈ e.2.players.map Prod.fst) :
    s.notifyNew.state g = .proposal := by
  have hfold (told : List (ℕ × LfgProposal)) (s : LFGMgr)
      (h : s.state g = .proposal ∨ ∃ e ∈ told, g ∈ e.2.players.map Prod.fst) :
      (told.foldl (fun s e => s.notifyProposal e.2) s).state g = .proposal := by
    induction told generalizing s with
    | nil =>
      refine h.resolve_right ?_
      rintro ⟨e, he, -⟩
      cases he
    | cons x told ih =>
      refine ih _ ?_
      rcases h with h | ⟨e, he, hg⟩
      · exact .inl (notifyProposal_state s x.2 (.inl h))
      rcases mem_cons.mp he with rfl | hmem
      · exact .inl (notifyProposal_state s e.2 (.inr hg))
      · exact .inr ⟨e, hmem, hg⟩
  refine hfold _ s (h.imp id ?_)
  rintro ⟨e, he, hle, hg⟩
  exact ⟨e, mem_filter.mpr ⟨he, decide_eq_true hle⟩, hg⟩

/-- **A tick that makes at most one proposal** tells its players. -/
theorem Covered.update (h : Covered s) (hu : s.Undisturbed (.update env)) (hone : s.made env ≤ 1) :
    Covered (s.update env) := by
  obtain ⟨hsearched, hid⟩ := h.searched hu
  obtain ⟨made, hproposals, hnumber, hdata⟩ := findAll_frame env (s.searched env.now)
  unfold LFGMgr.made at hone
  rw [update_eq]
  generalize s.searched env.now = s1 at hsearched hid hproposals hnumber hdata hone ⊢
  generalize LFGMgr.findAll env s1 = s2 at hproposals hnumber hdata hone ⊢
  have hold (e : ℕ × LfgProposal) (he : e ∈ s1.proposals) (g : ℕ)
      (hg : g ∈ e.2.players.map Prod.fst) : s2.state g = .proposal := by
    unfold state
    rw [hdata]
    exact hsearched e he g hg
  cases made with
  | nil =>
    have hsame : ¬s1.proposalId ≠ s2.proposalId := not_not_intro hnumber.symm
    have hstored : s2.proposals = s1.proposals := hproposals.trans (append_nil _)
    rw [if_neg hsame]
    intro e he
    rw [hstored] at he
    exact hold e he
  | cons p made =>
    rw [length_cons] at hnumber
    have hnil : made = [] := length_eq_zero_iff.mp (by omega)
    rw [hnil] at hproposals hnumber
    have hnew : s1.proposalId ≠ s2.proposalId := by
      rw [hnumber]
      exact Nat.ne_of_lt (Nat.lt_succ_self _)
    rw [if_pos hnew]
    have htold : s2.notifyNew.proposals = s2.proposals := by
      obtain ⟨data, heq, -⟩ := told_notifyNew s2
      rw [heq]
    intro e he g hg
    rw [htold, hproposals] at he
    refine notifyNew_state s2 ?_
    rcases mem_append.mp he with he | he
    · exact .inl (hold e he g hg)
    have heq : e = (s1.proposalId + 1, p) := mem_singleton.mp he
    refine .inr ⟨e, ?_, ?_, hg⟩
    · rw [hproposals]
      exact mem_append_right _ he
    rw [heq, hnumber]
    exact Nat.le_refl _

/-- What is asked of a request: it leaves the players of stored proposals alone, and a tick makes at
most one proposal. -/
def Single (s : LFGMgr) (request : Request) : Prop :=
  s.Undisturbed request ∧
    match request with
    | .update env => s.made env ≤ 1
    | _ => True

/-- **One request.** -/
theorem Covered.step (h : Covered s) (hsingle : s.Single request) : Covered (step s request) := by
  obtain ⟨hu, hone⟩ := hsingle
  cases request with
  | joinPlayer guid roles dungeons => exact h.joinPlayer hu
  | joinGroup now gguid guid members roles dungeons => exact h.joinGroup hu
  | updateRoleCheck gguid guid roles => exact h.updateRoleCheck hu
  | leave guid => exact h.leaveLfg hu
  | updateProposal id guid accept newGroup leader => exact h.updateProposal hu
  | update env => exact h.update hu hone

end LFGMgr

/-- **Proposals are told to their players.**  In every run of joins, role checks, leaving, answers
and ticks whose requests leave the players of stored proposals alone and whose ticks make at most
one proposal, every player of every stored proposal is in the state of a proposal after each
request. -/
theorem covered_run (team : ℕ → TeamId) (group leader : ℕ → ℕ) (players : ℕ → List ℕ)
    (requests : List Request) (h : Along step Single (start team group leader players) requests) :
    Along step (fun s request => Covered (step s request)) (start team group leader players)
      requests :=
  h.of_invariant (I := Covered) (fun _ _ hs ho => hs.step ho) (fun _ _ hs ho => hs.step ho)
    nofun

/-- Five players join and the next tick proposes a group to them. -/
theorem fiveJoin_covered : Along step (fun s request => Covered (step s request))
      (start (fun _ => .both) (fun _ => 0) (fun _ => 0) fun _ => [])
      (fiveJoin ++ [.update ⟨fun _ => true, fun _ _ => false, 0, fun _ => 0⟩]) := by
  refine covered_run (fun _ => .both) (fun _ => 0) (fun _ => 0) (fun _ => [])
    (fiveJoin ++ [Request.update ⟨fun _ => true, fun _ _ => false, 0, fun _ => 0⟩]) ?_
  refine ⟨?_, ?_, ?_, ?_, ?_, ?_, trivial⟩
  · exact ⟨nofun, trivial⟩
  · exact ⟨nofun, trivial⟩
  · exact ⟨nofun, trivial⟩
  · exact ⟨nofun, trivial⟩
  · exact ⟨nofun, trivial⟩
  refine ⟨nofun, ?_⟩
  change LFGMgr.made _ _ ≤ 1
  decide +kernel

/-- Five players of each team who join. -/
def tenJoin : List Request :=
  fiveJoin ++ [.joinPlayer 6 2 [7], .joinPlayer 7 4 [7], .joinPlayer 8 8 [7], .joinPlayer 9 8 [7],
    .joinPlayer 10 8 [7]]

/-- The tick makes a proposal for each team, and the players of the first are not told. -/
theorem first_not_told :
    let s := (tenJoin ++ [Request.update ⟨fun _ => true, fun _ _ => false, 0, fun _ => 0⟩]).foldl step
      (start (fun guid => if guid ≤ 5 then .horde else .alliance) (fun _ => 0) (fun _ => 0)
        fun _ => [])
    s.proposals.length = 2 ∧ ∃ e ∈ s.proposals, ∃ guid ∈ e.2.players.map Prod.fst,
      s.state guid = .queued := by
  decide +kernel

end ZerosCore.Lfg
