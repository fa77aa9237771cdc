/-
# Proposals that are made

`CheckCompatibility` makes a proposal of five different players, at most one of whose entries
is a group in a dungeon, with one of his roles for each and a dungeon for all, and takes the
entries out of the lists.  It trusts the role check for one entry alone ("it's been checked
before joining") and does not ask whether its players ignore each other; joining does not ask
either.  Among several entries it asks, but sees only who ignores whom of players that are
online.

The proposals are sound just when no entries that can be proposed have two players who ignore
each other unnoticed (`proposals_sound_iff`).  This is so for every run of requests, whatever
is cached.
-/

import ZerosCore.Lib.Run
import ZerosCore.Lfg.Steps
import Mathlib.Data.List.Pairwise

namespace ZerosCore.Lfg

open Lib LFGMgr Search List Option

variable {s s' : LFGMgr} {q : LFGQueue} {w : World} {p : LfgProposal} {type : LfgUpdateType}
  {env : Env} {id gguid guid g now : ℕ} {check : List ℕ} {roles : RoleMask} {dungeons : List ℕ}
  {data : LfgQueueData} {request : Request}

/-! ### The data of the entries -/

theorem Entries.removeFromQueue (h : Entries q) (guid : ℕ) : Entries (q.removeFromQueue guid) := by
  intro g data hdata
  have hsame : (q.removeFromQueue guid).queueData g = if g = guid then none else q.queueData g := rfl
  rw [hsame] at hdata
  split at hdata
  · cases hdata
  · exact h g data hdata

theorem LFGQueue.addQueueData_eq (q : LFGQueue) (guid : ℕ) (data : LfgQueueData) :
    q.addQueueData guid data = { q with
        queueData := fun g => if g = guid then some data else q.queueData g
        newToQueue := q.newToQueue ++ [guid] } := by
  unfold LFGQueue.addQueueData LFGQueue.addToQueue
  dsimp only
  rw [if_pos rfl]
  rfl

theorem Entries.addQueueData (h : Entries q) (hdata : data.Accepted) (guid : ℕ) :
    Entries (q.addQueueData guid data) := by
  intro g data' hdata'
  rw [LFGQueue.addQueueData_eq] at hdata'
  dsimp only at hdata'
  split at hdata'
  · cases hdata'
    exact hdata
  · exact h g data' hdata'

theorem Entries.foldl_removeFromQueue (h : Entries q) (l : List ℕ) :
    Entries (l.foldl LFGQueue.removeFromQueue q) := by
  induction l generalizing q with
  | nil => exact h
  | cons guid l ih => exact ih (h.removeFromQueue guid)

theorem Entries.putBack (h : Entries q) (type : LfgUpdateType) (p : LfgProposal) :
    Entries (putBack type p q) := by
  exact (h.foldl_removeFromQueue _).congr (LFGQueue.foldl_addToQueue _ _).2.2

theorem Entries.leaveQueue (h : Entries q) (s : LFGMgr) (guid : ℕ) :
    Entries (s.leaveQueue guid q) := by
  unfold LFGMgr.leaveQueue
  split
  · exact h.removeFromQueue guid
  · exact h

theorem accepted_single (guid : ℕ) (roles : RoleMask) (h : dungeons ≠ []) :
    LfgQueueData.Accepted ⟨dungeons, [(guid, roles)]⟩ := by
  constructor
  · exact nodup_singleton guid
  · exact cons_ne_nil _ _
  · exact Nat.succ_le_succ (Nat.zero_le _)
  · exact fun hfive => absurd (show 1 = 5 from hfive) (by decide)
  · exact h

theorem accepted_group {groles : RolesMap} (hsorted : Sorted groles) (hlength : groles.length < 256)
    (hsolved : (checkGroupRoles groles).1 = true) (h : dungeons ≠ []) :
    LfgQueueData.Accepted ⟨dungeons, groles⟩ := by
  obtain ⟨hne, -, a, ha⟩ := (checkGroupRoles_spec hlength).1.mp hsolved
  constructor
  · exact hsorted.nodup
  · exact hne
  · exact ha.length_le
  · exact fun _ => hsolved
  · exact h

namespace LFGMgr

/-- The data of the entries and of the role checks are as joining leaves them. -/
structure Kept (s : LFGMgr) : Prop where
  entries : ∀ team, Entries (s.queues team)
  roleChecks : ∀ e ∈ s.roleChecks, Sorted e.2.roles ∧ e.2.dungeons ≠ []

theorem Kept.told {l : List ℕ} (h : Kept s) (htold : Told l s s') : Kept s' := by
  obtain ⟨data, rfl, -⟩ := htold
  exact ⟨h.entries, h.roleChecks⟩

theorem Kept.modifyQueue {f : LFGQueue → LFGQueue} (h : Kept s) (team : TeamId)
    (hf : ∀ q, Entries q → Entries (f q)) : Kept (s.modifyQueue team f) := by
  refine ⟨fun t => ?_, h.roleChecks⟩
  unfold LFGMgr.modifyQueue
  dsimp only
  split
  · exact hf _ (h.entries t)
  · exact h.entries t

theorem Kept.joinPlayer (h : Kept s) (guid : ℕ) (roles : RoleMask) (hne : dungeons ≠ []) :
    Kept (s.joinPlayer guid roles dungeons) :=
  (h.modifyQueue _ fun _ hq =>
    (hq.leaveQueue s guid).addQueueData (accepted_single guid roles hne) guid).told
    (s.joinPlayer_told guid roles dungeons)

theorem Kept.updateRoleCheck (h : Kept s)
    (hsmall : ∀ check, s.roleChecks.lookup gguid = some check →
      (chosen check guid roles).length < 256) : Kept (s.updateRoleCheck gguid guid roles) := by
  have hcases := s.updateRoleCheck_cases gguid guid roles
  generalize s.updateRoleCheck gguid guid roles = s' at hcases
  cases hcases with
  | none _ => exact h
  | waits check hcheck _ =>
    refine ⟨h.entries, fun e he => ?_⟩
    obtain ⟨a, ha, rfl⟩ := mem_map.mp he
    obtain ⟨hsorted, hne⟩ := h.roleChecks _ (mem_of_lookup hcheck)
    split
    · exact ⟨hsorted.setRole _, hne⟩
    · exact h.roleChecks a ha
  | finished check hcheck hsolved hguid data hdata =>
    obtain ⟨hsorted, hne⟩ := h.roleChecks _ (mem_of_lookup hcheck)
    have haccepted := accepted_group (hsorted.setRole (guid, roles)) (hsmall check hcheck)
      hsolved hne
    obtain ⟨hentries, -⟩ := h.modifyQueue (s.getQueueId gguid)
      fun _ hq => hq.addQueueData haccepted gguid
    exact ⟨hentries, fun e he => h.roleChecks e (mem_filter.mp he).1⟩
  | failed check hcheck data hdata =>
    exact ⟨h.entries, fun e he => h.roleChecks e (mem_filter.mp he).1⟩

theorem sorted_newCheck (h : Kept s) (now gguid : ℕ) (members dungeons : List ℕ) :
    Sorted (s.newCheck now gguid members dungeons).roles := by
  have hfold (members : List ℕ) (groles : RolesMap) (hsorted : Sorted groles) :
      Sorted (members.foldl (fun roles g => setRole (g, playerRoleNone) roles) groles) := by
    induction members generalizing groles with
    | nil => exact hsorted
    | cons g members ih => exact ih _ (hsorted.setRole _)
  refine hfold members _ ?_
  cases hold : s.roleChecks.lookup gguid with
  | none => exact Pairwise.nil
  | some check => exact (h.roleChecks _ (mem_of_lookup hold)).1

theorem lookup_newCheck (checks : List (ℕ × LfgRoleCheck)) (gguid : ℕ) (check : LfgRoleCheck) :
    ((checks.filter fun e => e.1 ≠ gguid) ++ [(gguid, check)]).lookup gguid = some check := by
  induction checks with
  | nil => simp
  | cons e checks ih =>
    rw [filter_cons]
    split
    · rename_i hne
      have hne' : (gguid == e.1) = false := by
        rw [beq_eq_false_iff_ne]
        exact fun heq => (of_decide_eq_true hne) heq.symm
      rw [cons_append, lookup_cons, hne']
      exact ih
    · exact ih

section

variable (h : Kept s)

include h

theorem Kept.joinGroup {members : List ℕ} (hne : dungeons ≠ [])
    (hsmall : (chosen (s.newCheck now gguid members dungeons) guid roles).length < 256) :
    Kept (s.joinGroup now gguid guid members roles dungeons) := by
  obtain ⟨s', htold, heq⟩ := s.joinGroup_eq now gguid guid members roles dungeons
  have hkept := (h.modifyQueue (s.getQueueId gguid) fun _ hq => hq.leaveQueue s gguid).told htold
  rw [heq]
  refine Kept.updateRoleCheck ⟨hkept.entries, fun e he => ?_⟩ fun check hcheck => ?_
  · rcases mem_append.mp he with hmem | hmem
    · exact h.roleChecks e (mem_filter.mp hmem).1
    rw [mem_singleton.mp hmem]
    exact ⟨sorted_newCheck h now gguid members dungeons, hne⟩
  dsimp only at hcheck
  rw [lookup_newCheck] at hcheck
  cases hcheck
  exact hsmall

theorem Kept.removeProposal (id : ℕ) (p : LfgProposal) (type : LfgUpdateType) :
    Kept (s.removeProposal id p type) := by
  obtain ⟨data, heq, -⟩ := s.removeProposal_eq id p type
  obtain ⟨hentries, hchecks⟩ := h.modifyQueue (s.teamOf p) fun _ hq => hq.putBack type p
  rw [heq]
  exact ⟨hentries, hchecks⟩

theorem Kept.leaveLfg (guid : ℕ) : Kept (s.leaveLfg guid) := by
  have hcases := s.leaveLfg_cases guid
  generalize s.leaveLfg guid = s' at hcases
  cases hcases with
  | same => exact h
  | out _ => exact h.told (told_setState s guid _)
  | entry _ _ htold =>
    exact (h.modifyQueue _ fun _ hq => hq.removeFromQueue (s.entryOf guid)).told htold
  | roleCheck _ =>
    have hchecked := s.updateRoleCheck_cases (s.entryOf guid) 0 playerRoleNone
    generalize s.updateRoleCheck (s.entryOf guid) 0 playerRoleNone = s' at hchecked
    cases hchecked with
    | none _ => exact h
    | waits check hcheck hguid | finished check hcheck hsolved hguid data hdata =>
      exact absurd rfl hguid
    | failed check hcheck data hdata =>
      exact ⟨h.entries, fun e he => h.roleChecks e (mem_filter.mp he).1⟩
  | proposal id p _ _ => exact h.removeProposal id _ _

theorem Kept.updateProposal {accept : Bool} {newGroup leader : ℕ} :
    Kept (s.updateProposal id guid accept newGroup leader) := by
  have hcases := s.updateProposal_cases id guid accept newGroup leader
  generalize s.updateProposal id guid accept newGroup leader = s' at hcases
  cases hcases with
  | none => exact h
  | waits p _ accept => exact ⟨h.entries, h.roleChecks⟩
  | declined p _ =>
    have hstored : Kept (s.storeAnswer id (answered p guid .deny)) := ⟨h.entries, h.roleChecks⟩
    exact hstored.removeProposal id _ _
  | succeeded p hmem hguid data group leader players hdata =>
    obtain ⟨hentries, hchecks⟩ := h.modifyQueue (s.getQueueId guid)
      fun _ hq => hq.foldl_removeFromQueue p.queues
    exact ⟨hentries, hchecks⟩

theorem Kept.searched (now : ℕ) : Kept (s.searched now) := by
  obtain ⟨data, roleChecks, heq, hsub, -⟩ := s.removeObsoleteRoleChecks_eq now
  have hkept : Kept (s.removeObsoleteRoleChecks now) := by
    rw [heq]
    exact ⟨h.entries, fun e he => h.roleChecks e (hsub.subset he)⟩
  have hfold (proposals : List (ℕ × LfgProposal)) (s : LFGMgr) (h : Kept s) :
      Kept (proposals.foldl (fun s e => s.removeProposal e.1 e.2 .proposalFailed) s) := by
    induction proposals generalizing s with
    | nil => exact h
    | cons e proposals ih => exact ih _ (h.removeProposal e.1 e.2 _)
  exact hfold _ _ hkept

theorem Kept.findGroups (env : Env) (team : TeamId) : Kept (findGroups env s team) := by
  rw [findGroups_eq]
  refine ⟨fun t => ?_, h.roleChecks⟩
  unfold LFGMgr.modifyQueue
  dsimp only
  split
  · exact (h.entries team).congr (Search.findGroups_queueData (h.entries team))
  · exact h.entries t

theorem Kept.findAll (env : Env) : Kept (findAll env s) := by
  exact ((h.findGroups env _).findGroups env _).findGroups env _

theorem Kept.update (env : Env) : Kept (s.update env) := by
  have hfound := (h.searched env.now).findAll env
  obtain ⟨data, heq⟩ := s.update_data env
  generalize LFGMgr.findAll env (s.searched env.now) = found at hfound heq
  rw [heq]
  exact ⟨hfound.entries, hfound.roleChecks⟩

end

/-- A join has a dungeon, which is checked, and no role check comes to 256 players. -/
def Accepted (s : LFGMgr) : Request → Prop
  | .joinPlayer _ _ dungeons => dungeons ≠ []
  | .joinGroup now gguid guid members roles dungeons =>
    dungeons ≠ [] ∧ (chosen (s.newCheck now gguid members dungeons) guid roles).length < 256
  | .updateRoleCheck gguid guid roles =>
    ∀ check, s.roleChecks.lookup gguid = some check → (chosen check guid roles).length < 256
  | .leave _ | .updateProposal .. | .update _ => True

/-- **What joining makes sure of is kept**, whatever is asked for next. -/
theorem Kept.step (h : Kept s) (haccepted : s.Accepted request) : Kept (step s request) := by
  cases request with
  | joinPlayer guid roles dungeons => exact h.joinPlayer guid roles haccepted
  | joinGroup now gguid guid members roles dungeons =>
    exact h.joinGroup haccepted.1 haccepted.2
  | updateRoleCheck gguid guid roles => exact h.updateRoleCheck haccepted
  | leave guid => exact h.leaveLfg guid
  | updateProposal id guid accept newGroup leader => exact h.updateProposal
  | update env => exact h.update env

end LFGMgr

/-! ### The proposals -/

/-- Two players of entries ignore each other and it is not noticed: the entry is alone, or one of
them is not online. -/
def Unnoticed (w : World) (q : LFGQueue) (check : List ℕ) : Prop :=
  ∃ e ∈ members q check, ∃ e' ∈ members q check, e.1 ≠ e'.1 ∧ w.ignores e.1 e'.1 = true ∧
    (check.length = 1 ∨ w.online e.1 = false ∨ w.online e'.1 = false)

/-- A sound proposal: five different players, no more than one group that is in a dungeon, nobody
who ignores another, for each player one of the roles of his own entry with one tank, one healer
and three damage dealers, all players of the entries, and a dungeon of all entries. -/
structure Sound (w : World) (q : LFGQueue) (p : LfgProposal) : Prop where
  five : p.players.length = maxGroupSize
  distinct : (p.players.map Prod.fst).Nodup
  groups : p.queues.countP w.isLfgGroup ≤ 1
  peace : ∀ e ∈ p.players, ∀ e' ∈ p.players, e.1 ≠ e'.1 → w.ignores e.1 e'.1 = false
  roles : ∀ e ∈ p.players, ∃ guid ∈ p.queues, ∃ e' ∈ q.roles guid, Takes e' (e.1, e.2.role)
  tank : (p.players.countP fun e => e.2.role = playerRoleTank) = lfgTanksNeeded
  healer : (p.players.countP fun e => e.2.role = playerRoleHealer) = lfgHealersNeeded
  damage : (p.players.countP fun e => e.2.role = playerRoleDamage) = lfgDpsNeeded
  recorded : ∀ guid ∈ p.queues, ∀ e ∈ q.roles guid, e.1 ∈ p.players.map Prod.fst
  dungeon : ∀ guid ∈ p.queues, p.dungeonId ∈ q.dungeons guid

theorem takes_guids {groles a : RolesMap} (h : Forall₂ Takes groles a) :
    a.map Prod.fst = groles.map Prod.fst := by
  induction h with
  | nil => rfl
  | cons htakes _ ih => rw [map_cons, map_cons, htakes.1, ih]

theorem exists_takes {groles a : RolesMap} {x : ℕ × RoleMask} (h : Forall₂ Takes groles a)
    (hx : x ∈ a) : ∃ e ∈ groles, Takes e x := by
  induction h with
  | nil => cases hx
  | cons htakes _ ih =>
    rcases mem_cons.mp hx with rfl | hmem
    · exact ⟨_, mem_cons_self, htakes⟩
    obtain ⟨e, he, htakes'⟩ := ih hmem
    exact ⟨e, mem_cons_of_mem _ he, htakes'⟩

theorem mem_members {e : ℕ × RoleMask} :
    e ∈ members q check ↔ ∃ guid ∈ check, e ∈ q.roles guid := mem_flatMap

theorem Compatible.nodup (hq : Entries q) (h : Compatible w q check) :
    ((members q check).map Prod.fst).Nodup := by
  match check, h with
  | [], h => exact absurd rfl h.nonempty
  | [guid], h =>
    obtain ⟨data, hdata⟩ := isSome_iff_exists.mp (h.data guid mem_cons_self)
    have hmembers : members q [guid] = q.roles guid := append_nil _
    rw [hmembers, roles_eq hdata]
    exact (hq guid data hdata).nodup
  | guid :: guid' :: check, h =>
    have hapart := (h.matching (Nat.succ_lt_succ (Nat.succ_pos _))).apart
    exact pairwise_map.mpr (hapart.imp fun h => h.1)

/-- **A proposal that can be made is sound** unless it has players who ignore each other
unnoticed. -/
theorem Search.Offer.sound (hq : Entries q) (h : Offer w q p) (hnot : ¬Unnoticed w q p.queues) :
    Sound w q p := by
  obtain ⟨⟨hcompatible, hfull, hqueued⟩, ⟨groles, hperm, ha⟩, hdungeon⟩ := h
  have hguids : p.players.map Prod.fst = groles.map Prod.fst := by
    rw [← takes_guids ha.takes, List.map_map]
    rfl
  have hmem (e : ℕ × LfgProposalPlayer) (he : e ∈ p.players) :
      ∃ e' ∈ members q p.queues, e'.1 = e.1 := by
    have hin : e.1 ∈ groles.map Prod.fst := hguids ▸ mem_map_of_mem he
    obtain ⟨e', he', heq⟩ := mem_map.mp hin
    exact ⟨e', hperm.mem_iff.mp he', heq⟩
  have hlength : groles.length = maxGroupSize := hperm.length_eq.trans hfull
  obtain ⟨htank, hhealer, hdamage⟩ := ha.full hlength
  unfold holders at htank hhealer hdamage
  rw [countP_map] at htank hhealer hdamage
  constructor
  · rw [← hlength, ha.takes.length_eq, length_map]
  · rw [hguids, (hperm.map Prod.fst).nodup_iff]
    exact hcompatible.nodup hq
  · exact hcompatible.groups
  · intro e he e' he' hne
    obtain ⟨x, hx, hxe⟩ := hmem e he
    obtain ⟨x', hx', hxe'⟩ := hmem e' he'
    rw [← hxe, ← hxe'] at hne ⊢
    by_contra hignores
    rw [Bool.not_eq_false] at hignores
    refine hnot ⟨x, hx, x', hx', hne, hignores, ?_⟩
    by_contra hseen
    rw [not_or, not_or, Bool.not_eq_false, Bool.not_eq_false] at hseen
    obtain ⟨hmany, honline, honline'⟩ := hseen
    have hlong : 1 < p.queues.length := by
      have hpos := length_pos_iff.mpr hcompatible.nonempty
      omega
    have hsymm : Std.Symm (Apart w) := ⟨fun _ _ h => h.symm⟩
    have hapart := (hcompatible.matching hlong).apart.forall hx hx' fun heq => hne (by rw [heq])
    have hignore := hapart.2
    unfold World.hasIgnore at hignore
    rw [honline, honline', hignores] at hignore
    cases hignore
  · intro e he
    obtain ⟨e', he', htakes⟩ := exists_takes ha.takes (mem_map_of_mem he)
    obtain ⟨guid, hguid, hin⟩ := mem_members.mp (hperm.mem_iff.mp he')
    exact ⟨guid, hguid, e', hin, htakes⟩
  · exact htank
  · exact hhealer
  · exact hdamage
  · intro guid hguid e he
    rw [hguids]
    exact mem_map_of_mem (hperm.mem_iff.mpr (mem_members.mpr ⟨guid, hguid, he⟩))
  · exact hdungeon

/-- **The proposals of the dungeon finder.**  In every state that joining, leaving, answers and
ticks lead to, and in which a tick searches, and whatever is cached and waits: all proposals
that `CheckCompatibility` adds are sound and have their entries out of the lists, if and only
if no entries that can be proposed have two players who ignore each other unnoticed. -/
theorem proposals_sound_iff (team : ℕ → TeamId) (group leader : ℕ → ℕ) (players : ℕ → List ℕ)
    (requests : List Request)
    (haccepted : Along step Accepted (start team group leader players) requests)
    (now : ℕ) (env : Env) (t : TeamId) :
    let s := (requests.foldl step (start team group leader players)).searched now
    let w := s.world env
    (∀ search : Search, search.queue.queueData = (s.queues t).queueData → ∀ check,
      ∀ p ∈ (checkCompatibility w search check).1.made.drop search.made.length,
        Sound w search.queue p ∧ ∀ guid ∈ p.queues,
          guid ∉ (checkCompatibility w search check).1.queue.newToQueue ∧
            guid ∉ (checkCompatibility w search check).1.queue.currentQueue) ↔
    ∀ check, Proposable w (s.queues t) check → ¬Unnoticed w (s.queues t) check := by
  intro s w
  have hstart : Kept (start team group leader players) :=
    ⟨nofun, nofun⟩
  have hkept : Kept s :=
    (Along.invariant_foldl (fun _ _ h ha => h.step ha) hstart haccepted).searched now
  have hq := hkept.entries t
  constructor
  · intro hsound check hcan
    obtain ⟨s', p, hcached, hqueues, hoffer, heq⟩ :=
      checkCompatibility_proposable (s := ⟨s.queues t, []⟩) hq hcan
    rintro ⟨e, he, e', he', hne, hignores, -⟩
    have hmade : (checkCompatibility w ⟨s.queues t, []⟩ check).1.made = [p] := by
      rw [heq]
      change s'.made ++ [p] = [p]
      rw [hcached.made, nil_append]
    have hp := (hsound ⟨s.queues t, []⟩ rfl check p (by
      rw [hmade]
      exact mem_singleton_self p)).1
    rw [← hqueues] at he he'
    obtain ⟨guid, hguid, hin⟩ := mem_members.mp he
    obtain ⟨guid', hguid', hin'⟩ := mem_members.mp he'
    obtain ⟨x, hx, hxe⟩ := mem_map.mp (hp.recorded guid hguid e hin)
    obtain ⟨x', hx', hxe'⟩ := mem_map.mp (hp.recorded guid' hguid' e' hin')
    have hpeace := hp.peace x hx x' hx' (by rwa [hxe, hxe'])
    rw [hxe, hxe', hignores] at hpeace
    cases hpeace
  intro hnot search hdata check p hp
  have hsearch : Entries search.queue := hq.congr hdata
  obtain ⟨added, hmade, hadded⟩ := (checkCompatibility_extends (w := w) hsearch check).made
  rw [hmade, drop_left] at hp
  obtain ⟨hoffer, hout⟩ := hadded p hp
  refine ⟨hoffer.sound hsearch fun hunnoticed => ?_, hout⟩
  have hcan := (hoffer.congr hdata.symm).proposable
  refine hnot p.queues hcan ?_
  unfold Unnoticed at hunnoticed ⊢
  rwa [members_congr hdata] at hunnoticed

/-- Five players without a group who join. -/
def fiveJoin : List Request :=
  [.joinPlayer 1 2 [7], .joinPlayer 2 4 [7], .joinPlayer 3 8 [7, 9], .joinPlayer 4 8 [7],
    .joinPlayer 5 8 [7]]

/-- Nobody ignores anybody, so that whatever is proposed of the five is sound. -/
theorem fiveJoin_sound :
    let s := (fiveJoin.foldl step
      (start (fun _ => .both) (fun _ => 0) (fun _ => 0) fun _ => [])).searched 0
    ∀ search : Search, search.queue.queueData = (s.queues .both).queueData → ∀ check,
      ∀ p ∈ (checkCompatibility (s.world ⟨fun _ => true, fun _ _ => false, 0, fun _ => 0⟩) search
          check).1.made.drop search.made.length,
        Sound (s.world ⟨fun _ => true, fun _ _ => false, 0, fun _ => 0⟩) search.queue p ∧
          ∀ guid ∈ p.queues,
            guid ∉ (checkCompatibility (s.world ⟨fun _ => true, fun _ _ => false, 0, fun _ => 0⟩)
                search check).1.queue.newToQueue ∧
              guid ∉ (checkCompatibility (s.world ⟨fun _ => true, fun _ _ => false, 0, fun _ => 0⟩)
                search check).1.queue.currentQueue := by
  have hne (d : ℕ) (ds : List ℕ) : d :: ds ≠ [] := cons_ne_nil d ds
  refine (proposals_sound_iff (fun _ => .both) (fun _ => 0) (fun _ => 0) (fun _ => []) fiveJoin
    ⟨hne _ _, hne _ _, hne _ _, hne _ _, hne _ _, trivial⟩ 0
    ⟨fun _ => true, fun _ _ => false, 0, fun _ => 0⟩ .both).mpr ?_
  rintro check - ⟨e, -, e', -, -, hignores, -⟩
  cases hignores

/-- The guid of a group. -/
def party : ℕ := 0x1F5 * 2 ^ 52 + 1

/-- A group of five whose leader is the tank; each of the others chooses a role. -/
def partyJoins : List Request :=
  [.joinGroup 0 party 1 [1, 2, 3, 4, 5] 2 [7], .updateRoleCheck party 2 4,
    .updateRoleCheck party 3 8, .updateRoleCheck party 4 8, .updateRoleCheck party 5 8]

/-- The manager when the group has joined. -/
def partyQueued : LFGMgr :=
  partyJoins.foldl step (start (fun _ => .both) (fun g => if g ∈ [1, 2, 3, 4, 5] then party else 0)
    (fun _ => 1) fun g => if g = party then [1, 2, 3, 4, 5] else [])

/-- Everybody is online, and player `1` ignores player `2`. -/
def oneIgnoresTwo : Env := ⟨fun _ => true, fun g g' => g = 1 && g' = 2, 0, fun _ => 0⟩

/-- Two players of a group ignore each other, and the group is proposed. -/
theorem ignoring_group_proposed : ∃ p ∈ (checkCompatibility (partyQueued.world oneIgnoresTwo)
        ⟨partyQueued.queues .both, []⟩ [party]).1.made, ∃ e ∈ p.players, ∃ e' ∈ p.players,
        e.1 ≠ e'.1 ∧ oneIgnoresTwo.ignores e.1 e'.1 = true := by
  decide +kernel

end ZerosCore.Lfg
