/-
# Which entries are compatible

What `LFGQueue::CheckCompatibility` of `src/server/game/DungeonFinding/LFGQueue.cpp` answers
for a list of entries, in terms of the entries: their players are told apart and do not
ignore each other, there are roles for them, there is a dungeon for all (`Compatible`).  The
check of all entries but the first makes no difference to the answer, for what holds of all
holds of them; it can make a proposal of its own (`Extends`).

Entries have at most five players, and data that were checked when they joined
(`Entries`), so that the count of players as a byte is exact as long as it is looked at.
One entry alone is not asked whether its players ignore each other.
-/

import ZerosCore.Lfg.LFGQueue
import Mathlib.Data.List.GetD
import Mathlib.Data.List.Perm.Basic

namespace ZerosCore.Lfg

open List Option

variable {w : World} {q : LFGQueue} {s s' : Search} {roles groles a : RolesMap} {check l : List ℕ}
  {t t' : Search.Tally} {p : LfgProposal} {guid g : ℕ} {e e' : ℕ × RoleMask}

/-! ### Players in a map -/

namespace Search

/-- The players stand in the order of their guids. -/
def Sorted (roles : RolesMap) : Prop := roles.Pairwise fun e e' => e.1 < e'.1

theorem Sorted.nodup (h : Sorted roles) : (roles.map Prod.fst).Nodup :=
  pairwise_map.mpr (h.imp fun hlt => Nat.ne_of_lt hlt)

theorem setRole_perm (h : ∀ e' ∈ roles, e.1 ≠ e'.1) : (setRole e roles).Perm (e :: roles) := by
  induction roles with
  | nil => exact List.Perm.refl _
  | cons a roles ih =>
    unfold setRole
    by_cases hlt : e.1 < a.1
    · rw [if_pos hlt]
    rw [if_neg hlt, if_neg (h a mem_cons_self)]
    exact ((ih fun e' he' => h e' (mem_cons_of_mem a he')).cons a).trans (.swap e a roles)

theorem mem_setRole (h : e' ∈ setRole e roles) : e' = e ∨ e' ∈ roles := by
  induction roles with
  | nil => exact .inl (mem_singleton.mp h)
  | cons a roles ih =>
    unfold setRole at h
    by_cases hlt : e.1 < a.1
    · rw [if_pos hlt] at h
      exact mem_cons.mp h
    rw [if_neg hlt] at h
    by_cases heq : e.1 = a.1
    · rw [if_pos heq] at h
      exact (mem_cons.mp h).imp_right fun h => mem_cons_of_mem a h
    rw [if_neg heq] at h
    rcases mem_cons.mp h with rfl | hmem
    · exact .inr mem_cons_self
    · exact (ih hmem).imp_right fun h => mem_cons_of_mem a h

theorem Sorted.setRole (h : Sorted roles) (e : ℕ × RoleMask) : Sorted (setRole e roles) := by
  induction roles with
  | nil => exact pairwise_singleton _ _
  | cons a roles ih =>
    obtain ⟨hfirst, hrest⟩ := pairwise_cons.mp h
    unfold Search.setRole
    by_cases hlt : e.1 < a.1
    · rw [if_pos hlt]
      refine pairwise_cons.mpr ⟨fun e' he' => ?_, h⟩
      rcases mem_cons.mp he' with rfl | hmem
      · exact hlt
      · exact hlt.trans (hfirst e' hmem)
    rw [if_neg hlt]
    by_cases heq : e.1 = a.1
    · rw [if_pos heq]
      refine pairwise_cons.mpr ⟨fun e' he' => ?_, hrest⟩
      rw [heq]
      exact hfirst e' he'
    rw [if_neg heq]
    refine pairwise_cons.mpr ⟨fun e' he' => ?_, ih hrest⟩
    rcases mem_setRole he' with rfl | hmem
    · omega
    · exact hfirst e' hmem

theorem length_setRole (h : Sorted roles) (he : e' ∈ roles) (heq : e.1 = e'.1) :
    (setRole e roles).length = roles.length := by
  induction roles with
  | nil => cases he
  | cons a roles ih =>
    obtain ⟨hfirst, hrest⟩ := pairwise_cons.mp h
    unfold setRole
    rcases mem_cons.mp he with rfl | hmem
    · rw [if_neg (by omega), if_pos heq]
      rfl
    have hlt := hfirst e' hmem
    rw [if_neg (by omega), if_neg (by omega), length_cons, ih hrest hmem]
    rfl

end Search

/-- Two players who are not the same, and of whom none is seen to ignore the other. -/
def Apart (w : World) (e e' : ℕ × RoleMask) : Prop := e.1 ≠ e'.1 ∧ w.hasIgnore e.1 e'.1 = false

theorem Apart.symm (h : Apart w e e') : Apart w e' e := by
  refine ⟨h.1.symm, ?_⟩
  rw [← h.2]
  unfold World.hasIgnore
  rw [Bool.and_comm (w.online e'.1), Bool.or_comm]

namespace Search

theorem Sorted.addRole (h : Sorted roles) (e : ℕ × RoleMask) : Sorted (addRole w roles e) := by
  unfold Search.addRole
  split
  · exact h
  · exact h.setRole e

theorem addRole_perm (h : ∀ e' ∈ roles, Apart w e e') : (addRole w roles e).Perm (e :: roles) := by
  unfold addRole
  rw [if_neg]
  · exact setRole_perm fun e' he' => (h e' he').1
  rintro ⟨e', he', -, hignore⟩
  rw [(h e' he').2] at hignore
  cases hignore

theorem length_addRole (hsorted : Sorted roles) (he : e' ∈ roles) (h : ¬Apart w e e') :
    (addRole w roles e).length = roles.length := by
  unfold addRole
  split
  · rfl
  rename_i hnone
  have heq : e.1 = e'.1 := by
    by_contra hne
    refine h ⟨hne, ?_⟩
    by_contra hignore
    exact hnone ⟨e', he, hne, by rwa [Bool.not_eq_false] at hignore⟩
  exact length_setRole hsorted he heq

/-- **The players of a list in a map.**  There are not more than in the list, and as many only
if all are apart; then they are those of the list. -/
theorem foldl_addRole (es : RolesMap) (hsorted : Sorted roles) :
    (es.foldl (addRole w) roles).length ≤ roles.length + es.length ∧
      ((es.foldl (addRole w) roles).length = roles.length + es.length ↔
        es.Pairwise (Apart w) ∧ ∀ e ∈ es, ∀ e' ∈ roles, Apart w e e') ∧
      ((es.foldl (addRole w) roles).length = roles.length + es.length →
        (es.foldl (addRole w) roles).Perm (es ++ roles)) := by
  induction es generalizing roles with
  | nil =>
    exact ⟨Nat.le_refl _, ⟨fun _ => ⟨.nil, nofun⟩, fun _ => rfl⟩,
      fun _ => List.Perm.refl _⟩
  | cons e es ih =>
    obtain ⟨hle, hiff, hperm⟩ := ih (hsorted.addRole e)
    rw [foldl_cons, length_cons]
    by_cases h : ∀ e' ∈ roles, Apart w e e'
    · have hadded := addRole_perm h
      have hlength := hadded.length_eq
      rw [length_cons] at hlength
      have heq : (addRole w roles e).length + es.length = roles.length + (es.length + 1) := by omega
      rw [← heq]
      refine ⟨hle, ?_, fun hall => ?_⟩
      · rw [hiff, pairwise_cons]
        constructor
        · rintro ⟨hes, hroles⟩
          refine ⟨⟨fun x hx => ?_, hes⟩, fun x hx y hy => ?_⟩
          · exact (hroles x hx e (hadded.mem_iff.mpr mem_cons_self)).symm
          rcases mem_cons.mp hx with rfl | hmem
          · exact h y hy
          · exact hroles x hmem y (hadded.mem_iff.mpr (mem_cons_of_mem e hy))
        rintro ⟨⟨hfirst, hes⟩, hroles⟩
        refine ⟨hes, fun x hx y hy => ?_⟩
        rcases mem_cons.mp (hadded.mem_iff.mp hy) with rfl | hmem
        · exact (hfirst x hx).symm
        · exact hroles x (mem_cons_of_mem e hx) y hmem
      · exact (hperm hall).trans ((hadded.append_left es).trans perm_middle)
    push Not at h
    obtain ⟨e', he', hnot⟩ := h
    have hlength := length_addRole hsorted he' hnot
    refine ⟨by omega, ⟨fun heq => by omega, ?_⟩, fun heq => by omega⟩
    rintro ⟨-, hroles⟩
    exact absurd (hroles e mem_cons_self e' he') hnot

end Search

/-! ### Assignments of other lists of players -/

theorem holders_perm (h : roles.Perm groles) (role : RoleMask) :
    holders role roles = holders role groles := h.countP_eq _

theorem exists_assignment_perm (h : roles.Perm groles) (ha : Assignment roles a) :
    ∃ a', Assignment groles a' := by
  obtain ⟨a', htakes, hperm⟩ := perm_comp_forall₂ h.symm ha.takes
  refine ⟨a', htakes, ?_, ?_, ?_⟩
  · rw [holders_perm hperm]
    exact ha.tank
  · rw [holders_perm hperm]
    exact ha.healer
  rw [holders_perm hperm]
  exact ha.damage

theorem exists_assignment_suffix (ha : Assignment (roles ++ groles) a) :
    ∃ a', Assignment groles a' := by
  have hle (role : RoleMask) : holders role (a.drop roles.length) ≤ holders role a :=
    (drop_sublist _ a).countP_le
  refine ⟨a.drop roles.length, ?_, (hle _).trans ha.tank, (hle _).trans ha.healer,
    (hle _).trans ha.damage⟩
  have htakes := forall₂_drop roles.length ha.takes
  rwa [drop_left] at htakes

/-- **A full group** has one tank, one healer and three damage dealers. -/
theorem Assignment.full (h : Assignment groles a) (hfull : groles.length = maxGroupSize) :
    holders playerRoleTank a = lfgTanksNeeded ∧ holders playerRoleHealer a = lfgHealersNeeded ∧
      holders playerRoleDamage a = lfgDpsNeeded := by
  have hsum := (holders_le_length a).2.mpr h.isRole
  have ht := h.tank
  have hh := h.healer
  have hd := h.damage
  have hlength := h.takes.length_eq
  have hone : lfgTanksNeeded = 1 := rfl
  have hone' : lfgHealersNeeded = 1 := rfl
  have hthree : lfgDpsNeeded = 3 := rfl
  have hfive : maxGroupSize = 5 := rfl
  omega

/-! ### Entries -/

/-- What joining makes sure of: a player is in the data once, there are no more players than a
group has and a group of that many has roles, and there is a dungeon. -/
structure LfgQueueData.Accepted (data : LfgQueueData) : Prop where
  nodup : (data.roles.map Prod.fst).Nodup
  nonempty : data.roles ≠ []
  size : data.roles.length ≤ maxGroupSize
  solved : data.roles.length = maxGroupSize → (checkGroupRoles data.roles).1 = true
  dungeons : data.dungeons ≠ []

def Entries (q : LFGQueue) : Prop := ∀ guid data, q.queueData guid = some data → data.Accepted

/-- The players of some entries. -/
def members (q : LFGQueue) (check : List ℕ) : RolesMap := check.flatMap q.roles

/-- The players of several entries can play together, and there is a dungeon for them. -/
structure Matching (w : World) (q : LFGQueue) (check : List ℕ) : Prop where
  apart : (members q check).Pairwise (Apart w)
  known : ∀ e ∈ members q check, Known e.2
  roles : ∃ a, Assignment (members q check) a
  dungeon : ∃ d, ∀ guid ∈ check, d ∈ q.dungeons guid

/-- The entries are compatible. -/
structure Compatible (w : World) (q : LFGQueue) (check : List ℕ) : Prop where
  nonempty : check ≠ []
  data : ∀ guid ∈ check, (q.queueData guid).isSome
  size : (members q check).length ≤ maxGroupSize
  groups : check.countP w.isLfgGroup ≤ 1
  matching : 1 < check.length → Matching w q check

theorem members_cons (q : LFGQueue) (guid : ℕ) (check : List ℕ) :
    members q (guid :: check) = q.roles guid ++ members q check := flatMap_cons

theorem length_members_cons (q : LFGQueue) (guid : ℕ) (check : List ℕ) :
    (members q (guid :: check)).length = (q.roles guid).length + (members q check).length := by
  rw [members_cons, length_append]

variable {data : LfgQueueData}

theorem roles_eq (h : q.queueData guid = some data) : q.roles guid = data.roles := by
  unfold LFGQueue.roles
  rw [h]
  rfl

theorem dungeons_eq (h : q.queueData guid = some data) : q.dungeons guid = data.dungeons := by
  unfold LFGQueue.dungeons
  rw [h]
  rfl

theorem Entries.roles_pos (h : Entries q) (hsome : (q.queueData guid).isSome) :
    0 < (q.roles guid).length := by
  obtain ⟨data, hdata⟩ := isSome_iff_exists.mp hsome
  rw [roles_eq hdata]
  exact length_pos_iff.mpr (h guid data hdata).nonempty

theorem Entries.length_le (h : Entries q) (hdata : ∀ guid ∈ check, (q.queueData guid).isSome) :
    check.length ≤ (members q check).length := by
  induction check with
  | nil => exact Nat.le_refl _
  | cons guid check ih =>
    have hrest := ih fun g hg => hdata g (mem_cons_of_mem guid hg)
    have hpos := h.roles_pos (hdata guid mem_cons_self)
    rw [length_members_cons, length_cons]
    omega

theorem Compatible.length_le (hq : Entries q) (h : Compatible w q check) :
    check.length ≤ maxGroupSize := (hq.length_le h.data).trans h.size

theorem Compatible.tail (h : Compatible w q (guid :: check)) (hne : check ≠ []) :
    Compatible w q check := by
  have hmany : 1 < (guid :: check).length := by
    have hpos := length_pos_iff.mpr hne
    rw [length_cons]
    omega
  obtain ⟨hapart, hknown, ⟨a, ha⟩, d, hd⟩ := h.matching hmany
  have hsize := h.size
  have hgroups := h.groups
  rw [length_members_cons] at hsize
  rw [countP_cons] at hgroups
  constructor
  · exact hne
  · exact fun g hg => h.data g (mem_cons_of_mem guid hg)
  · omega
  · omega
  intro _
  constructor
  · exact (pairwise_append.mp hapart).2.1
  · exact fun e he => hknown e (mem_append_right _ he)
  · exact exists_assignment_suffix ha
  · exact ⟨d, fun g hg => hd g (mem_cons_of_mem guid hg)⟩

/-! ### The count -/

namespace Search

/-- The entries have data, and with what was counted before there are not too many players and
LFG groups. -/
structure Fits (w : World) (q : LFGQueue) (check : List ℕ) (t : Tally) : Prop where
  data : ∀ guid ∈ check, (q.queueData guid).isSome
  size : t.numPlayers + (members q check).length ≤ maxGroupSize
  groups : t.numLfgGroups + check.countP w.isLfgGroup ≤ 1

theorem countPlayers_fits (h : Fits w q check t) : ∃ t', countPlayers w q check t = .ok t' ∧
      t'.numPlayers = t.numPlayers + (members q check).length ∧
      t'.numLfgGroups = t.numLfgGroups + check.countP w.isLfgGroup := by
  induction check generalizing t with
  | nil => exact ⟨t, rfl, rfl, rfl⟩
  | cons guid check ih =>
    have hfive : maxGroupSize = 5 := rfl
    have hsize := h.size
    have hgroups := h.groups
    obtain ⟨data, hdata⟩ := isSome_iff_exists.mp (h.data guid mem_cons_self)
    rw [length_members_cons, roles_eq hdata] at hsize
    rw [countP_cons] at hgroups
    unfold countPlayers
    rw [if_pos ⟨by omega, by omega⟩, hdata]
    dsimp only
    have hmod : (t.numPlayers + data.roles.length) % 256 = t.numPlayers + data.roles.length :=
      Nat.mod_eq_of_lt (by omega)
    have hif : (if w.isLfgGroup guid then t.numLfgGroups + 1 else t.numLfgGroups) =
        t.numLfgGroups + if w.isLfgGroup guid then 1 else 0 := by
      split <;> rfl
    rw [hmod, hif]
    obtain ⟨t', ht', hplayers, hlfg⟩ := ih (t := ⟨t.numPlayers + data.roles.length,
        t.numLfgGroups + if w.isLfgGroup guid then 1 else 0,
        if w.isLfgGroup guid && t.numLfgGroups = 0 then guid else t.group,
        (data.roles.map fun e => (e.1, if isGroupGuid guid then guid else 0)) ++
          t.proposalGroups⟩)
      ⟨fun g hg => h.data g (mem_cons_of_mem guid hg), by dsimp only; omega,
        by dsimp only; omega⟩
    refine ⟨t', ht', ?_, ?_⟩
    · rw [hplayers, length_members_cons, roles_eq hdata]
      exact Nat.add_assoc _ _ _
    rw [hlfg, countP_cons]
    dsimp only
    omega

theorem fits_of_countPlayers (hq : Entries q) (h : countPlayers w q check t = .ok t')
    (hplayers : t'.numPlayers ≤ maxGroupSize) (hgroups : t'.numLfgGroups ≤ 1) :
    Fits w q check t := by
  induction check generalizing t with
  | nil =>
    cases h
    exact ⟨nofun, hplayers, hgroups⟩
  | cons guid check ih =>
    have hfive : maxGroupSize = 5 := rfl
    unfold countPlayers at h
    by_cases hgo : t.numLfgGroups < 2 ∧ t.numPlayers ≤ maxGroupSize
    · rw [if_pos hgo] at h
      cases hdata : q.queueData guid with
      | none =>
        rw [hdata] at h
        cases h
      | some data =>
        rw [hdata] at h
        have hsize := (hq guid data hdata).size
        obtain ⟨hrest, hrestsize, hrestgroups⟩ := ih h
        dsimp only at hrestsize hrestgroups
        constructor
        · intro g hg
          rcases mem_cons.mp hg with rfl | hmem
          · rw [hdata]
            rfl
          · exact hrest g hmem
        · rw [length_members_cons, roles_eq hdata]
          omega
        rw [countP_cons]
        split at hrestgroups
        · rename_i hlfg
          rw [if_pos hlfg]
          omega
        rename_i hlfg
        rw [if_neg hlfg]
        omega
    rw [if_neg hgo] at h
    cases h
    exact absurd ⟨Nat.lt_succ_of_le hgroups, hplayers⟩ hgo

theorem countPlayers_error (h : countPlayers w q check t = .error g) :
    g ∈ check ∧ q.queueData g = none := by
  induction check generalizing t with
  | nil => cases h
  | cons guid check ih =>
    unfold countPlayers at h
    split at h
    · split at h
      · rename_i hnone
        cases h
        exact ⟨mem_cons_self, hnone⟩
      · exact (ih h).imp_left fun hmem => mem_cons_of_mem guid hmem
    · cases h

/-! ### The answer -/

/-- Entries of which a proposal can be made: they are compatible, are as many players as a group
has, and wait. -/
structure Proposable (w : World) (q : LFGQueue) (check : List ℕ) : Prop where
  compatible : Compatible w q check
  full : (members q check).length = maxGroupSize
  queued : w.allQueued check = true

/-- A proposal that can be made of its entries: each player has one of his roles, and the dungeon
is one of each entry. -/
structure Offer (w : World) (q : LFGQueue) (p : LfgProposal) : Prop where
  proposable : Proposable w q p.queues
  players : ∃ roles, roles.Perm (members q p.queues) ∧
    Assignment roles (p.players.map fun e => (e.1, e.2.role))
  dungeon : ∀ guid ∈ p.queues, p.dungeonId ∈ q.dungeons guid

/-- The entries of a proposal have left the lists, and it is stored. -/
def take (s : Search) (p : LfgProposal) : Search :=
  { queue := p.queues.foldl
      (fun q guid => (q.removeFromNewQueue guid).removeFromCurrentQueue guid) s.queue
    made := s.made ++ [p] }

/-- What `CheckCompatibility` can come to, after the check of all entries but the first. -/
inductive Outcome (w : World) (s : Search) (check : List ℕ) : Search × LfgCompatibility → Prop
  | refused (c : LfgCompatibility) (hc : c.isIncompatible = true)
      (h : ¬Compatible w s.queue check) : Outcome w s check (s.setCompatibles check c, c)
  | missing (guid : ℕ) (hmem : guid ∈ check) (hdata : s.queue.queueData guid = none)
      (h : ¬Compatible w s.queue check) :
      Outcome w s check ({ s with queue := s.queue.removeFromQueue guid }, .pending)
  | less (h : Compatible w s.queue check) (hless : (members s.queue check).length ≠ maxGroupSize) :
      Outcome w s check (s.setCompatibles check .withLessPlayers, .withLessPlayers)
  | badStates (h : Compatible w s.queue check)
      (hfull : (members s.queue check).length = maxGroupSize) (hstates : w.allQueued check = false) :
      Outcome w s check (s.setCompatibles check .badStates, .badStates)
  | matched (p : LfgProposal) (hqueues : p.queues = check) (h : Offer w s.queue p) :
      Outcome w s check ((s.take p).setCompatibles check .matched, .matched)

theorem mem_proposalDungeons {d : ℕ} (hne : check ≠ []) :
    d ∈ proposalDungeons q check ↔ ∀ guid ∈ check, d ∈ q.dungeons guid := by
  have hfold (check ds : List ℕ) :
      d ∈ check.foldl (fun ds g => ds.filter (· ∈ q.dungeons g)) ds ↔
        d ∈ ds ∧ ∀ guid ∈ check, d ∈ q.dungeons guid := by
    induction check generalizing ds with
    | nil => exact ⟨fun h => ⟨h, nofun⟩, fun h => h.1⟩
    | cons guid check ih =>
      rw [foldl_cons, ih, mem_filter, forall_mem_cons, decide_eq_true_eq, and_assoc]
  cases check with
  | nil => exact absurd rfl hne
  | cons guid check =>
    rw [forall_mem_cons]
    exact hfold check _

variable {ds : List ℕ}

theorem getD_mem (i : ℕ) (hne : ds ≠ []) : ds.getD (i % ds.length) 0 ∈ ds := by
  have hlt := Nat.mod_lt i (length_pos_iff.mpr hne)
  rw [getD_eq_getElem _ _ hlt]
  exact getElem_mem hlt

/-- **The end of the check**, for compatible entries with their roles and dungeons. -/
theorem propose_outcome (h : Compatible w s.queue check)
    (hplayers : t.numPlayers = (members s.queue check).length)
    (hroles : ∃ groles, groles.Perm (members s.queue check) ∧
      (t.numPlayers = maxGroupSize → Assignment groles roles))
    (hne : ds ≠ []) (hds : ∀ d ∈ ds, ∀ guid ∈ check, d ∈ s.queue.dungeons guid) :
    Outcome w s check (propose w s t check roles ds) := by
  unfold propose
  by_cases hless : t.numPlayers ≠ maxGroupSize
  · rw [if_pos hless]
    exact .less h (hplayers ▸ hless)
  rw [if_neg hless]
  rw [ne_eq, not_not] at hless
  cases hqueued : w.allQueued check with
  | false => exact .badStates h (hplayers ▸ hless) hqueued
  | true =>
    obtain ⟨groles, hperm, hassign⟩ := hroles
    refine .matched (proposal w t check roles ds) rfl ⟨⟨h, hplayers ▸ hless, hqueued⟩, ?_, ?_⟩
    · refine ⟨groles, hperm, ?_⟩
      have hmap : (proposal w t check roles ds).players.map (fun e => (e.1, e.2.role)) = roles := by
        unfold proposal
        rw [List.map_map]
        exact List.map_id _
      rw [hmap]
      exact hassign hless
    · exact hds _ (getD_mem _ hne)

/-- **The check of several entries** that were counted. -/
theorem checkEntries_outcome (hq : Entries s.queue) (h : Fits w s.queue check ⟨0, 0, 0, []⟩)
    (hmany : 1 < check.length) (hplayers : t.numPlayers = (members s.queue check).length) :
    Outcome w s check (checkEntries w s t check) := by
  have hsize := h.size
  have hgroups := h.groups
  have hfive : maxGroupSize = 5 := rfl
  rw [Nat.zero_add] at hsize hgroups
  have hne : check ≠ [] := fun heq => by
    rw [heq] at hmany
    exact absurd hmany (Nat.not_lt_zero 1)
  have hfold : proposalRoles w s.queue check = (members s.queue check).foldl (addRole w) [] :=
    (foldl_flatMap ..).symm
  have hempty : Sorted [] := Pairwise.nil
  obtain ⟨hle, hiff, hperm⟩ := foldl_addRole (w := w) (members s.queue check) hempty
  rw [← hfold] at hle hiff hperm
  rw [length_nil, Nat.zero_add] at hle hiff hperm
  rw [append_nil] at hperm
  unfold checkEntries
  by_cases hapart : (proposalRoles w s.queue check).length = (members s.queue check).length
  · rw [if_neg (by omega)]
    have hall := (hiff.mp hapart).1
    have hsame := hperm hapart
    have hsmall : (proposalRoles w s.queue check).length < 256 := by omega
    obtain ⟨hroles, hassign⟩ := checkGroupRoles_spec hsmall
    dsimp only
    cases hanswer : (checkGroupRoles (proposalRoles w s.queue check)).1 with
    | false =>
      refine .refused _ rfl fun hcompatible => ?_
      obtain ⟨-, hknown, ⟨a, ha⟩, -⟩ := hcompatible.matching hmany
      rw [← Bool.not_eq_true] at hanswer
      refine hanswer (hroles.mpr ⟨?_, ?_, exists_assignment_perm hsame.symm ha⟩)
      · intro hnil
        have hpos := hq.length_le h.data
        rw [hnil, length_nil] at hapart
        omega
      · exact fun e he => hknown e (hsame.mem_iff.mp he)
    | true =>
      obtain ⟨-, hknown, a, ha⟩ := hroles.mp hanswer
      by_cases hds : proposalDungeons s.queue check = []
      · rw [if_pos hds]
        refine .refused _ rfl fun hcompatible => ?_
        obtain ⟨-, -, -, d, hd⟩ := hcompatible.matching hmany
        have hmem := (mem_proposalDungeons hne).mpr hd
        rw [hds] at hmem
        cases hmem
      rw [if_neg hds]
      obtain ⟨d, hd⟩ := exists_mem_of_ne_nil _ hds
      refine propose_outcome ⟨hne, h.data, hsize, hgroups, fun _ => ⟨hall, ?_, ?_, d, ?_⟩⟩
        hplayers ⟨_, hsame, fun _ => hassign hanswer⟩ hds
        fun d hd => (mem_proposalDungeons hne).mp hd
      · exact fun e he => hknown e (hsame.mem_iff.mpr he)
      · exact exists_assignment_perm hsame ha
      · exact (mem_proposalDungeons hne).mp hd
  rw [if_pos (by omega)]
  exact .refused _ rfl fun hcompatible =>
    hapart (hiff.mpr ⟨(hcompatible.matching hmany).apart, nofun⟩)

/-- **The check of one entry** of five players. -/
theorem checkEntry_outcome (hq : Entries s.queue) (h : Compatible w s.queue [guid])
    (hplayers : t.numPlayers = (members s.queue [guid]).length) :
    Outcome w s [guid] (checkEntry w s t guid) := by
  obtain ⟨data, hdata⟩ := isSome_iff_exists.mp (h.data guid mem_cons_self)
  have hmembers : members s.queue [guid] = s.queue.roles guid := append_nil _
  refine propose_outcome h hplayers ⟨s.queue.roles guid, ?_, fun hfull => ?_⟩ ?_ ?_
  · rw [hmembers]
  · rw [hplayers, hmembers, roles_eq hdata] at hfull
    rw [roles_eq hdata]
    have hsolved := (hq guid data hdata).solved hfull
    have hfive : maxGroupSize = 5 := rfl
    exact (checkGroupRoles_spec (by omega)).2 hsolved
  · rw [dungeons_eq hdata]
    exact (hq guid data hdata).dungeons
  intro d hd g hg
  rw [mem_singleton.mp hg]
  exact hd

/-- **After the check of all entries but the first.** -/
theorem checkAll_outcome (hq : Entries s.queue) (hne : check ≠ []) :
    Outcome w s check (checkAll w s check) := by
  unfold checkAll
  cases hcount : countPlayers w s.queue check ⟨0, 0, 0, []⟩ with
  | error g =>
    obtain ⟨hmem, hnone⟩ := countPlayers_error hcount
    refine .missing g hmem hnone fun hcompatible => ?_
    obtain ⟨t, ht, -⟩ := countPlayers_fits (t := ⟨0, 0, 0, []⟩)
      ⟨hcompatible.data, (Nat.zero_add _).trans_le hcompatible.size,
        (Nat.zero_add _).trans_le hcompatible.groups⟩
    rw [hcount] at ht
    cases ht
  | ok t =>
    have hcount' (hcompatible : Compatible w s.queue check) :
        t.numPlayers = (members s.queue check).length ∧
          t.numLfgGroups = check.countP w.isLfgGroup := by
      obtain ⟨t', ht', hplayers, hgroups⟩ := countPlayers_fits (t := ⟨0, 0, 0, []⟩)
        ⟨hcompatible.data, (Nat.zero_add _).trans_le hcompatible.size,
          (Nat.zero_add _).trans_le hcompatible.groups⟩
      rw [hcount] at ht'
      cases ht'
      exact ⟨hplayers.trans (Nat.zero_add _), hgroups.trans (Nat.zero_add _)⟩
    have hone (guid : ℕ) (heq : check = [guid]) : Compatible w s.queue [guid] := by
      subst heq
      cases hdata : s.queue.queueData guid with
      | none =>
        unfold countPlayers at hcount
        rw [if_pos ⟨Nat.zero_lt_succ 1, Nat.zero_le _⟩, hdata] at hcount
        cases hcount
      | some data =>
        refine ⟨cons_ne_nil _ _, fun g hg => ?_, ?_, countP_le_length, fun h => ?_⟩
        · rw [mem_singleton.mp hg, hdata]
          rfl
        · rw [length_members_cons, roles_eq hdata]
          exact (hq guid data hdata).size
        · exact absurd h (Nat.lt_irrefl 1)
    dsimp only
    by_cases hsingle : check.length = 1 ∧ t.numPlayers ≠ maxGroupSize
    · rw [if_pos hsingle]
      obtain ⟨guid, rfl⟩ := length_eq_one_iff.mp hsingle.1
      have hcompatible := hone guid rfl
      exact .less hcompatible ((hcount' hcompatible).1 ▸ hsingle.2)
    rw [if_neg hsingle]
    by_cases hgroups : t.numLfgGroups > 1
    · rw [if_pos hgroups]
      refine .refused _ rfl fun hcompatible => ?_
      have hle := hcompatible.groups
      rw [← (hcount' hcompatible).2] at hle
      omega
    rw [if_neg hgroups]
    by_cases hplayers : t.numPlayers > maxGroupSize
    · rw [if_pos hplayers]
      refine .refused _ rfl fun hcompatible => ?_
      have hle := hcompatible.size
      rw [← (hcount' hcompatible).1] at hle
      omega
    rw [if_neg hplayers]
    have hfits := fits_of_countPlayers hq hcount (by omega) (by omega)
    have hcounted : t.numPlayers = (members s.queue check).length := by
      obtain ⟨t', ht', hall, -⟩ := countPlayers_fits hfits
      rw [hcount] at ht'
      cases ht'
      exact hall.trans (Nat.zero_add _)
    match check, hone, hne with
    | [guid], hone, _ => exact checkEntry_outcome hq (hone guid rfl) hcounted
    | guid :: guid' :: check, _, _ =>
      exact checkEntries_outcome hq hfits (Nat.succ_lt_succ (Nat.succ_pos _)) hcounted

/-! ### The whole check -/

end Search

variable {q' : LFGQueue}

theorem roles_congr (h : q'.queueData = q.queueData) : q'.roles = q.roles := by
  funext guid
  unfold LFGQueue.roles
  rw [h]

theorem dungeons_congr (h : q'.queueData = q.queueData) : q'.dungeons = q.dungeons := by
  funext guid
  unfold LFGQueue.dungeons
  rw [h]

theorem members_congr (h : q'.queueData = q.queueData) (check : List ℕ) :
    members q' check = members q check := by
  unfold members
  rw [roles_congr h]

theorem Entries.congr (hq : Entries q) (h : q'.queueData = q.queueData) : Entries q' := by
  intro guid data hdata
  rw [h] at hdata
  exact hq guid data hdata

theorem Compatible.congr (h : q'.queueData = q.queueData)
    (hc : Compatible w q check) : Compatible w q' check := by
  constructor
  · exact hc.nonempty
  · rw [h]
    exact hc.data
  · rw [members_congr h]
    exact hc.size
  · exact hc.groups
  intro hmany
  obtain ⟨hapart, hknown, hroles, hdungeon⟩ := hc.matching hmany
  rw [← members_congr h] at hapart hknown hroles
  rw [← dungeons_congr h] at hdungeon
  exact ⟨hapart, hknown, hroles, hdungeon⟩

namespace Search

theorem Offer.congr (h : q'.queueData = q.queueData) (hp : Offer w q p) : Offer w q' p := by
  obtain ⟨⟨hcompatible, hfull, hqueued⟩, hplayers, hdungeon⟩ := hp
  rw [← members_congr h] at hfull hplayers
  rw [← dungeons_congr h] at hdungeon
  exact ⟨⟨hcompatible.congr h, hfull, hqueued⟩, hplayers, hdungeon⟩

theorem take_lists (s : Search) (p : LfgProposal) :
    (s.take p).queue.newToQueue = s.queue.newToQueue.filter (· ∉ p.queues) ∧
      (s.take p).queue.currentQueue = s.queue.currentQueue.filter (· ∉ p.queues) ∧
      (s.take p).queue.queueData = s.queue.queueData ∧
      (s.take p).queue.compatibles = s.queue.compatibles := by
  have hfold (l : List ℕ) (q : LFGQueue) :
      let q' := l.foldl (fun q guid => (q.removeFromNewQueue guid).removeFromCurrentQueue guid) q
      q'.newToQueue = q.newToQueue.filter (· ∉ l) ∧
        q'.currentQueue = q.currentQueue.filter (· ∉ l) ∧
        q'.queueData = q.queueData ∧ q'.compatibles = q.compatibles := by
    induction l generalizing q with
    | nil =>
      refine ⟨?_, ?_, rfl, rfl⟩ <;> simp
    | cons a l ih =>
      obtain ⟨hnew, hcurrent, hdata, hcompatibles⟩ :=
        ih ((q.removeFromNewQueue a).removeFromCurrentQueue a)
      refine ⟨?_, ?_, hdata, hcompatibles⟩
      · refine hnew.trans ((List.filter_filter ..).trans (List.filter_congr fun g _ => ?_))
        simp only [List.mem_cons, not_or, ← Bool.decide_and, decide_eq_decide]
        exact and_comm
      refine hcurrent.trans ((List.filter_filter ..).trans (List.filter_congr fun g _ => ?_))
      simp only [List.mem_cons, not_or, ← Bool.decide_and, decide_eq_decide]
      exact and_comm
  exact hfold p.queues s.queue

/-- A search that has gone on: the data are the same, entries have only left the lists, and each
proposal that was made could be made and has its entries out of the lists. -/
structure Extends (w : World) (s s' : Search) : Prop where
  queueData : s'.queue.queueData = s.queue.queueData
  newToQueue : s'.queue.newToQueue.Sublist s.queue.newToQueue
  currentQueue : s'.queue.currentQueue.Sublist s.queue.currentQueue
  made : ∃ added, s'.made = s.made ++ added ∧ ∀ p ∈ added, Offer w s.queue p ∧
    ∀ guid ∈ p.queues, guid ∉ s'.queue.newToQueue ∧ guid ∉ s'.queue.currentQueue

theorem Extends.refl (w : World) (s : Search) : Extends w s s :=
  ⟨rfl, Sublist.refl _, Sublist.refl _, [], (append_nil _).symm, nofun⟩

theorem Extends.setCompatibles (h : Extends w s s') (check : List ℕ) (c : LfgCompatibility) :
    Extends w s (s'.setCompatibles check c) :=
  { h with }

variable {s'' : Search}

theorem Extends.trans (h : Extends w s s') (h' : Extends w s' s'') : Extends w s s'' := by
  obtain ⟨added, hmade, hadded⟩ := h.made
  obtain ⟨added', hmade', hadded'⟩ := h'.made
  refine ⟨h'.queueData.trans h.queueData, h'.newToQueue.trans h.newToQueue,
    h'.currentQueue.trans h.currentQueue, added ++ added', ?_, fun p hp => ?_⟩
  · rw [hmade', hmade, append_assoc]
  rcases mem_append.mp hp with hp | hp
  · obtain ⟨hoffer, hout⟩ := hadded p hp
    exact ⟨hoffer, fun guid hguid => ⟨fun hin => (hout guid hguid).1 (h'.newToQueue.subset hin),
      fun hin => (hout guid hguid).2 (h'.currentQueue.subset hin)⟩⟩
  obtain ⟨hoffer, hout⟩ := hadded' p hp
  exact ⟨hoffer.congr h.queueData.symm, hout⟩

theorem Outcome.extends {r : Search × LfgCompatibility} (h : Outcome w s check r) :
    Extends w s r.1 := by
  cases h with
  | refused c hc h => exact (Extends.refl w s).setCompatibles check c
  | missing guid hmem hdata h =>
    refine ⟨?_, filter_sublist, filter_sublist, [], (append_nil _).symm, nofun⟩
    funext g
    change (if g = guid then none else s.queue.queueData g) = _
    split
    · rename_i heq
      rw [heq, hdata]
    · rfl
  | less h hless | badStates h hfull hstates => exact (Extends.refl w s).setCompatibles check _
  | matched p hqueues h =>
    obtain ⟨hnew, hcurrent, hdata, -⟩ := s.take_lists p
    refine Extends.setCompatibles ⟨hdata, ?_, ?_, [p], rfl, fun p' hp' => ?_⟩ check _
    · rw [hnew]
      exact filter_sublist
    · rw [hcurrent]
      exact filter_sublist
    rw [mem_singleton.mp hp', hnew, hcurrent]
    exact ⟨h, fun guid hguid => ⟨by simp [hguid], by simp [hguid]⟩⟩

/-- **`CheckCompatibility` makes only proposals that can be made**, and takes their entries out
of the lists; by induction on the entries, for the check of all but the first may make one. -/
theorem checkCompatibility_extends (hq : Entries s.queue) (check : List ℕ) :
    Extends w s (checkCompatibility w s check).1 := by
  induction check with
  | nil => exact Extends.refl w s
  | cons guid check ih =>
    unfold checkCompatibility
    split
    · exact Extends.refl w s
    split
    · dsimp only
      split
      · exact ih.setCompatibles _ _
      · exact ih.trans (checkAll_outcome (hq.congr ih.queueData) (cons_ne_nil _ _)).extends
    · exact (checkAll_outcome hq (cons_ne_nil _ _)).extends

/-- Two searches that differ in what is cached. -/
structure Cached (s s' : Search) : Prop where
  queueData : s'.queue.queueData = s.queue.queueData
  newToQueue : s'.queue.newToQueue = s.queue.newToQueue
  currentQueue : s'.queue.currentQueue = s.queue.currentQueue
  made : s'.made = s.made

theorem Cached.refl (s : Search) : Cached s s := ⟨rfl, rfl, rfl, rfl⟩

theorem Cached.trans (h : Cached s s') (h' : Cached s' s'') : Cached s s'' :=
  ⟨h'.queueData.trans h.queueData, h'.newToQueue.trans h.newToQueue,
    h'.currentQueue.trans h.currentQueue, h'.made.trans h.made⟩

theorem Cached.setCompatibles (h : Cached s s') (check : List ℕ) (c : LfgCompatibility) :
    Cached s (s'.setCompatibles check c) := { h with }

/-- **Compatible entries** come to the end of the check: all but the first are compatible and are
fewer players than a group has, so that nothing but the cache has changed. -/
theorem checkCompatibility_outcome (hq : Entries s.queue) (h : Compatible w s.queue check) :
    ∃ s', Cached s s' ∧ Outcome w s' check (checkCompatibility w s check) := by
  induction check with
  | nil => exact absurd rfl h.nonempty
  | cons guid check ih =>
    have hlength := h.length_le hq
    rw [length_cons] at hlength
    unfold checkCompatibility
    rw [if_neg (by omega)]
    by_cases hmany : check.length + 1 > 2
    · have hne : check ≠ [] := fun heq => by
        rw [heq] at hmany
        exact absurd hmany (by decide)
      have htail := h.tail hne
      obtain ⟨s1, hs1, houtcome⟩ := ih htail
      have hfew : (members s1.queue check).length < maxGroupSize := by
        have hpos := hq.roles_pos (h.data guid mem_cons_self)
        have hsize := h.size
        rw [length_members_cons] at hsize
        rw [members_congr hs1.queueData]
        omega
      rw [if_pos hmany]
      generalize hr : checkCompatibility w s check = r at houtcome
      have hless : r = (s1.setCompatibles check .withLessPlayers, .withLessPlayers) := by
        cases houtcome with
        | refused c hc hnot | missing g _ hdata hnot =>
          exact absurd (htail.congr hs1.queueData) hnot
        | less _ _ => rfl
        | badStates _ hfull _ => omega
        | matched p hqueues hoffer =>
          have hfull := hoffer.proposable.full
          rw [hqueues] at hfull
          omega
      have hgo : ¬LfgCompatibility.withLessPlayers.isIncompatible = true := Bool.false_ne_true
      rw [hless, if_neg hgo]
      have hcached := hs1.setCompatibles check .withLessPlayers
      exact ⟨_, hcached, checkAll_outcome (hq.congr hcached.queueData) (cons_ne_nil _ _)⟩
    rw [if_neg hmany]
    exact ⟨s, Cached.refl s, checkAll_outcome hq (cons_ne_nil _ _)⟩

/-- **Other entries** are refused. -/
theorem checkCompatibility_refused (hq : Entries s.queue) (h : ¬Compatible w s.queue check) :
    (checkCompatibility w s check).2.isIncompatible = true := by
  have hall {s' : Search} (hdata : s'.queue.queueData = s.queue.queueData) (hne : check ≠ []) :
      (checkAll w s' check).2.isIncompatible = true := by
    have hnot : ¬Compatible w s'.queue check := fun hc => h (hc.congr hdata.symm)
    have houtcome := checkAll_outcome (w := w) (hq.congr hdata) hne
    generalize checkAll w s' check = r at houtcome
    cases houtcome with
    | refused c hc _ => exact hc
    | missing g _ _ _ => rfl
    | less hc _ | badStates hc _ _ => exact absurd hc hnot
    | matched p hqueues hoffer => exact absurd (hqueues ▸ hoffer.proposable.compatible) hnot
  cases check with
  | nil => rfl
  | cons guid check =>
    unfold checkCompatibility
    split
    · rfl
    split
    · dsimp only
      split
      · assumption
      · exact hall (checkCompatibility_extends hq check).queueData (cons_ne_nil _ _)
    · exact hall rfl (cons_ne_nil _ _)

/-- **A proposal is made** of entries of which one can be made. -/
theorem checkCompatibility_proposable (hq : Entries s.queue) (h : Proposable w s.queue check) :
    ∃ s' p, Cached s s' ∧ p.queues = check ∧ Offer w s.queue p ∧
      checkCompatibility w s check = ((s'.take p).setCompatibles check .matched, .matched) := by
  obtain ⟨s', hcached, houtcome⟩ := checkCompatibility_outcome hq h.compatible
  have hmembers := members_congr hcached.queueData check
  generalize checkCompatibility w s check = r at houtcome
  cases houtcome with
  | refused c hc hnot | missing g _ hdata hnot =>
    exact absurd (h.compatible.congr hcached.queueData) hnot
  | less _ hless =>
    rw [hmembers] at hless
    exact absurd h.full hless
  | badStates _ _ hstates => exact absurd (hstates.symm.trans h.queued) Bool.false_ne_true
  | matched p hqueues hoffer => exact ⟨s', p, hcached, hqueues, hoffer.congr hcached.queueData.symm, rfl⟩

/-- Trying one group after the other keeps what each search keeps. -/
theorem tryQueued_rel {R : Search → Search → Prop} (hrefl : ∀ s, R s s)
    (htrans : ∀ {s s' s''}, R s s' → R s' s'' → R s s'')
    {find : Search → List ℕ → List ℕ → Search × LfgCompatibility × List ℕ}
    (hfind : ∀ s check all, R s (find s check all).1) (left : ℕ) (s : Search)
    (check all : List ℕ) : R s (tryQueued find left s check all).1 := by
  induction left generalizing s all with
  | zero => exact hrefl s
  | succ left ih =>
    cases all with
    | nil => exact hrefl s
    | cons guid all =>
      have hone := hfind s (check ++ [guid]) all
      unfold tryQueued
      dsimp only
      split
      · exact hone
      · exact htrans hone (ih _ _)

end Search
end ZerosCore.Lfg
