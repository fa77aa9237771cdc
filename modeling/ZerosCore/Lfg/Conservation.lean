/-
# Entries that wait

An entry of which there are data waits in one place: in the list of new entries, in the list
of current ones, or in one stored proposal.  Joining, leaving, role checks and the ends of
proposals keep it so (`Custody`), with two exceptions.  `JoinLfg` does not refuse a player whose
entry is in a stored proposal, and puts the entry in the list a second time; and a search can
answer a match without a proposal, or make one within the check of another list (`Calm`).

In every run without these steps each entry that waits stands in one place
(`conserved_run`).  A group that continues its dungeon and does not answer is put back with a
cached match: the next search drops it (`entry_lost`).
-/

import ZerosCore.Lfg.Soundness
import ZerosCore.Lfg.Turns
import Mathlib.Data.List.Flatten

namespace ZerosCore.Lfg

open Lib LFGMgr Search List Option LFGQueue

variable {s s' : LFGMgr} {q : LFGQueue} {p p' : LfgProposal} {type : LfgUpdateType}
  {env : Env} {id gguid guid g now : ℕ} {l : List ℕ} {roles : RoleMask} {dungeons : List ℕ}
  {d : LfgQueueData} {request : Request} {t : TeamId} {proposals : List (ℕ × LfgProposal)}

/-- How often an entry stands in the lists of a queue. -/
def LFGQueue.listed (q : LFGQueue) (guid : ℕ) : ℕ := q.newToQueue.count guid + q.currentQueue.count guid

namespace LFGMgr

def entriesOf (proposals : List (ℕ × LfgProposal)) : List ℕ := proposals.flatMap fun e => e.2.queues

/-- How often an entry stands in the lists of a team and in the stored proposals. -/
def places (s : LFGMgr) (t : TeamId) (guid : ℕ) : ℕ :=
  (s.queues t).listed guid + (entriesOf s.proposals).count guid

/-- Every entry of which there are data stands in one place. -/
def Conserved (s : LFGMgr) : Prop :=
  ∀ t guid, ((s.queues t).queueData guid).isSome → s.places t guid = 1

/-- How often an entry stands anywhere. -/
def total (s : LFGMgr) (guid : ℕ) : ℕ :=
  (s.queues .both).listed guid + (s.queues .horde).listed guid + (s.queues .alliance).listed guid +
    (entriesOf s.proposals).count guid

def OfTeam (s : LFGMgr) (t : TeamId) (guids : List ℕ) : Prop :=
  ∀ guid ∈ guids, isGroupGuid guid = false ∧ s.team guid = t

/-- A stored proposal has players, of one team, and its entries have data only there. -/
structure TeamProposal (s : LFGMgr) (p : LfgProposal) (t : TeamId) : Prop where
  nonempty : p.players ≠ []
  players : s.OfTeam t (p.players.map Prod.fst)
  entries : ∀ guid ∈ p.queues, ∀ t', ((s.queues t').queueData guid).isSome → t' = t

/-- **What is kept**: no entry stands in two places, one that has data stands in one of its queue,
and each queue, proposal and role check is of one team. -/
structure Custody (s : LFGMgr) : Prop where
  kept : Kept s
  once : ∀ guid, s.total guid ≤ 1
  listed : ∀ t, Listed (s.queues t)
  placed : ∀ t guid, ((s.queues t).queueData guid).isSome → 0 < s.places t guid
  one : ∀ t t' guid, ((s.queues t).queueData guid).isSome → ((s.queues t').queueData guid).isSome →
    t = t'
  teams : ∀ t guid d, (s.queues t).queueData guid = some d → s.OfTeam t (d.roles.map Prod.fst)
  ids : (s.proposals.map Prod.fst).Nodup
  numbers : ∀ e ∈ s.proposals, e.1 ≤ s.proposalId
  proposals : ∀ e ∈ s.proposals, ∃ t, s.TeamProposal e.2 t
  roleChecks : ∀ e ∈ s.roleChecks, isGroupGuid e.1 = true ∧
    (∀ t, (s.queues t).queueData e.1 = none) ∧ e.1 ∉ entriesOf s.proposals

theorem places_le_total (s : LFGMgr) (t : TeamId) (guid : ℕ) : s.places t guid ≤ s.total guid := by
  unfold places total
  cases t with
  | both | horde | alliance => omega

theorem Custody.conserved (h : Custody s) : Conserved s := by
  intro t guid hdata
  have hle := (s.places_le_total t guid).trans (h.once guid)
  have hpos := h.placed t guid hdata
  omega

theorem total_modifyQueue (s : LFGMgr) (t : TeamId) (f : LFGQueue → LFGQueue) (guid : ℕ) :
    (s.modifyQueue t f).total guid + (s.queues t).listed guid =
      s.total guid + (f (s.queues t)).listed guid := by
  unfold total modifyQueue
  cases t with
  | both =>
    dsimp only
    rw [if_pos rfl, if_neg (by decide), if_neg (by decide)]
    omega
  | horde =>
    dsimp only
    rw [if_neg (by decide), if_pos rfl, if_neg (by decide)]
    omega
  | alliance =>
    dsimp only
    rw [if_neg (by decide), if_neg (by decide), if_pos rfl]
    omega

/-- What is to be shown of a queue that is replaced, with the proposals. -/
structure Replaces (s : LFGMgr) (t : TeamId) (q : LFGQueue) (proposals : List (ℕ × LfgProposal)) :
    Prop where
  entries : Entries q
  once : ∀ guid, s.total guid + q.listed guid + (entriesOf proposals).count guid ≤
    1 + (s.queues t).listed guid + (entriesOf s.proposals).count guid
  listed : Listed q
  placed : ∀ guid, (q.queueData guid).isSome → 0 < q.listed guid + (entriesOf proposals).count guid
  others : ∀ t', t' ≠ t → ∀ guid, ((s.queues t').queueData guid).isSome →
    (q.queueData guid) = none ∧ (guid ∈ entriesOf s.proposals → guid ∈ entriesOf proposals)
  teams : ∀ guid d, q.queueData guid = some d → s.OfTeam t (d.roles.map Prod.fst)

variable {roleChecks : List (ℕ × LfgRoleCheck)}

/-- **A queue is replaced** and with it the proposals. -/
theorem Custody.replace (h : Custody s) {proposalId : ℕ}
    (hq : Replaces s t q proposals) (hids : (proposals.map Prod.fst).Nodup)
    (hnumbers : ∀ e ∈ proposals, e.1 ≤ proposalId)
    (hproposals : ∀ e ∈ proposals, ∃ t', e.2.players ≠ [] ∧ s.OfTeam t' (e.2.players.map Prod.fst) ∧
      ∀ guid ∈ e.2.queues, ((q.queueData guid).isSome → t = t') ∧
        ∀ t'', t'' ≠ t → ((s.queues t'').queueData guid).isSome → t'' = t')
    (hchecks : ∀ e ∈ roleChecks, Sorted e.2.roles ∧ e.2.dungeons ≠ [] ∧ isGroupGuid e.1 = true ∧
      q.queueData e.1 = none ∧ (∀ t', t' ≠ t → (s.queues t').queueData e.1 = none) ∧
      e.1 ∉ entriesOf proposals) (data : ℕ → StateData) (group leader : ℕ → ℕ)
    (players : ℕ → List ℕ) : Custody { s.modifyQueue t fun _ => q with
      data := data, group := group, leader := leader, players := players
      proposals := proposals, proposalId := proposalId, roleChecks := roleChecks } := by
  have hsame (t' : TeamId) : (s.modifyQueue t fun _ => q).queues t' =
      if t' = t then q else s.queues t' := rfl
  constructor
  · constructor
    · intro t'
      rw [hsame]
      split
      · exact hq.entries
      · exact h.kept.entries t'
    · exact fun e he => ⟨(hchecks e he).1, (hchecks e he).2.1⟩
  · intro guid
    have htotal := s.total_modifyQueue t (fun _ => q) guid
    have honce := hq.once guid
    unfold total at htotal honce ⊢
    dsimp only at htotal honce ⊢
    have hproposals : (s.modifyQueue t fun _ => q).proposals = s.proposals := rfl
    rw [hproposals] at htotal
    omega
  · intro t'
    rw [hsame]
    split
    · exact hq.listed
    · exact h.listed t'
  · intro t' guid hdata
    unfold places
    dsimp only at hdata ⊢
    rw [hsame] at hdata ⊢
    split at hdata
    · rename_i heq
      rw [if_pos heq]
      exact hq.placed guid hdata
    rename_i hne
    rw [if_neg hne]
    have hpos := h.placed t' guid hdata
    unfold places at hpos
    by_cases hin : guid ∈ entriesOf s.proposals
    · have hpos' := count_pos_iff.mpr ((hq.others t' hne guid hdata).2 hin)
      omega
    have hzero := count_eq_zero.mpr hin
    omega
  · intro t1 t2 guid h1 h2
    rw [hsame] at h1 h2
    split at h1
    · rename_i heq1
      split at h2
      · rename_i heq2
        rw [heq1, heq2]
      rename_i hne
      rw [(hq.others t2 hne guid h2).1] at h1
      cases h1
    rename_i hne
    split at h2
    · rw [(hq.others t1 hne guid h1).1] at h2
      cases h2
    · exact h.one t1 t2 guid h1 h2
  · intro t' guid d hdata
    rw [hsame] at hdata
    split at hdata
    · rename_i heq
      rw [heq]
      exact hq.teams guid d hdata
    · exact h.teams t' guid d hdata
  · exact hids
  · exact hnumbers
  · intro e he
    obtain ⟨t', hne, hplayers, hentries⟩ := hproposals e he
    refine ⟨t', hne, hplayers, fun guid hguid t'' hdata => ?_⟩
    rw [hsame] at hdata
    split at hdata
    · rename_i heq
      rw [heq]
      exact (hentries guid hguid).1 hdata
    rename_i hother
    exact (hentries guid hguid).2 t'' hother hdata
  intro e he
  obtain ⟨-, -, hgroup, hnone, hothers, hout⟩ := hchecks e he
  refine ⟨hgroup, fun t' => ?_, hout⟩
  rw [hsame]
  split
  · exact hnone
  rename_i hne
  exact hothers t' hne

/-! ### Entries that leave -/

theorem modifyQueue_const (s : LFGMgr) (t : TeamId) (f : LFGQueue → LFGQueue) :
    s.modifyQueue t f = s.modifyQueue t fun _ => f (s.queues t) := by
  unfold modifyQueue
  congr 1
  funext t'
  by_cases ht : t' = t
  · rw [if_pos ht, if_pos ht, ht]
  · rw [if_neg ht, if_neg ht]

theorem mem_entriesOf :
    guid ∈ entriesOf proposals ↔ ∃ e ∈ proposals, guid ∈ e.2.queues := mem_flatMap

theorem entriesOf_sublist {proposals' : List (ℕ × LfgProposal)} (h : proposals'.Sublist proposals) :
    (entriesOf proposals').Sublist (entriesOf proposals) := h.flatMap _

theorem count_entriesOf (hids : (proposals.map Prod.fst).Nodup) (hmem : (id, p) ∈ proposals)
    (guid : ℕ) : (entriesOf proposals).count guid =
      (entriesOf (proposals.filter fun e => e.1 ≠ id)).count guid + p.queues.count guid := by
  unfold entriesOf
  induction proposals with
  | nil => cases hmem
  | cons e proposals ih =>
    rw [map_cons, nodup_cons] at hids
    rw [flatMap_cons, count_append]
    rcases mem_cons.mp hmem with heq | hmem'
    · have hkeep : (proposals.filter fun e => e.1 ≠ id) = proposals := by
        rw [filter_eq_self]
        intro a ha
        refine decide_eq_true fun haeq => hids.1 ?_
        have hin : a.1 ∈ proposals.map Prod.fst := mem_map_of_mem ha
        rw [haeq] at hin
        rw [← heq]
        exact hin
      rw [← heq, filter_cons_of_neg (by simp), hkeep]
      exact Nat.add_comm _ _
    have hne : e.1 ≠ id := fun heq => hids.1 (heq ▸ mem_map_of_mem (f := Prod.fst) hmem')
    rw [ih hids.2 hmem', filter_cons_of_pos (by simpa using hne), flatMap_cons,
      count_append]
    omega

/-- **Entries leave a queue**, and proposals may end. -/
theorem Custody.shrink (h : Custody s) (hsub : proposals.Sublist s.proposals)
    (hdata : ∀ guid d, q.queueData guid = some d → (s.queues t).queueData guid = some d)
    (honce : ∀ guid, q.listed guid + (entriesOf proposals).count guid ≤
      (s.queues t).listed guid + (entriesOf s.proposals).count guid) (hlisted : Listed q)
    (hplaced : ∀ guid, (q.queueData guid).isSome →
      0 < q.listed guid + (entriesOf proposals).count guid)
    (hothers : ∀ t', t' ≠ t → ∀ guid, ((s.queues t').queueData guid).isSome →
      guid ∈ entriesOf s.proposals → guid ∈ entriesOf proposals)
    (data : ℕ → StateData) (group leader : ℕ → ℕ) (players : ℕ → List ℕ) :
    Custody { s.modifyQueue t fun _ => q with
      data := data, group := group, leader := leader, players := players, proposals := proposals } := by
  have hnone (t' : TeamId) (ht : t' ≠ t) (guid : ℕ)
      (hsome : ((s.queues t').queueData guid).isSome) : q.queueData guid = none := by
    cases hguid : q.queueData guid with
    | none => rfl
    | some d =>
      refine absurd (h.one t' t guid hsome ?_) ht
      rw [hdata guid d hguid]
      rfl
  refine h.replace ⟨?_, fun guid => ?_, hlisted, hplaced, fun t' ht guid hsome => ?_, ?_⟩ ?_ ?_ ?_ ?_
    data group leader players
  · exact fun guid d hguid => h.kept.entries t guid d (hdata guid d hguid)
  · have hle := h.once guid
    have hle' := honce guid
    omega
  · exact ⟨hnone t' ht guid hsome, hothers t' ht guid hsome⟩
  · exact fun guid d hguid => h.teams t guid d (hdata guid d hguid)
  · exact h.ids.sublist (hsub.map Prod.fst)
  · exact fun e he => h.numbers e (hsub.subset he)
  · intro e he
    obtain ⟨t', hne, hplayers, hentries⟩ := h.proposals e (hsub.subset he)
    refine ⟨t', hne, hplayers, fun guid hguid => ⟨fun hsome => ?_, fun t'' _ hsome => ?_⟩⟩
    · obtain ⟨d, hd⟩ := isSome_iff_exists.mp hsome
      refine hentries guid hguid t ?_
      rw [hdata guid d hd]
      rfl
    · exact hentries guid hguid t'' hsome
  intro e he
  obtain ⟨hgroup, hnodata, hout⟩ := h.roleChecks e he
  obtain ⟨hsorted, hne⟩ := h.kept.roleChecks e he
  refine ⟨hsorted, hne, hgroup, ?_, fun t' _ => hnodata t', fun hin => ?_⟩
  · cases hguid : q.queueData e.1 with
    | none => rfl
    | some d =>
      have hsome := hdata e.1 d hguid
      rw [hnodata t] at hsome
      cases hsome
  · exact hout ((entriesOf_sublist hsub).subset hin)

theorem listed_removeFromQueue (q : LFGQueue) (l : List ℕ) (guid : ℕ) :
    (l.foldl removeFromQueue q).listed guid = if guid ∈ l then 0 else q.listed guid := by
  obtain ⟨hnew, hcurrent, -⟩ := foldl_removeFromQueue q l
  unfold listed
  rw [hnew, hcurrent, count_filter_notMem, count_filter_notMem]
  split <;> rfl

theorem listed_foldl_removeFromQueue (h : Listed q) (l : List ℕ) :
    Listed (l.foldl removeFromQueue q) := by
  obtain ⟨hnew, hcurrent, hdata⟩ := foldl_removeFromQueue q l
  intro guid hguid
  rw [hnew, hcurrent, mem_filter, mem_filter] at hguid
  have hout : guid ∉ l := by
    rcases hguid with hguid | hguid <;> exact of_decide_eq_true hguid.2
  rw [hdata, if_neg hout]
  exact h guid (hguid.imp And.left And.left)

theorem queueData_foldl_removeFromQueue (h : (l.foldl removeFromQueue q).queueData guid = some d) :
    guid ∉ l ∧ q.queueData guid = some d := by
  rw [(foldl_removeFromQueue q l).2.2] at h
  split at h
  · cases h
  rename_i hout
  exact ⟨hout, h⟩

/-- **Some entries leave**, and the proposals stay. -/
theorem Custody.removeFromQueue (h : Custody s) (t : TeamId) (l : List ℕ) (data : ℕ → StateData) :
    Custody { s.modifyQueue t fun queue => l.foldl removeFromQueue queue with data := data } := by
  rw [modifyQueue_const]
  refine h.shrink (Sublist.refl _) (fun guid d hguid => (queueData_foldl_removeFromQueue hguid).2)
    (fun guid => ?_) (listed_foldl_removeFromQueue (h.listed t) l) (fun guid hsome => ?_)
    (fun _ _ _ _ hin => hin) data s.group s.leader s.players
  · rw [listed_removeFromQueue]
    split
    · omega
    · exact Nat.le_refl _
  obtain ⟨d, hd⟩ := isSome_iff_exists.mp hsome
  obtain ⟨hout, hd'⟩ := queueData_foldl_removeFromQueue hd
  rw [listed_removeFromQueue, if_neg hout]
  have hpos := h.placed t guid (by
    rw [hd']
    rfl)
  exact hpos

/-! ### Proposals that end -/

theorem listed_putBack (type : LfgUpdateType) (p : LfgProposal) (q : LFGQueue) (guid : ℕ) :
    (putBack type p q).listed guid = if Refused type p guid then 0 else
      q.listed guid + if (q.queueData guid).isSome then p.queues.count guid else 0 := by
  obtain ⟨hnew, hcurrent, -⟩ := putBack_spec type p q
  unfold listed
  rw [hnew, hcurrent, count_append, count_filter_ite, count_filter_ite, count_filter_ite]
  by_cases hrefused : Refused type p guid
  · rw [if_pos hrefused, if_neg (not_not_intro hrefused), if_neg fun h => h.1 hrefused,
      if_neg (not_not_intro hrefused)]
  rw [if_neg hrefused, if_pos hrefused, if_pos hrefused]
  by_cases hsome : (q.queueData guid).isSome
  · rw [if_pos hsome, if_pos ⟨hrefused, hsome⟩]
    omega
  rw [if_neg hsome, if_neg fun h => hsome h.2]
  omega

theorem queueData_putBack (h : (putBack type p q).queueData guid = some d) :
    ¬Refused type p guid ∧ q.queueData guid = some d := by
  rw [(putBack_spec type p q).2.2] at h
  split at h
  · cases h
  rename_i hnot
  exact ⟨hnot, h⟩

theorem listed_of_putBack (h : Listed q) : Listed (putBack type p q) := by
  obtain ⟨hnew, hcurrent, hdata⟩ := putBack_spec type p q
  intro guid hguid
  rw [hnew, hcurrent, mem_append, mem_filter, mem_filter, mem_filter] at hguid
  rw [hdata]
  rcases hguid with (⟨hin, hnot⟩ | ⟨-, hback⟩) | ⟨hin, hnot⟩
  · rw [if_neg (of_decide_eq_true hnot)]
    exact h guid (.inl hin)
  · obtain ⟨hnot, hsome⟩ := of_decide_eq_true hback
    rw [if_neg hnot]
    exact hsome
  rw [if_neg (of_decide_eq_true hnot)]
  exact h guid (.inr hin)

theorem teamOf_eq (hne : p.players ≠ []) (hteam : s.OfTeam t (p.players.map Prod.fst)) :
    s.teamOf p = t := by
  unfold teamOf getQueueId
  cases hplayers : p.players with
  | nil => exact absurd hplayers hne
  | cons e players =>
    rw [hplayers] at hteam
    obtain ⟨hgroup, heq⟩ := hteam e.1 mem_cons_self
    rw [headD_cons, hgroup, if_neg Bool.false_ne_true]
    exact heq

theorem map_fst_ne_nil {β : Type*} {m m' : List (ℕ × β)} (h : m'.map Prod.fst = m.map Prod.fst)
    (hne : m ≠ []) : m' ≠ [] := by
  intro hnil
  rw [hnil] at h
  exact hne (map_eq_nil_iff.mp h.symm)

theorem mem_entriesOf_filter {t' : TeamId} (h : Custody s) (hmem : (id, p) ∈ s.proposals)
    (hproposal : s.TeamProposal p t) (ht : t' ≠ t)
    (hsome : ((s.queues t').queueData guid).isSome) (hin : guid ∈ entriesOf s.proposals) :
    guid ∈ entriesOf (s.proposals.filter fun e => e.1 ≠ id) := by
  have hcount := count_entriesOf h.ids hmem guid
  have hpos := count_pos_iff.mpr hin
  have hzero : p.queues.count guid = 0 :=
    count_eq_zero.mpr fun hguid => ht (hproposal.entries guid hguid t' hsome)
  exact count_pos_iff.mp (by omega)

/-- **A proposal is removed**: its entries leave, or are put back. -/
theorem Custody.removeProposal (h : Custody s) (hmem : (id, p) ∈ s.proposals)
    (hqueues : p'.queues = p.queues) (hplayers : p'.players.map Prod.fst = p.players.map Prod.fst)
    (type : LfgUpdateType) : Custody (s.removeProposal id p' type) := by
  obtain ⟨t, hproposal⟩ := h.proposals _ hmem
  have hteam : s.teamOf p' = t :=
    teamOf_eq (map_fst_ne_nil hplayers hproposal.nonempty) (hplayers ▸ hproposal.players)
  obtain ⟨data, heq, -⟩ := s.removeProposal_eq id p' type
  rw [heq, hteam, modifyQueue_const]
  have hcount := count_entriesOf h.ids hmem
  refine h.shrink filter_sublist (fun guid d hguid => (queueData_putBack hguid).2)
    (fun guid => ?_) (listed_of_putBack (h.listed t)) (fun guid hsome => ?_)
    (fun t' ht guid hsome hin => mem_entriesOf_filter h hmem hproposal ht hsome hin)
    data s.group s.leader s.players
  · have hone := hcount guid
    rw [listed_putBack, hqueues]
    split
    · omega
    · split <;> omega
  obtain ⟨d, hd⟩ := isSome_iff_exists.mp hsome
  obtain ⟨hnot, hd'⟩ := queueData_putBack hd
  have hsome' : ((s.queues t).queueData guid).isSome := by
    rw [hd']
    rfl
  have hpos := h.placed t guid hsome'
  have hone := hcount guid
  unfold places at hpos
  rw [listed_putBack, if_neg hnot, if_pos hsome', hqueues]
  omega

/-- **A proposal succeeds**: its entries leave. -/
theorem Custody.succeed (h : Custody s) (hmem : (id, p) ∈ s.proposals)
    (hguid : guid ∈ p.players.map Prod.fst) (data : ℕ → StateData) (group leader : ℕ → ℕ)
    (players : ℕ → List ℕ) : Custody { s.modifyQueue (s.getQueueId guid) fun queue =>
        p.queues.foldl LFGQueue.removeFromQueue queue with
      data := data, group := group, leader := leader, players := players
      proposals := s.proposals.filter fun e => e.1 ≠ id } := by
  obtain ⟨t, hproposal⟩ := h.proposals _ hmem
  have hteam : s.getQueueId guid = t := by
    obtain ⟨hgroup, heq⟩ := hproposal.players guid hguid
    unfold getQueueId
    rw [hgroup, if_neg Bool.false_ne_true]
    exact heq
  have hcount := count_entriesOf h.ids hmem
  rw [hteam, modifyQueue_const]
  refine h.shrink filter_sublist (fun g d hg => (queueData_foldl_removeFromQueue hg).2)
    (fun g => ?_) (listed_foldl_removeFromQueue (h.listed t) p.queues) (fun g hsome => ?_)
    (fun t' ht g hsome hin => mem_entriesOf_filter h hmem hproposal ht hsome hin)
    data group leader players
  · have hone := hcount g
    rw [listed_removeFromQueue]
    split <;> omega
  obtain ⟨d, hd⟩ := isSome_iff_exists.mp hsome
  obtain ⟨hout, hd'⟩ := queueData_foldl_removeFromQueue hd
  have hpos := h.placed t g (by
    rw [hd']
    rfl)
  have hone := hcount g
  have hzero := count_eq_zero.mpr hout
  unfold places at hpos
  rw [listed_removeFromQueue, if_neg hout]
  omega

/-- **An answer is stored.** -/
theorem Custody.storeAnswer (h : Custody s) (hmem : (id, p) ∈ s.proposals)
    (hqueues : p'.queues = p.queues) (hplayers : p'.players.map Prod.fst = p.players.map Prod.fst) :
    Custody (s.storeAnswer id p') := by
  have hsame (e : ℕ × LfgProposal) (he : e ∈ s.proposals) (heq : e.1 = id) : e.2 = p := by
    have hinj := inj_on_of_nodup_map h.ids he hmem heq
    rw [hinj]
  have hentries : entriesOf (s.storeAnswer id p').proposals = entriesOf s.proposals := by
    unfold entriesOf LFGMgr.storeAnswer
    rw [flatMap_map]
    refine flatMap_congr fun e he => ?_
    split
    · rename_i heq
      rw [hsame e he heq]
      exact hqueues
    · rfl
  have hids : (s.storeAnswer id p').proposals.map Prod.fst = s.proposals.map Prod.fst := by
    unfold LFGMgr.storeAnswer
    rw [List.map_map]
    refine List.map_congr_left fun e _ => ?_
    rw [Function.comp_apply]
    split
    · rename_i heq
      exact heq.symm
    · rfl
  constructor
  · exact ⟨h.kept.entries, h.kept.roleChecks⟩
  · intro guid
    have honce := h.once guid
    unfold total at honce ⊢
    rwa [hentries]
  · exact h.listed
  · intro t guid hsome
    have hpos := h.placed t guid hsome
    unfold places at hpos ⊢
    rwa [hentries]
  · exact h.one
  · exact h.teams
  · rw [hids]
    exact h.ids
  · intro e he
    have hin : e.1 ∈ s.proposals.map Prod.fst := hids ▸ mem_map_of_mem he
    obtain ⟨x, hx, heq⟩ := mem_map.mp hin
    rw [← heq]
    exact h.numbers x hx
  · intro e he
    obtain ⟨x, hx, rfl⟩ := mem_map.mp he
    obtain ⟨t, hne, hteam, hdata⟩ := h.proposals x hx
    refine ⟨t, ?_⟩
    split
    · rename_i heq
      rw [hsame x hx heq] at hne hteam hdata
      refine ⟨map_fst_ne_nil hplayers hne, ?_, ?_⟩
      · rw [hplayers]
        exact hteam
      rw [hqueues]
      exact hdata
    · exact ⟨hne, hteam, hdata⟩
  intro e he
  rw [hentries]
  exact h.roleChecks e he

/-! ### Entries that join -/

/-- Nothing is stored of an entry. -/
structure Absent (s : LFGMgr) (guid : ℕ) : Prop where
  queueData : ∀ t, (s.queues t).queueData guid = none
  proposals : guid ∉ entriesOf s.proposals

theorem Custody.listed_absent (h : Custody s) (habsent : s.Absent guid) (t : TeamId) :
    (s.queues t).listed guid = 0 := by
  have hnone := habsent.queueData t
  have hnew : guid ∉ (s.queues t).newToQueue := fun hin => by
    have hsome := h.listed t guid (.inl hin)
    rw [hnone] at hsome
    cases hsome
  have hcurrent : guid ∉ (s.queues t).currentQueue := fun hin => by
    have hsome := h.listed t guid (.inr hin)
    rw [hnone] at hsome
    cases hsome
  unfold LFGQueue.listed
  rw [count_eq_zero.mpr hnew, count_eq_zero.mpr hcurrent]

/-- What is kept does not depend on the states and the groups, and of the role checks on who is
checked. -/
theorem Custody.update_checks (h : Custody s)
    (hchecks : ∀ e ∈ roleChecks, Sorted e.2.roles ∧ e.2.dungeons ≠ [] ∧ isGroupGuid e.1 = true ∧
      s.Absent e.1) (data : ℕ → StateData) :
    Custody { s with data := data, roleChecks := roleChecks } := by
  constructor
  · exact ⟨h.kept.entries, fun e he => ⟨(hchecks e he).1, (hchecks e he).2.1⟩⟩
  · exact h.once
  · exact h.listed
  · exact h.placed
  · exact h.one
  · exact h.teams
  · exact h.ids
  · exact h.numbers
  · intro e he
    obtain ⟨t, hne, hplayers, hentries⟩ := h.proposals e he
    exact ⟨t, hne, hplayers, hentries⟩
  intro e he
  obtain ⟨-, -, hgroup, habsent⟩ := hchecks e he
  exact ⟨hgroup, habsent.queueData, habsent.proposals⟩

theorem Custody.check (h : Custody s) {e : ℕ × LfgRoleCheck} (he : e ∈ s.roleChecks) :
    Sorted e.2.roles ∧ e.2.dungeons ≠ [] ∧ isGroupGuid e.1 = true ∧ s.Absent e.1 := by
  obtain ⟨hsorted, hne⟩ := h.kept.roleChecks e he
  obtain ⟨hgroup, hnone, hout⟩ := h.roleChecks e he
  exact ⟨hsorted, hne, hgroup, hnone, hout⟩

theorem Custody.told (h : Custody s) (htold : Told l s s') : Custody s' := by
  obtain ⟨data, rfl, -⟩ := htold
  exact h.update_checks (fun e he => h.check he) data

/-- **An entry joins** of which nothing is stored. -/
theorem Custody.addQueueData (h : Custody s) (hd : d.Accepted)
    (hteam : s.OfTeam t (d.roles.map Prod.fst)) (habsent : s.Absent guid)
    (hsub : roleChecks.Sublist s.roleChecks)
    (hne : ∀ e ∈ roleChecks, e.1 ≠ guid) (data : ℕ → StateData) :
    Custody { s.modifyQueue t fun queue => queue.addQueueData guid d with
      data := data, roleChecks := roleChecks } := by
  have hlisted (g : ℕ) : ((s.queues t).addQueueData guid d).listed g =
      (s.queues t).listed g + if g = guid then 1 else 0 := by
    rw [LFGQueue.addQueueData_eq]
    unfold LFGQueue.listed
    dsimp only
    rw [count_append, count_singleton]
    by_cases hg : g = guid
    · rw [if_pos hg, if_pos (by simpa using hg.symm)]
      omega
    rw [if_neg hg, if_neg (by simpa using Ne.symm hg)]
    omega
  have hdata (g : ℕ) : ((s.queues t).addQueueData guid d).queueData g =
      if g = guid then some d else (s.queues t).queueData g := by
    rw [addQueueData_eq]
  rw [modifyQueue_const]
  refine h.replace ⟨(h.kept.entries t).addQueueData hd guid, fun g => ?_, fun g hg => ?_,
    fun g hsome => ?_, fun t' ht g hsome => ⟨?_, id⟩, fun g d' hd' => ?_⟩ h.ids h.numbers ?_ ?_
    data s.group s.leader s.players
  · have hle := h.once g
    rw [hlisted]
    split
    · rename_i hg
      have hzero : s.total g = 0 := by
        rw [hg]
        unfold total
        rw [h.listed_absent habsent, h.listed_absent habsent, h.listed_absent habsent,
          count_eq_zero.mpr habsent.proposals]
      omega
    · omega
  · rw [hdata]
    by_cases hsame : g = guid
    · rw [if_pos hsame]
      rfl
    rw [if_neg hsame]
    refine h.listed t g ?_
    rw [addQueueData_eq] at hg
    rcases hg with hg | hg
    · rcases mem_append.mp hg with hg | hg
      · exact .inl hg
      · exact absurd (mem_singleton.mp hg) hsame
    · exact .inr hg
  · rw [hlisted]
    rw [hdata] at hsome
    split at hsome
    · rename_i hg
      rw [if_pos hg]
      omega
    have hpos := h.placed t g hsome
    unfold places at hpos
    omega
  · rw [hdata]
    split
    · rename_i hg
      rw [hg, habsent.queueData t'] at hsome
      cases hsome
    cases hnone : (s.queues t).queueData g with
    | none => rfl
    | some d' =>
      refine absurd (h.one t' t g hsome ?_) ht
      rw [hnone]
      rfl
  · rw [hdata] at hd'
    split at hd'
    · cases hd'
      exact hteam
    · exact h.teams t g d' hd'
  · intro e he
    obtain ⟨t', hne, hplayers, hentries⟩ := h.proposals e he
    refine ⟨t', hne, hplayers, fun g hg => ⟨fun hsome => ?_, fun t'' _ hsome => ?_⟩⟩
    · rw [hdata] at hsome
      split at hsome
      · rename_i heq
        exact absurd (mem_entriesOf.mpr ⟨e, he, heq ▸ hg⟩) habsent.proposals
      · exact hentries g hg t hsome
    · exact hentries g hg t'' hsome
  intro e he
  obtain ⟨hsorted, hdungeons, hgroup, hnone, hout⟩ := h.check (hsub.subset he)
  refine ⟨hsorted, hdungeons, hgroup, ?_, fun t' _ => hnone t', hout⟩
  rw [hdata, if_neg (hne e he)]
  exact hnone t

/-- An entry can join: it is in no stored proposal, and if it has data it is queued, and they are
those that joining removes. -/
structure Fresh (s : LFGMgr) (guid : ℕ) : Prop where
  proposals : guid ∉ entriesOf s.proposals
  queueData : ∀ t, ((s.queues t).queueData guid).isSome →
    t = s.getQueueId guid ∧ s.state guid = .queued

theorem Custody.leaveQueue (h : Custody s) (hfresh : s.Fresh guid) :
    Custody (s.modifyQueue (s.getQueueId guid) (s.leaveQueue guid)) ∧
      (s.modifyQueue (s.getQueueId guid) (s.leaveQueue guid)).Absent guid := by
  have hnone (t : TeamId) (hnot : ¬(t = s.getQueueId guid ∧ s.state guid = .queued)) :
      (s.queues t).queueData guid = none := by
    cases hdata : (s.queues t).queueData guid with
    | none => rfl
    | some d =>
      refine absurd (hfresh.queueData t ?_) hnot
      rw [hdata]
      rfl
  by_cases hqueued : s.state guid = .queued
  · have hleave : s.modifyQueue (s.getQueueId guid) (s.leaveQueue guid) =
        s.modifyQueue (s.getQueueId guid) fun queue =>
          [guid].foldl LFGQueue.removeFromQueue queue := by
      unfold LFGMgr.leaveQueue
      simp only [if_pos hqueued]
      rfl
    rw [hleave]
    refine ⟨h.removeFromQueue (s.getQueueId guid) [guid] s.data, fun t => ?_, hfresh.proposals⟩
    unfold modifyQueue
    dsimp only
    split
    · rw [(foldl_removeFromQueue _ [guid]).2.2, if_pos mem_cons_self]
    rename_i ht
    exact hnone t fun hboth => ht hboth.1
  have hleave : s.modifyQueue (s.getQueueId guid) (s.leaveQueue guid) = s := by
    unfold LFGMgr.leaveQueue modifyQueue
    simp only [if_neg hqueued, ite_self]
  rw [hleave]
  exact ⟨h, fun t => hnone t fun hboth => hqueued hboth.2, hfresh.proposals⟩

/-- **A player joins.** -/
theorem Custody.joinPlayer (h : Custody s) (hne : dungeons ≠ []) (hguid : isGroupGuid guid = false)
    (hfresh : s.Fresh guid) (roles : RoleMask) : Custody (s.joinPlayer guid roles dungeons) := by
  obtain ⟨hleft, habsent⟩ := h.leaveQueue hfresh
  have hteam : (s.modifyQueue (s.getQueueId guid) (s.leaveQueue guid)).OfTeam (s.getQueueId guid)
      ([(guid, roles)].map Prod.fst) := by
    intro g hg
    rw [mem_singleton.mp hg]
    refine ⟨hguid, ?_⟩
    unfold getQueueId
    rw [hguid, if_neg Bool.false_ne_true]
    rfl
  have hadded := hleft.addQueueData (accepted_single guid roles hne) hteam habsent
    (Sublist.refl _) (fun e he heq => by
      have hgroup := (h.roleChecks e he).1
      rw [heq, hguid] at hgroup
      cases hgroup) s.data
  have htwice := modifyQueue_modifyQueue s (s.getQueueId guid) (s.leaveQueue guid) fun queue =>
    queue.addQueueData guid ⟨dungeons, [(guid, roles)]⟩
  have htold := s.joinPlayer_told guid roles dungeons
  rw [← htwice] at htold
  exact hadded.told htold

/-- The players of a role check are as many as a byte counts and of the team of their group. -/
def Placeable (s : LFGMgr) (gguid : ℕ) (groles : RolesMap) : Prop :=
  groles.length < 256 ∧ s.OfTeam (s.getQueueId gguid) (groles.map Prod.fst)

/-- **A player chooses his roles**, or a role check is aborted. -/
theorem Custody.updateRoleCheck (h : Custody s)
    (hplaceable : guid ≠ 0 → ∀ check, s.roleChecks.lookup gguid = some check →
      s.Placeable gguid (chosen check guid roles)) : Custody (s.updateRoleCheck gguid guid roles) := by
  have hcases := s.updateRoleCheck_cases gguid guid roles
  generalize s.updateRoleCheck gguid guid roles = s' at hcases
  cases hcases with
  | none _ => exact h
  | waits check hcheck hguid =>
    refine h.update_checks (fun e he => ?_) s.data
    obtain ⟨a, ha, rfl⟩ := mem_map.mp he
    obtain ⟨hsorted, hne, hgroup, habsent⟩ := h.check (mem_of_lookup hcheck)
    split
    · exact ⟨hsorted.setRole _, hne, hgroup, habsent⟩
    · exact h.check ha
  | finished check hcheck hsolved hguid data hdata =>
    obtain ⟨hsorted, hne, hgroup, habsent⟩ := h.check (mem_of_lookup hcheck)
    obtain ⟨hsmall, hteam⟩ := hplaceable hguid check hcheck
    exact h.addQueueData (accepted_group (hsorted.setRole (guid, roles)) hsmall hsolved hne) hteam
      habsent filter_sublist
      (fun e he => of_decide_eq_true (mem_filter.mp he).2) data
  | failed check hcheck data hdata =>
    exact h.update_checks (fun e he => h.check (mem_filter.mp he).1) data

/-- **A group joins.** -/
theorem Custody.joinGroup {members : List ℕ} (h : Custody s) (hne : dungeons ≠ [])
    (hgguid : isGroupGuid gguid = true) (hfresh : s.Fresh gguid)
    (hplaceable : s.Placeable gguid (chosen (s.newCheck now gguid members dungeons) guid roles)) :
    Custody (s.joinGroup now gguid guid members roles dungeons) := by
  obtain ⟨hleft, habsent⟩ := h.leaveQueue hfresh
  obtain ⟨s', ⟨data, rfl, -⟩, heq⟩ := s.joinGroup_eq now gguid guid members roles dungeons
  rw [heq]
  have hchecks (e : ℕ × LfgRoleCheck) (he : e ∈ (s.roleChecks.filter fun e => e.1 ≠ gguid) ++
      [(gguid, s.newCheck now gguid members dungeons)]) :
      Sorted e.2.roles ∧ e.2.dungeons ≠ [] ∧ isGroupGuid e.1 = true ∧
        (s.modifyQueue (s.getQueueId gguid) (s.leaveQueue gguid)).Absent e.1 := by
    rcases mem_append.mp he with hmem | hmem
    · exact hleft.check (mem_filter.mp hmem).1
    rw [mem_singleton.mp hmem]
    exact ⟨sorted_newCheck h.kept now gguid members dungeons, hne, hgguid, habsent⟩
  refine (hleft.update_checks hchecks data).updateRoleCheck fun _ check hcheck => ?_
  rw [lookup_newCheck] at hcheck
  cases hcheck
  exact hplaceable

/-- **A player or a group leaves.** -/
theorem Custody.leaveLfg (h : Custody s) (guid : ℕ) : Custody (s.leaveLfg guid) := by
  have hcases := s.leaveLfg_cases guid
  generalize s.leaveLfg guid = s' at hcases
  cases hcases with
  | same => exact h
  | out _ => exact h.told (told_setState s guid _)
  | entry _ _ htold =>
    exact (h.removeFromQueue (s.getQueueId (s.entryOf guid)) [s.entryOf guid] s.data).told htold
  | roleCheck _ => exact h.updateRoleCheck fun hzero => absurd rfl hzero
  | proposal id p _ hfind =>
    have hqueues : (answered p (s.declining guid) .deny).queues = p.queues := rfl
    exact h.removeProposal (mem_of_find?_eq_some hfind) hqueues
      (setAccept_guids (s.declining guid) .deny p.players) _

/-- **A player answers a proposal.** -/
theorem Custody.updateProposal {accept : Bool} {newGroup leader : ℕ} (h : Custody s) :
    Custody (s.updateProposal id guid accept newGroup leader) := by
  have hcases := s.updateProposal_cases id guid accept newGroup leader
  generalize s.updateProposal id guid accept newGroup leader = s' at hcases
  cases hcases with
  | none => exact h
  | waits p hmem accept =>
    have hqueues : (answered p guid accept).queues = p.queues := rfl
    exact h.storeAnswer hmem hqueues (setAccept_guids guid accept p.players)
  | declined p hmem =>
    have hqueues : (answered p guid .deny).queues = p.queues := rfl
    have hstored := h.storeAnswer hmem hqueues (setAccept_guids guid .deny p.players)
    refine hstored.removeProposal (p := answered p guid .deny) ?_ rfl rfl _
    exact mem_map.mpr ⟨(id, p), hmem, if_pos rfl⟩
  | succeeded p hmem hguid data group leader players hdata =>
    exact h.succeed hmem hguid data group leader players

/-! ### The tick -/

theorem mem_numbered {e : ℕ × LfgProposal} {ps : List LfgProposal} (he : e ∈ numbered id ps) :
    id < e.1 ∧ e.1 ≤ id + ps.length ∧ e.2 ∈ ps := by
  induction ps generalizing id with
  | nil => cases he
  | cons p ps ih =>
    rw [length_cons]
    rcases mem_cons.mp he with rfl | hmem
    · exact ⟨Nat.lt_succ_self id, by omega, mem_cons_self⟩
    obtain ⟨hlt, hle, hin⟩ := ih hmem
    exact ⟨by omega, by omega, mem_cons_of_mem p hin⟩

theorem nodup_numbered (id : ℕ) (ps : List LfgProposal) : ((numbered id ps).map Prod.fst).Nodup := by
  induction ps generalizing id with
  | nil => exact nodup_nil
  | cons p ps ih =>
    refine nodup_cons.mpr ⟨fun hin => ?_, ih (id + 1)⟩
    obtain ⟨e, he, heq⟩ := mem_map.mp hin
    have hlt := (mem_numbered he).1
    omega

theorem entriesOf_numbered (id : ℕ) (ps : List LfgProposal) :
    entriesOf (numbered id ps) = ps.flatMap LfgProposal.queues := by
  induction ps generalizing id with
  | nil => rfl
  | cons p ps ih => exact congrArg (p.queues ++ ·) (ih (id + 1))

theorem Custody.removeObsolete (h : Custody s) (now : ℕ) : Custody (s.searched now) := by
  obtain ⟨data, roleChecks, heq, hsub, -⟩ := s.removeObsoleteRoleChecks_eq now
  have hchecked : Custody (s.removeObsoleteRoleChecks now) := by
    rw [heq]
    exact h.update_checks (fun e he => h.check (hsub.subset he)) data
  have hfold (obsolete : List (ℕ × LfgProposal)) (s : LFGMgr) (h : Custody s)
      (hsub : obsolete.Sublist s.proposals) :
      Custody (obsolete.foldl (fun s e => s.removeProposal e.1 e.2 .proposalFailed) s) := by
    induction obsolete generalizing s with
    | nil => exact h
    | cons e obsolete ih =>
      have hids := h.ids.sublist (hsub.map Prod.fst)
      rw [map_cons, nodup_cons] at hids
      rw [foldl_cons]
      refine ih _ (h.removeProposal (hsub.subset mem_cons_self) rfl rfl _) ?_
      obtain ⟨data', heq', -⟩ := s.removeProposal_eq e.1 e.2 .proposalFailed
      rw [heq']
      have hkeep : (obsolete.filter fun x => x.1 ≠ e.1) = obsolete := by
        rw [filter_eq_self]
        exact fun x hx => decide_eq_true fun heq => hids.1 (heq ▸ mem_map_of_mem hx)
      rw [← hkeep]
      exact ((sublist_cons_self e obsolete).trans hsub).filter _
  exact hfold _ _ hchecked filter_sublist

variable {w : World}

theorem mem_players_offer (h : Offer w q p) (hguid : guid ∈ p.players.map Prod.fst) :
    ∃ g ∈ p.queues, guid ∈ (q.roles g).map Prod.fst := by
  obtain ⟨groles, hperm, ha⟩ := h.players
  have hguids := takes_guids ha.takes
  rw [List.map_map] at hguids
  have hin : guid ∈ groles.map Prod.fst := hguids ▸ hguid
  obtain ⟨e, he, rfl⟩ := mem_map.mp hin
  obtain ⟨g, hg, hmem⟩ := mem_members.mp (hperm.mem_iff.mp he)
  exact ⟨g, hg, mem_map_of_mem hmem⟩

theorem offer_players_ne_nil (h : Offer w q p) : p.players ≠ [] := by
  obtain ⟨groles, hperm, ha⟩ := h.players
  have hlength := ha.takes.length_eq
  rw [length_map, hperm.length_eq, h.proposable.full] at hlength
  intro hnil
  rw [hnil] at hlength
  cases hlength

/-- **A queue is searched.** -/
theorem Custody.findGroups (h : Custody s) (env : Env) (t : TeamId)
    (hcalm : CalmFrom (s.world env) (s.queues t).newToQueue.length ⟨s.queues t, []⟩) :
    Custody (findGroups env s t) := by
  have hoccurs (g : ℕ) : (Search.mk (s.queues t) []).occurs g = (s.queues t).listed g :=
    Nat.add_zero _
  have hle (g : ℕ) : (s.queues t).listed g ≤ s.places t g := Nat.le_add_right _ _
  have hmoved := findGroupsFrom_turns (s := ⟨s.queues t, []⟩) (s.queues t).newToQueue.length
    (h.kept.entries t) (fun g => by
      exact (hle g).trans ((s.places_le_total t g).trans (h.once g))) (h.listed t) hcalm
  rw [findGroups_eq]
  have hfind : Search.findGroups (s.world env) ⟨s.queues t, []⟩ =
    findGroupsFrom (s.world env) (s.queues t).newToQueue.length ⟨s.queues t, []⟩ := rfl
  rw [hfind]
  generalize findGroupsFrom (s.world env) (s.queues t).newToQueue.length ⟨s.queues t, []⟩ = r
    at hmoved
  obtain ⟨hdata, hcount, hlisted, added, hmade, hadded⟩ := hmoved
  have hmade' : r.made = added := hmade
  have hcount' (g : ℕ) : r.queue.listed g + (r.made.flatMap LfgProposal.queues).count g =
      (s.queues t).listed g := (hcount g).trans (hoccurs g)
  have hdata' : r.queue.queueData = (s.queues t).queueData := hdata
  have hentries (g : ℕ) : (entriesOf (s.proposals ++ numbered s.proposalId r.made)).count g =
      (entriesOf s.proposals).count g + (r.made.flatMap LfgProposal.queues).count g := by
    unfold entriesOf
    rw [flatMap_append, count_append]
    congr 2
    exact entriesOf_numbered s.proposalId r.made
  have hoffer (p : LfgProposal) (hp : p ∈ r.made) : Offer (s.world env) (s.queues t) p :=
    hadded p (hmade' ▸ hp)
  refine h.replace ⟨?_, fun g => ?_, hlisted, fun g hsome => ?_, fun t' ht g hsome => ⟨?_, ?_⟩, ?_⟩
    ?_ ?_ ?_ ?_ s.data s.group s.leader s.players
  · exact (h.kept.entries t).congr hdata'
  · have hone := h.once g
    have hsame := hcount' g
    rw [hentries]
    omega
  · rw [hdata'] at hsome
    have hpos := h.placed t g hsome
    have hsame := hcount' g
    unfold places at hpos
    rw [hentries]
    omega
  · rw [hdata']
    cases hnone : (s.queues t).queueData g with
    | none => rfl
    | some d =>
      refine absurd (h.one t' t g hsome ?_) ht
      rw [hnone]
      rfl
  · intro hin
    unfold entriesOf
    rw [flatMap_append]
    exact mem_append_left _ hin
  · rw [hdata']
    exact h.teams t
  · rw [map_append, nodup_append]
    refine ⟨h.ids, nodup_numbered _ _, fun x hx y hy heq => ?_⟩
    obtain ⟨e, he, rfl⟩ := mem_map.mp hx
    obtain ⟨e', he', rfl⟩ := mem_map.mp hy
    have hold := h.numbers e he
    have hnew := (mem_numbered he').1
    omega
  · intro e he
    rcases mem_append.mp he with he | he
    · exact (h.numbers e he).trans (Nat.le_add_right _ _)
    · exact (mem_numbered he).2.1
  · intro e he
    rcases mem_append.mp he with he | he
    · obtain ⟨t', hne, hplayers, hin⟩ := h.proposals e he
      refine ⟨t', hne, hplayers, fun g hg => ⟨fun hsome => ?_, fun t'' _ hsome => hin g hg t'' hsome⟩⟩
      rw [hdata'] at hsome
      exact hin g hg t hsome
    have hp := hoffer e.2 (mem_numbered he).2.2
    refine ⟨t, offer_players_ne_nil hp, fun guid hguid => ?_,
      fun g hg => ⟨fun _ => rfl, fun t'' _ hsome => ?_⟩⟩
    · obtain ⟨g, hg, hin⟩ := mem_players_offer hp hguid
      obtain ⟨d, hd⟩ := isSome_iff_exists.mp (hp.proposable.compatible.data g hg)
      rw [roles_eq hd] at hin
      exact h.teams t g d hd guid hin
    · exact h.one t'' t g hsome (hp.proposable.compatible.data g hg)
  intro e he
  obtain ⟨hsorted, hne, hgroup, habsent, hout⟩ := h.check he
  refine ⟨hsorted, hne, hgroup, ?_, fun t' _ => habsent t', fun hin => ?_⟩
  · rw [hdata']
    exact habsent t
  have hpos := count_pos_iff.mpr hin
  have hzero := count_eq_zero.mpr hout
  rw [hentries, hzero, Nat.zero_add] at hpos
  obtain ⟨p, hp, hmem⟩ := mem_flatMap.mp (count_pos_iff.mp hpos)
  have hsome := (hoffer p hp).proposable.compatible.data e.1 hmem
  rw [habsent t] at hsome
  cases hsome

/-- The searches of a tick take no turn that answers a match without a proposal, or makes one of
other entries. -/
def CalmTick (s : LFGMgr) (env : Env) : Prop :=
  ∀ t, CalmFrom ((s.searched env.now).world env)
    ((s.searched env.now).queues t).newToQueue.length ⟨(s.searched env.now).queues t, []⟩

theorem findGroups_frame (env : Env) (s : LFGMgr) (t : TeamId) :
    (∀ t', t' ≠ t → (LFGMgr.findGroups env s t).queues t' = s.queues t') ∧
      (LFGMgr.findGroups env s t).world env = s.world env := by
  rw [findGroups_eq]
  exact ⟨fun t' ht => if_neg ht, rfl⟩

/-- **All queues are searched.** -/
theorem Custody.findAll (h : Custody s)
    (hcalm : ∀ t, CalmFrom (s.world env) (s.queues t).newToQueue.length ⟨s.queues t, []⟩) :
    Custody (findAll env s) := by
  have hfold (ts : List TeamId) (s' : LFGMgr) (hnodup : ts.Nodup) (h : Custody s')
      (hworld : s'.world env = s.world env) (hqueues : ∀ t ∈ ts, s'.queues t = s.queues t) :
      Custody (ts.foldl (LFGMgr.findGroups env) s') := by
    induction ts generalizing s' with
    | nil => exact h
    | cons t ts ih =>
      obtain ⟨hout, hnodup⟩ := nodup_cons.mp hnodup
      obtain ⟨hothers, hsame⟩ := findGroups_frame env s' t
      refine ih _ hnodup (h.findGroups env t ?_) (hsame.trans hworld) fun t' ht' => ?_
      · rw [hworld, hqueues t mem_cons_self]
        exact hcalm t
      have hne : t' ≠ t := fun heq => hout (heq ▸ ht')
      exact (hothers t' hne).trans (hqueues t' (mem_cons_of_mem t ht'))
  exact hfold _ s (by decide) h rfl fun _ _ => rfl

/-- **A tick**: what is over ends, all queues are searched, and players are told. -/
theorem Custody.update (h : Custody s) (hcalm : s.CalmTick env) : Custody (s.update env) := by
  obtain ⟨data, heq⟩ := s.update_data env
  have hfound := (h.removeObsolete env.now).findAll hcalm
  rw [heq]
  generalize LFGMgr.findAll env (s.searched env.now) = s' at hfound
  exact hfound.update_checks (fun e he => hfound.check he) data

/-- What is asked of a request: who joins is in no stored proposal, a group is of one team and
small, and a tick searches without a cached match. -/
def Orderly (s : LFGMgr) : Request → Prop
  | .joinPlayer guid _ dungeons => dungeons ≠ [] ∧ isGroupGuid guid = false ∧ s.Fresh guid
  | .joinGroup now gguid guid members roles dungeons =>
    dungeons ≠ [] ∧ isGroupGuid gguid = true ∧ s.Fresh gguid ∧
      s.Placeable gguid (chosen (s.newCheck now gguid members dungeons) guid roles)
  | .updateRoleCheck gguid guid roles =>
    ∀ check, s.roleChecks.lookup gguid = some check → s.Placeable gguid (chosen check guid roles)
  | .leave _ => True
  | .updateProposal .. => True
  | .update env => s.CalmTick env

/-- **One request.** -/
theorem Custody.step (h : Custody s) (horderly : s.Orderly request) : Custody (step s request) := by
  cases request with
  | joinPlayer guid roles dungeons =>
    obtain ⟨hne, hguid, hfresh⟩ := horderly
    exact h.joinPlayer hne hguid hfresh roles
  | joinGroup now gguid guid members roles dungeons =>
    obtain ⟨hne, hgguid, hfresh, hplaceable⟩ := horderly
    exact h.joinGroup hne hgguid hfresh hplaceable
  | updateRoleCheck gguid guid roles => exact h.updateRoleCheck fun _ => horderly
  | leave guid => exact h.leaveLfg guid
  | updateProposal id guid accept newGroup leader => exact h.updateProposal
  | update env => exact h.update horderly

end LFGMgr

theorem custody_start (team : ℕ → TeamId) (group leader : ℕ → ℕ) (players : ℕ → List ℕ) :
    Custody (start team group leader players) := by
  constructor
  · exact ⟨nofun, nofun⟩
  · exact fun _ => Nat.zero_le 1
  · exact fun _ _ h => (h.elim nofun nofun)
  · exact nofun
  · exact nofun
  · exact nofun
  · exact nodup_nil
  · exact nofun
  · exact nofun
  · exact nofun

/-- **Entries that wait are kept.**  In every run of joins, role checks, leaving, answers and ticks
whose requests are orderly, after each request every entry of which there are data stands once in
a list of its queue or in one stored proposal. -/
theorem conserved_run (team : ℕ → TeamId) (group leader : ℕ → ℕ) (players : ℕ → List ℕ)
    (requests : List Request) (h : Along step Orderly (start team group leader players) requests) :
    Along step (fun s request => Conserved (step s request)) (start team group leader players)
      requests :=
  h.of_invariant (I := Custody) (fun _ _ hs ho => hs.step ho) (fun _ _ hs ho => (hs.step ho).conserved)
    (custody_start team group leader players)

/-- Everybody is online and nobody ignores anybody. -/
def peaceAt (now : ℕ) : Env := ⟨fun _ => true, fun _ _ => false, now, fun _ => 0⟩

/-- Five players join, the tick makes a proposal, player `3` declines, and the tick searches again
for the others. -/
theorem oneDeclines_conserved : Along step (fun s request => Conserved (step s request))
      (start (fun _ => .both) (fun _ => 0) (fun _ => 0) fun _ => [])
      (fiveJoin ++ [.update (peaceAt 0), .updateProposal 2 3 false 0 0, .update (peaceAt 1)]) := by
  refine conserved_run (fun _ => .both) (fun _ => 0) (fun _ => 0) (fun _ => [])
    (fiveJoin ++ [.update (peaceAt 0), .updateProposal 2 3 false 0 0, .update (peaceAt 1)]) ?_
  have hnew (d : ℕ) (ds : List ℕ) : d :: ds ≠ [] := cons_ne_nil d ds
  refine ⟨⟨hnew _ _, by decide, not_mem_nil, fun t => ?_⟩,
    ⟨hnew _ _, by decide, not_mem_nil, fun t => ?_⟩,
    ⟨hnew _ _, by decide, not_mem_nil, fun t => ?_⟩,
    ⟨hnew _ _, by decide, not_mem_nil, fun t => ?_⟩,
    ⟨hnew _ _, by decide, not_mem_nil, fun t => ?_⟩,
    fun t => calmFrom_of_fewFrom _ ?_, trivial, fun t => calmFrom_of_fewFrom _ ?_, trivial⟩
  all_goals cases t <;> decide +kernel

/-- Five players join, accept the proposal and, as a group in its dungeon, join again: the second
proposal is theirs. -/
def groupContinues : List Request :=
  fiveJoin ++ [.update (peaceAt 0)] ++
    [1, 2, 3, 4, 5].map (fun guid => Request.updateProposal 2 guid true party 1) ++
    partyJoins ++ [.update (peaceAt 100)]

/-- The group is in the proposal.  When its time is over and nobody has answered, the group is put
back and dropped in one tick, and its data stay.  A player in a proposal who joins once more
waits in two places. -/
theorem entry_lost :
    let s := start (fun _ => .both) (fun _ => 0) (fun _ => 0) fun _ => []
    let lost := (groupContinues ++ [Request.update (peaceAt 146)]).foldl step s
    let doubled := (fiveJoin ++ [Request.update (peaceAt 0), Request.joinPlayer 1 2 [7]]).foldl step s
    (groupContinues.foldl step s).places .both party = 1 ∧
      ((lost.queues .both).queueData party).isSome = true ∧ lost.places .both party = 0 ∧
        ((doubled.queues .both).queueData 1).isSome = true ∧ doubled.places .both 1 = 2 := by
  decide +kernel

end ZerosCore.Lfg
