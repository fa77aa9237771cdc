/-
# A proposal that is removed

`RemoveProposal` ends a proposal that was declined or whose time is over.  The entries of
players who did not accept leave their queue, the others wait again: they are put behind the
new entries, whose list is searched from the front.  There is no way to put an entry in
front.

For every proposal and all answers each entry is either removed with its data, and its
players go back to the state they were in before, or it is put back with its data, and its
players are queued (`removeProposal_entry`).
-/

import ZerosCore.Lfg.LFGMgr
import ZerosCore.Lfg.Keys

namespace ZerosCore.Lfg

open List

variable {s : LFGMgr} {q : LFGQueue} {p : LfgProposal} {type : LfgUpdateType}
  {id guid g : ℕ} {l removed : List ℕ} {e : ℕ × LfgProposalPlayer}
  {players : List (ℕ × LfgProposalPlayer)}

/-! ### The queue -/

namespace LFGQueue

theorem foldl_removeFromQueue (q : LFGQueue) (l : List ℕ) :
    (l.foldl removeFromQueue q).newToQueue = q.newToQueue.filter (· ∉ l) ∧
      (l.foldl removeFromQueue q).currentQueue = q.currentQueue.filter (· ∉ l) ∧
      ∀ g, (l.foldl removeFromQueue q).queueData g = if g ∈ l then none else q.queueData g := by
  induction l generalizing q with
  | nil =>
    refine ⟨?_, ?_, fun g => ?_⟩
    · simp
    · simp
    rw [if_neg not_mem_nil]
    rfl
  | cons a l ih =>
    obtain ⟨hnew, hcurrent, hdata⟩ := ih (q.removeFromQueue a)
    rw [foldl_cons]
    refine ⟨?_, ?_, fun g => ?_⟩
    · refine hnew.trans ((filter_filter ..).trans (filter_congr fun g _ => ?_))
      simp only [mem_cons, not_or, ← Bool.decide_and, decide_eq_decide]
      exact and_comm
    · refine hcurrent.trans ((filter_filter ..).trans (filter_congr fun g _ => ?_))
      simp only [mem_cons, not_or, ← Bool.decide_and, decide_eq_decide]
      exact and_comm
    rw [hdata g]
    by_cases hl : g ∈ l
    · rw [if_pos hl, if_pos (mem_cons_of_mem a hl)]
    rw [if_neg hl]
    change (if g = a then none else q.queueData g) = _
    simp only [mem_cons, hl, or_false]

theorem foldl_addToQueue (q : LFGQueue) (l : List ℕ) :
    (l.foldl addToQueue q).newToQueue = q.newToQueue ++ l.filter (fun g => (q.queueData g).isSome) ∧
      (l.foldl addToQueue q).currentQueue = q.currentQueue ∧
      (l.foldl addToQueue q).queueData = q.queueData := by
  induction l generalizing q with
  | nil => exact ⟨(append_nil _).symm, rfl, rfl⟩
  | cons a l ih =>
    obtain ⟨hnew, hcurrent, hdata⟩ := ih (q.addToQueue a)
    have hadd : (q.addToQueue a).newToQueue =
          q.newToQueue ++ (if (q.queueData a).isSome then [a] else []) ∧
        (q.addToQueue a).currentQueue = q.currentQueue ∧
        (q.addToQueue a).queueData = q.queueData := by
      unfold addToQueue
      cases q.queueData a with
      | none => exact ⟨(append_nil _).symm, rfl, rfl⟩
      | some data => exact ⟨rfl, rfl, rfl⟩
    rw [foldl_cons, filter_cons]
    refine ⟨?_, hcurrent.trans hadd.2.1, hdata.trans hadd.2.2⟩
    rw [hnew, hadd.1, hadd.2.2, append_assoc]
    split <;> rfl

end LFGQueue

/-! ### The states -/

namespace LFGMgr

/-- A player did not accept, or did not answer in time. -/
def Declines (type : LfgUpdateType) (e : ℕ × LfgProposalPlayer) : Prop :=
  e.2.accept = .deny ∨ e.2.accept = .pending ∧ type = .proposalFailed

instance (type : LfgUpdateType) (e : ℕ × LfgProposalPlayer) : Decidable (Declines type e) :=
  inferInstanceAs (Decidable (_ ∨ _ ∧ _))

/-- An entry one of whose players did not accept. -/
def Refused (type : LfgUpdateType) (p : LfgProposal) (guid : ℕ) : Prop :=
  ∃ e ∈ p.players, entryGuid e = guid ∧ Declines type e

instance (type : LfgUpdateType) (p : LfgProposal) (guid : ℕ) : Decidable (Refused type p guid) :=
  inferInstanceAs (Decidable (∃ e ∈ p.players, _ ∧ _))

theorem mem_toRemove : g ∈ toRemove type (markAnswers type p.players) ↔ Refused type p g := by
  unfold toRemove Refused markAnswers
  rw [mem_guidSet, filter_map, map_map, mem_map]
  have hone (e : ℕ × LfgProposalPlayer) :
      ((fun e : ℕ × LfgProposalPlayer => decide (e.2.accept ≠ .agree ∧
          (e.2.accept = .deny ∨ type = .proposalFailed))) ∘ fun e =>
        if type = .proposalFailed ∧ e.2.accept = .pending then (e.1, { e.2 with accept := .deny })
        else e) e = true ↔ Declines type e := by
    obtain ⟨g, r, accept, group⟩ := e
    unfold Declines
    cases accept <;> cases type <;> simp
  have hentry (e : ℕ × LfgProposalPlayer) : (entryGuid ∘ fun e : ℕ × LfgProposalPlayer =>
      if type = .proposalFailed ∧ e.2.accept = .pending then (e.1, { e.2 with accept := .deny })
      else e) e = entryGuid e := by
    rw [Function.comp_apply]
    split <;> rfl
  constructor
  · rintro ⟨e, he, rfl⟩
    obtain ⟨hmem, hdeclines⟩ := mem_filter.mp he
    exact ⟨e, hmem, (hentry e).symm, (hone e).mp hdeclines⟩
  rintro ⟨e, hmem, rfl, hdeclines⟩
  exact ⟨e, mem_filter.mpr ⟨hmem, (hone e).mpr hdeclines⟩, hentry e⟩

/-- A map of players by guid, whose groups are not players. -/
structure Valid (players : List (ℕ × LfgProposalPlayer)) : Prop where
  nodup : (players.map Prod.fst).Nodup
  apart : ∀ e ∈ players, ∀ e' ∈ players, e'.2.group ≠ 0 → e'.2.group ≠ e.1

theorem notifyPlayer_other (h : g ≠ e.1) (hgroup : e.2.group ≠ 0 → e.2.group ≠ g) :
    (notifyPlayer removed s e).data g = s.data g := by
  unfold notifyPlayer
  by_cases hzero : e.2.group = 0
  · have hentry : entryGuid e = e.1 := if_neg (not_not_intro hzero)
    rw [hentry]
    split
    all_goals
      rw [if_neg (not_not_intro rfl)]
      exact if_neg h
  have hentry : entryGuid e = e.2.group := if_pos hzero
  have hne : g ≠ e.2.group := fun heq => hgroup hzero heq.symm
  rw [hentry]
  split
  all_goals
    dsimp only
    split
    · exact (if_neg hne).trans (if_neg h)
    · exact if_neg h

theorem notifyPlayer_self (hgroup : e.2.group ≠ 0 → e.2.group ≠ e.1) :
    (notifyPlayer removed s e).data e.1 =
      if entryGuid e ∈ removed then (s.data e.1).restoreState else (s.data e.1).setState .queued := by
  unfold notifyPlayer
  by_cases hzero : e.2.group = 0
  · have hentry : entryGuid e = e.1 := if_neg (not_not_intro hzero)
    rw [hentry]
    split
    all_goals
      rw [if_neg (not_not_intro rfl)]
      exact if_pos rfl
  have hentry : entryGuid e = e.2.group := if_pos hzero
  have hne : e.1 ≠ e.2.group := fun heq => hgroup hzero heq.symm
  rw [hentry]
  split
  all_goals
    rw [if_pos (hgroup hzero)]
    exact (if_neg hne).trans (if_pos rfl)

/-- **The states of the players** after all have been notified. -/
theorem foldl_notifyPlayer (removed : List ℕ) (h : Valid players) (he : e ∈ players) :
    (players.foldl (notifyPlayer removed) s).data e.1 =
      if entryGuid e ∈ removed then (s.data e.1).restoreState else (s.data e.1).setState .queued := by
  have hrest (players : List (ℕ × LfgProposalPlayer)) (s : LFGMgr) (g : ℕ)
      (hne : ∀ e ∈ players, g ≠ e.1 ∧ (e.2.group ≠ 0 → e.2.group ≠ g)) :
      (players.foldl (notifyPlayer removed) s).data g = s.data g := by
    induction players generalizing s with
    | nil => rfl
    | cons a players ih =>
      obtain ⟨hguid, hgroup⟩ := hne a mem_cons_self
      rw [foldl_cons, ih _ fun e he => hne e (mem_cons_of_mem a he)]
      exact notifyPlayer_other hguid hgroup
  induction players generalizing s with
  | nil => cases he
  | cons a players ih =>
    obtain ⟨hnodup, hapart⟩ := h
    rw [map_cons, nodup_cons] at hnodup
    rw [foldl_cons]
    rcases mem_cons.mp he with rfl | hmem
    · rw [hrest players _ e.1]
      · exact notifyPlayer_self (hapart e mem_cons_self e mem_cons_self)
      intro other hother
      refine ⟨fun heq => hnodup.1 (heq ▸ mem_map_of_mem hother), ?_⟩
      exact hapart e mem_cons_self other (mem_cons_of_mem e hother)
    have hne : e.1 ≠ a.1 := fun heq => hnodup.1 (heq ▸ mem_map_of_mem hmem)
    have hvalid : Valid players := ⟨hnodup.2, fun x hx y hy =>
      hapart x (mem_cons_of_mem a hx) y (mem_cons_of_mem a hy)⟩
    rw [ih hvalid hmem, notifyPlayer_other hne (hapart e he a mem_cons_self)]

theorem foldl_notifyPlayer_same (removed : List ℕ) (players : List (ℕ × LfgProposalPlayer))
    (s : LFGMgr) : (players.foldl (notifyPlayer removed) s).queues = s.queues ∧
      (players.foldl (notifyPlayer removed) s).proposals = s.proposals ∧
      (players.foldl (notifyPlayer removed) s).team = s.team ∧
      (players.foldl (notifyPlayer removed) s).players = s.players := by
  induction players generalizing s with
  | nil => exact ⟨rfl, rfl, rfl, rfl⟩
  | cons e players ih =>
    obtain ⟨hqueues, hproposals, hteam, hplayers⟩ := ih (notifyPlayer removed s e)
    have hone : (notifyPlayer removed s e).queues = s.queues ∧
        (notifyPlayer removed s e).proposals = s.proposals ∧
        (notifyPlayer removed s e).team = s.team ∧
        (notifyPlayer removed s e).players = s.players := by
      unfold notifyPlayer
      split
      all_goals
        split
        · exact ⟨rfl, rfl, rfl, rfl⟩
        · exact ⟨rfl, rfl, rfl, rfl⟩
    exact ⟨hqueues.trans hone.1, hproposals.trans hone.2.1, hteam.trans hone.2.2.1,
      hplayers.trans hone.2.2.2⟩

theorem markAnswers_guids (type : LfgUpdateType) (players : List (ℕ × LfgProposalPlayer)) :
    (markAnswers type players).map Prod.fst = players.map Prod.fst := by
  unfold markAnswers
  rw [map_map]
  refine map_congr_left fun e _ => ?_
  rw [Function.comp_apply]
  split <;> rfl

theorem mem_markAnswers (type : LfgUpdateType) (he : e ∈ players) :
    ∃ e' ∈ markAnswers type players, e'.1 = e.1 ∧ entryGuid e' = entryGuid e := by
  refine ⟨_, mem_map_of_mem he, ?_⟩
  split <;> exact ⟨rfl, rfl⟩

theorem valid_markAnswers (type : LfgUpdateType) (h : Valid players) :
    Valid (markAnswers type players) := by
  have hback (e : ℕ × LfgProposalPlayer) (he : e ∈ markAnswers type players) :
      ∃ a ∈ players, e.1 = a.1 ∧ e.2.group = a.2.group := by
    obtain ⟨a, ha, rfl⟩ := mem_map.mp he
    refine ⟨a, ha, ?_⟩
    split <;> exact ⟨rfl, rfl⟩
  constructor
  · rw [markAnswers_guids]
    exact h.nodup
  intro e he e' he'
  obtain ⟨a, ha, hguid, -⟩ := hback e he
  obtain ⟨a', ha', -, hgroup⟩ := hback e' he'
  rw [hguid, hgroup]
  exact h.apart a ha a' ha'

/-- The queue of a proposal is that of its first player. -/
def teamOf (s : LFGMgr) (p : LfgProposal) : TeamId :=
  s.getQueueId (p.players.headD (0, ⟨0, .pending, 0⟩)).1

/-- What a proposal that is removed does to its queue. -/
def putBack (type : LfgUpdateType) (p : LfgProposal) (queue : LFGQueue) : LFGQueue :=
  (p.queues.filter (· ∉ toRemove type (markAnswers type p.players))).foldl LFGQueue.addToQueue
    ((toRemove type (markAnswers type p.players)).foldl LFGQueue.removeFromQueue queue)

theorem putBack_spec (type : LfgUpdateType) (p : LfgProposal) (q : LFGQueue) :
    (putBack type p q).newToQueue = q.newToQueue.filter (¬Refused type p ·) ++
        p.queues.filter (fun g => ¬Refused type p g ∧ (q.queueData g).isSome) ∧
      (putBack type p q).currentQueue = q.currentQueue.filter (¬Refused type p ·) ∧
      ∀ g, (putBack type p q).queueData g = if Refused type p g then none else q.queueData g := by
  obtain ⟨hnew, hcurrent, hdata⟩ :=
    LFGQueue.foldl_removeFromQueue q (toRemove type (markAnswers type p.players))
  obtain ⟨hnew', hcurrent', hdata'⟩ := LFGQueue.foldl_addToQueue
    ((toRemove type (markAnswers type p.players)).foldl LFGQueue.removeFromQueue q)
    (p.queues.filter (· ∉ toRemove type (markAnswers type p.players)))
  unfold putBack
  refine ⟨?_, ?_, fun g => ?_⟩
  · rw [hnew', hnew, filter_filter]
    congr 1
    · exact filter_congr fun g _ => by simp only [mem_toRemove]
    refine filter_congr fun g _ => ?_
    rw [hdata g]
    by_cases hrefused : Refused type p g <;> simp [mem_toRemove, hrefused]
  · rw [hcurrent', hcurrent]
    exact filter_congr fun g _ => by simp only [mem_toRemove]
  rw [hdata', hdata g]
  simp only [mem_toRemove]

/-- **What the removal of a proposal does to its queue**, in terms of the entries that were
refused. -/
theorem headD_markAnswers (type : LfgUpdateType) (players : List (ℕ × LfgProposalPlayer)) :
    ((markAnswers type players).headD (0, ⟨0, .pending, 0⟩)).1 =
      (players.headD (0, ⟨0, .pending, 0⟩)).1 := by
  unfold markAnswers
  cases players with
  | nil => rfl
  | cons e players =>
    rw [map_cons, headD_cons, headD_cons]
    split <;> rfl

theorem removeProposal_queue (s : LFGMgr) (id : ℕ) (p : LfgProposal) (type : LfgUpdateType) :
    let q := s.queues (s.teamOf p)
    let q' := (s.removeProposal id p type).queues (s.teamOf p)
    q'.newToQueue = q.newToQueue.filter (¬Refused type p ·) ++
        p.queues.filter (fun g => ¬Refused type p g ∧ (q.queueData g).isSome) ∧
      q'.currentQueue = q.currentQueue.filter (¬Refused type p ·) ∧
      ∀ g, q'.queueData g = if Refused type p g then none else q.queueData g := by
  obtain ⟨hqueues, -, hteam, hplayers⟩ := foldl_notifyPlayer_same
    (toRemove type (markAnswers type p.players)) (markAnswers type p.players) s
  have hqueue : (s.removeProposal id p type).queues (s.teamOf p) =
      putBack type p (s.queues (s.teamOf p)) := by
    have hsame : ((markAnswers type p.players).foldl
        (notifyPlayer (toRemove type (markAnswers type p.players))) s).getQueueId
          ((markAnswers type p.players).headD (0, ⟨0, .pending, 0⟩)).1 = s.teamOf p := by
      unfold getQueueId teamOf getQueueId
      rw [hteam, hplayers, headD_markAnswers]
    unfold removeProposal modifyQueue
    dsimp only
    rw [hsame, if_pos rfl, hqueues]
    rfl
  rw [hqueue]
  exact putBack_spec type p (s.queues (s.teamOf p))

theorem removeProposal_data (h : Valid p.players) (he : e ∈ p.players) :
    (s.removeProposal id p type).data e.1 =
      if Refused type p (entryGuid e) then (s.data e.1).restoreState
      else (s.data e.1).setState .queued := by
  obtain ⟨e', he', hguid, hentry⟩ := mem_markAnswers type he
  have hdata := foldl_notifyPlayer (s := s)
    (toRemove type (markAnswers type p.players)) (valid_markAnswers type h) he'
  rw [hguid, hentry] at hdata
  simp only [mem_toRemove] at hdata
  exact hdata

/-- An entry of a proposal that was removed has left its queue, and its players are in the state
they were in before. -/
structure Dismissed (s t : LFGMgr) (p : LfgProposal) (guid : ℕ) : Prop where
  queueData : (t.queues (s.teamOf p)).queueData guid = none
  newToQueue : guid ∉ (t.queues (s.teamOf p)).newToQueue
  currentQueue : guid ∉ (t.queues (s.teamOf p)).currentQueue
  players : ∀ e ∈ p.players, entryGuid e = guid →
    t.state e.1 = (s.data e.1).oldState ∧ t.state e.1 ≠ .queued

/-- An entry of a proposal that was put back waits once more, with its data, and its players are
queued. -/
structure PutBack (s t : LFGMgr) (p : LfgProposal) (guid : ℕ) : Prop where
  queueData : (t.queues (s.teamOf p)).queueData guid = (s.queues (s.teamOf p)).queueData guid
  newToQueue : (t.queues (s.teamOf p)).newToQueue.count guid =
    (s.queues (s.teamOf p)).newToQueue.count guid + p.queues.count guid
  players : ∀ e ∈ p.players, entryGuid e = guid → t.state e.1 = .queued

/-- **The end of a proposal.**  Whatever its players answered: an entry one of whose players did
not accept is dismissed, and the others of which there are data are put back; those that are put
back stand behind the new entries in the order of the proposal; and the proposal is gone. -/
theorem removeProposal_entry (s : LFGMgr) (id : ℕ) (p : LfgProposal) (type : LfgUpdateType)
    (h : Valid p.players) : (∀ guid ∈ p.queues, ((s.queues (s.teamOf p)).queueData guid).isSome →
      (Refused type p guid ↔ Dismissed s (s.removeProposal id p type) p guid) ∧
        (¬Refused type p guid ↔ PutBack s (s.removeProposal id p type) p guid)) ∧
    ((s.removeProposal id p type).queues (s.teamOf p)).newToQueue =
      (s.queues (s.teamOf p)).newToQueue.filter (¬Refused type p ·) ++
        p.queues.filter (fun g => ¬Refused type p g ∧
          ((s.queues (s.teamOf p)).queueData g).isSome) ∧
    (s.removeProposal id p type).proposals = s.proposals.filter fun e => e.1 ≠ id := by
  obtain ⟨hnew, hcurrent, hdata⟩ := removeProposal_queue s id p type
  refine ⟨fun guid hguid hsome => ?_, hnew, ?_⟩
  · have hout (hrefused : Refused type p guid) :
        Dismissed s (s.removeProposal id p type) p guid := by
      refine ⟨?_, ?_, ?_, fun e he hentry => ?_⟩
      · rw [hdata guid, if_pos hrefused]
      · rw [hnew]
        simp [hrefused]
      · rw [hcurrent]
        simp [hrefused]
      have hstate : (s.removeProposal id p type).state e.1 = (s.data e.1).oldState := by
        unfold state
        rw [removeProposal_data h he, hentry, if_pos hrefused]
        rfl
      refine ⟨hstate, fun hqueued => ?_⟩
      rw [hstate] at hqueued
      rcases (s.data e.1).settled with heq | heq | heq
      all_goals
        rw [heq] at hqueued
        cases hqueued
    have hin (hnot : ¬Refused type p guid) : PutBack s (s.removeProposal id p type) p guid := by
      refine ⟨?_, ?_, fun e he hentry => ?_⟩
      · rw [hdata guid, if_neg hnot]
      · rw [hnew, count_append, count_filter (by simpa using hnot),
          count_filter (by simpa using ⟨hnot, hsome⟩)]
      unfold state
      rw [removeProposal_data h he, hentry, if_neg hnot]
      rfl
    refine ⟨⟨hout, fun hdismissed => ?_⟩, ⟨hin, fun hback hrefused => ?_⟩⟩
    · by_contra hnot
      have hcount := (hin hnot).newToQueue
      have hpos := count_pos_iff.mpr hguid
      exact hdismissed.newToQueue (count_pos_iff.mp (by omega))
    have hzero := (hout hrefused).queueData
    rw [hback.queueData] at hzero
    rw [hzero] at hsome
    cases hsome
  have hsame := (foldl_notifyPlayer_same
    (toRemove type (markAnswers type p.players)) (markAnswers type p.players) s).2.1
  unfold removeProposal modifyQueue
  dsimp only
  rw [hsame]

/-- Players `1` to `5` were found, and player `2` declines. -/
def declined : LfgProposal :=
  { dungeonId := 7, group := 0, cancelTime := 45, isNew := true, queues := [5, 1, 2, 3, 4]
    players := [(1, ⟨2, .agree, 0⟩), (2, ⟨4, .deny, 0⟩), (3, ⟨8, .pending, 0⟩),
      (4, ⟨8, .pending, 0⟩), (5, ⟨8, .pending, 0⟩)] }

/-- Six players without groups have joined; player `6` is the last. -/
def sixJoined : LFGMgr :=
  [Request.joinPlayer 1 2 [7], .joinPlayer 2 4 [7], .joinPlayer 3 8 [7], .joinPlayer 4 8 [7],
    .joinPlayer 5 8 [7], .update ⟨fun _ => true, fun _ _ => false, 0, fun _ => 0⟩,
    .joinPlayer 6 8 [7]].foldl step
      (start (fun _ => .both) (fun _ => 0) (fun _ => 0) (fun _ => []))

/-- Player `2` is dismissed. -/
theorem declined_dismissed : Valid declined.players ∧ (Refused .proposalDeclined declined 2 ↔
      Dismissed sixJoined (sixJoined.removeProposal 1 declined .proposalDeclined) declined 2) := by
  have hvalid : Valid declined.players := ⟨by decide, by decide⟩
  exact ⟨hvalid, ((removeProposal_entry sixJoined 1 declined .proposalDeclined hvalid).1 2
    (by decide) (by decide +kernel)).1⟩

/-- Player `6`, who is new, stands before those that are put back. -/
theorem put_back_behind_new :
    ((sixJoined.removeProposal 1 declined .proposalDeclined).queues .both).newToQueue =
        [6, 5, 1, 3, 4] ∧
      ∀ guid ∈ [5, 1, 3, 4], guid ∈ declined.queues ∧ ¬Refused .proposalDeclined declined guid := by
  constructor
  · decide +kernel
  · decide

end LFGMgr
end ZerosCore.Lfg
