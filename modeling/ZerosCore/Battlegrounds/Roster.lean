/-
# The three stores of the roster agree

Along every run of the requests, with `AddPlayer` for players who are not members,
`EventPlayerLoggedIn` for members and `RemovePlayerAtLeave` for players who are online
(`Allowed`), the counter of each team is the number of its entries in `m_Players`, and
until the match is over `m_OfflineQueue` lists the members who are offline, each once and
in the order in which their time runs out (`roster_kept`).

`_ProcessOfflineQueue` looks at the head of the queue alone, so a stale entry there would
hold up everyone behind it.  There is none: the head is a member whose time runs out
first, so while somebody's time is over each update removes the head, and who stays
offline is out after as many updates as stood in front of him (`Inv.served`).
-/

import ZerosCore.Battlegrounds.Battleground
import ZerosCore.Lib.DueQueue

namespace ZerosCore.Battlegrounds.Battleground

open Lib Lib.Keyed Lib.DueQueue List Option Function Table BattlegroundPlayer

variable {s : Battleground}

/-! ### What is promised and what is kept -/

/-- What the callers see to. -/
def Allowed (s : Battleground) : Request → Prop
  | .addPlayer guid _ => s.inWorld guid = true ∧ s.players.get? guid = none
  | .eventPlayerLoggedIn guid => (s.players.get? guid).isSome
  | .eventPlayerLoggedOut guid => s.inWorld guid = true
  | .removePlayerAtLeave guid => s.inWorld guid = true
  | .appear guid => s.players.get? guid = none
  | _ => True

instance (s : Battleground) : (r : Request) → Decidable (s.Allowed r)
  | .addPlayer _ _ => inferInstanceAs (Decidable (_ ∧ _))
  | .eventPlayerLoggedIn _ | .eventPlayerLoggedOut _ | .removePlayerAtLeave _ | .appear _ =>
    inferInstanceAs (Decidable (_ = _))
  | .update _ | .start | .endBattleground | .pass _ => .isTrue trivial

/-- The time at which a guid is due to be removed; zero if it is not. -/
def removeTime (s : Battleground) (guid : Guid) : ℕ :=
  ((s.players.get? guid).map BattlegroundPlayer.offlineRemoveTime).getD 0

/-- The queue lists exactly the members who are offline, once each and in order of their
time. -/
structure QueueExact (s : Battleground) : Prop where
  nodup : s.offlineQueue.Nodup
  mem : ∀ guid, guid ∈ s.offlineQueue ↔
    ∃ p ∈ s.players.rows, p.guid = guid ∧ p.offlineRemoveTime ≠ 0
  sorted : s.offlineQueue.Pairwise fun g h => s.removeTime g ≤ s.removeTime h

/-- The counters count, and the queue of a running match is exact. -/
structure Roster (s : Battleground) : Prop where
  count : ∀ team, s.playersCount team = s.players.rows.countP fun p => p.team = team
  queue : s.status = .inProgress → s.QueueExact

/-- How many stand in front of a guid in the queue. -/
def ahead (s : Battleground) (guid : Guid) : ℕ := s.offlineQueue.idxOf guid

/-- **Nobody is kept because of an entry in front of him.**  From here on, a member whose
time is over and who stays offline is out of the match after as many updates as stood in
front of him, and one more. -/
def Served (s : Battleground) : Prop :=
  ∀ p ∈ s.players.rows, p.offlineRemoveTime ≠ 0 → p.offlineRemoveTime ≤ s.gameTime →
    ∀ rs : List Request, Along step (fun s r => s.Allowed r ∧ s.status = .inProgress ∧
        (s.step r).inWorld p.guid = false) s rs →
      s.ahead p.guid < rs.countP Request.isUpdate → (rs.foldl step s).players.get? p.guid = none

/-- What every step keeps. -/
structure Inv (s : Battleground) : Prop where
  count : ∀ team, s.playersCount team = s.players.rows.countP fun p => p.team = team
  online : ∀ p ∈ s.players.rows, p.offlineRemoveTime ≠ 0 ↔ s.inWorld p.guid = false
  past : ∀ p ∈ s.players.rows, p.offlineRemoveTime ≤ s.gameTime + maxOfflineTime
  queue : s.status ≠ .waitLeave → s.QueueExact

/-! ### The counters -/

theorem countP_lt (t : Table guid) (q : BattlegroundPlayer → Bool) : t.rows.countP q < 2 ^ 32 := by
  have hnodup : (t.rows.map fun p => p.guid.low).Nodup := by
    have hdistinct : (t.rows.map guid).Nodup := t.distinct
    have hlow : Function.Injective Guid.low := by
      rintro ⟨a, _, _⟩ ⟨b, _, _⟩ rfl
      rfl
    have := hdistinct.map hlow
    rwa [List.map_map] at this
  have hsub : (t.rows.map fun p => p.guid.low) ⊆ (List.range (2 ^ 32)).erase 0 := by
    intro n hn
    obtain ⟨p, -, rfl⟩ := mem_map.mp hn
    exact (mem_erase_of_ne (Nat.pos_iff_ne_zero.mp p.guid.pos)).mpr (mem_range.mpr p.guid.lt)
  have hlen : t.rows.length ≤ 2 ^ 32 - 1 := by
    have := (subperm_of_subset hnodup hsub).length_le
    rwa [length_map, length_erase_of_mem (mem_range.mpr (by decide)),
      length_range] at this
  have := countP_le_length (p := q) (l := t.rows)
  omega

theorem playersCount_updatePlayersCountByTeam (team : Team) (remove : Bool) (t : Team) :
    (s.updatePlayersCountByTeam team remove).playersCount t = if t = team then
        (if remove then (s.playersCount team + (2 ^ 32 - 1)) % 2 ^ 32
          else (s.playersCount team + 1) % 2 ^ 32) else s.playersCount t := by
  simp only [updatePlayersCountByTeam, update_apply]

theorem count_add (hcount : ∀ team, s.playersCount team = s.players.rows.countP fun p => p.team = team)
    {guid : Guid} (hnone : s.players.get? guid = none) (team t : Team) :
    (s.addPlayer guid team).playersCount t =
      (s.addPlayer guid team).players.rows.countP fun p => p.team = t := by
  have hput := countP_put (a := (⟨guid, 0, team⟩ : BattlegroundPlayer)) hnone
    fun p => decide (p.team = t)
  have hlt := countP_lt (s.players.put ⟨guid, 0, team⟩) fun p => decide (p.team = t)
  unfold addPlayer
  rw [playersCount_updatePlayersCountByTeam]
  show _ = (s.players.put ⟨guid, 0, team⟩).rows.countP fun p => p.team = t
  by_cases ht : t = team
  · subst ht
    simp only [decide_true, if_true] at hput
    simp only [if_true, Bool.false_eq_true, if_false, hcount]
    omega
  simp only [decide_eq_false (Ne.symm ht), Bool.false_eq_true, if_false, Nat.zero_add] at hput
  rw [if_neg ht, hput]
  exact hcount t

theorem count_remove
    (hcount : ∀ team, s.playersCount team = s.players.rows.countP fun p => p.team = team)
    (guid : Guid) (t : Team) : (s.removePlayerAtLeave guid).playersCount t =
      (s.removePlayerAtLeave guid).players.rows.countP fun p => p.team = t := by
  unfold removePlayerAtLeave
  cases hget : s.players.get? guid with
  | none => exact hcount t
  | some p =>
    have herase := countP_erase hget fun p => decide (p.team = t)
    have hlt := countP_lt s.players fun p => decide (p.team = t)
    show (s.updatePlayersCountByTeam p.team true).playersCount t =
      (s.players.erase guid).rows.countP fun p => p.team = t
    rw [playersCount_updatePlayersCountByTeam]
    by_cases ht : t = p.team
    · subst ht
      simp only [decide_true, if_true] at herase
      simp only [if_true, hcount]
      omega
    simp only [decide_eq_false (Ne.symm ht), Bool.false_eq_true, if_false, Nat.zero_add] at herase
    rw [if_neg ht, hcount]
    exact herase

/-! ### The queue -/

theorem removeTime_ne_zero {guid : Guid} : s.removeTime guid ≠ 0 ↔
    ∃ p ∈ s.players.rows, p.guid = guid ∧ p.offlineRemoveTime ≠ 0 := by
  unfold removeTime
  constructor
  · intro h
    cases hget : s.players.get? guid with
    | none => simp [hget] at h
    | some p =>
      obtain ⟨hp, hguid⟩ := get?_eq_some.mp hget
      exact ⟨p, hp, hguid, by simpa [hget] using h⟩
  rintro ⟨p, hp, rfl, ht⟩
  simpa [get?_key hp] using ht

theorem queueExact_iff : s.QueueExact ↔ Exact s.offlineQueue s.removeTime := by
  constructor
  · intro h
    exact ⟨h.nodup, fun g => (h.mem g).trans removeTime_ne_zero.symm, h.sorted⟩
  intro h
  exact ⟨h.nodup, fun g => (h.mem g).trans removeTime_ne_zero, h.sorted⟩

variable {p : BattlegroundPlayer}

theorem removeTime_of_mem (hp : p ∈ s.players.rows) :
    s.removeTime p.guid = p.offlineRemoveTime := by
  simp [removeTime, get?_key hp]

theorem removeTime_of_none {guid : Guid} (h : s.players.get? guid = none) :
    s.removeTime guid = 0 := by
  simp [removeTime, h]

theorem removeTime_addPlayer {guid : Guid} (h : s.players.get? guid = none) (team : Team) :
    (s.addPlayer guid team).removeTime = s.removeTime := by
  funext g
  show (((s.players.put ⟨guid, 0, team⟩).get? g).map offlineRemoveTime).getD 0 = _
  rw [get?_put]
  split_ifs with hg
  · rw [hg]
    exact (removeTime_of_none h).symm
  · rfl

theorem get?_setOfflineRemoveTime (players : Table guid) (guid : Guid) (t : ℕ)
    (g : Guid) : (setOfflineRemoveTime players guid t).get? g =
      if g = guid then (players.get? g).map fun p => { p with offlineRemoveTime := t }
      else players.get? g :=
  get?_modify _ _ g

theorem mem_setOfflineRemoveTime {players : Table guid} {guid : Guid} {t : ℕ}
    (hp : p ∈ (setOfflineRemoveTime players guid t).rows) :
    (p ∈ players.rows ∧ p.guid ≠ guid) ∨ (p.guid = guid ∧ p.offlineRemoveTime = t) := by
  refine ((mem_rows_modify _).mp hp).imp_right ?_
  rintro ⟨a, -, ha, rfl⟩
  exact ⟨ha, rfl⟩

theorem countP_setOfflineRemoveTime (players : Table guid) (guid : Guid) (t : ℕ)
    (q : Guid → Team → Bool) :
    ((setOfflineRemoveTime players guid t).rows.countP fun p => q p.guid p.team) =
      players.rows.countP fun p => q p.guid p.team := by
  exact countP_modify_of_eq _ fun _ => rfl

theorem removeTime_modify {guid : Guid}
    (h : s.players.get? guid = some p) (t : ℕ) {s' : Battleground}
    (hs' : s'.players = setOfflineRemoveTime s.players guid t) :
    s'.removeTime = Function.update s.removeTime guid t := by
  funext g
  unfold removeTime
  rw [hs', get?_setOfflineRemoveTime]
  by_cases hg : g = guid
  · subst hg
    rw [if_pos rfl, update_self, h]
    rfl
  · rw [if_neg hg, update_of_ne hg]

theorem removeTime_removePlayerAtLeave (guid : Guid) :
    (s.removePlayerAtLeave guid).removeTime = Function.update s.removeTime guid 0 := by
  funext g
  unfold removePlayerAtLeave
  cases hget : s.players.get? guid with
  | none =>
    by_cases hg : g = guid
    · subst hg
      rw [update_self]
      exact removeTime_of_none hget
    · rw [update_of_ne hg]
  | some p =>
    show (((s.players.erase guid).get? g).map offlineRemoveTime).getD 0 = _
    rw [get?_erase]
    by_cases hg : g = guid
    · subst hg
      rw [if_pos rfl, update_self]
      rfl
    rw [if_neg hg, update_of_ne hg]
    rfl

/-! ### One request -/

theorem players_removePlayerAtLeave (guid : Guid) :
    (s.removePlayerAtLeave guid).players = s.players.erase guid := by
  unfold removePlayerAtLeave
  cases hget : s.players.get? guid with
  | none => exact eq_of_rows (erase_of_get?_none hget).symm
  | some p => rfl

theorem same_removePlayerAtLeave (guid : Guid) : (s.removePlayerAtLeave guid).status = s.status ∧
      (s.removePlayerAtLeave guid).offlineQueue = s.offlineQueue ∧
        (s.removePlayerAtLeave guid).gameTime = s.gameTime ∧
          (s.removePlayerAtLeave guid).inWorld = s.inWorld := by
  unfold removePlayerAtLeave
  split <;> exact ⟨rfl, rfl, rfl, rfl⟩

theorem Inv.fresh (gameTime : ℕ) (inWorld : Guid → Bool) :
    (Battleground.fresh gameTime inWorld).Inv where
  count _ := rfl
  online := by simp [Battleground.fresh, empty]
  past := by simp [Battleground.fresh, empty]
  queue _ := ⟨nodup_nil, by simp [Battleground.fresh, empty], Pairwise.nil⟩

theorem Inv.addPlayer (h : s.Inv) {guid : Guid} (hin : s.inWorld guid = true)
    (hnone : s.players.get? guid = none) (team : Team) : (s.addPlayer guid team).Inv := by
  have hrows : ∀ p ∈ (s.addPlayer guid team).players.rows,
      p = ⟨guid, 0, team⟩ ∨ p ∈ s.players.rows := fun p hp =>
    (mem_rows_put.mp hp).imp_right And.left
  refine ⟨fun t => count_add h.count hnone team t, fun p hp => ?_, fun p hp => ?_, fun hstatus => ?_⟩
  · rcases hrows p hp with rfl | hp
    · simp [Battleground.addPlayer, updatePlayersCountByTeam, hin]
    · exact h.online p hp
  · rcases hrows p hp with rfl | hp
    · exact Nat.zero_le _
    · exact h.past p hp
  refine queueExact_iff.mpr ?_
  rw [removeTime_addPlayer hnone]
  exact queueExact_iff.mp (h.queue hstatus)

theorem Inv.eventPlayerLoggedIn (h : s.Inv) {guid : Guid} (hsome : (s.players.get? guid).isSome) :
    (s.eventPlayerLoggedIn guid).Inv := by
  obtain ⟨p0, hget⟩ := isSome_iff_exists.mp hsome
  refine ⟨fun t => ?_, fun p hp => ?_, fun p hp => ?_, fun hstatus => ?_⟩
  · exact (h.count t).trans (countP_setOfflineRemoveTime _ _ _ fun _ team => team = t).symm
  · show _ ↔ Function.update s.inWorld guid true p.guid = false
    rcases mem_setOfflineRemoveTime hp with ⟨hp, hne⟩ | ⟨hguid, hzero⟩
    · rw [Function.update_of_ne hne]
      exact h.online p hp
    rw [hguid, update_self]
    simp [hzero]
  · rcases mem_setOfflineRemoveTime hp with ⟨hp, -⟩ | ⟨-, hzero⟩
    · exact h.past p hp
    rw [hzero]
    exact Nat.zero_le _
  refine queueExact_iff.mpr ?_
  rw [removeTime_modify hget 0 rfl]
  exact (queueExact_iff.mp (h.queue hstatus)).erase guid

theorem eventPlayerLoggedOut_of_none {guid : Guid} (h : s.players.get? guid = none) :
    s.eventPlayerLoggedOut guid = { s with inWorld := Function.update s.inWorld guid false } := by
  simp [eventPlayerLoggedOut, queueOffline, vanish, h]

theorem eventPlayerLoggedOut_of_some {guid : Guid}
    (h : s.players.get? guid = some p) : s.eventPlayerLoggedOut guid = { s with
      offlineQueue := s.offlineQueue ++ [guid]
      players := setOfflineRemoveTime s.players guid (s.gameTime + maxOfflineTime)
      inWorld := Function.update s.inWorld guid false } := by
  simp [eventPlayerLoggedOut, queueOffline, vanish, h]

theorem Inv.eventPlayerLoggedOut (h : s.Inv) {guid : Guid} (hin : s.inWorld guid = true) :
    (s.eventPlayerLoggedOut guid).Inv := by
  cases hget : s.players.get? guid with
  | none =>
    rw [eventPlayerLoggedOut_of_none hget]
    refine ⟨h.count, fun p hp => ?_, h.past, fun hstatus => ?_⟩
    · show _ ↔ Function.update s.inWorld guid false p.guid = false
      rw [Function.update_of_ne (Table.get?_eq_none.mp hget p hp)]
      exact h.online p hp
    have hq := h.queue hstatus
    exact { hq with }
  | some p0 =>
    rw [eventPlayerLoggedOut_of_some hget]
    obtain ⟨hp0, hguid0⟩ := get?_eq_some.mp hget
    -- he was online until now, so nothing was due for him
    have hzero : s.removeTime guid = 0 := by
      rw [← hguid0, removeTime_of_mem hp0]
      have := h.online p0 hp0
      rw [hguid0, hin] at this
      simpa using this
    have hlast : ∀ g, s.removeTime g ≤ s.gameTime + maxOfflineTime := by
      intro g
      by_cases hg : s.removeTime g = 0
      · rw [hg]
        exact Nat.zero_le _
      obtain ⟨p, hp, rfl, -⟩ := removeTime_ne_zero.mp hg
      rw [removeTime_of_mem hp]
      exact h.past p hp
    have hpos : s.gameTime + maxOfflineTime ≠ 0 := by simp [maxOfflineTime]
    refine ⟨fun t => ?_, fun p hp => ?_, fun p hp => ?_, fun hstatus => ?_⟩
    · exact (h.count t).trans (countP_setOfflineRemoveTime _ _ _ fun _ team => team = t).symm
    · show _ ↔ Function.update s.inWorld guid false p.guid = false
      rcases mem_setOfflineRemoveTime hp with ⟨hp, hne⟩ | ⟨hguid, htime⟩
      · rw [Function.update_of_ne hne]
        exact h.online p hp
      rw [hguid, update_self, htime]
      exact iff_of_true hpos rfl
    · rcases mem_setOfflineRemoveTime hp with ⟨hp, -⟩ | ⟨-, htime⟩
      · exact h.past p hp
      · exact Nat.le_of_eq htime
    refine queueExact_iff.mpr ?_
    rw [removeTime_modify hget (s.gameTime + maxOfflineTime) rfl]
    exact (queueExact_iff.mp (h.queue hstatus)).push hzero hpos hlast

theorem Inv.remove (h : s.Inv) (guid : Guid) (queue : List Guid)
    (hqueue : s.status ≠ .waitLeave → Exact queue (Function.update s.removeTime guid 0)) :
    Inv { s.removePlayerAtLeave guid with offlineQueue := queue } := by
  obtain ⟨hstatus, -, htime, hworld⟩ := same_removePlayerAtLeave (s := s) guid
  have hrows : ∀ p ∈ (s.removePlayerAtLeave guid).players.rows, p ∈ s.players.rows := by
    intro p hp
    rw [players_removePlayerAtLeave] at hp
    exact (mem_rows_erase.mp hp).1
  refine ⟨count_remove h.count guid, fun p hp => ?_, fun p hp => ?_, fun hs => ?_⟩
  · show _ ↔ (s.removePlayerAtLeave guid).inWorld p.guid = false
    rw [hworld]
    exact h.online p (hrows p hp)
  · show _ ≤ (s.removePlayerAtLeave guid).gameTime + maxOfflineTime
    rw [htime]
    exact h.past p (hrows p hp)
  refine queueExact_iff.mpr ?_
  show Exact queue (s.removePlayerAtLeave guid).removeTime
  rw [removeTime_removePlayerAtLeave]
  exact hqueue (hstatus ▸ hs)

theorem Inv.removePlayerAtLeave (h : s.Inv) {guid : Guid} (hin : s.inWorld guid = true) :
    (s.removePlayerAtLeave guid).Inv := by
  have hzero : Function.update s.removeTime guid 0 = s.removeTime := by
    rw [Function.update_eq_self_iff]
    by_contra hne
    obtain ⟨p, hp, rfl, ht⟩ := removeTime_ne_zero.mp (Ne.symm hne)
    exact absurd ((h.online p hp).mp ht) (by simp [hin])
  have := h.remove guid s.offlineQueue fun hs => by
    rw [hzero]
    exact queueExact_iff.mp (h.queue hs)
  rwa [← (same_removePlayerAtLeave guid).2.1] at this

theorem QueueExact.head_mem (h : s.QueueExact) {guid : Guid} {queue : List Guid}
    (hq : s.offlineQueue = guid :: queue) :
    ∃ p, s.players.get? guid = some p ∧ p.offlineRemoveTime ≠ 0 := by
  obtain ⟨p, hp, hguid, ht⟩ := (h.mem guid).mp (hq ▸ mem_cons_self)
  exact ⟨p, get?_eq_some.mpr ⟨hp, hguid⟩, ht⟩

theorem Inv.processOfflineQueue (h : s.Inv) : s.processOfflineQueue.Inv := by
  unfold Battleground.processOfflineQueue
  split
  · exact h
  rename_i guid queue hq
  split
  · split_ifs
    · refine h.remove guid queue fun hs => ?_
      have := queueExact_iff.mp (h.queue hs)
      rw [hq] at this
      exact this.tail
    · exact h
  · exact h

theorem Inv.foldl_remove (h : s.Inv) (hstatus : s.status = .waitLeave) (guids : List Guid) :
    (guids.foldl Battleground.removePlayerAtLeave s).Inv ∧
      (guids.foldl Battleground.removePlayerAtLeave s).status = .waitLeave := by
  induction guids generalizing s with
  | nil => exact ⟨h, hstatus⟩
  | cons guid guids ih =>
    have hs : (s.removePlayerAtLeave guid).status = .waitLeave :=
      (same_removePlayerAtLeave guid).1.trans hstatus
    have hinv := h.remove guid s.offlineQueue fun hne => absurd hstatus hne
    rw [← (same_removePlayerAtLeave guid).2.1] at hinv
    exact ih hinv hs

theorem Inv.processLeave (h : s.Inv) (hstatus : s.status = .waitLeave) (diff : ℕ) :
    (s.processLeave diff).Inv := by
  have hclose : (s.countDown diff).Inv :=
    { h with queue := fun hne => absurd hstatus hne }
  unfold Battleground.processLeave
  simp only
  split_ifs
  · exact (hclose.foldl_remove hstatus _).1
  · exact hclose

variable {r : Request}

/-- **One request.** -/
theorem Inv.step (h : s.Inv) (hr : s.Allowed r) : (s.step r).Inv := by
  cases r with
  | addPlayer guid team => exact h.addPlayer hr.1 hr.2 team
  | eventPlayerLoggedIn guid => exact h.eventPlayerLoggedIn hr
  | eventPlayerLoggedOut guid => exact h.eventPlayerLoggedOut hr
  | removePlayerAtLeave guid => exact h.removePlayerAtLeave hr
  | update diff =>
    show (s.update diff).Inv
    unfold update
    split_ifs
    · exact h
    cases hstatus : s.status with
    | waitJoin => exact h
    | inProgress => exact h.processOfflineQueue
    | waitLeave => exact h.processLeave hstatus diff
  | start =>
    show Inv (if _ then _ else _)
    split_ifs with hs
    · have hq := h.queue (by simp [hs])
      exact { h with queue := fun _ => ⟨hq.nodup, hq.mem, hq.sorted⟩ }
    · exact h
  | endBattleground => exact { h with queue := fun hne => absurd rfl hne }
  | pass seconds =>
    refine ⟨h.count, h.online, fun p hp => (h.past p hp).trans ?_, fun hs => ?_⟩
    · show s.gameTime + maxOfflineTime ≤ s.gameTime + seconds + maxOfflineTime
      omega
    have hq := h.queue hs
    exact { hq with }
  | appear guid =>
    refine ⟨h.count, fun p hp => ?_, h.past, fun hs => ?_⟩
    · show _ ↔ Function.update s.inWorld guid true p.guid = false
      rw [Function.update_of_ne (Table.get?_eq_none.mp hr p hp)]
      exact h.online p hp
    have hq := h.queue hs
    exact { hq with }

theorem Inv.roster (h : s.Inv) : s.Roster :=
  ⟨h.count, fun hs => h.queue (by simp [hs])⟩

/-! ### Nobody is held up -/

theorem QueueExact.update_due (h : s.QueueExact) (hprog : s.status = .inProgress) {guid : Guid}
    (hget : s.players.get? guid = some p)
    (ht : p.offlineRemoveTime ≠ 0) (hdue : p.offlineRemoveTime ≤ s.gameTime) (diff : ℕ) :
    ∃ head queue, s.offlineQueue = head :: queue ∧
      s.update diff = { s.removePlayerAtLeave head with offlineQueue := queue } := by
  obtain ⟨hp, hguid⟩ := get?_eq_some.mp hget
  have hmem : guid ∈ s.offlineQueue := (h.mem guid).mpr ⟨p, hp, hguid, ht⟩
  obtain ⟨head, queue, hq⟩ := exists_cons_of_ne_nil (ne_nil_of_mem hmem)
  obtain ⟨p1, hget1, -⟩ := h.head_mem hq
  have hexact := queueExact_iff.mp h
  rw [hq] at hexact
  have htime : s.removeTime guid = p.offlineRemoveTime := by simp [removeTime, hget]
  have htime1 : s.removeTime head = p1.offlineRemoveTime := by simp [removeTime, hget1]
  have hfirst : p1.offlineRemoveTime ≤ s.gameTime := by
    have := (hexact.head (j := guid) (by rw [htime]; exact ht)).2
    rw [htime, htime1] at this
    exact this.trans hdue
  refine ⟨head, queue, hq, ?_⟩
  have hne : s.players.rows ≠ [] := ne_nil_of_mem hp
  unfold update
  rw [if_neg hne, hprog]
  simp only [processOfflineQueue, hq, hget1, if_pos hfirst]

/-- One request while a member whose time is over stays offline: he goes, or he stays and
nobody comes in front of him, and an update brings him forward. -/
theorem Inv.step_due (h : s.Inv) (hprog : s.status = .inProgress)
    (hr : s.Allowed r) {guid : Guid} (hout : (s.step r).inWorld guid = false)
    (hget : s.players.get? guid = some p)
    (ht : p.offlineRemoveTime ≠ 0) (hdue : p.offlineRemoveTime ≤ s.gameTime) :
    (s.step r).players.get? guid = none ∨
      (s.step r).players.get? guid = some p ∧ p.offlineRemoveTime ≤ (s.step r).gameTime ∧
        (s.step r).ahead guid + (if r.isUpdate then 1 else 0) ≤ s.ahead guid := by
  have hqueue := h.queue (by simp [hprog])
  obtain ⟨hp, hguid⟩ := get?_eq_some.mp hget
  have hoff : s.inWorld guid = false := hguid ▸ (h.online p hp).mp ht
  have hmem : guid ∈ s.offlineQueue := (hqueue.mem guid).mpr ⟨p, hp, hguid, ht⟩
  cases r with
  | addPlayer g team =>
    have hne : guid ≠ g := by
      rintro rfl
      rw [hr.2] at hget
      cases hget
    refine .inr ⟨?_, hdue, Nat.le_refl _⟩
    show (s.players.put ⟨g, 0, team⟩).get? guid = some p
    rw [get?_put, if_neg hne, hget]
  | eventPlayerLoggedIn g =>
    have hne : guid ≠ g := by
      rintro rfl
      have hin : Function.update s.inWorld guid true guid = false := hout
      rw [Function.update_self] at hin
      cases hin
    refine .inr ⟨?_, hdue, idxOf_erase_le hne⟩
    show (setOfflineRemoveTime s.players g 0).get? guid = some p
    rw [get?_setOfflineRemoveTime, if_neg hne, hget]
  | eventPlayerLoggedOut g =>
    have hin : s.inWorld g = true := hr
    have hne : guid ≠ g := by
      rintro rfl
      exact absurd hin (by simp [hoff])
    refine .inr ?_
    show (s.eventPlayerLoggedOut g).players.get? guid = some p ∧
      _ ≤ (s.eventPlayerLoggedOut g).gameTime ∧ (s.eventPlayerLoggedOut g).ahead guid + 0 ≤ _
    cases hg : s.players.get? g with
    | none =>
      rw [eventPlayerLoggedOut_of_none hg]
      exact ⟨hget, hdue, Nat.le_refl _⟩
    | some p' =>
      rw [eventPlayerLoggedOut_of_some hg]
      refine ⟨?_, hdue, Nat.le_of_eq (idxOf_append_of_mem hmem)⟩
      show (setOfflineRemoveTime s.players g _).get? guid = some p
      rw [get?_setOfflineRemoveTime, if_neg hne, hget]
  | removePlayerAtLeave g =>
    have hin : s.inWorld g = true := hr
    have hne : guid ≠ g := by
      rintro rfl
      exact absurd hin (by simp [hoff])
    obtain ⟨-, hq, htime, -⟩ := same_removePlayerAtLeave (s := s) g
    refine .inr ⟨?_, ?_, ?_⟩
    · show (s.removePlayerAtLeave g).players.get? guid = some p
      rw [players_removePlayerAtLeave, get?_erase, if_neg hne, hget]
    · show _ ≤ (s.removePlayerAtLeave g).gameTime
      rwa [htime]
    show (s.removePlayerAtLeave g).offlineQueue.idxOf guid + 0 ≤ _
    rw [hq]
    exact Nat.le_refl _
  | update diff =>
    obtain ⟨head, queue, hq, heq⟩ := hqueue.update_due hprog hget ht hdue diff
    obtain ⟨-, -, htime, -⟩ := same_removePlayerAtLeave (s := s) head
    have hplayers : (s.update diff).players = s.players.erase head := by
      rw [heq]
      exact players_removePlayerAtLeave head
    show (s.update diff).players.get? guid = none ∨ (s.update diff).players.get? guid = some p ∧
      _ ≤ (s.update diff).gameTime ∧ (s.update diff).ahead guid + 1 ≤ s.ahead guid
    rw [hplayers, get?_erase]
    by_cases hhead : guid = head
    · exact .inl (if_pos hhead)
    refine .inr ⟨(if_neg hhead).trans hget, ?_, ?_⟩
    · rw [heq]
      exact hdue.trans_eq htime.symm
    rw [heq]
    show queue.idxOf guid + 1 ≤ s.offlineQueue.idxOf guid
    rw [hq, idxOf_cons_ne _ (Ne.symm hhead)]
  | start =>
    have hsame : s.step .start = s := if_neg (by simp [hprog])
    rw [hsame]
    exact .inr ⟨hget, hdue, Nat.le_refl _⟩
  | endBattleground | appear g => exact .inr ⟨hget, hdue, Nat.le_refl _⟩
  | pass seconds => exact .inr ⟨hget, hdue.trans (Nat.le_add_right _ _), Nat.le_refl _⟩

theorem step_none (hprog : s.status = .inProgress) (hr : s.Allowed r) {guid : Guid}
    (hout : (s.step r).inWorld guid = false) (hget : s.players.get? guid = none) :
    (s.step r).players.get? guid = none := by
  have hremove : ∀ g, (s.removePlayerAtLeave g).players.get? guid = none := by
    intro g
    rw [players_removePlayerAtLeave, get?_erase]
    split_ifs
    · rfl
    · exact hget
  have hmodify : ∀ g t, (setOfflineRemoveTime s.players g t).get? guid = none := by
    intro g t
    rw [get?_setOfflineRemoveTime, hget]
    split_ifs <;> rfl
  cases r with
  | addPlayer g team =>
    have hne : guid ≠ g := by
      rintro rfl
      have hin : s.inWorld guid = false := hout
      exact absurd hr.1 (by simp [hin])
    show (s.players.put ⟨g, 0, team⟩).get? guid = none
    rw [get?_put, if_neg hne, hget]
  | eventPlayerLoggedIn g => exact hmodify g _
  | eventPlayerLoggedOut g =>
    show (s.eventPlayerLoggedOut g).players.get? guid = none
    cases hg : s.players.get? g with
    | none =>
      rw [eventPlayerLoggedOut_of_none hg]
      exact hget
    | some p =>
      rw [eventPlayerLoggedOut_of_some hg]
      exact hmodify g _
  | removePlayerAtLeave g => exact hremove g
  | update diff =>
    show (s.update diff).players.get? guid = none
    unfold update processOfflineQueue
    rw [hprog]
    split_ifs
    · exact hget
    dsimp only
    split
    · exact hget
    split
    · split_ifs
      · exact hremove _
      · exact hget
    · exact hget
  | start =>
    have hsame : s.step .start = s := if_neg (by simp [hprog])
    rw [hsame]
    exact hget
  | endBattleground | pass seconds | appear g => exact hget

/-- **Who stays offline is served**: by induction on the run, with the number of those in
front of him as the measure. -/
theorem Inv.served (h : s.Inv) : s.Served := by
  intro p hp ht hdue rs hrun hcount
  have hget := get?_key hp
  have hout : ∀ (rs : List Request) (s : Battleground), s.players.get? p.guid = none →
      Along Battleground.step (fun s r => s.Allowed r ∧ s.status = .inProgress ∧
        (s.step r).inWorld p.guid = false) s rs →
      (rs.foldl Battleground.step s).players.get? p.guid = none := by
    intro rs
    induction rs with
    | nil => exact fun _ hnone _ => hnone
    | cons r rs ih =>
      rintro s hnone ⟨⟨hr, hprog, hin⟩, hrest⟩
      exact ih _ (step_none hprog hr hin hnone) hrest
  clear hp
  induction rs generalizing s with
  | nil => exact absurd hcount (Nat.not_lt_zero _)
  | cons r rs ih =>
    obtain ⟨⟨hr, hprog, hin⟩, hrest⟩ := hrun
    rcases h.step_due hprog hr hin hget ht hdue with hnone | ⟨hget', hdue', hahead⟩
    · exact hout rs _ hnone hrest
    refine ih (h.step hr) hdue' hrest ?_ hget'
    rw [countP_cons] at hcount
    omega

/-- **The roster of a battleground.**  Along every allowed run the counters of the teams
are the numbers of their members, the offline queue of a running match lists exactly the
members who are offline, once each and in order of their time, and nobody who stays
offline is kept in because of an entry in front of him. -/
theorem roster_kept (gameTime : ℕ) (inWorld : Guid → Bool) (rs : List Request)
    (h : Along step Allowed (fresh gameTime inWorld) rs) :
    Along step (fun s r => (s.step r).Roster ∧ (s.step r).Served) (fresh gameTime inWorld) rs :=
  Along.of_invariant (I := Inv) (fun _ _ hI hr => hI.step hr)
    (fun _ _ hI hr => ⟨(hI.step hr).roster, (hI.step hr).served⟩) (Inv.fresh gameTime inWorld) h

/-- Two players come and log out one after the other; the first comes back, the second is
removed when his time is over, and at the end the first is. -/
def someRequests : List Request :=
  [.addPlayer ⟨1, by decide, by decide⟩ .alliance, .addPlayer ⟨2, by decide, by decide⟩ .horde,
    .start, .eventPlayerLoggedOut ⟨1, by decide, by decide⟩, .pass 5,
    .eventPlayerLoggedOut ⟨2, by decide, by decide⟩,
    .eventPlayerLoggedIn ⟨1, by decide, by decide⟩, .pass 400, .update 100, .endBattleground,
    .update 120000]

theorem roster_kept_some : Along step Allowed (fresh 1000 fun _ => true) someRequests ∧
      Along step (fun s r => (s.step r).Roster ∧ (s.step r).Served) (fresh 1000 fun _ => true)
        someRequests :=
  have h : Along step Allowed (fresh 1000 fun _ => true) someRequests := by decide +kernel
  ⟨h, roster_kept 1000 (fun _ => true) someRequests h⟩

end ZerosCore.Battlegrounds.Battleground
