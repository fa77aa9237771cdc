/-
# Updates of Eye of the Storm

An update of `BattlegroundEY.cpp` keeps its players in the lists, but two things go wrong.

* Only what the alliance is ahead at a point is bounded by
  `BG_EY_POINT_MAX_CAPTURERS_COUNT`; with six of the horde ahead the bar falls by six.
* A tick adds the points of one team after those of the other, and the match that the
  first has ended can be ended again.

`Quiet` is the condition that a request meets neither, nor logs in a player who is in no
list.
-/

import ZerosCore.Battlegrounds.StormPoints

namespace ZerosCore.Battlegrounds.EyeOfTheStorm

open Lib List Option State Notice

/-- How often a player is in the five lists. -/
def occurrences (s : State) (guid : Guid) : ℕ :=
  ((List.range (pointsMax + 1)).map fun i => (s.playersNearPoint i).count guid).sum

/-- Each participant that is online is in exactly one list. -/
def NearRight (s : State) : Prop :=
  s.status = .inProgress → ∀ guid, s.players guid = some .online → occurrences s guid = 1

/-- The moves of the bars are right, and the match has ended at most once. -/
def NoticesRight (s : State) : Prop :=
  (∀ e ∈ s.notices, e.Right) ∧ s.notices.countP Notice.isEnded ≤ 1

/-! ### When it is right -/

def TickDue (s : State) (diff : ℕ) : Prop := (s.pointAddingTimer - diff).bmod (2 ^ 32) ≤ 0

def CheckDue (s : State) (diff : ℕ) : Prop := (s.towerCapCheckTimer - diff).bmod (2 ^ 32) ≤ 0

/-- A tick takes a team to the maximum. -/
def Reaches (s : State) (team : Team) : Prop :=
  0 < s.teamPointsCount team ∧
    maxTeamScore ≤ s.teamScores team + tickPoints (s.teamPointsCount team - 1)

/-- The players of a team that a check counts at a point: those in its list, and those out
of all points who are near no earlier point, as far as they are near it. -/
def countedAt (s : State) (v : View) (point : ℕ) (team : Team) : ℕ :=
  (((s.playersNearPoint point ++ (s.playersNearPoint playersOutOfPoints).filter fun guid =>
    (List.range point).all fun p => !v.at p guid).filter (v.at point)).countP fun guid =>
      decide (s.team guid = team)) % 2 ^ 8

/-- A request that meets none of the three defects. -/
def Quiet (s : State) : Request → Prop
  | .logIn guid => s.status = .inProgress → s.players guid = some .offline → occurrences s guid = 1
  | .postUpdate diff v => s.status = .inProgress →
      ¬(TickDue s diff ∧ Reaches s .alliance ∧ Reaches s .horde) ∧
      (CheckDue s diff → ∀ p < pointsMax,
        (countedAt s v p .horde : ℤ) ≤ countedAt s v p .alliance + pointMaxCapturersCount ∨
          s.pointBarStatus p ≤ pointMaxCapturersCount)
  | _ => True

variable {s t u : State} {guid g : Guid} {team : Team} {p i : ℕ}

/-! ### The lists -/

variable {v : View} {k : ℕ}

/-- A state that differs from another in its lists and counts only. -/
def Moved (s t : State) : Prop :=
  ∃ near counts, t = { s with
    playersNearPoint := near
    currentPointPlayersCount := counts }

theorem Moved.trans (h : Moved s t) (h' : Moved t u) : Moved s u := by
  obtain ⟨near, counts, rfl⟩ := h
  obtain ⟨near', counts', rfl⟩ := h'
  exact ⟨near', counts', rfl⟩

variable {f : State → ℕ → State}

theorem moved_foldl (h : ∀ s p, Moved s (f s p)) (l : List ℕ) (s : State) :
    Moved s (l.foldl f s) := by
  induction l generalizing s with
  | nil => exact ⟨_, _, rfl⟩
  | cons a l ih => exact (h s a).trans (ih _)

/-- **Players move between the list of a point and those out of all points.** -/
theorem occurrences_move {l l' : List Guid} (hp : p < pointsMax)
    (h : ∀ i, t.playersNearPoint i = if i = p then l else if i = playersOutOfPoints then l'
      else s.playersNearPoint i) (hcount : l.count g + l'.count g =
      (s.playersNearPoint p).count g + (s.playersNearPoint playersOutOfPoints).count g) :
    occurrences t g = occurrences s g := by
  have hrange : List.range (pointsMax + 1) = [0, 1, 2, 3, 4] := rfl
  unfold playersOutOfPoints at hcount h
  obtain rfl | rfl | rfl | rfl : p = 0 ∨ p = 1 ∨ p = 2 ∨ p = 3 := by
    unfold pointsMax at hp
    omega
  all_goals
    simp [occurrences, hrange, h]
    omega

theorem occurrences_foldl
    (h : ∀ s, ∀ p < pointsMax, occurrences (f s p) g = occurrences s g) (s : State) :
    occurrences ((List.range pointsMax).foldl f s) g = occurrences s g := by
  refine foldlRecOn (motive := fun t => occurrences t g = occurrences s g) _ f rfl fun t ht p hp => ?_
  exact (h t p (mem_range.mp hp)).trans ht

theorem count_split (l : List Guid) (q : Guid → Bool) (g : Guid) :
    (l.filter q).count g + (l.filter fun a => !q a).count g = l.count g :=
  (countP_eq_countP_filter_add l _ q).symm

theorem near_joinPoint (v : View) (s : State) (hp : p < pointsMax) (i : ℕ) :
    (joinPoint v s p).playersNearPoint i = if i = p then s.playersNearPoint p ++
        (s.playersNearPoint playersOutOfPoints).filter (v.at p) else if i = playersOutOfPoints then
        (s.playersNearPoint playersOutOfPoints).filter fun guid => !v.at p guid
      else s.playersNearPoint i := by
  have hne : p ≠ playersOutOfPoints := by
    unfold pointsMax at hp
    unfold playersOutOfPoints
    omega
  unfold joinPoint setNear
  dsimp only
  by_cases hi : i = p
  · rw [if_neg (hi ▸ hne), if_pos hi, if_pos hi]
  · rw [if_neg hi, if_neg hi]

theorem occurrences_joinPoint (v : View) (s : State) (hp : p < pointsMax) (g : Guid) :
    occurrences (joinPoint v s p) g = occurrences s g := by
  refine occurrences_move hp (near_joinPoint v s hp) ?_
  rw [count_append, Nat.add_assoc, count_split]

theorem near_joined (v : View) (s : State) (hk : k ≤ pointsMax) (i : ℕ) :
    ((List.range k).foldl (joinPoint v) s).playersNearPoint i =
      if i < k then s.playersNearPoint i ++
        ((s.playersNearPoint playersOutOfPoints).filter fun guid =>
          (List.range i).all fun q => !v.at q guid).filter (v.at i)
      else if i = playersOutOfPoints then (s.playersNearPoint playersOutOfPoints).filter fun guid =>
        (List.range k).all fun q => !v.at q guid else s.playersNearPoint i := by
  induction k generalizing i with
  | zero =>
    by_cases hi : i = playersOutOfPoints <;> simp [hi]
  | succ k ih =>
    have hk' : k < pointsMax := hk
    have hne : ¬playersOutOfPoints < k := by
      unfold pointsMax at hk'
      unfold playersOutOfPoints
      omega
    have hfree := ih hk'.le playersOutOfPoints
    rw [if_neg hne, if_pos rfl] at hfree
    rw [range_succ, foldl_append]
    refine (near_joinPoint v _ hk' i).trans ?_
    rw [hfree]
    by_cases hik : i = k
    · subst hik
      have hself := ih hk'.le i
      rw [if_neg (lt_irrefl i), if_neg (by unfold pointsMax at hk'; unfold playersOutOfPoints; omega)]
        at hself
      rw [if_pos rfl, if_pos (Nat.lt_succ_self i), hself]
    rw [if_neg hik]
    by_cases hout : i = playersOutOfPoints
    · subst hout
      rw [if_pos rfl, if_neg (by omega), if_pos rfl, List.filter_filter]
      refine List.filter_congr fun guid _ => ?_
      rw [all_append, Bool.and_comm]
      simp
    rw [if_neg hout, ih hk'.le i, if_neg hout]
    by_cases hlt : i < k
    · rw [if_pos hlt, if_pos (by omega)]
    · rw [if_neg hlt, if_neg hout, if_neg (by omega)]

theorem near_leavePoint (v : View) (s : State) (p i : ℕ) :
    (leavePoint v s p).playersNearPoint i =
      if i = p then (s.playersNearPoint p).filter (v.at p)
      else if i = playersOutOfPoints then s.playersNearPoint playersOutOfPoints ++
        (s.playersNearPoint p).filter fun guid => !v.at p guid
      else s.playersNearPoint i := rfl

theorem occurrences_leavePoint (v : View) (s : State) (hp : p < pointsMax) (g : Guid) :
    occurrences (leavePoint v s p) g = occurrences s g := by
  refine occurrences_move hp (near_leavePoint v s p) ?_
  rw [count_append, Nat.add_left_comm, count_split, Nat.add_comm]

theorem counts_left (v : View) (s : State) (hk : k ≤ pointsMax) :
    (∀ i < k, ((List.range k).foldl (leavePoint v) s).playersNearPoint i =
        (s.playersNearPoint i).filter (v.at i) ∧
      ∀ team, ((List.range k).foldl (leavePoint v) s).currentPointPlayersCount i team =
        (((s.playersNearPoint i).filter (v.at i)).countP fun guid =>
          decide (s.team guid = team)) % 2 ^ 8) ∧ (∀ i, k ≤ i → i < pointsMax →
      ((List.range k).foldl (leavePoint v) s).playersNearPoint i = s.playersNearPoint i) ∧
    ((List.range k).foldl (leavePoint v) s).team = s.team := by
  induction k with
  | zero => exact ⟨fun i hi => absurd hi (Nat.not_lt_zero i), fun _ _ _ => rfl, rfl⟩
  | succ k ih =>
    have hk' : k < pointsMax := hk
    obtain ⟨hdone, hrest, hteam⟩ := ih hk'.le
    rw [range_succ, foldl_append]
    set t := (List.range k).foldl (leavePoint v) s
    have hout (i : ℕ) (hi : i < pointsMax) : i ≠ playersOutOfPoints := by
      unfold pointsMax at hi
      unfold playersOutOfPoints
      omega
    refine ⟨fun i hi => ?_, fun i hi hlt => ?_, hteam⟩
    · by_cases hik : i = k
      · subst hik
        refine ⟨(if_pos rfl).trans ?_, fun team => (if_pos rfl).trans ?_⟩
        · rw [hrest i le_rfl hk']
        rw [hrest i le_rfl hk', ← hteam]
        rfl
      obtain ⟨hnear, hcount⟩ := hdone i (by omega)
      refine ⟨(if_neg hik).trans ((if_neg (hout i (by omega))).trans hnear), fun team => ?_⟩
      exact (if_neg hik).trans (hcount team)
    · exact (if_neg (by omega)).trans ((if_neg (hout i hlt)).trans (hrest i (by omega) hlt))

/-! ### An update -/

/-- The state after the players were moved and counted. -/
def moved (s : State) (v : View) : State := (s.checkSomeoneJoinedPoint v).checkSomeoneLeftPoint v

theorem moved_eq (s : State) (v : View) : Moved s (moved s v) := by
  have hjoin : Moved s (s.checkSomeoneJoinedPoint v) := moved_foldl (fun _ _ => ⟨_, _, rfl⟩) _ s
  have hclear (t : State) : Moved t { t with currentPointPlayersCount := fun _ _ => 0 } :=
    ⟨_, _, rfl⟩
  exact (hjoin.trans (hclear _)).trans (moved_foldl (fun _ _ => ⟨_, _, rfl⟩) _ _)

theorem occurrences_moved (s : State) (v : View) (g : Guid) :
    occurrences (moved s v) g = occurrences s g :=
  (occurrences_foldl (fun s _ hp => occurrences_leavePoint v s hp g)
    { s.checkSomeoneJoinedPoint v with currentPointPlayersCount := fun _ _ => 0 }).trans
    (occurrences_foldl (fun s _ hp => occurrences_joinPoint v s hp g) s)

/-- **What a check counts at a point.** -/
theorem counts_moved (s : State) (v : View) (hp : p < pointsMax) (team : Team) :
    (moved s v).currentPointPlayersCount p team = countedAt s v p team := by
  obtain ⟨near, counts, hjoin⟩ : Moved s (s.checkSomeoneJoinedPoint v) :=
    moved_foldl (fun _ _ => ⟨_, _, rfl⟩) _ s
  have hnear := near_joined v s le_rfl p
  rw [if_pos hp] at hnear
  refine ((counts_left v { s.checkSomeoneJoinedPoint v with
    currentPointPlayersCount := fun _ _ => 0 } le_rfl).1 p hp).2 team |>.trans ?_
  unfold countedAt
  refine congrArg (fun l : List Guid => (l.countP _) % 2 ^ 8) ?_
  refine (congrArg (List.filter (v.at p)) hnear).trans ?_
  rw [List.filter_append, List.filter_append, List.filter_filter]
  simp

/-- The bar of a point and what it makes known. -/
def barMoved (s : State) (p : ℕ) : State :=
  let after := State.nextBar (s.pointBarStatus p) (s.currentPointPlayersCount p .alliance)
    (s.currentPointPlayersCount p .horde)
  { s with pointBarStatus := fun q => if q = p then after else s.pointBarStatus q }.note
    (.bar p (s.pointBarStatus p) after)

theorem checked_barMoved (s : State) (p : ℕ) : Checked s (barMoved s p) := by
  refine ⟨rfl, rfl, rfl, rfl, .inl rfl, ?_, fun h => ⟨h.count, h.control, fun i hi => ?_,
    fun q hq => ?_, h.flag⟩, fun h => ?_⟩
  · unfold barMoved note
    rw [countP_append]
    exact Nat.le_add_right ..
  · obtain hi | hi := mem_append.mp hi
    · exact h.index i hi
    · cases mem_singleton.mp hi
  · unfold barMoved note
    dsimp only
    split
    · exact nextBar_bounds _ _
    · exact h.bar q hq
  unfold EndOk barMoved note at *
  rw [countP_append]
  exact h

/-- A point that is checked: its bar moves, then the players near it are visited. -/
theorem updatePointStatus_eq (hp : p < pointsMax) (v : View) (s : State) :
    (s.playersNearPoint p = [] ∧ updatePointStatus v s p = s) ∨
      (s.playersNearPoint p ≠ [] ∧ Event (barMoved s p) (updatePointStatus v s p)) := by
  by_cases hnil : s.playersNearPoint p = []
  · exact .inl ⟨hnil, if_pos hnil⟩
  refine .inr ⟨hnil, ?_⟩
  have hstep : updatePointStatus v s p = (s.playersNearPoint p).foldl
      (visit v p (pointOwnerTeam (nextBar (s.pointBarStatus p)
        (s.currentPointPlayersCount p .alliance) (s.currentPointPlayersCount p .horde))))
      (barMoved s p) := if_neg hnil
  rw [hstep]
  exact event_foldl (event_visit hp v _) _ _

/-- The bar of a point moves no further than it should. -/
def BarOk (s : State) (p : ℕ) : Prop :=
  s.playersNearPoint p ≠ [] → (s.currentPointPlayersCount p .horde : ℤ) ≤
        s.currentPointPlayersCount p .alliance + pointMaxCapturersCount ∨
      s.pointBarStatus p ≤ pointMaxCapturersCount

/-- **The check of the points before `k`.** -/
theorem checked_updatePointStatuses (v : View) (s : State) (hright : PointsRight s)
    (hk : k ≤ pointsMax) : Checked s ((List.range k).foldl (updatePointStatus v) s) ∧
      (∀ p, k ≤ p → ((List.range k).foldl (updatePointStatus v) s).pointBarStatus p =
        s.pointBarStatus p) ∧
      ((∀ e ∈ ((List.range k).foldl (updatePointStatus v) s).notices, e.Right) ↔
        (∀ e ∈ s.notices, e.Right) ∧ ∀ p < k, BarOk s p) := by
  induction k with
  | zero =>
    exact ⟨.refl s, fun _ _ => rfl, by simp⟩
  | succ k ih =>
    have hk' : k < pointsMax := hk
    obtain ⟨hchecked, hbars, hnotices⟩ := ih hk'.le
    rw [range_succ, foldl_append]
    set t := (List.range k).foldl (updatePointStatus v) s
    have hbar : t.pointBarStatus k = s.pointBarStatus k := hbars k le_rfl
    have hiff : (∀ q < k + 1, BarOk s q) ↔ (∀ q < k, BarOk s q) ∧ BarOk s k :=
      ⟨fun h => ⟨fun q hq => h q (by omega), h k (by omega)⟩, fun h q hq =>
        (Nat.lt_succ_iff_lt_or_eq.mp hq).elim (h.1 q) fun heq => heq ▸ h.2⟩
    have hok : BarOk s k ↔ BarOk t k := by
      unfold BarOk
      rw [hchecked.near, hchecked.counts, hbar]
    have hsum : ((∀ e ∈ s.notices, e.Right) ∧ ∀ q < k + 1, BarOk s q) ↔
        (∀ e ∈ t.notices, e.Right) ∧ BarOk t k := by
      rw [hiff, ← and_assoc, ← hnotices, hok]
    rw [hsum]
    obtain ⟨hnil, hsame⟩ | ⟨hnil, hevent⟩ := updatePointStatus_eq hk' v t
    · have hfold : [k].foldl (updatePointStatus v) t = t := hsame
      rw [hfold]
      exact ⟨hchecked, fun q hq => hbars q (by omega), ⟨fun h => ⟨h, fun hne => absurd hnil hne⟩,
        And.left⟩⟩
    have hfold : [k].foldl (updatePointStatus v) t = updatePointStatus v t k := rfl
    rw [hfold]
    refine ⟨hchecked.trans ((checked_barMoved t k).trans hevent.toChecked), fun q hq => ?_, ?_⟩
    · rw [hevent.bars]
      exact (if_neg (by omega)).trans (hbars q (by omega))
    have hbounds := (hchecked.right hright).bar k hk'
    rw [hevent.forall_right]
    unfold barMoved note
    rw [forall_mem_append, forall_mem_singleton]
    refine and_congr_right fun _ => ?_
    refine (right_bar hbounds.1 hbounds.2 _ _).trans ?_
    unfold BarOk
    simp [hnil]

/-- The part of a check that is not quiet at a point. -/
def CheckOk (s : State) (v : View) (p : ℕ) : Prop :=
  (countedAt s v p .horde : ℤ) ≤ countedAt s v p .alliance + pointMaxCapturersCount ∨
    s.pointBarStatus p ≤ pointMaxCapturersCount

theorem barOk_moved (s : State) (v : View) (hp : p < pointsMax) :
    BarOk (moved s v) p ↔ CheckOk s v p := by
  obtain ⟨near, counts, hmoved⟩ := moved_eq s v
  have hbar : (moved s v).pointBarStatus = s.pointBarStatus := by rw [hmoved]
  have hnear := ((counts_left v { s.checkSomeoneJoinedPoint v with
    currentPointPlayersCount := fun _ _ => 0 } le_rfl).1 p hp)
  unfold BarOk CheckOk
  rw [counts_moved s v hp, counts_moved s v hp, hbar]
  refine ⟨fun h => ?_, fun h _ => h⟩
  by_cases hnil : (moved s v).playersNearPoint p = []
  · have hnone (team : Team) : countedAt s v p team = 0 := by
      rw [← counts_moved s v hp]
      refine (hnear.2 team).trans ?_
      have hempty := hnear.1.symm.trans hnil
      rw [hempty]
      rfl
    rw [hnone, hnone]
    exact .inl (by decide)
  · exact h hnil

/-- What a part of an update leaves: all but the lists, which keep their players. -/
structure Updated (s t : State) : Prop where
  team : t.team = s.team
  players : t.players = s.players
  occurrences : ∀ g, occurrences t g = occurrences s g
  status : t.status = s.status ∨ s.status = .inProgress ∧ t.status = .waitLeave
  right : PointsRight s → PointsRight t

theorem occurrences_congr (h : t.playersNearPoint = s.playersNearPoint) (g : Guid) :
    occurrences t g = occurrences s g := by
  unfold occurrences
  rw [h]

theorem Checked.updated (h : Checked s t) : Updated s t :=
  { h with occurrences := occurrences_congr h.near }

theorem Updated.trans (h : Updated s t) (h' : Updated t u) : Updated s u where
  team := h'.team.trans h.team
  players := h'.players.trans h.players
  occurrences g := (h'.occurrences g).trans (h.occurrences g)
  status := status_trans h.status h'.status
  right hs := h'.right (h.right hs)

/-- **The check of the points.** -/
theorem towerUpdate_spec (s : State) (diff : ℕ) (v : View) (hright : PointsRight s) :
    Updated s (s.towerUpdate diff v) ∧ (EndOk s → EndOk (s.towerUpdate diff v)) ∧
      s.notices.countP isEnded ≤ (s.towerUpdate diff v).notices.countP isEnded ∧
      ((∀ e ∈ (s.towerUpdate diff v).notices, e.Right) ↔
        (∀ e ∈ s.notices, e.Right) ∧ (CheckDue s diff → ∀ p < pointsMax, CheckOk s v p)) := by
  unfold towerUpdate CheckDue
  dsimp only
  split
  · rename_i hdue
    obtain ⟨near, counts, hmoved⟩ := moved_eq s v
    have hmright : PointsRight (moved s v) := by
      rw [hmoved]
      exact { hright with }
    have hnotices : (moved s v).notices = s.notices := by rw [hmoved]
    have hstatus : (moved s v).status = s.status := by rw [hmoved]
    obtain ⟨hchecked, -, hiff⟩ := checked_updatePointStatuses v (moved s v) hmright le_rfl
    have hall : (∀ p < pointsMax, BarOk (moved s v) p) ↔ ∀ p < pointsMax, CheckOk s v p :=
      forall₂_congr fun p hp => barOk_moved s v hp
    rw [hall, hnotices] at hiff
    refine ⟨⟨?_, ?_, fun g => ?_, ?_, fun _ => ?_⟩, fun hends => ?_, ?_, ?_⟩
    · exact hchecked.team.trans (by rw [hmoved])
    · exact hchecked.players.trans (by rw [hmoved])
    · exact (hchecked.updated.occurrences g).trans (occurrences_moved s v g)
    · rw [← hstatus]
      exact hchecked.status
    · have hr := hchecked.right hmright
      exact { hr with }
    · have hm : EndOk (moved s v) := by
        unfold EndOk
        rw [hnotices, hstatus]
        exact hends
      exact hchecked.ends hm
    · exact hnotices ▸ hchecked.ended
    refine hiff.trans (and_congr_right fun _ => ?_)
    exact ⟨fun h _ => h, fun h => h hdue⟩
  rename_i hdue
  refine ⟨⟨rfl, rfl, fun _ => rfl, .inl rfl, fun h => { h with }⟩, id, le_rfl, ?_⟩
  exact ⟨fun h => ⟨h, fun hd => absurd hd hdue⟩, And.left⟩

theorem event_flagUpdate (s : State) (diff : ℕ) : Event s (s.flagUpdate diff) := by
  unfold flagUpdate
  dsimp only
  split
  · rename_i hflag
    have hnot : s.flagState ≠ .onPlayer := by
      rintro heq
      rw [heq] at hflag
      obtain h | h := hflag <;> cases h
    split
    · refine event_change fun h => { h with flag := fun hs => ?_ }
      have hkeeper := (h.flag hs).not.mp hnot
      exact iff_of_false (by simp) hkeeper
    exact event_change fun h => { h with }
  · exact .refl s

theorem checkOk_congr (h : Event s t) (v : View) (p : ℕ) : CheckOk t v p ↔ CheckOk s v p := by
  unfold CheckOk countedAt
  rw [h.near, h.team, h.bars]

theorem checkDue_congr (h : Event s t) (diff : ℕ) : CheckDue t diff ↔ CheckDue s diff := by
  unfold CheckDue
  rw [h.check]

theorem addTablePoints_cases (s : State) (team : Team) :
    (Reaches s team ∧ ∃ t : State, Event s t ∧ t.status = s.status ∧
      t.notices.countP isEnded = s.notices.countP isEnded ∧
      (∀ other ≠ team, t.teamScores other = s.teamScores other) ∧
      t.teamPointsCount = s.teamPointsCount ∧
      s.addTablePoints team tickPoints = t.endBattleground team) ∨
    (¬Reaches s team ∧ Event s (s.addTablePoints team tickPoints) ∧
      (s.addTablePoints team tickPoints).status = s.status ∧
      (∀ other ≠ team, (s.addTablePoints team tickPoints).teamScores other = s.teamScores other) ∧
      (s.addTablePoints team tickPoints).teamPointsCount = s.teamPointsCount ∧
      (s.addTablePoints team tickPoints).notices.countP isEnded = s.notices.countP isEnded) := by
  unfold addTablePoints Reaches
  dsimp only
  by_cases hpos : 0 < s.teamPointsCount team
  · rw [if_pos hpos, addPoints_eq]
    set i := s.teamPointsCount team - 1
    set t := s.note (.tableIndex i) with ht
    have hindex : Event s t := event_tableIndex s team hpos
    have hscore := hindex.trans (event_scorePoints t team (tickPoints i))
    have hcount : (scorePoints t team (tickPoints i)).notices.countP isEnded =
        s.notices.countP isEnded := by
      have htcount : t.notices.countP isEnded = s.notices.countP isEnded := by
        exact countP_append ..
      obtain hsame | hhonor := notices_scorePoints t team (tickPoints i)
      · rw [hsame, htcount]
      rw [hhonor, countP_append, htcount]
      rfl
    by_cases hmax : maxTeamScore ≤ s.teamScores team + tickPoints i
    · refine .inl ⟨⟨hpos, hmax⟩, _, hscore, rfl, hcount, fun _ hne => if_neg hne, rfl, ?_⟩
      exact if_pos hmax
    have hsame : (if maxTeamScore ≤ t.teamScores team + tickPoints i then
        (scorePoints t team (tickPoints i)).endBattleground team
        else scorePoints t team (tickPoints i)) = scorePoints t team (tickPoints i) := if_neg hmax
    rw [hsame]
    exact .inr ⟨fun hand => hmax hand.2, hscore, rfl, fun _ hne => if_neg hne, rfl, hcount⟩
  rw [if_neg hpos]
  exact .inr ⟨fun hand => hpos hand.1, .refl s, rfl, fun _ _ => rfl, rfl, rfl⟩

theorem reaches_congr (hscore : t.teamScores team = s.teamScores team)
    (hcount : t.teamPointsCount = s.teamPointsCount) : Reaches t team ↔ Reaches s team := by
  unfold Reaches
  rw [hscore, hcount]

/-- **The points of a tick** end the match once, or twice if both teams reach the
maximum. -/
theorem pointsUpdate_spec (hs : s.status = .inProgress) (diff : ℕ) :
    Updated s (s.pointsUpdate diff) ∧
      (EndOk s → TickDue s diff ∧ Reaches s .alliance ∧ Reaches s .horde ∧
          1 < (s.pointsUpdate diff).notices.countP isEnded ∨
        ¬(TickDue s diff ∧ Reaches s .alliance ∧ Reaches s .horde) ∧
          Event s (s.pointsUpdate diff)) := by
  unfold pointsUpdate TickDue
  dsimp only
  split
  · rename_i hdue
    set a : State := { s with pointAddingTimer := fpointsTickTime } with ha
    have htimer : Event s a :=
      event_change fun h => { h with }
    have hreach (team : Team) : Reaches a team ↔ Reaches s team := Iff.rfl
    have hzero (hends : EndOk s) : s.notices.countP isEnded = 0 := by
      unfold EndOk at hends
      rw [hs] at hends
      exact Nat.le_zero.mp hends
    rcases addTablePoints_cases a .alliance with
      ⟨halliance, t, ht, htstatus, htcount, htscores, htpoints, heq⟩ |
      ⟨halliance, ht, htstatus, htscores, htpoints, htcount⟩
    · -- the alliance ends the match
      rw [heq]
      have hst := htimer.trans ht
      have htprogress : t.status = .inProgress := htstatus.trans hs
      have hend := hst.trans (event_endBattleground htprogress .alliance)
      have hhorde : Reaches (t.endBattleground .alliance) .horde ↔ Reaches s .horde :=
        reaches_congr (htscores .horde (by simp)) htpoints
      rcases addTablePoints_cases (t.endBattleground .alliance) .horde with
        ⟨hagain, u, hu, -, hucount, -, -, heq'⟩ | ⟨hagain, hu, -⟩
      · rw [heq']
        have husteps := hend.trans hu
        refine ⟨⟨husteps.team, husteps.players, occurrences_congr husteps.near, .inr ⟨hs, rfl⟩,
          fun h => (husteps.right h).endBattleground _⟩,
          fun hends => .inl ⟨hdue, (hreach .alliance).mp halliance, hhorde.mp hagain, ?_⟩⟩
        have hone : (t.endBattleground .alliance).notices.countP isEnded = 1 := by
          unfold endBattleground
          rw [countP_append, htcount]
          exact congrArg (· + 1) (hzero hends)
        unfold endBattleground at hucount hone ⊢
        rw [countP_append, hucount, hone]
        decide
      have husteps := hend.trans hu
      exact ⟨husteps.updated,
        fun _ => .inr ⟨fun hand => hagain (hhorde.mpr hand.2.2), husteps⟩⟩
    have husteps := (htimer.trans ht).trans
      (event_addTablePoints (htstatus.trans hs) .horde tickPoints)
    exact ⟨husteps.updated,
      fun _ => .inr ⟨fun hand => halliance ((hreach .alliance).mpr hand.2.1), husteps⟩⟩
  rename_i hdue
  have htimer : Event s { s with pointAddingTimer := (s.pointAddingTimer - diff).bmod (2 ^ 32) } :=
    event_change fun h => { h with }
  exact ⟨htimer.updated, fun _ => .inr ⟨fun hand => hdue hand.1, htimer⟩⟩

/-- What has been made known so far is right. -/
structure Told (s : State) : Prop where
  right : ∀ e ∈ s.notices, e.Right
  ends : EndOk s

theorem Told.noticesRight (h : Told s) : NoticesRight s := by
  refine ⟨h.right, h.ends.trans ?_⟩
  split <;> decide

/-- **An update keeps the players in the lists**, and what is always right. -/
theorem postUpdateImpl_updated (hs : s.status = .inProgress) (hright : PointsRight s)
    (diff : ℕ) (v : View) : Updated s (s.postUpdateImpl diff v) := by
  unfold postUpdateImpl
  rw [if_pos hs]
  have hflag := (pointsUpdate_spec hs diff).1.trans (event_flagUpdate _ diff).updated
  exact hflag.trans (towerUpdate_spec _ diff v (hflag.right hright)).1

/-- **An update is right exactly if it is quiet.** -/
theorem postUpdateImpl_spec (hs : s.status = .inProgress) (hright : PointsRight s) (h : Told s)
    (diff : ℕ) (v : View) :
    (NoticesRight (s.postUpdateImpl diff v) ↔ Quiet s (.postUpdate diff v)) ∧
      (NoticesRight (s.postUpdateImpl diff v) → Told (s.postUpdateImpl diff v)) := by
  unfold postUpdateImpl
  rw [if_pos hs]
  obtain ⟨hpoints, hcases⟩ := pointsUpdate_spec hs diff
  set a := s.pointsUpdate diff
  have hflag := event_flagUpdate a diff
  set b := a.flagUpdate diff
  obtain ⟨-, htower, hmore, hiff⟩ := towerUpdate_spec b diff v
    (hflag.right (hpoints.right hright))
  have hquiet : Quiet s (.postUpdate diff v) ↔
      ¬(TickDue s diff ∧ Reaches s .alliance ∧ Reaches s .horde) ∧
        (CheckDue s diff → ∀ p < pointsMax, CheckOk s v p) := ⟨fun hq => hq hs, fun hq _ => hq⟩
  rw [hquiet]
  obtain ⟨hdue, halliance, hhorde, htwice⟩ | ⟨hnot, ha⟩ := hcases h.ends
  · have hbad : ¬NoticesRight (b.towerUpdate diff v) := fun hright' =>
      absurd (htwice.trans_le (hflag.ended.trans (hmore.trans hright'.2))) (lt_irrefl 1)
    exact ⟨iff_of_false hbad fun hand => hand.1 ⟨hdue, halliance, hhorde⟩,
      fun hright' => absurd hright' hbad⟩
  have hb := ha.trans hflag
  have hchecks : (∀ p < pointsMax, CheckOk b v p) ↔ ∀ p < pointsMax, CheckOk s v p :=
    forall₂_congr fun p _ => checkOk_congr hb v p
  rw [checkDue_congr hb, hb.forall_right, hchecks] at hiff
  have hok := htower (hb.ends h.ends)
  have hone : (b.towerUpdate diff v).notices.countP isEnded ≤ 1 := by
    refine hok.trans ?_
    split <;> decide
  refine ⟨?_, fun hright' => ⟨hright'.1, hok⟩⟩
  exact ⟨fun hright' => ⟨hnot, (hiff.mp hright'.1).2⟩, fun hq =>
    ⟨hiff.mpr ⟨h.right, hq.2⟩, hone⟩⟩

end ZerosCore.Battlegrounds.EyeOfTheStorm
