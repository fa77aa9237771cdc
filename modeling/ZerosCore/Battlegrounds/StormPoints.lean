/-
# Points, flag and bars of Eye of the Storm

Whatever the players do, `BattlegroundEY.cpp` counts the points of a team right, uses the
tables of points within their range, keeps the progress bars between their ends, and says
that the flag is carried exactly while somebody carries it.
-/

import ZerosCore.Battlegrounds.EyeOfTheStorm

namespace ZerosCore.Battlegrounds.EyeOfTheStorm

open Lib List Option State Notice

/-! ### What a match should keep -/

def controlled (owner : ℕ → Option Team) (team : Team) : ℕ :=
  (List.range pointsMax).countP fun p => decide (owner p = some team)

/-- The points of the teams are counted, the tables are read within their range, the bars
are between their ends, and the flag is carried exactly if it has a keeper. -/
structure PointsRight (s : State) : Prop where
  count : ∀ team, s.teamPointsCount team = controlled s.pointOwnedByTeam team
  control : ∀ p, s.underControl p = true ↔ s.pointOwnedByTeam p ≠ none
  index : ∀ i, Notice.tableIndex i ∈ s.notices → i < pointsMax
  bar : ∀ p < pointsMax, progressBarHordeControlled ≤ s.pointBarStatus p ∧
    s.pointBarStatus p ≤ progressBarAliControlled
  flag : s.status = .inProgress → (s.flagState = .onPlayer ↔ s.flagKeeper ≠ none)

def Notice.isEnded : Notice → Bool
  | .ended _ => true
  | _ => false

/-- A check moves a bar by no more than the players that are counted at most. -/
def Notice.Right : Notice → Prop
  | .bar _ before after =>
    before ≤ after + pointMaxCapturersCount ∧ after ≤ before + pointMaxCapturersCount
  | _ => True

/-! ### Scores, flags and points -/

variable {s t u : State} {guid g : Guid} {team : Team} {p i : ℕ}

/-- The match has ended at most once, and only if it is over. -/
def EndOk (s : State) : Prop :=
  s.notices.countP Notice.isEnded ≤ if s.status = .waitLeave then 1 else 0

/-- What an update leaves as it is while it serves scores, flags and points: the players,
their lists, what is always right, and a match that has ended only once. -/
structure Checked (s t : State) : Prop where
  team : t.team = s.team
  players : t.players = s.players
  near : t.playersNearPoint = s.playersNearPoint
  counts : t.currentPointPlayersCount = s.currentPointPlayersCount
  status : t.status = s.status ∨ s.status = .inProgress ∧ t.status = .waitLeave
  ended : s.notices.countP Notice.isEnded ≤ t.notices.countP Notice.isEnded
  right : PointsRight s → PointsRight t
  ends : EndOk s → EndOk t

theorem Checked.refl (s : State) : Checked s s :=
  ⟨rfl, rfl, rfl, rfl, .inl rfl, le_rfl, id, id⟩

theorem status_trans {a b c : Status} (h : b = a ∨ a = .inProgress ∧ b = .waitLeave)
    (h' : c = b ∨ b = .inProgress ∧ c = .waitLeave) : c = a ∨ a = .inProgress ∧ c = .waitLeave := by
  obtain rfl | ⟨ha, rfl⟩ := h
  · exact h'
  obtain rfl | ⟨hb, -⟩ := h'
  · exact .inr ⟨ha, rfl⟩
  · cases hb

theorem Checked.trans (h : Checked s t) (h' : Checked t u) : Checked s u where
  team := h'.team.trans h.team
  players := h'.players.trans h.players
  near := h'.near.trans h.near
  counts := h'.counts.trans h.counts
  status := status_trans h.status h'.status
  ended := h.ended.trans h'.ended
  right hs := h'.right (h.right hs)
  ends hs := h'.ends (h.ends hs)

/-- An event of a match: it leaves the bars alone too, and what it makes known is right. -/
structure Event (s t : State) : Prop extends Checked s t where
  bars : t.pointBarStatus = s.pointBarStatus
  check : t.towerCapCheckTimer = s.towerCapCheckTimer
  notices : s.notices ⊆ t.notices ∧ ∀ e ∈ t.notices, e ∈ s.notices ∨ e.Right

theorem Event.refl (s : State) : Event s s :=
  ⟨.refl s, rfl, rfl, fun _ h => h, fun _ h => .inl h⟩

theorem Event.trans (h : Event s t) (h' : Event t u) : Event s u :=
  ⟨h.toChecked.trans h'.toChecked, h'.bars.trans h.bars, h'.check.trans h.check,
    fun _ he => h'.notices.1 (h.notices.1 he), fun e he =>
    (h'.notices.2 e he).elim (h.notices.2 e) .inr⟩

theorem Event.forall_right (h : Event s t) :
    (∀ e ∈ t.notices, e.Right) ↔ ∀ e ∈ s.notices, e.Right :=
  ⟨fun hall e he => hall e (h.notices.1 he), fun hall e he => (h.notices.2 e he).elim (hall e) id⟩

/-- A change of the points, the scores, the flag and their timers. -/
theorem event_change {owner : ℕ → Option Team} {control : ℕ → Bool} {counts scores tics : Team → ℕ}
    {state : FlagState} {keeper : Option Guid} {flags adding : ℤ}
    (hright : PointsRight s → PointsRight { s with
      pointOwnedByTeam := owner, underControl := control, teamPointsCount := counts,
      teamScores := scores, honorScoreTics := tics, flagState := state, flagKeeper := keeper,
      flagsTimer := flags, pointAddingTimer := adding }) : Event s { s with
    pointOwnedByTeam := owner, underControl := control, teamPointsCount := counts,
    teamScores := scores, honorScoreTics := tics, flagState := state, flagKeeper := keeper,
    flagsTimer := flags, pointAddingTimer := adding } :=
  ⟨⟨rfl, rfl, rfl, rfl, .inl rfl, le_rfl, hright, id⟩, rfl, rfl, fun _ h => h, fun _ h => .inl h⟩

theorem event_foldl {α : Type*} {f : State → α → State} (h : ∀ s a, Event s (f s a)) (l : List α)
    (s : State) : Event s (l.foldl f s) := by
  induction l generalizing s with
  | nil => exact .refl s
  | cons a l ih => exact (h s a).trans (ih _)

variable {e : Notice}

theorem notices_append (h : e.Right) (l : List Notice) :
    l ⊆ l ++ [e] ∧ ∀ e' ∈ l ++ [e], e' ∈ l ∨ e'.Right := by
  refine ⟨subset_append_left .., fun e' he => ?_⟩
  obtain he | he := mem_append.mp he
  · exact .inl he
  · exact .inr (mem_singleton.mp he ▸ h)

theorem event_note (s : State) (hright : e.Right) (hended : e.isEnded = false)
    (hindex : PointsRight s → ∀ i, tableIndex i = e → i < pointsMax) : Event s (s.note e) := by
  have hcount : (s.note e).notices.countP isEnded = s.notices.countP isEnded := by
    unfold note
    simp [countP_append, hended]
  refine ⟨⟨rfl, rfl, rfl, rfl, .inl rfl, hcount.ge, fun h => { h with index := fun i hi => ?_ },
    fun h => hcount.trans_le h⟩, rfl, rfl, notices_append hright _⟩
  exact (mem_append.mp hi).elim (h.index i) fun he => hindex h i (mem_singleton.mp he)

/-- The honor and the points of `AddPoints`, before the end is looked at. -/
def scorePoints (s : State) (team : Team) (points : ℕ) : State :=
  { s with
    teamScores := fun t => if t = team then s.teamScores team + points else s.teamScores t
    honorScoreTics := fun t =>
      if t = team then
        if s.honorTics ≤ s.honorScoreTics team + points then
          s.honorScoreTics team + points - s.honorTics
        else s.honorScoreTics team + points
      else s.honorScoreTics t
    notices := if s.honorTics ≤ s.honorScoreTics team + points then s.notices ++ [.honor team]
      else s.notices }

theorem addPoints_eq (s : State) (team : Team) (points : ℕ) : s.addPoints team points =
    if maxTeamScore ≤ s.teamScores team + points then
      (scorePoints s team points).endBattleground team else scorePoints s team points := by
  have hscore : (scorePoints s team points).teamScores team = s.teamScores team + points :=
    if_pos rfl
  rw [← hscore]
  rfl

theorem notices_scorePoints (s : State) (team : Team) (points : ℕ) :
    (scorePoints s team points).notices = s.notices ∨
      (scorePoints s team points).notices = s.notices ++ [.honor team] := by
  unfold scorePoints
  dsimp only
  split
  · exact .inr rfl
  · exact .inl rfl

theorem event_scorePoints (s : State) (team : Team) (points : ℕ) :
    Event s (scorePoints s team points) := by
  have hscore (t : State) : Event t { t with
      teamScores := (scorePoints s team points).teamScores
      honorScoreTics := (scorePoints s team points).honorScoreTics } :=
    event_change fun h => { h with }
  have hhonor : Event s (s.note (.honor team)) := event_note s trivial rfl fun _ _ => nofun
  have heq {l : List Notice} (h : (scorePoints s team points).notices = l) :
      scorePoints s team points = { s with
        teamScores := (scorePoints s team points).teamScores
        honorScoreTics := (scorePoints s team points).honorScoreTics
        notices := l } := by rw [← h]; rfl
  obtain h | h := notices_scorePoints s team points
  · rw [heq h]
    exact hscore s
  rw [heq h]
  exact hhonor.trans (hscore (s.note (.honor team)))

theorem PointsRight.endBattleground (h : PointsRight s) (team : Team) :
    PointsRight (s.endBattleground team) := by
  refine ⟨h.count, h.control, fun i hi => ?_, h.bar, nofun⟩
  obtain hi | hi := mem_append.mp hi
  · exact h.index i hi
  · cases mem_singleton.mp hi

theorem event_endBattleground (hs : s.status = .inProgress) (team : Team) :
    Event s (s.endBattleground team) := by
  refine ⟨⟨rfl, rfl, rfl, rfl, .inr ⟨hs, rfl⟩, (countP_append ..).symm ▸ Nat.le_add_right ..,
    fun h => h.endBattleground team, fun h => ?_⟩, rfl, rfl,
    notices_append (e := .ended team) trivial _⟩
  unfold EndOk endBattleground at *
  rw [hs] at h
  have hzero : s.notices.countP isEnded = 0 := Nat.le_zero.mp h
  rw [countP_append, hzero]
  exact le_rfl

theorem event_addPoints (hs : s.status = .inProgress) (team : Team) (points : ℕ) :
    Event s (s.addPoints team points) := by
  rw [addPoints_eq]
  have hscore := event_scorePoints s team points
  split
  · exact hscore.trans (event_endBattleground (s := scorePoints s team points) hs team)
  · exact hscore

theorem controlled_le (owner : ℕ → Option Team) (team : Team) :
    controlled owner team ≤ pointsMax := by
  have h := countP_le_length (l := List.range pointsMax)
    (p := fun p => decide (owner p = some team))
  rwa [length_range] at h

/-- **The tables of points are read within their range.** -/
theorem event_tableIndex (s : State) (team : Team) (h : 0 < s.teamPointsCount team) :
    Event s (s.note (.tableIndex (s.teamPointsCount team - 1))) := by
  refine event_note s trivial rfl fun hr i hi => ?_
  obtain rfl := tableIndex.inj hi
  have hle := controlled_le s.pointOwnedByTeam team
  rw [← hr.count] at hle
  omega

theorem event_addTablePoints (hs : s.status = .inProgress) (team : Team) (table : ℕ → ℕ) :
    Event s (s.addTablePoints team table) := by
  unfold addTablePoints
  dsimp only
  split
  · rename_i hpos
    exact (event_tableIndex s team hpos).trans
      (event_addPoints (s := s.note (.tableIndex _)) hs team _)
  · exact .refl s

theorem event_captured (s : State) (guid : Guid) : Event s (s.eventPlayerCapturedFlag guid) := by
  unfold eventPlayerCapturedFlag
  split
  · exact .refl s
  rename_i hnot
  rw [not_or, not_not] at hnot
  obtain ⟨hs, -⟩ := hnot
  set t : State := { s.setFlagPicker none with
    flagState := .waitRespawn
    flagsTimer := flagRespawnTime }
  have htake : Event s t := by
    refine event_change fun h => { h with flag := fun _ => ?_ }
    exact iff_of_false (by simp) (by simp [setFlagPicker])
  exact htake.trans (event_addTablePoints (s := t) hs _ _)

theorem controlled_update (owner : ℕ → Option Team) (hp : p < pointsMax) (new : Option Team)
    (team : Team) : controlled (fun q => if q = p then new else owner q) team +
        (if owner p = some team then 1 else 0) =
      controlled owner team + if new = some team then 1 else 0 := by
  have hrange : List.range pointsMax = [0, 1, 2, 3] := rfl
  obtain rfl | rfl | rfl | rfl : p = 0 ∨ p = 1 ∨ p = 2 ∨ p = 3 := by
    unfold pointsMax at hp
    omega
  all_goals
    simp [controlled, hrange, countP_cons]
    omega

theorem control_update (h : PointsRight s) (p : ℕ) (new : Option Team) (q : ℕ) :
    (if q = p then new.isSome else s.underControl q) = true ↔
      (if q = p then new else s.pointOwnedByTeam q) ≠ none := by
  by_cases hq : q = p
  · rw [if_pos hq, if_pos hq]
    exact isSome_iff_ne_none
  rw [if_neg hq, if_neg hq]
  exact h.control q

theorem count_update (h : PointsRight s) (hp : p < pointsMax) {new : Option Team} {x : ℕ}
    (hx : x + (if s.pointOwnedByTeam p = some team then 1 else 0) =
      s.teamPointsCount team + if new = some team then 1 else 0)
    (hother : ∀ t ≠ team, s.pointOwnedByTeam p ≠ some t ∧ new ≠ some t) (t : Team) :
    (if t = team then x else s.teamPointsCount t) =
      controlled (fun q => if q = p then new else s.pointOwnedByTeam q) t := by
  have hsum := controlled_update s.pointOwnedByTeam hp new t
  have hcount := h.count t
  by_cases ht : t = team
  · subst ht
    rw [if_pos rfl]
    omega
  obtain ⟨hold, hnew⟩ := hother t ht
  rw [if_neg hold, if_neg hnew] at hsum
  rw [if_neg ht, hcount]
  exact hsum.symm

/-- **A point that nobody owned goes to a team.** -/
theorem event_eventTeamCapturedPoint (hp : p < pointsMax) (hcontrol : s.underControl p = false)
    (team : Team) : Event s (s.eventTeamCapturedPoint team p) := by
  unfold eventTeamCapturedPoint
  split
  · exact .refl s
  refine event_change fun h =>
    ⟨fun t => ?_, control_update h p (some team), h.index, h.bar, h.flag⟩
  have hnone : s.pointOwnedByTeam p = none := by
    by_contra hne
    rw [(h.control p).mpr hne] at hcontrol
    cases hcontrol
  have hle := controlled_le s.pointOwnedByTeam team
  rw [← h.count, pointsMax] at hle
  refine count_update h hp ?_ (fun q hq => ?_) t
  · rw [hnone, if_neg (by simp), if_pos rfl]
    omega
  rw [hnone]
  exact ⟨by simp, fun heq => hq (some.inj heq).symm⟩

/-- **A point is lost by the team that owned it.** -/
theorem event_eventTeamLostPoint (hp : p < pointsMax) (s : State) :
    Event s (s.eventTeamLostPoint p) := by
  unfold eventTeamLostPoint
  split
  · exact .refl s
  cases howner : s.pointOwnedByTeam p with
  | none => exact .refl s
  | some team =>
    refine event_change fun h => ⟨fun t => ?_, control_update h p none, h.index, h.bar, h.flag⟩
    have hsum := controlled_update s.pointOwnedByTeam hp none team
    have hle := controlled_le s.pointOwnedByTeam team
    rw [howner, if_pos rfl, if_neg (by simp), ← h.count] at hsum
    rw [← h.count, pointsMax] at hle
    refine count_update h hp ?_ (fun q hq => ?_) t
    · rw [howner, if_pos rfl, if_neg (by simp)]
      omega
    rw [howner]
    exact ⟨fun heq => hq (some.inj heq).symm, by simp⟩

/-- **A player near a point** takes it, loses it or delivers the flag. -/
theorem event_visit (hp : p < pointsMax) (v : View) (owner : Option Team) (s : State)
    (guid : Guid) : Event s (visit v p owner s guid) := by
  unfold visit
  split
  · dsimp only
    set t : State := if s.underControl p = false ∧ owner = some (s.team guid) then
      s.eventTeamCapturedPoint (s.team guid) p else s with ht
    have hcapture : Event s t := by
      rw [ht]
      split
      · rename_i hcontrol
        exact event_eventTeamCapturedPoint hp hcontrol.1 _
      · exact .refl s
    have hlose : Event t (if t.underControl p = true ∧ t.pointOwnedByTeam p ≠ some (s.team guid)
        then t.eventTeamLostPoint p else t) := by
      split
      · exact event_eventTeamLostPoint hp t
      · exact .refl t
    have hflag (c : Prop) [Decidable c] (u : State) :
        Event u (if c then u.eventPlayerCapturedFlag guid else u) := by
      split
      · exact event_captured u guid
      · exact .refl u
    refine Event.trans ?_ (hflag _ _)
    split
    · exact hcapture.trans hlose
    · exact .refl s
  · exact .refl s

/-! ### Progress bars -/

variable {bar : ℤ}

theorem nextBar_bounds (a h : ℕ) :
    progressBarHordeControlled ≤ nextBar bar a h ∧ nextBar bar a h ≤ progressBarAliControlled := by
  unfold nextBar progressBarHordeControlled progressBarAliControlled
  dsimp only
  split <;> split <;> split <;> omega

/-- **A bar moves too far** exactly if the horde is too many ahead at a bar that is not
near its end. -/
theorem right_bar (hlow : progressBarHordeControlled ≤ bar)
    (hhigh : bar ≤ progressBarAliControlled) (a h : ℕ) :
    (Notice.bar p bar (nextBar bar a h)).Right ↔
      (h : ℤ) ≤ a + pointMaxCapturersCount ∨ bar ≤ pointMaxCapturersCount := by
  unfold Notice.Right nextBar
  unfold progressBarHordeControlled progressBarAliControlled pointMaxCapturersCount at *
  dsimp only
  split <;> split <;> split <;> omega

end ZerosCore.Battlegrounds.EyeOfTheStorm
